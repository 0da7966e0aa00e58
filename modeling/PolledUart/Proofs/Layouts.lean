import PolledUart.Proofs.BlocksAgree
import PolledUart.Proofs.RunMirroring

/-!
# Register layouts

The driver names registers and the bench block decodes offsets, in a fixed order and with
one order for reads and one for writes. If a layout keeps apart the registers that are read,
and the ones whose writing has an effect from all that are written, then decoding finds the
register that was named, even where a register that is read and one that is written share an
offset. So nothing depends on the layout but the addresses of the accesses.

* `Bench.readAt_offset`, `Bench.writeAt_offset` — decoding finds the register.
* `Bench.mirrors_relocated` — the bench block under two layouts.
* `layouts_agree` — whole sessions.
-/

namespace PolledUart

open Program

namespace Sim.Bench

/-! ### Decoding -/

/-- Reads a readable register by its name. -/
def look (b : Bench) : Register → UInt32 × Bench
  | .sr => b.readStatus
  | .isr => b.readInterruptStatus
  | .rxfs => (b.receiveState, b)
  | _ => b.readData

/-- Writes a register by its name. -/
def put (b : Bench) (q : Register) (value : UInt32) : Bench :=
  match q with
  | .tf => b.takeWord ⟨value⟩
  | .cr => b.obey value
  | q => b.store (b.map.offset q) value

variable {b : Bench} {q : Register}

theorem readAt_offset (hm : TellsApart b.map) (hq : q ∈ Register.readable) :
    b.readAt (b.map.offset q) = b.look q := by
  have hmatch : ∀ r ∈ Register.readable, (b.map.offset q = b.map.offset r ↔ q = r) := by
    intro r hr
    constructor
    · intro heq
      exact Classical.byContradiction fun hne => hm.reads r hr q hq hne heq
    · rintro rfl
      rfl
  have hsr : b.map.offset q = b.map.sr ↔ q = .sr := hmatch .sr (by decide)
  have hisr : b.map.offset q = b.map.isr ↔ q = .isr := hmatch .isr (by decide)
  have hrxfs : b.map.offset q = b.map.rxfs ↔ q = .rxfs := hmatch .rxfs (by decide)
  have hrf : b.map.offset q = b.map.rf ↔ q = .rf := hmatch .rf (by decide)
  simp only [readAt, hsr, hisr, hrxfs, hrf]
  simp only [Register.readable, List.mem_cons, List.not_mem_nil, or_false] at hq
  rcases hq with rfl | rfl | rfl | rfl <;> rfl

theorem writeAt_offset (hm : TellsApart b.map) (hq : q ∈ Register.written) (v : UInt32) :
    b.writeAt (b.map.offset q) v = b.put q v := by
  have hne : ∀ r ∈ [Register.tf, .cr, .noCharsForTx], q ≠ r → b.map.offset q ≠ b.map.offset r :=
    fun r hr hqr => hm.writes r hr q hq hqr
  unfold writeAt put
  split
  · rename_i htf
    obtain rfl : q = .tf := Classical.byContradiction fun h => hne .tf (by decide) h htf
    rfl
  · rename_i htf
    split
    · rename_i hcr
      obtain rfl : q = .cr := Classical.byContradiction fun h => hne .cr (by decide) h hcr
      rfl
    · rename_i hcr
      split
      · exact absurd rfl htf
      · exact absurd rfl hcr
      · rfl

/-- The driver reads the register that it means. -/
theorem Serves.read_eq_look {block : Block} (hd : b.Serves block) (hm : TellsApart block.map)
    (hq : q ∈ Register.readable) :
    b.read (block.location q) =
      ((b.look q).1, { (b.look q).2 with logged := (b.look q).2.logged + 1 }) := by
  rw [hd.read_location hm, readAt_offset (hd.2 ▸ hm) hq]

/-- The driver writes the register that it means. -/
theorem Serves.write_eq_put {block : Block} (hd : b.Serves block) (hm : TellsApart block.map)
    (hq : q ∈ Register.written) (v : UInt32) :
    b.write (block.location q) v = put { b with logged := b.logged + 1 } q v := by
  rw [hd.write_location hm]
  exact writeAt_offset (b := { b with logged := b.logged + 1 }) (hd.2 ▸ hm) hq v

/-! ### The same block under another layout -/

/-- The block with another layout and other values in its plain registers. -/
def under (b : Bench) (m : RegisterMap) (plain : List (UInt64 × UInt32)) : Bench :=
  { b with map := m, plainBack := plain }

section Under

variable {m : RegisterMap} {plain : List (UInt64 × UInt32)}

theorem look_under (hq : q ∈ Register.readable) :
    (b.under m plain).look q = ((b.look q).1, (b.look q).2.under m plain) := by
  simp only [Register.readable, List.mem_cons, List.not_mem_nil, or_false] at hq
  rcases hq with rfl | rfl | rfl | rfl
  · have hbusy : (b.under m plain).srBusyPolls = b.srBusyPolls := rfl
    simp only [look, readStatus, hbusy]
    split <;> rfl
  · have htakes : (b.under m plain).takesWords = b.takesWords := rfl
    have hbusy : (b.under m plain).txBusyPolls = b.txBusyPolls := rfl
    simp only [look, readInterruptStatus, htakes, hbusy]
    split
    · split <;> rfl
    · rfl
  · rfl
  · have hstale : (b.under m plain).stale = b.stale := rfl
    have hrx : (b.under m plain).rx = b.rx := rfl
    simp only [look, readData, hstale, hrx]
    split
    · rfl
    · split <;> rfl

theorem takeWord_under (w : FifoWord) :
    (b.under m plain).takeWord w = (b.takeWord w).under m plain := by
  have htransfers : (b.under m plain).transfersBack = b.transfersBack := rfl
  simp only [takeWord, htransfers]
  split <;> rfl

theorem obey_under (code : UInt32) :
    (b.under m plain).obey code = (b.obey code).under m plain := by
  unfold obey
  dsimp only
  repeat' split
  all_goals rfl

/-- Both open a transfer with a count, and keep the value of any other register. -/
theorem store_under (hm : TellsApart b.map) (hm' : TellsApart m) (hq : q ∈ Register.written)
    (v : UInt32) : ∃ plain', (b.under m plain).store (m.offset q) v =
      (b.store (b.map.offset q) v).under m plain' := by
  have hcount : ∀ {l : RegisterMap}, TellsApart l →
      (l.offset q = l.noCharsForTx ↔ q = .noCharsForTx) := by
    intro l hl
    constructor
    · intro h
      exact Classical.byContradiction fun hne => hl.writes .noCharsForTx (by decide) q hq hne h
    · rintro rfl
      rfl
  have hmap : (b.under m plain).map = m := rfl
  simp only [store, hmap, hcount hm, hcount hm']
  split <;> exact ⟨_, rfl⟩

theorem put_under (hm : TellsApart b.map) (hm' : TellsApart m) (hq : q ∈ Register.written)
    (v : UInt32) : ∃ plain', (b.under m plain).put q v = (b.put q v).under m plain' := by
  unfold put
  split
  · exact ⟨plain, takeWord_under _⟩
  · exact ⟨plain, obey_under _⟩
  · exact store_under hm hm' hq v

theorem control_under (k : Control) :
    control k (b.under m plain) = (control k b).map fun b' => b'.under m plain := by
  cases k with
  | stallAfter words =>
    have hwrites : (b.under m plain).dataWrites = b.dataWrites := rfl
    simp only [control, hwrites]
    split <;> rfl
  | _ => rfl

end Under

/-! ### Corresponding accesses -/

/-- Two blocks that differ in their layouts and in what their plain registers hold. -/
structure Relaid (base : Address) (m m' : RegisterMap) (x y : Bench) : Prop where
  base : x.base = base
  map : x.map = m
  same : ∃ plain, y = x.under m' plain

end Sim.Bench

open Sim

/-- Accesses to the same register of a block under two layouts. Writes that miss the window of the
block, and whatever is no access, are the same. -/
inductive Request.Relocated (base : Address) (m m' : RegisterMap) : Request → Request → Prop where
  /-- A register is read. -/
  | read {q : Register} : q ∈ Register.readable →
      Relocated base m m' (.read (base + m.offset q)) (.read (base + m'.offset q))
  /-- A register is written. -/
  | write {q : Register} {v : UInt32} : q ∈ Register.written →
      Relocated base m m' (.act (.write (base + m.offset q) v))
        (.act (.write (base + m'.offset q) v))
  /-- A write that misses the block. -/
  | outside {a : Address} {v : UInt32} : Bench.window ≤ a - base →
      Relocated base m m' (.act (.write a v)) (.act (.write a v))
  /-- No access. -/
  | aside {c : Action} : (∀ a v, c ≠ .write a v) → Relocated base m m' (.act c) (.act c)

section Layouts

variable {base : Address} {m m' : RegisterMap}

theorem Request.sameKind_relocated : Hardware.SameKind (Request.Relocated base m m') := by
  intro c c' h
  cases h with
  | write _ => exact .inl ⟨_, _, _, _, rfl, rfl⟩
  | outside _ => exact .inl ⟨_, _, _, _, rfl, rfl⟩
  | aside hc => exact .inr ⟨hc, rfl⟩

/-- The two layouts of a block that lies within the address space correspond. -/
theorem Block.twin_relocated (hm : Bench.TellsApart m) (hm' : Bench.TellsApart m')
    (hbase : base.toNat + 0x200 ≤ 0x10000000000000000) :
    Block.Twin (Request.Relocated base m m') ⟨base, m⟩ ⟨base, m'⟩ where
  far := by
    have hnear : ∀ {l : RegisterMap}, Bench.TellsApart l → ∀ q,
        ¬ (⟨base, l⟩ : Block).address? q = none := by
      intro l hl q hnone
      have hfar := Address.plus?_eq_none_iff.1 hnone
      have hin : (l.offset q).toNat < 0x200 := UInt64.lt_iff_toNat_lt.1 (hl.inside q)
      dsimp only at hfar
      omega
    exact fun q => iff_of_false (hnear hm q) (hnear hm' q)
  look := fun _ hq => .read hq
  write := fun _ hq _ => .write hq
  aside := fun _ hc => .aside hc

namespace Sim.Bench

variable {x y : Bench}

/-- A register that is read answers alike. -/
theorem Relaid.read (hm : TellsApart m) (hm' : TellsApart m') (h : Relaid base m m' x y)
    {q : Register} (hq : q ∈ Register.readable) :
    (bus.read (base + m.offset q) x).Mirrors (Relaid base m m') Eq
      (bus.read (base + m'.offset q) y) := by
  obtain ⟨rfl, rfl, plain, rfl⟩ := h
  have hx : x.Serves ⟨x.base, x.map⟩ := ⟨rfl, rfl⟩
  have hy : (x.under m' plain).Serves ⟨x.base, m'⟩ := ⟨rfl, rfl⟩
  have hread : x.read (x.base + x.map.offset q) =
      ((x.look q).1, { (x.look q).2 with logged := (x.look q).2.logged + 1 }) :=
    hx.read_eq_look hm hq
  have hread' : (x.under m' plain).read (x.base + m'.offset q) =
      ((x.look q).1,
        Bench.under { (x.look q).2 with logged := (x.look q).2.logged + 1 } m' plain) := by
    have hlook := hy.read_eq_look hm' hq
    rw [look_under hq] at hlook
    exact hlook
  obtain ⟨hbase, hmap⟩ := hx.read (x.base + x.map.offset q)
  rw [hread] at hbase hmap
  simp only [bus, hread, hread']
  exact .ok rfl ⟨hbase, hmap, plain, rfl⟩

/-- A register that is written takes the same effect. -/
theorem Relaid.write (hm : TellsApart m) (hm' : TellsApart m') (h : Relaid base m m' x y)
    {q : Register} (hq : q ∈ Register.written) (v : UInt32) :
    (bus.write (base + m.offset q) v x).Mirrors (Relaid base m m') Eq
      (bus.write (base + m'.offset q) v y) := by
  obtain ⟨rfl, rfl, plain, rfl⟩ := h
  have hx : x.Serves ⟨x.base, x.map⟩ := ⟨rfl, rfl⟩
  have hy : (x.under m' plain).Serves ⟨x.base, m'⟩ := ⟨rfl, rfl⟩
  have hwrite : x.write (x.base + x.map.offset q) v = put { x with logged := x.logged + 1 } q v :=
    hx.write_eq_put hm hq v
  have hwrite' : (x.under m' plain).write (x.base + m'.offset q) v =
      put (Bench.under { x with logged := x.logged + 1 } m' plain) q v :=
    hy.write_eq_put hm' hq v
  have hput : ∃ plain', put (Bench.under { x with logged := x.logged + 1 } m' plain) q v =
      (put { x with logged := x.logged + 1 } q v).under m' plain' :=
    put_under (b := { x with logged := x.logged + 1 }) hm hm' hq v
  obtain ⟨hbase, hmap⟩ := hx.write (x.base + x.map.offset q) v
  obtain ⟨plain', hput⟩ := hput
  exact .ok rfl ⟨hbase, hmap, plain', by rw [hwrite', hput, hwrite]⟩

/-- **The bench block under two layouts** that keep its registers apart. -/
theorem mirrors_relocated (hm : TellsApart m) (hm' : TellsApart m') :
    hardware.Mirrors (Request.Relocated base m m') (Relaid base m m') hardware where
  bus := by
    constructor
    · intro a a' x y hq h
      cases hq with
      | read hq => exact h.read hm hm' hq
    · intro c c' x y hq h
      cases hq with
      | write hq => exact h.write hm hm' hq _
      | @outside a v hmiss =>
        obtain ⟨rfl, rfl, plain, rfl⟩ := h
        have hfar : ¬ a - x.base < window := UInt64.not_lt.2 hmiss
        have hwrite : x.write a v = { x with outsideBack := (a, v) :: x.outsideBack } := if_neg hfar
        have hwrite' : (x.under m' plain).write a v = (x.write a v).under m' plain := by
          rw [hwrite]
          exact if_neg hfar
        exact .ok rfl ⟨by rw [hwrite], by rw [hwrite], plain, hwrite'⟩
      | @aside c hc =>
        cases c with
        | write a v => exact absurd rfl (hc a v)
        | delay us =>
          obtain ⟨rfl, rfl, plain, rfl⟩ := h
          have hwaited : (x.under m' plain).waited = x.waited := rfl
          simp only [Bus.act, hardware, bus, wait, hwaited]
          split
          · exact .ok rfl ⟨rfl, rfl, plain, rfl⟩
          · exact .fault
        | barrier | enter | leave | clock _ | pads _ => exact .ok rfl h
  control := by
    rintro k x _ ⟨rfl, rfl, plain, rfl⟩
    have hunder : hardware.control k (x.under m' plain) =
        (hardware.control k x).map fun b => b.under m' plain := control_under k
    rw [hunder]
    cases hk : hardware.control k x with
    | none => exact .none
    | some b =>
      have hfollows := follows_of_control hk
      exact .some ⟨hfollows.base, hfollows.map, plain, rfl⟩
  seesRegisters := rfl

end Sim.Bench

end Layouts

/-! ### Sessions -/

section Sessions

variable {slots : Nat} {config : Config} {base : Address} {m m' : RegisterMap}

/-- Two drivers with all their ports at the base of the block, one for each layout, make every call
alike that keeps to the block. -/
theorem callsMirror_relocated (hm : Bench.TellsApart m) (hm' : Bench.TellsApart m')
    (hbase : base.toNat + 0x200 ≤ 0x10000000000000000) :
    CallsMirror (Request.Relocated base m m') { config with registers := m }
      { config with registers := m' } slots (fun d => d.At { config with registers := m } base)
      (Call.KeepsTo base) := by
  intro d d' ports fuel c hpair hd hc
  have htwin := Block.twin_relocated hm hm' hbase
  have hpace := config.poll.pace_refl (T := False)
    (.aside (fun _ _ => nofun) : Request.Relocated base m m' (.act (.delay 1)) (.act (.delay 1)))
    fuel
  refine Driver.mirrors_call hpair hpace ⟨rfl, rfl, rfl⟩ ?_ ?_
  · rintro board number wrapper a rfl
    obtain ⟨rfl, hfar⟩ := hc
    refine ⟨htwin, fun w hw v => .outside ?_⟩
    have hzero : w + Gsbi.control = w := UInt64.add_zero w
    rw [hzero]
    exact hfar w hw
  · intro port _
    refine ⟨trivial, fun a hport => ?_⟩
    obtain rfl : a = base := hd.2 a (hpair.ports_eq ▸ List.mem_of_getElem? hport)
    exact htwin

/-- A new driver on a new bench block, both with the same layout. -/
def Bench.underLayout (slots : Nat) (config : Config) (base : Address) (m : RegisterMap) :
    Session (Rig Bench) slots :=
  ⟨.new { config with registers := m }, .start (.new base m)⟩

/-- Two sessions that differ in nothing but the layout and what the plain registers hold: the same
ports and receive caches, the same transfers, commands, received characters and waits. -/
structure Session.Relaid (m' : RegisterMap) (x y : Session (Rig Bench) slots) : Prop where
  driver : y.driver = { x.driver with config := { x.driver.config with registers := m' } }
  bus : ∃ plain, y.bus = x.bus.withDevice (x.bus.device.under m' plain)

/-- **Layouts agree.** A session whose initializations are all at the base of the bench block, with
wrappers outside its window, goes the same way under any two layouts that keep the registers apart:
it ends in the same way, with the same answers, and the events differ only in the offsets of the
registers. -/
theorem layouts_agree (hm : Bench.TellsApart m) (hm' : Bench.TellsApart m')
    (hbase : base.toNat + 0x200 ≤ 0x10000000000000000) {schedule : Schedule Bench.Control}
    {moves : List (Move Bench.Control)} (hmoves : ∀ move ∈ moves, move.Calls (Call.KeepsTo base)) :
    (Session.play (Bench.hardware.rigged schedule) Bench.hardware.operate moves
        (Bench.underLayout slots config base m)).Mirrors (Request.Relocated base m m')
      (Session.Relaid m') Eq
      (Session.play (Bench.hardware.rigged schedule) Bench.hardware.operate moves
        (Bench.underLayout slots config base m')) := by
  have hkeeps : ∀ (d : Driver slots) c reply d', d.At { config with registers := m } base →
      c.KeepsTo base → d.Leaves c reply d' → d'.At { config with registers := m } base := by
    intro d c reply d' hd hc hleaves
    refine hd.of_leaves ?_ hleaves
    rintro board number wrapper a rfl
    exact hc.1
  have hstart : Session.Mirrors { config with registers := m } { config with registers := m' }
      (Bench.Relaid base m m') (Bench.underLayout slots config base m)
      (Bench.underLayout slots config base m') :=
    { driver := ⟨.empty, rfl, rfl, rfl, rfl, fun _ _ => rfl⟩
      bus := ⟨⟨rfl, rfl, [], rfl⟩, rfl, rfl, rfl⟩ }
  have hat : (Bench.underLayout slots config base m).driver.At { config with registers := m }
      base := ⟨rfl, nofun⟩
  refine Run.Mirrors.mono ((Bench.mirrors_relocated hm hm').play Request.sameKind_relocated
    (callsMirror_relocated hm hm' hbase) hkeeps hmoves hat hstart) ?_
  rintro x y ⟨⟨ports, hpair⟩, ⟨-, -, plain, hdevice⟩, hreads, hdelays, haccesses⟩
  constructor
  · rw [hpair.eq_withConfig, hpair.config_eq]
  · refine ⟨plain, ?_⟩
    obtain ⟨d, device, reads, delays, accesses⟩ := y
    dsimp only at hdevice hreads hdelays haccesses
    subst hdevice hreads hdelays haccesses
    rfl

/-- A layout in which every register that is read shares its offset with one that is written, and
the plain registers all share one. A transmitter that stalls makes a text time out; a character
that arrives in between is read later. -/
theorem layouts_agree_aliased :
    ∃ (m : RegisterMap) (moves : List (Move Bench.Control)) (replies : List Reply)
      (x y : Session (Rig Bench) 2) (t t' : List Event),
      (m.tf = m.sr ∧ m.cr = m.isr ∧ m.noCharsForTx = m.rxfs ∧ m.mr1 = m.rf ∧ m.csr = m.mr1) ∧
      Bench.TellsApart m ∧ Bench.TellsApart .blsp ∧
      (0x1000 : Address).toNat + 0x200 ≤ 0x10000000000000000 ∧
      (∀ move ∈ moves, move.Calls (Call.KeepsTo 0x1000)) ∧
      Session.play (Bench.hardware.rigged ⟨[(.read 4, .stallAfter 1)], 1000⟩)
        Bench.hardware.operate moves (Bench.underLayout 2 { Config.standard with
          banner := some [0x68, 0x0a], poll := .budget 2 } 0x1000 m) = ⟨.ok replies x, t⟩ ∧
      Session.play (Bench.hardware.rigged ⟨[(.read 4, .stallAfter 1)], 1000⟩)
        Bench.hardware.operate moves (Bench.underLayout 2 { Config.standard with
          banner := some [0x68, 0x0a], poll := .budget 2 } 0x1000 .blsp) = ⟨.ok replies y, t'⟩ ∧
      List.Forall₂ (Event.Mirrors (Request.Relocated 0x1000 m .blsp)) t t' ∧
      replies.flatMap Reply.bytes = [0x31] ∧
      y.bus.device.txBytes = [0x68, 0x0d, 0x0a, 0x61, 0x62, 0x63, 0x64, 0x78] := by
  let m : RegisterMap :=
    { mr1 := 0xc, mr2 := 0xc, csr := 0xc, sr := 0x0, cr := 0x4, isr := 0x4, dmrx := 0xc,
      dmen := 0xc, noCharsForTx := 0x8, rxfs := 0x8, tf := 0x0, rf := 0xc }
  let config : Config :=
    { Config.standard with banner := some [0x68, 0x0a], poll := .budget 2 }
  let moves : List (Move Bench.Control) :=
    [.call 0 (.init .hooks 7 (some 0x2000) 0x1000), .control (.receive [0x31]),
      .call 0 (.write ⟨0⟩ [0x61, 0x62, 0x63, 0x64, 0x65]), .call 0 (.writeText ⟨0⟩ [0x78]),
      .call 0 (.getChar ⟨0⟩ true)]
  have hm : Bench.TellsApart m :=
    { inside := fun r => by cases r <;> decide
      reads := by decide
      writes := by decide }
  have hfar : Bench.window ≤ (0x2000 : Address) - 0x1000 := by decide
  have hmoves : ∀ move ∈ moves, move.Calls (Call.KeepsTo 0x1000) := by
    simpa [moves, Move.Calls, Call.KeepsTo] using hfar
  have hrun : (Session.replay (Bench.hardware.rigged ⟨[(.read 4, .stallAfter 1)], 1000⟩)
      Bench.hardware.operate moves (Bench.underLayout 2 config 0x1000 m)).map (fun r =>
        ((r.1.filterMap Entry.reply?).flatMap Reply.bytes, r.2.bus.device.txBytes)) =
      some ([0x31], [0x68, 0x0d, 0x0a, 0x61, 0x62, 0x63, 0x64, 0x78]) := by
    decide +kernel
  obtain ⟨⟨entries, x⟩, hreplay, hvalues⟩ := Option.map_eq_some_iff.1 hrun
  obtain ⟨hhanded, hwire⟩ := Prod.mk.inj hvalues
  have hplay := Session.play_of_replay hreplay
  have hbase : (0x1000 : Address).toNat + 0x200 ≤ 0x10000000000000000 := by decide
  have hagree : (Session.play (Bench.hardware.rigged ⟨[(.read 4, .stallAfter 1)], 1000⟩)
      Bench.hardware.operate moves (Bench.underLayout 2 config 0x1000 m)).Mirrors
      (Request.Relocated 0x1000 m .blsp) (Session.Relaid .blsp) Eq
      (Session.play (Bench.hardware.rigged ⟨[(.read 4, .stallAfter 1)], 1000⟩)
        Bench.hardware.operate moves (Bench.underLayout 2 config 0x1000 .blsp)) :=
    layouts_agree hm Bench.tellsApart_blsp hbase hmoves
  rw [hplay] at hagree
  generalize hblsp : Session.play (Bench.hardware.rigged ⟨[(.read 4, .stallAfter 1)], 1000⟩)
    Bench.hardware.operate moves (Bench.underLayout 2 config 0x1000 .blsp) = r at hagree
  obtain ⟨o', t'⟩ := r
  obtain ⟨houtcome, htrace⟩ := hagree
  cases houtcome with
  | @ok _ replies' _ y hreplies hrelaid =>
    obtain rfl := hreplies
    obtain ⟨plain, hbus⟩ := hrelaid.bus
    have hwire' : y.bus.device.txBytes = x.bus.device.txBytes := by
      rw [hbus]
      rfl
    exact ⟨m, moves, _, x, y, _, t', by decide, hm, Bench.tellsApart_blsp, hbase, hmoves, hplay,
      hblsp, htrace, hhanded, hwire'.trans hwire⟩

end Sessions

end PolledUart

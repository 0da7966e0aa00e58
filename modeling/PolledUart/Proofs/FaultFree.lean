import PolledUart.Proofs.Attempts
import PolledUart.Proofs.Initialization

/-!
# Calls that cannot fault

A program faults where an address leaves the address space, an index its table, or a counter its
range. Of these only the first can happen to a driver: the places of its tables are settled by
their types and by the registration of the port, the misses of a wait are fewer than its budget, and
a word that was fetched has a character. So whatever a bus answers, a call on a block that lies in
the address space faults nowhere, unless the bus does.

* `Bus.Steady.run_goes` — a program that never stops of its own accord does not stop on a bus that
  does not either.
* `Driver.getChar_eq_strictly` — reading a character never takes one from an empty cache.
* `fault_free` — no call faults.
-/

namespace PolledUart

open Newline

variable {σ α β : Type} {bus : Bus σ} {S : σ → Prop}

/-! ### Programs that do not stop -/

/-- What happens does not stop the machine: it completes, with a value and a state as told, or is
cut off. -/
def Outcome.Goes (P : α → σ → Prop) : Outcome σ α → Prop
  | .ok a s => P a s
  | .limit => True
  | .fault => False
  | .halt => False

theorem Outcome.Goes.mono_of_ok {P Q : α → σ → Prop} {o : Outcome σ α} (h : o.Goes P)
    (hPQ : ∀ a s, o = .ok a s → P a s → Q a s) : o.Goes Q := by
  cases o with
  | ok a s => exact hPQ a s rfl h
  | _ => exact h

/-- From the states of `S` no read, write or delay stops the machine, and each leads to such a state
again. -/
structure Bus.Steady (bus : Bus σ) (S : σ → Prop) : Prop where
  read : ∀ a s, S s → (bus.read a s).Goes fun _ => S
  write : ∀ a v s, S s → (bus.write a v s).Goes fun _ => S
  delay : ∀ us s, S s → (bus.delay us s).Goes fun _ => S
  barrier : ∀ s, S s → S (bus.barrier s)

namespace Bus.Steady

theorem act (h : bus.Steady S) (c : Action) {s : σ} (hs : S s) :
    (bus.act c s).Goes fun _ => S := by
  cases c with
  | write a v => exact h.write a v s hs
  | delay us => exact h.delay us s hs
  | barrier => exact h.barrier s hs
  | enter | leave | clock _ | pads _ => exact hs

/-- **A program that never stops of its own accord** goes on, on a bus that does. -/
theorem run_goes (h : bus.Steady S) {p : Program α} {Q : α → Prop} {s : σ}
    (hp : p.Asks (· ≠ .stop) Q) (hs : S s) :
    (bus.run p s).outcome.Goes fun a s' => Q a ∧ S s' := by
  induction p generalizing s with
  | done a => exact ⟨hp, hs⟩
  | fault => exact absurd rfl hp
  | limit => trivial
  | read address next ih =>
    have hread := h.read address s hs
    rw [Bus.run]
    cases hanswer : bus.read address s with
    | ok v s' =>
      rw [hanswer] at hread
      exact ih v (hp.2 v) hread
    | fault | halt =>
      rw [hanswer] at hread
      exact hread.elim
    | limit => trivial
  | act c next ih =>
    have hact := h.act c hs
    rw [Bus.run]
    cases htaken : bus.act c s with
    | ok u s' =>
      rw [htaken] at hact
      exact ih hp.2 hact
    | fault | halt =>
      rw [htaken] at hact
      exact hact.elim
    | limit => trivial

end Bus.Steady

/-! ### Characters are never taken from an empty cache -/

namespace Program

variable {P : Request → Prop} {Q : α → Prop}

theorem asks_any (p : Program α) : p.Asks (fun _ => True) fun _ => True := by
  induction p with
  | done _ | fault | limit => trivial
  | read _ next ih => exact ⟨trivial, ih⟩
  | act c next ih => exact ⟨trivial, ih⟩

/-- Two sequences are the same if they go on alike with whatever the first half can end with. -/
theorem Asks.bind_congr {p : Program α} {f g : α → Program β} (hp : p.Asks P Q)
    (hfg : ∀ a, Q a → f a = g a) : p.bind f = p.bind g := by
  induction p with
  | done a => exact hfg a hp
  | fault | limit => rfl
  | read address next ih =>
    rw [read_bind, read_bind]
    exact congrArg _ (funext fun v => ih v (hp.2 v))
  | act c next ih =>
    rw [act_bind, act_bind, ih hp.2]

end Program

namespace Receive

/-- A word that is fetched has a character, whatever the registers hold. -/
theorem fetch_nonempty (b : Block) :
    (fetch b).Asks (fun _ => True) fun r => ∀ received ∈ r, received.length ≠ 0 := by
  unfold fetch
  refine (Program.asks_any _).bind fun _ _ => (Program.asks_any _).bind fun v _ => ?_
  split
  · refine (Program.asks_any _).bind fun w _ => ?_
    rintro _ ⟨⟩
    exact (by decide : (4 : UInt8) ≠ 0)
  · refine (Program.asks_any _).bind fun count _ => ?_
    dsimp only
    split
    · exact fun _ h => nomatch h
    · rename_i hpending
      refine (Program.asks_any _).bind fun w _ => ?_
      rintro _ ⟨⟩
      have hpos : 0 < (ReceiveState.bufferCount count).toNat :=
        Nat.pos_of_ne_zero fun h0 => hpending (UInt32.toNat_inj.1 h0)
      have hlength : 0 < (UInt8.ofNat
          (min (ReceiveState.bufferCount count).toNat FifoWord.laneCount)).toNat := by
        simp only [FifoWord.laneCount, UInt8.toNat_ofNat']
        omega
      exact fun hzero => Nat.ne_of_gt hlength (congrArg UInt8.toNat hzero)

theorem fetchWaiting_nonempty (b : Block) (turns : Nat) :
    (fetchWaiting b turns).Asks (fun _ => True) fun received => received.length ≠ 0 := by
  induction turns with
  | zero =>
    unfold fetchWaiting
    refine (fetch_nonempty b).bind fun r hr => ?_
    cases r with
    | none => trivial
    | some received => exact hr received rfl
  | succ turns ih =>
    unfold fetchWaiting
    refine (fetch_nonempty b).bind fun r hr => ?_
    cases r with
    | none => exact ih
    | some received => exact hr received rfl

end Receive

namespace Driver

variable {slots : Nat} {d : Driver slots} {fuel : Nat} {port : PortId}

/-- Hands out the next character of a cache. An empty cache is a fault, and so is a count of unread
characters that would fall below zero. -/
def takeStrictly (d : Driver slots) (slot : Nat) (cache : RxCache) :
    Program (Except IoError UInt8 × Driver slots) :=
  if cache.remaining = 0 then .fault
  else do
    let d ← d.setCache slot ⟨cache.word.shift, cache.remaining - 1⟩
    return (.ok cache.word.first, d)

/-- Reads a character as `getChar` does, but faults rather than take one from an empty cache. -/
def getCharStrictly (d : Driver slots) (fuel : Nat) (port : PortId) (wait : Bool) :
    Program (Except IoError UInt8 × Driver slots) :=
  match d.ports.resolve port with
  | none => return (.error .uninitialized, d)
  | some base => do
    let cache ← d.cache port.index
    if cache.isEmpty then
      match ← fetchWord fuel wait (d.block base) with
      | none => return (.error .rxNotReady, d)
      | some received => d.takeStrictly port.index (.ofReceived received)
    else d.takeStrictly port.index cache

theorem takeFrom_eq_strictly {slot : Nat} {cache : RxCache} (h : cache.remaining ≠ 0) :
    d.takeFrom slot cache = d.takeStrictly slot cache := by
  have hfull : ¬ cache.isEmpty = true := fun he => h (eq_of_beq he)
  rw [takeFrom, takeStrictly, RxCache.pop?, if_neg hfull, if_neg h]

theorem fetchWord_nonempty (wait : Bool) (b : Block) :
    (fetchWord fuel wait b).Asks (fun _ => True) fun r => ∀ received ∈ r, received.length ≠ 0 := by
  unfold fetchWord
  split
  · refine (Receive.fetchWaiting_nonempty b fuel).bind fun received hr => ?_
    rintro _ ⟨⟩
    exact hr
  · exact Receive.fetch_nonempty b

/-- **Reading a character** never takes it from an empty cache: a cache that is not used up has one,
and so has a word that was fetched. -/
theorem getChar_eq_strictly (d : Driver slots) (fuel : Nat) (port : PortId) (wait : Bool) :
    d.getChar fuel port wait = d.getCharStrictly fuel port wait := by
  unfold getChar getCharStrictly
  cases hport : d.ports.resolve port with
  | none => rfl
  | some base =>
    refine (Program.asks_any (d.cache port.index)).bind_congr fun cache _ => ?_
    split
    · refine (fetchWord_nonempty wait (d.block base)).bind_congr fun r hr => ?_
      cases r with
      | none => rfl
      | some received => exact takeFrom_eq_strictly (hr received rfl)
    · rename_i hfull
      exact takeFrom_eq_strictly fun h0 => hfull (beq_iff_eq.2 h0)

end Driver

/-! ### Calls -/

section Calls

variable {slots : Nat} {d d' : Driver slots} {fuel : Nat} {c : Call}

/-- The base address that a call uses: that of the block to be brought up, or of its port. -/
def Call.base? (d : Driver slots) : Call → Option Address
  | .init _ _ _ base => some base
  | c => c.port?.bind d.ports.resolve

/-- What a call that waits for characters answers on a registered port: one character, some
characters that fit into the buffer, or just as many as asked for. -/
def Call.Satisfied : Call → Reply → Prop
  | .getChar _ true, reply => ∃ byte, reply = .byte (.ok byte)
  | .readBytes _ room, reply => ∃ bytes : List UInt8, reply = .buffer bytes (.ok bytes.length) ∧
      bytes.length ≤ room ∧ (0 < room → 0 < bytes.length)
  | .readExact _ room, reply => ∃ bytes : List UInt8, reply = .filled bytes (.ok ()) ∧
      bytes.length = room
  | _, _ => True

theorem ne_stop_of_addressable {b : Block} (h : b.Addressable) (q : Register)
    (hq : b.address? q = none) : Request.stop ≠ .stop := by
  rw [h.address?_eq q] at hq
  cases hq

/-- **A call on a block that lies in the address space** asks for no stop. -/
theorem Call.asks_ne_stop (fuel : Nat)
    (hbase : ∀ base, c.base? d = some base → (d.block base).Addressable) :
    (c.program fuel d).Asks (· ≠ .stop) fun _ => True := by
  have htransmit : ∀ {b : Block}, b.Addressable → Transmit.Allowed b (· ≠ .stop) := fun h =>
    { stop := ne_stop_of_addressable h, look := nofun, delay := nofun, enter := nofun,
      leave := nofun, count := nofun, command := nofun, data := nofun }
  have hreceive : ∀ {b : Block}, b.Addressable → Receive.Allowed b (· ≠ .stop) := fun h =>
    { stop := ne_stop_of_addressable h, look := nofun, command := nofun, rearm := nofun }
  refine Driver.asks_of_call ?_ ?_
  · rintro board number wrapper base rfl
    have hreach := hbase base rfl
    have hwrapper : ∀ w ∈ wrapper, Address.plus? w Gsbi.control = none →
        Request.stop ≠ .stop := by
      intro w _ hnone
      rw [Driver.plus?_control] at hnone
      cases hnone
    have hprepare : Driver.MayPrepare number wrapper (d.block base) (· ≠ .stop) :=
      { stop := ne_stop_of_addressable hreach, stopWrapper := hwrapper, barrier := nofun,
        clock := nofun, pads := nofun, wrapper := nofun, plain := nofun, command := nofun }
    exact ⟨hprepare, htransmit hreach⟩
  · intro port hport
    have huses : ∀ base, d.ports.resolve port = some base → (d.block base).Addressable := by
      intro base hresolve
      refine hbase base ?_
      cases c with
      | init _ _ _ _ => cases hport
      | _ => exact (congrArg (Option.bind · d.ports.resolve) hport).trans hresolve
    exact ⟨fun base h => htransmit (huses base h), fun base h => hreceive (huses base h)⟩

/-- A call on a registered port that waits for characters answers with characters. -/
theorem Call.satisfied_of_completes {port : PortId} {base : Address} {reply : Reply} {s s' : σ}
    {t : List Event} (hc : c.port? = some port) (hport : d.ports.resolve port = some base)
    (h : bus.Completes (c.program fuel d) s t (reply, d') s') : c.Satisfied reply := by
  cases c with
  | getChar p wait =>
    obtain rfl := Option.some.inj hc
    cases wait with
    | false => trivial
    | true =>
      obtain ⟨⟨r, d₁⟩, hrun, heq⟩ := Bus.completes_bind_done_iff.1 h
      obtain ⟨rfl, -⟩ := Prod.mk.inj heq
      obtain ⟨byte, rfl⟩ := Driver.getChar_waiting hport hrun
      exact ⟨byte, rfl⟩
  | readBytes p room =>
    obtain rfl := Option.some.inj hc
    obtain ⟨⟨⟨bytes, result⟩, d₁⟩, hrun, heq⟩ := Bus.completes_bind_done_iff.1 h
    obtain ⟨rfl, -⟩ := Prod.mk.inj heq
    obtain ⟨hresult, hfits, hsome⟩ := Driver.readBytes_result hport hrun
    exact ⟨bytes, congrArg (Reply.buffer bytes) hresult, hfits, hsome⟩
  | readExact p room =>
    obtain rfl := Option.some.inj hc
    obtain ⟨⟨⟨bytes, result⟩, d₁⟩, hrun, heq⟩ := Bus.completes_bind_done_iff.1 h
    obtain ⟨rfl, -⟩ := Prod.mk.inj heq
    obtain ⟨hresult, hfilled, -⟩ := Driver.reads_of_fillFrom hport (Nat.le_refl room) hrun
    exact ⟨bytes, congrArg (Reply.filled bytes) hresult, hfilled⟩
  | _ => trivial

/-- A text that fits in memory has a physical length that fits in a word of the machine. -/
theorem physicalLength_lt {text : List UInt8} (h : text.length ≤ 0x7fffffffffffffff) :
    physicalLength text < 0x10000000000000000 := by
  have hcount : text.count lineFeed ≤ text.length := List.count_le_length
  rw [physicalLength]
  omega

variable {x : Session σ slots}

/-- **No call faults.** On a bus that does not stop the machine, whatever it answers, a call on a
block that lies in the address space completes, or is cut off in a wait without a bound. If it waits
for characters on a registered port, it answers with characters and never tells that nothing was
received: no character is ever taken from an empty cache. The physical length of a text that it
sends fits in a word of the machine. -/
theorem fault_free (hbus : bus.Steady S) (hs : S x.bus)
    (hbase : ∀ base, c.base? x.driver = some base → (x.driver.block base).Addressable) :
    ((Session.perform bus fuel c x).outcome.Goes fun reply x' => S x'.bus ∧
      ∀ port base, c.port? = some port → x.driver.ports.resolve port = some base →
        c.Satisfied reply) ∧
    (∀ fuel port wait, x.driver.getChar fuel port wait = x.driver.getCharStrictly fuel port wait) ∧
    ∀ text ∈ c.texts x.driver, text.length ≤ 0x7fffffffffffffff →
      physicalLength text < 0x10000000000000000 := by
  refine ⟨?_, x.driver.getChar_eq_strictly, fun text _ => physicalLength_lt⟩
  have hrun := hbus.run_goes (Call.asks_ne_stop fuel hbase) hs
  have hgoes : (Session.perform bus fuel c x).outcome.Goes fun _ x' => S x'.bus := by
    rw [Session.perform_eq_map]
    cases hend : (bus.run (c.program fuel x.driver) x.bus).outcome with
    | ok a s' =>
      rw [hend] at hrun
      exact hrun.2
    | fault | halt =>
      rw [hend] at hrun
      exact hrun.elim
    | limit => trivial
  refine hgoes.mono_of_ok fun reply x' hok hs' => ⟨hs', fun port base hport hresolve => ?_⟩
  have hperform : Session.perform bus fuel c x =
      ⟨.ok reply x', (Session.perform bus fuel c x).trace⟩ := by
    rw [← hok]
  exact Call.satisfied_of_completes hport hresolve (Session.perform_eq_ok_iff.1 hperform)

/-- A bus on which every register holds the same value, whatever is written. -/
def Bus.constant (v : UInt32) : Bus Unit where
  read _ _ := .ok v ()
  write _ _ _ := .ok () ()
  delay _ _ := .ok () ()
  barrier := id

/-- All bits set, on the highest base that the layout with shared offsets can have: a read of six
characters goes on, and brings some. -/
theorem fault_free_highest :
    ∃ x : Session Unit 1, x.driver.ports.bases = [0xffffffffffffff8f] ∧
      x.driver.config.registers = .gsbi ∧
      (x.driver.block 0xffffffffffffff8f).address? .rf = some 0xffffffffffffffff ∧
      (Session.perform (Bus.constant 0xffffffff) 0 (.readBytes ⟨0⟩ 6) x).outcome.Goes
        fun reply _ => ∃ bytes : List UInt8, reply = .buffer bytes (.ok bytes.length) ∧
          bytes.length ≤ 6 ∧ 0 < bytes.length := by
  let driver : Driver 1 :=
    { config := { Config.standard with registers := .gsbi, banner := none }
      ports := ⟨[0xffffffffffffff8f], by decide⟩
      caches := .replicate 1 .empty }
  have hbus : (Bus.constant 0xffffffff).Steady fun _ => True :=
    ⟨fun _ _ h => h, fun _ _ _ h => h, fun _ _ h => h, fun _ h => h⟩
  have hbase : ∀ base, Call.base? driver (.readBytes ⟨0⟩ 6) = some base →
      (driver.block base).Addressable := by
    intro base hresolve
    obtain rfl : base = 0xffffffffffffff8f := (Option.some.inj hresolve).symm
    intro r
    cases r <;> rfl
  refine ⟨⟨driver, ()⟩, rfl, rfl, rfl, ?_⟩
  refine (fault_free (x := ⟨driver, ()⟩) hbus trivial hbase).1.mono_of_ok fun reply x' _ h => ?_
  obtain ⟨bytes, hreply, hfits, hsome⟩ := h.2 ⟨0⟩ _ rfl rfl
  exact ⟨bytes, hreply, hfits, hsome (by decide)⟩

end Calls

end PolledUart

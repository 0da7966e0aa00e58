import PolledUart.Proofs.BenchTransfers
import PolledUart.Proofs.Clock
import PolledUart.Proofs.ReceiveRing
import PolledUart.Proofs.WireContents

/-!
# The two simulated blocks agree

The bench block keeps a list of transfers and cuts each at its count when it is asked what
reached the wire; the RAM block counts the announced characters down word by word. The
bench block has an unbounded receive queue, the RAM block a ring of 64 cells. A driver
cannot tell them apart: `Alike` relates their states, every access to a cell of the
register file keeps them related and gives the same answer, and so does every session.

* `Alike.receive`, `Alike.readAt`, `Alike.writeAt` — arrivals and accesses.
* `Sim.alike_refines` — the RAM block in the place of the bench block.
* `Driver.At.asks_onCells` — a driver whose ports are all at the base of the RAM block
  asks only for such accesses.
* `blocks_agree` — whole sessions.
-/

namespace PolledUart

namespace Sim

/-! ### What the blocks have in common -/

/-- Number of characters that the latest transfer still waits for. -/
def Bench.outstanding (d : Bench) : Nat :=
  match d.transfersBack with
  | [] => 0
  | t :: _ => t.chars.toNat - 4 * t.words.size

/-- The offset is that of a cell of the register file. -/
def Ram.IsCell (offset : UInt64) : Prop := offset < 0x180 ∧ offset % 4 = 0

instance (offset : UInt64) : Decidable (Ram.IsCell offset) := inferInstanceAs (Decidable (_ ∧ _))

/-- A bench block and a RAM block in the same place hold the same characters, have sent the same
characters, and have the same values in their plain registers. The RAM block counts down what the
latest transfer of the bench block still waits for. To the bench block nothing has been done from
the other side, except that characters have arrived. -/
structure Alike (d : Bench) (r : Ram) : Prop where
  base : d.base = Ram.base
  map : r.map = d.map
  stuck : r.stuck = d.txStuck
  overrun : d.overrun = false
  txBusyPolls : d.txBusyPolls = 0
  srBusyPolls : d.srBusyPolls = 0
  stallAt : d.stallAt = none
  sound : r.Sound
  queue : r.queue = d.rx
  stale : r.stale = d.stale
  console : r.console = d.txBytes
  remaining : r.txRemaining.toNat = d.outstanding
  cells : ∀ o, Ram.IsCell o → r.registers[(o / 4).toNat]? = some ((d.plain? o).getD 0)

variable {d : Bench} {r : Ram} {o : UInt64}

/-- Each cell has its own place in the register file. -/
theorem Ram.IsCell.index (ho : IsCell o) :
    (o / 4).toNat < 0x60 ∧ 4 * (o / 4).toNat = o.toNat := by
  have hfour : (4 : UInt64).toNat = 4 := rfl
  have hmod : o.toNat % 4 = 0 := by
    have haligned := congrArg UInt64.toNat ho.2
    rwa [UInt64.toNat_mod] at haligned
  refine ⟨Ram.div_four_lt ho.1, ?_⟩
  rw [UInt64.toNat_div, hfour]
  omega

theorem alike_new (map : RegisterMap) (stuck : Bool) :
    Alike { Bench.new Ram.base map with txStuck := stuck } (.new map stuck) where
  base := rfl
  map := rfl
  stuck := rfl
  overrun := rfl
  txBusyPolls := rfl
  srBusyPolls := rfl
  stallAt := rfl
  sound := Ram.sound_new map stuck
  queue := rfl
  stale := rfl
  console := rfl
  remaining := rfl
  cells := by
    intro o ho
    have hcell : (Ram.new map stuck).registers = .replicate 0x60 0 := rfl
    rw [hcell, Vector.getElem?_replicate, if_pos ho.index.1]
    rfl

/-! ### Words that are sent -/

/-- A word added to a transfer brings as many characters as the transfer still waits for. -/
theorem Transfer.bytes_push (t : Transfer) (w : FifoWord) :
    Transfer.bytes { t with words := t.words.push w } =
      t.bytes ++ w.lanes.take (t.chars.toNat - 4 * t.words.size) := by
  have hlength : (t.words.toList.flatMap FifoWord.lanes).length = 4 * t.words.size := by
    simp [List.length_flatMap, Nat.mul_comm]
  unfold Transfer.bytes
  rw [Array.toList_push, List.flatMap_append, List.take_append, hlength]
  simp

/-- The bench block takes a word for its latest transfer. -/
theorem Bench.takeWord_sends (d : Bench) (w : FifoWord) :
    (d.takeWord w).txBytes = d.txBytes ++ w.lanes.take d.outstanding ∧
      (d.takeWord w).outstanding = d.outstanding - 4 := by
  unfold Bench.txBytes Bench.transfers Bench.outstanding
  rw [takeWord_transfersBack]
  cases d.transfersBack with
  | nil => exact ⟨rfl, rfl⟩
  | cons t rest =>
    simp only [List.reverse_cons, List.flatMap_append, List.flatMap_singleton]
    rw [t.bytes_push, List.append_assoc, Array.size_push]
    exact ⟨rfl, by omega⟩

/-- The RAM block sends no more of a word than has been announced, and counts it down. -/
theorem Ram.send_sends (r : Ram) (w : FifoWord) :
    (r.send w).console = r.console ++ w.lanes.take r.txRemaining.toNat ∧
      (r.send w).txRemaining.toNat = r.txRemaining.toNat - 4 := by
  have hcount : (min r.txRemaining 4).toNat = min r.txRemaining.toNat 4 := UInt32.toNat_min _ _
  have hle : min r.txRemaining 4 ≤ r.txRemaining := by
    rw [UInt32.le_iff_toNat_le, hcount]
    exact Nat.min_le_left _ _
  have htake : w.lanes.take (min r.txRemaining.toNat 4) = w.lanes.take r.txRemaining.toNat := by
    rw [List.take_eq_take_iff, FifoWord.length_lanes]
    omega
  constructor
  · simp only [send, console, List.reverse_append, List.reverse_reverse, hcount, htake]
  · simp only [send]
    rw [UInt32.toNat_sub_of_le _ _ hle, hcount]
    omega

namespace Alike

theorem waiting_eq (h : Alike d r) : r.waiting = d.rx.length := by
  rw [← Ram.length_queue, h.queue]

/-- The blocks keep no common record of the accesses, and no common clock. -/
theorem aside (h : Alike d r) (logged : Nat) (waited : UInt32) :
    Alike { d with logged := logged, waited := waited } r :=
  { h with }

/-- **Arrivals.** As long as they find room, the same characters wait in both blocks. -/
theorem receive (h : Alike d r) {bytes : List UInt8}
    (hroom : d.rx.length + bytes.length ≤ Ram.capacity) :
    Alike { d with rx := d.rx ++ bytes } (r.receive bytes) := by
  obtain ⟨hsound, hqueue⟩ := Ram.queue_receive h.sound bytes
  have hall : bytes.length ≤ Ram.capacity - r.waiting := by
    rw [h.waiting_eq]
    omega
  rw [List.take_of_length_le hall, h.queue] at hqueue
  rw [Ram.receive_eq] at hsound hqueue ⊢
  exact { h with sound := hsound, queue := hqueue }

/-! ### Registers that are read -/

theorem takesWords_eq (h : Alike d r) : d.takesWords = !r.stuck := by
  simp [Bench.takesWords, Bench.stalled, h.stallAt, h.stuck]

theorem status_eq (h : Alike d r) : d.status = r.status := by
  have hbits : ∀ ready stuck : Bool,
      (if ready then Status.rxReady else 0) ||| (if !stuck then Status.txReady else 0) |||
          (if !stuck then Status.txEmpty else 0) ||| (if false then Status.overrun else 0) =
        (if stuck then 0 else Status.txReady ||| Status.txEmpty) |||
          (if ready then Status.rxReady else 0) := by
    decide
  have hidle : d.idle = !r.stuck := by
    simp [Bench.idle, h.takesWords_eq, h.txBusyPolls]
  have hready : decide (4 ≤ d.rx.length) = decide (4 ≤ r.waiting) := by
    rw [h.waiting_eq]
  unfold Bench.status Ram.status
  rw [h.takesWords_eq, hidle, h.overrun, hready]
  exact (hbits _ _).trans (by simp)

theorem readStatus (h : Alike d r) : d.readStatus = (r.status, d) := by
  simp only [Bench.readStatus, h.srBusyPolls, h.status_eq]

theorem readInterruptStatus (h : Alike d r) :
    d.readInterruptStatus = (if r.stuck then 0 else InterruptStatus.txReady, d) := by
  simp only [Bench.readInterruptStatus, h.takesWords_eq, h.txBusyPolls]
  cases r.stuck <;> rfl

theorem receiveState_eq (h : Alike d r) : d.receiveState = r.receiveState := by
  rw [Bench.receiveState, Ram.receiveState, h.waiting_eq]

/-- Both take the same word. -/
theorem popWord (h : Alike d r) :
    ∃ r', r.popWord = some (d.popWord.1, r') ∧ Alike d.popWord.2 r' := by
  obtain ⟨r', htake, hsound, hrest, hsame⟩ := Ram.takeChars_eq h.sound 4
  rw [h.queue] at htake hrest
  refine ⟨r', by rw [Ram.popWord, htake]; rfl, ?_⟩
  rw [hsame] at hsound hrest ⊢
  exact { h with sound := hsound, queue := hrest }

theorem readData (h : Alike d r) :
    ∃ r', r.readData = some (d.readData.1, r') ∧ Alike d.readData.2 r' := by
  have hfresh : Alike { d with stale := false } { r with stale := false } :=
    { h with sound := h.sound.congr rfl rfl, stale := rfl }
  have hready : (r.stale || decide (4 ≤ r.waiting)) = (d.stale || decide (4 ≤ d.rx.length)) := by
    rw [h.stale, h.waiting_eq]
  unfold Ram.readData Bench.readData
  rw [hready]
  cases hs : d.stale with
  | true => exact hfresh.popWord
  | false =>
    by_cases hfull : 4 ≤ d.rx.length
    · have hd : ({ d with stale := false } : Bench) = d := by rw [← hs]
      rw [hd] at hfresh
      simp only [hfull, decide_true, Bool.or_true, Bool.false_eq_true, ↓reduceIte]
      exact hfresh.popWord
    · simp only [hfull, decide_false, Bool.or_false, Bool.false_eq_true, ↓reduceIte]
      exact ⟨r, rfl, h⟩

/-- **Reads.** Both blocks give the same answer. -/
theorem readAt (h : Alike d r) (ho : Ram.IsCell o) :
    ∃ r', r.readAt o = some ((d.readAt o).1, r') ∧ Alike (d.readAt o).2 r' := by
  unfold Ram.readAt Bench.readAt
  rw [h.map]
  split
  · rw [h.readStatus]
    exact ⟨r, rfl, h⟩
  · split
    · rw [h.readInterruptStatus]
      exact ⟨r, rfl, h⟩
    · split
      · exact ⟨r, by rw [h.receiveState_eq], h⟩
      · split
        · exact h.readData
        · exact ⟨r, by rw [h.cells o ho]; rfl, h⟩

/-! ### Registers that are written -/

/-- Both send the same characters. -/
theorem send (h : Alike d r) (w : FifoWord) : Alike (d.takeWord w) (r.send w) := by
  have hframe : ∃ n l, d.takeWord w = { d with dataWrites := n, transfersBack := l } := by
    unfold Bench.takeWord
    dsimp only
    split <;> exact ⟨_, _, rfl⟩
  obtain ⟨hwire, houtstanding⟩ := d.takeWord_sends w
  obtain ⟨hconsole, hremaining⟩ := r.send_sends w
  rw [h.console, h.remaining, ← hwire] at hconsole
  rw [h.remaining, ← houtstanding] at hremaining
  obtain ⟨n, l, hd⟩ := hframe
  rw [hd] at hconsole hremaining ⊢
  exact { h with console := hconsole, remaining := hremaining, sound := h.sound.congr rfl rfl }

/-- Both carry out the same command. -/
theorem obey (h : Alike d r) (code : UInt32) : Alike (d.obey code) (r.obey code) := by
  unfold Bench.obey Ram.obey
  dsimp only
  by_cases herror : code = Command.resetErrorStatus
  · subst herror
    exact { h with overrun := rfl }
  · by_cases hforce : code = Command.forceStale
    · subst hforce
      exact { h with stale := rfl, sound := h.sound.congr rfl rfl }
    · by_cases hreceiver : code = Command.resetRx
      · subst hreceiver
        exact { h with queue := rfl, sound := ⟨h.sound.1, Nat.zero_le _⟩ }
      · rw [if_neg herror, if_neg hforce, if_neg hreceiver, if_neg hforce, if_neg hreceiver]
        split
        · exact { h with stallAt := rfl }
        · exact { h with }

/-- Both keep the value of a plain register, and open the same transfer with a count. -/
theorem store (h : Alike d r) (ho : Ram.IsCell o) (v : UInt32) :
    ∃ r', r.store o v = some r' ∧ Alike (d.store o v) r' := by
  have hcells : ∀ q, Ram.IsCell q →
      (r.registers.set (o / 4).toNat v ho.index.1)[(q / 4).toNat]? =
        some ((({ d with plainBack := (o, v) :: d.plainBack } : Bench).plain? q).getD 0) := by
    intro q hq
    rw [Vector.getElem?_set, Bench.plain?, List.find?_cons]
    by_cases heq : o = q
    · subst heq
      simp
    · have hindex : (o / 4).toNat ≠ (q / 4).toNat := by
        intro hsame
        have hnat : o.toNat = q.toNat := by rw [← ho.index.2, ← hq.index.2, hsame]
        exact heq (UInt64.toNat_inj.1 hnat)
      have hne : (o == q) = false := beq_eq_false_iff_ne.2 heq
      rw [if_neg hindex, h.cells q hq]
      simp only [hne]
      rfl
  have hcount : o = r.map.noCharsForTx ↔ o = d.map.noCharsForTx := by rw [h.map]
  simp only [Ram.store, Bench.store, hcount]
  rw [dif_pos ho.index.1]
  split
  · refine ⟨_, rfl, { h with
      console := ?_, remaining := rfl, cells := hcells, sound := h.sound.congr rfl rfl }⟩
    -- a transfer that has just been announced has put nothing on the wire
    have hbytes : Transfer.bytes ⟨v, #[]⟩ = [] := List.take_nil
    refine h.console.trans ?_
    simp [Bench.txBytes, Bench.transfers, hbytes]
  · exact ⟨_, rfl, { h with cells := hcells, sound := h.sound.congr rfl rfl }⟩

/-- **Writes.** Both blocks take the value, and are alike after it. -/
theorem writeAt (h : Alike d r) (ho : Ram.IsCell o) (v : UInt32) :
    ∃ r', r.writeAt o v = some r' ∧ Alike (d.writeAt o v) r' := by
  unfold Ram.writeAt Bench.writeAt
  rw [h.map]
  split
  · exact ⟨_, rfl, h.send _⟩
  · split
    · exact ⟨_, rfl, h.obey _⟩
    · exact h.store ho v

/-! ### Accesses -/

/-- An address in the register file is not below the block. -/
theorem offset_cell (ho : Ram.IsCell o) : Ram.offset? (Ram.base + o) = some o :=
  Ram.offset?_base_add ho.1

theorem offset_window (h : Alike d r) (ho : Ram.IsCell o) :
    Ram.base + o - d.base = o ∧ o < Bench.window := by
  refine ⟨?_, UInt64.lt_trans ho.1 (by decide)⟩
  rw [h.base, UInt64.add_comm, UInt64.add_sub_cancel]

theorem read (h : Alike d r) (ho : Ram.IsCell o) :
    ∃ r', Ram.bus.read (Ram.base + o) r = .ok (d.read (Ram.base + o)).1 r' ∧
      Alike (d.read (Ram.base + o)).2 r' := by
  obtain ⟨r', hread, hR⟩ := h.readAt ho
  obtain ⟨hoffset, hin⟩ := h.offset_window ho
  refine ⟨r', ?_, ?_⟩
  · simp only [Ram.bus, offset_cell ho, Option.bind_some, hread, Bench.read, hoffset, hin,
      ↓reduceIte]
  · simp only [Bench.read, hoffset, hin, ↓reduceIte]
    exact hR.aside _ _

theorem write (h : Alike d r) (ho : Ram.IsCell o) (v : UInt32) :
    ∃ r', Ram.bus.write (Ram.base + o) v r = .ok () r' ∧
      Alike (d.write (Ram.base + o) v) r' := by
  obtain ⟨r', hwrite, hR⟩ := (h.aside (d.logged + 1) d.waited).writeAt ho v
  obtain ⟨hoffset, hin⟩ := h.offset_window ho
  refine ⟨r', ?_, ?_⟩
  · simp only [Ram.bus, offset_cell ho, Option.bind_some, hwrite]
  · simp only [Bench.write, hoffset, hin, ↓reduceIte]
    exact hR

end Alike

/-- The bench block with no other control than the arrival of characters. -/
def Bench.fed : Hardware Bench (List UInt8) :=
  { hardware with control := fun bytes => control (.receive bytes) }

/-- The same, operated by someone who lets no more characters wait than the RAM block has room
for. -/
def Bench.fedWithinRoom : Hardware Bench (List UInt8) :=
  fed.guarded fun bytes b => decide (b.rx.length + bytes.length ≤ Ram.capacity)

end Sim

open Sim

/-- Accesses to the cells of the register file, and waits of one microsecond. -/
def Request.OnCells : Request → Prop
  | .read a => ∃ o, Ram.IsCell o ∧ a = Ram.base + o
  | .act (.write a _) => ∃ o, Ram.IsCell o ∧ a = Ram.base + o
  | .act (.delay us) => us = 1
  | .act _ => True
  | .stop => False

/-- **The RAM block in the place of the bench block.** No access to the register file and no arrival
tells them apart. -/
theorem Sim.alike_refines : Bench.fedWithinRoom.Refines Request.OnCells Alike Ram.hardware where
  bus := by
    constructor
    · rintro a d r ⟨o, ho, rfl⟩ hR
      obtain ⟨r', hread, hR'⟩ := hR.read ho
      have hram : Ram.hardware.bus.read (Ram.base + o) r = .ok (d.read (Ram.base + o)).1 r' := hread
      rw [hram]
      exact .ok hR'
    · intro c d r hc hR
      cases c with
      | write a v =>
        obtain ⟨o, ho, rfl⟩ := hc
        obtain ⟨r', hwrite, hR'⟩ := hR.write ho v
        have hram : Ram.hardware.bus.act (.write (Ram.base + o) v) r = .ok () r' := hwrite
        rw [hram]
        exact .ok hR'
      | delay us =>
        have hbench : Bench.fedWithinRoom.bus.act (.delay us) d = d.wait us := rfl
        rw [hbench, Bench.wait]
        split
        · exact .ok (hR.aside _ _)
        · exact .fault
      | barrier | enter | leave | clock _ | pads _ => exact .ok hR
  control := by
    intro bytes d r d' hR hcontrol
    obtain ⟨hroom, hreceive⟩ := Hardware.control_of_guarded hcontrol
    obtain rfl := Option.some.inj hreceive
    exact ⟨_, rfl, hR.receive (of_decide_eq_true hroom)⟩
  seesRegisters := rfl

/-! ### Calls -/

/-- Every register of the layout is a cell of the register file. -/
def RegisterMap.InFile (m : RegisterMap) : Prop := ∀ q, Ram.IsCell (m.offset q)

theorem RegisterMap.inFile_of_known {m : RegisterMap} (h : m = .blsp ∨ m = .gsbi) : m.InFile := by
  intro q
  rcases h with rfl | rfl <;> cases q <;> decide

/-- An initialization is one of the block at a base, and sets up no wrapper. -/
def Call.InitsAt (base : Address) : Call → Prop
  | .init _ _ wrapper a => a = base ∧ wrapper = none
  | _ => True

theorem Call.InitsAt.base_eq {base : Address} {c : Call} (h : c.InitsAt base) (board : Board)
    (number : UInt8) (wrapper : Option Address) (a : Address)
    (hc : c = .init board number wrapper a) : a = base := by
  subst hc
  exact h.1

section Calls

variable {slots : Nat} {d d' : Driver slots} {config : Config} {c : Call}

/-- **What a call asks for**, if all ports are at the base of the RAM block: it keeps to the
register file. -/
theorem Driver.At.asks_onCells {fuel : Nat} (hd : d.At config Ram.base)
    (hm : config.registers.InFile) (hc : c.InitsAt Ram.base) :
    (c.program fuel d).Asks Request.OnCells fun _ => True := by
  have hblock : d.block Ram.base = ⟨Ram.base, config.registers⟩ := hd.block_eq
  have hstop : ∀ q, (d.block Ram.base).address? q = none → Request.OnCells .stop := by
    intro q hq
    have hfar := Address.plus?_eq_none_iff.1 hq
    have hlt : (config.registers.offset q).toNat < 0x180 := UInt64.lt_iff_toNat_lt.1 (hm q).1
    have hbase : Ram.base.toNat = 0x78000000 := rfl
    rw [hblock] at hfar
    dsimp only at hfar
    omega
  have hcell : ∀ q, ∃ o, Ram.IsCell o ∧ (d.block Ram.base).location q = Ram.base + o := by
    intro q
    rw [hblock]
    exact ⟨_, hm q, rfl⟩
  have hsend : Transmit.Allowed (d.block Ram.base) Request.OnCells :=
    { stop := hstop, look := fun q _ => hcell q, delay := rfl, enter := trivial, leave := trivial,
      count := fun _ => hcell _, command := fun _ _ => hcell _, data := fun _ => hcell _ }
  have hreceive : Receive.Allowed (d.block Ram.base) Request.OnCells :=
    { stop := hstop, look := fun q _ => hcell q, command := fun _ _ => hcell _, rearm := hcell _ }
  refine Driver.asks_of_call ?_ ?_
  · rintro board number wrapper base rfl
    obtain ⟨rfl, rfl⟩ := hc
    have hprepare : Driver.MayPrepare number none (d.block Ram.base) Request.OnCells :=
      { stop := hstop, stopWrapper := nofun, barrier := trivial, clock := trivial, pads := trivial,
        wrapper := nofun, plain := fun q _ _ => hcell q, command := fun _ _ => hcell _ }
    exact ⟨hprepare, hsend⟩
  · intro port _
    have hbase : ∀ base, d.ports.resolve port = some base → base = Ram.base := fun base hport =>
      hd.2 base (List.mem_of_getElem? hport)
    exact ⟨fun base hport => hbase base hport ▸ hsend,
      fun base hport => hbase base hport ▸ hreceive⟩

/-- All ports stay at one base if all initializations are made there. -/
theorem Driver.At.of_leaves {base : Address} {reply : Reply} (hd : d.At config base)
    (hc : ∀ board number wrapper a, c = .init board number wrapper a → a = base)
    (h : d.Leaves c reply d') : d'.At config base := by
  refine ⟨h.config_eq.trans hd.1, ?_⟩
  cases h with
  | failed => exact hd.2
  | opened _ hopens =>
    obtain rfl := hc _ _ _ _ rfl
    intro a ha
    rw [(Registry.register_eq_ok hopens.registered).2] at ha
    rcases List.mem_append.1 ha with hold | hnew
    · exact hd.2 a hold
    · exact List.mem_singleton.1 hnew
  | used _ _ => exact hd.2

end Calls

/-! ### Sessions -/

/-- A new driver on a bench block in the place of the RAM block, with a transmitter that works or is
stuck. -/
def Bench.session (slots : Nat) (config : Config) (map : RegisterMap) (stuck : Bool) :
    Session (Rig Bench) slots :=
  ⟨.new config, .start { Bench.new Ram.base map with txStuck := stuck }⟩

/-- A new driver on the RAM block. -/
def Ram.session (slots : Nat) (config : Config) (map : RegisterMap) (stuck : Bool) :
    Session (Rig Ram) slots :=
  ⟨.new config, .start (.new map stuck)⟩

section Sessions

variable {slots : Nat} {config : Config} {map : RegisterMap} {stuck : Bool}
  {schedule : Schedule (List UInt8)} {moves : List (Move (List UInt8))}
  {o : Outcome (Session (Rig Bench) slots) (List Reply)} {t : List Event}

/-- A session on the bench block faults only when its clock is full. -/
theorem ne_fault_of_play (hm : config.registers.InFile)
    (hmoves : ∀ m ∈ moves, m.Calls (Call.InitsAt Ram.base))
    (h : Session.play (Bench.fedWithinRoom.rigged schedule) Bench.fedWithinRoom.operate moves
      (Bench.session slots config map stuck) = ⟨o, t⟩)
    (hdelays : Trace.delays t < 0x100000000) : o ≠ .fault := by
  have hbus : Bench.fedWithinRoom.bus.Ticks Request.OnCells Bench.clock 0x100000000 :=
    Bench.ticks_bus fun _ hus => hus
  have hcontrol : ∀ bytes b b', Bench.fedWithinRoom.control bytes b = some b' →
      b'.clock = b.clock := by
    intro bytes b b' h
    have hreceive : Bench.control (.receive bytes) b = some b' :=
      (Hardware.control_of_guarded h).2
    exact Bench.clock_of_control hreceive
  have hstart : (Bench.session slots config map stuck).driver.At config Ram.base := ⟨rfl, nofun⟩
  have hticks : (Session.play (Bench.fedWithinRoom.rigged schedule) Bench.fedWithinRoom.operate
      moves (Bench.session slots config map stuck)).Ticks (fun y => y.bus.device.clock) 0x100000000
      (Bench.session slots config map stuck).bus.device.clock :=
    Hardware.ticks_play (I := fun d => d.At config Ram.base) (C := Call.InitsAt Ram.base) hbus id
      hcontrol (fun d c fuel hd hc => hd.asks_onCells hm hc)
      (fun d c reply d' hd hc hleaves => hd.of_leaves hc.base_eq hleaves) hmoves hstart
  have hzero : (Bench.session slots config map stuck).bus.device.clock = 0 := rfl
  rw [h, hzero] at hticks
  rintro rfl
  cases hticks with
  | fault hfull =>
    rw [Nat.zero_add] at hfull
    exact absurd hdelays (Nat.not_lt.2 hfull)

/-- **The two blocks agree.** As long as no more characters wait than the RAM block has room for,
and there are too few delays to fill the clock of the bench block, a session goes the same way on
both, after the same events: either both are cut off, or both complete with the same answers and
leave the same driver, and the same characters have been sent and wait to be read. The RAM block
never stops the machine. -/
theorem blocks_agree (hmap : config.registers = .blsp ∨ config.registers = .gsbi)
    (hmoves : ∀ m ∈ moves, m.Calls (Call.InitsAt Ram.base))
    (h : Session.play (Bench.fedWithinRoom.rigged schedule) Bench.fedWithinRoom.operate moves
      (Bench.session slots config map stuck) = ⟨o, t⟩)
    (hroom : o ≠ .halt) (hdelays : Trace.delays t < 0x100000000) :
    Session.play (Bench.fed.rigged schedule) Bench.fed.operate moves
        (Bench.session slots config map stuck) = ⟨o, t⟩ ∧
      ∃ o' : Outcome (Session (Rig Ram) slots) (List Reply),
        Session.play (Ram.hardware.rigged schedule) Ram.hardware.operate moves
          (Ram.session slots config map stuck) = ⟨o', t⟩ ∧
        (o = .limit ∧ o' = .limit ∨
          ∃ replies x y, o = .ok replies x ∧ o' = .ok replies y ∧ y.driver = x.driver ∧
            y.bus.device.console = x.bus.device.txBytes ∧
            y.bus.device.queue = x.bus.device.rx) := by
  have hm := RegisterMap.inFile_of_known hmap
  have hfault := ne_fault_of_play hm hmoves h hdelays
  have hstart : (Bench.session slots config map stuck).driver.At config Ram.base := ⟨rfl, nofun⟩
  have hplay : (Session.play (Bench.fedWithinRoom.rigged schedule) Bench.fedWithinRoom.operate
      moves (Bench.session slots config map stuck)).Refines (Session.Related Alike)
      (Session.play (Ram.hardware.rigged schedule) Ram.hardware.operate moves
        (Ram.session slots config map stuck)) :=
    alike_refines.play (I := fun d => d.At config Ram.base) (C := Call.InitsAt Ram.base)
      (fun d c fuel hd hc => hd.asks_onCells hm hc)
      (fun d c reply d' hd hc hleaves => hd.of_leaves hc.base_eq hleaves) hmoves hstart
      ⟨rfl, alike_new map stuck, rfl, rfl, rfl⟩
  refine ⟨Hardware.play_of_guarded h hfault hroom, ?_⟩
  rw [h] at hplay
  generalize Session.play (Ram.hardware.rigged schedule) Ram.hardware.operate moves
    (Ram.session slots config map stuck) = r at hplay ⊢
  cases hplay with
  | @ok replies x y _ hxy =>
    have halike := hxy.bus.device
    exact ⟨_, rfl, .inr ⟨replies, x, y, rfl, rfl, hxy.driver, halike.console, halike.queue⟩⟩
  | limit => exact ⟨_, rfl, .inl ⟨rfl, rfl⟩⟩
  | fault => exact absurd rfl hfault
  | halt => exact absurd rfl hroom

/-- Both blocks send the banner and a text whose last word is cut. Both lose a third character that
arrives after two have been counted and before they are fetched. -/
theorem blocks_agree_gsbi :
    ∃ (moves : List (Move (List UInt8))) (replies : List Reply) (x : Session (Rig Bench) 1)
      (y : Session (Rig Ram) 1) (t : List Event),
      Session.play (Bench.fed.rigged ⟨[(.read 9, [0x33])], 1000⟩) Bench.fed.operate moves
        (Bench.session 1 { Config.standard with
          registers := .gsbi, banner := some [0x68, 0x0a], poll := .budget 2 } .gsbi false) =
          ⟨.ok replies x, t⟩ ∧
      Session.play (Ram.hardware.rigged ⟨[(.read 9, [0x33])], 1000⟩) Ram.hardware.operate moves
        (Ram.session 1 { Config.standard with
          registers := .gsbi, banner := some [0x68, 0x0a], poll := .budget 2 } .gsbi false) =
          ⟨.ok replies y, t⟩ ∧
      replies.flatMap Reply.bytes = [0x31, 0x32] ∧
      y.bus.device.console = [0x68, 0x0d, 0x0a, 0x61, 0x62, 0x63, 0x64, 0x65] := by
  let config : Config :=
    { Config.standard with registers := .gsbi, banner := some [0x68, 0x0a], poll := .budget 2 }
  let moves : List (Move (List UInt8)) :=
    [.call 0 (.init .ready 1 none Ram.base), .control [0x31, 0x32],
      .call 0 (.write ⟨0⟩ [0x61, 0x62, 0x63, 0x64, 0x65]), .call 0 (.drain ⟨0⟩ 6)]
  have hrun : (Session.replay (Bench.fedWithinRoom.rigged ⟨[(.read 9, [0x33])], 1000⟩)
      Bench.fedWithinRoom.operate moves (Bench.session 1 config .gsbi false)).map (fun r =>
        (Trace.delays (r.1.flatMap Entry.trace), (r.1.filterMap Entry.reply?).flatMap Reply.bytes,
          r.2.bus.device.txBytes)) =
      some (0, [0x31, 0x32], [0x68, 0x0d, 0x0a, 0x61, 0x62, 0x63, 0x64, 0x65]) := by
    decide +kernel
  obtain ⟨⟨entries, x⟩, hreplay, hvalues⟩ := Option.map_eq_some_iff.1 hrun
  simp only [Prod.mk.injEq] at hvalues
  obtain ⟨hdelays, hhanded, hwire⟩ := hvalues
  have hmoves : ∀ m ∈ moves, m.Calls (Call.InitsAt Ram.base) := by
    simp [moves, Move.Calls, Call.InitsAt]
  have hroom : ∀ replies,
      (.ok replies x : Outcome (Session (Rig Bench) 1) (List Reply)) ≠ .halt := by
    intro replies h
    cases h
  obtain ⟨hbench, o', hram, ⟨hcut, -⟩ | ⟨replies, x', y, hok, rfl, -, hconsole, -⟩⟩ :=
    blocks_agree (.inr rfl) hmoves (Session.play_of_replay hreplay) (hroom _)
      (by rw [hdelays]; decide)
  · cases hcut
  · obtain ⟨rfl, rfl⟩ := Outcome.ok.inj hok
    exact ⟨moves, _, x, y, _, hbench, hram, hhanded, hconsole.trans hwire⟩

end Sessions

end PolledUart

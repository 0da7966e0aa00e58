import Mathlib.Order.Basic
import PolledUart.Proofs.BringUp
import PolledUart.Proofs.Clock
import PolledUart.Proofs.ExactWait
import PolledUart.Session

/-!
# What a program can cost

The work that a program makes for the bus is counted in reads, delays and writes
(`Effort`). `Program.Within` bounds it over the tree of a program: whatever the
reads answer, no path costs more, and no path ends in a loop that was not
unrolled far enough. So a run of such a program is within the bound on every
bus, however it ends (`Program.Within.effort_run`), and it does end, unless the
bus itself takes no more accesses (`Program.Within.ends`).

The bounds are proved from the inside out: a wait under a budget, the words of a
transfer with a fresh wait for each, a transfer, a fetch, an initialization.
`Call.effort?` is the table of what each call can cost. Under a budget the only
calls without a bound are those that wait for a character.
-/

namespace PolledUart

open Newline

/-! ## Counting -/

/-- An amount of work on the bus. -/
@[ext] structure Effort where
  reads : Nat
  delays : Nat
  writes : Nat
  deriving DecidableEq, Repr

namespace Effort

instance : Zero Effort := ⟨⟨0, 0, 0⟩⟩

instance : Add Effort := ⟨fun e f => ⟨e.reads + f.reads, e.delays + f.delays, e.writes + f.writes⟩⟩

instance : Preorder Effort where
  le e f := e.reads ≤ f.reads ∧ e.delays ≤ f.delays ∧ e.writes ≤ f.writes
  le_refl e := by simp
  le_trans e f g h h' := by omega

instance (e f : Effort) : Decidable (e ≤ f) := inferInstanceAs (Decidable (_ ∧ _))

variable {e f : Effort}

theorem le_iff : e ≤ f ↔ e.reads ≤ f.reads ∧ e.delays ≤ f.delays ∧ e.writes ≤ f.writes := Iff.rfl

@[simp] theorem zero_reads : (0 : Effort).reads = 0 := rfl
@[simp] theorem zero_delays : (0 : Effort).delays = 0 := rfl
@[simp] theorem zero_writes : (0 : Effort).writes = 0 := rfl
@[simp] theorem add_reads : (e + f).reads = e.reads + f.reads := rfl
@[simp] theorem add_delays : (e + f).delays = e.delays + f.delays := rfl
@[simp] theorem add_writes : (e + f).writes = e.writes + f.writes := rfl

theorem zero_le (e : Effort) : 0 ≤ e := by simp [le_iff]

/-- What one action costs. Only delays and writes are counted. -/
def ofAction : Action → Effort
  | .write _ _ => ⟨0, 0, 1⟩
  | .delay _ => ⟨0, 1, 0⟩
  | _ => 0

end Effort

/-- What a trace has cost. -/
def Trace.effort (t : List Event) : Effort :=
  ⟨readCount t, delays t, (writes t).length⟩

namespace Trace

@[simp] theorem effort_nil : effort [] = 0 := rfl

@[simp] theorem effort_append (t u : List Event) : effort (t ++ u) = effort t + effort u := by
  ext <;> simp [effort]

@[simp] theorem effort_read (a : Address) (v : UInt32) (t : List Event) :
    effort (.read a v :: t) = ⟨1, 0, 0⟩ + effort t :=
  effort_append [.read a v] t

@[simp] theorem effort_act (c : Action) (t : List Event) :
    effort (.act c :: t) = Effort.ofAction c + effort t := by
  have h : effort [.act c] = Effort.ofAction c := by cases c <;> rfl
  rw [← h]
  exact effort_append [.act c] t

end Trace

/-! ## Bounds on programs -/

/-- Whatever the reads answer, the program costs no more than `e` and is not cut off. -/
def Program.Within {α : Type} : Program α → Effort → Prop
  | .done _, _ => True
  | .fault, _ => True
  | .limit, _ => False
  | .read _ next, e => ∃ rest, ⟨1, 0, 0⟩ + rest ≤ e ∧ ∀ v, (next v).Within rest
  | .act c next, e => ∃ rest, Effort.ofAction c + rest ≤ e ∧ next.Within rest

/-- The bus takes every access, or stops the machine at it. It does not cut a run off. -/
structure Bus.Unlimited {σ : Type} (bus : Bus σ) : Prop where
  read : ∀ a s, bus.read a s ≠ .limit
  write : ∀ a v s, bus.write a v s ≠ .limit
  delay : ∀ us s, bus.delay us s ≠ .limit

theorem Bus.Unlimited.act {σ : Type} {bus : Bus σ} (h : bus.Unlimited) (c : Action) (s : σ) :
    bus.act c s ≠ .limit := by
  cases c with
  | write a v => exact h.write a v s
  | delay us => exact h.delay us s
  | barrier | enter | leave | clock _ | pads _ => exact nofun

namespace Program.Within

variable {σ α β : Type} {p : Program α} {e f : Effort}

theorem mono (h : p.Within e) (hle : e ≤ f) : p.Within f := by
  cases p with
  | done _ | fault => trivial
  | limit => exact h
  | read _ _ | act _ _ =>
    obtain ⟨rest, hcost, hrest⟩ := h
    exact ⟨rest, hcost.trans hle, hrest⟩

/-- **The costs of a sequence add up.** What is left of the bound after the first part is for the
rest. -/
theorem bind {k : α → Program β} (h : p.Within e) (rest : Effort) (hle : e + rest ≤ f)
    (hk : ∀ a, (k a).Within rest) : (p.bind k).Within f := by
  have hsum : ∀ {c u e f : Effort}, c + u ≤ e → e + rest ≤ f → c + (u + rest) ≤ f := by
    intro c u e f hcost hle
    simp only [Effort.le_iff, Effort.add_reads, Effort.add_delays, Effort.add_writes] at *
    omega
  induction p generalizing e f with
  | done a =>
    have hrest : rest ≤ e + rest := by simp [Effort.le_iff]
    exact (hk a).mono (hrest.trans hle)
  | fault => trivial
  | limit => exact h
  | read a next ih =>
    obtain ⟨u, hcost, hrest⟩ := h
    exact ⟨u + rest, hsum hcost hle, fun v => ih v (hrest v) le_rfl⟩
  | act c next ih =>
    obtain ⟨u, hcost, hrest⟩ := h
    exact ⟨u + rest, hsum hcost hle, ih hrest le_rfl⟩

theorem perform (c : Action) : (Program.perform c).Within (Effort.ofAction c) :=
  ⟨0, by simp [Effort.le_iff], trivial⟩

theorem require {o : Option α} : (Program.require o).Within 0 := by
  cases o <;> trivial

/-- **A run of a bounded program** is within the bound on every bus, however it ends. -/
theorem effort_run (h : p.Within e) (bus : Bus σ) (s : σ) :
    Trace.effort (bus.run p s).trace ≤ e := by
  have hnothing : ∀ e : Effort, Trace.effort [] ≤ e := Effort.zero_le
  induction p generalizing e s with
  | done _ | fault | limit => exact hnothing e
  | read a next ih =>
    obtain ⟨rest, hcost, hrest⟩ := h
    rw [Bus.run]
    split
    · rename_i v s' _
      have hlater := ih v (hrest v) s'
      simp only [Trace.effort_read, Effort.le_iff, Effort.add_reads, Effort.add_delays,
        Effort.add_writes] at *
      omega
    all_goals exact hnothing e
  | act c next ih =>
    obtain ⟨rest, hcost, hrest⟩ := h
    rw [Bus.run]
    split
    · rename_i s' _
      have hlater := ih hrest s'
      simp only [Trace.effort_act, Effort.le_iff, Effort.add_reads, Effort.add_delays,
        Effort.add_writes] at *
      omega
    · -- the bus has faulted on the action, which is an event all the same
      simp only [Trace.effort_act, Trace.effort_nil, Effort.le_iff, Effort.add_reads,
        Effort.add_delays, Effort.add_writes, Effort.zero_reads, Effort.zero_delays,
        Effort.zero_writes] at *
      omega
    all_goals exact hnothing e

/-- **It does end**, unless the bus cuts it off. -/
theorem ends {bus : Bus σ} (h : p.Within e) (hbus : bus.Unlimited) (s : σ) :
    (bus.run p s).outcome ≠ .limit := by
  induction p generalizing e s with
  | done _ | fault => simp [Bus.run]
  | limit => exact h.elim
  | read a next ih =>
    obtain ⟨rest, -, hrest⟩ := h
    have hread := hbus.read a s
    rw [Bus.run]
    cases hanswer : bus.read a s with
    | ok v s' => exact ih v (hrest v) s'
    | fault | halt => simp
    | limit => exact absurd hanswer hread
  | act c next ih =>
    obtain ⟨rest, -, hrest⟩ := h
    have hact := hbus.act c s
    rw [Bus.run]
    cases htaken : bus.act c s with
    | ok u s' => exact ih hrest s'
    | fault | halt => simp
    | limit => exact absurd htaken hact

end Program.Within

open Program

/-! ## The parts of a call -/

/-- What a wait under a budget can cost: the polls of the budget, but at least one, and a delay
between each two. -/
def PollPolicy.effort (polls : UInt32) : Effort :=
  ⟨max 1 polls.toNat, max 1 polls.toNat - 1, 0⟩

/-- What a transfer of a text can cost under a budget: one look at the status, a wait for the
previous transfer and one for each word; the words themselves, the announcement, and no more than
one reset in the place of a word. -/
def Transmit.effort (polls : UInt32) (text : List UInt8) : Effort :=
  let most := max 1 polls.toNat
  let words := (wordsFor (UInt64.ofNat (physicalLength text))).toNat
  ⟨1 + (words + 1) * most, (words + 1) * (most - 1), words + 2⟩

/-- What a fetch can cost. The dearest is one that clears an overrun and pushes the packing buffer
out. -/
def Receive.effort : Effort := ⟨4, 0, 4⟩

namespace PollPolicy

variable {polls misses : UInt32} {address : Address} {mask : UInt32}

/-- A wait under a budget, with the polls that are left of it. -/
theorem within_waitFrom {turns most : Nat} (hcounted : (budget polls).Counted misses)
    (hturns : misses.toNat + turns = polls.toNat) (hleft : max 1 turns = most + 1) :
    ((budget polls).waitFrom address mask turns misses).Within ⟨most + 1, most, 0⟩ := by
  induction most generalizing turns misses with
  | zero =>
    -- the last poll: a miss uses up the budget
    have hmiss : (budget polls).miss misses = .giveUp := by
      rcases hcounted.miss_budget with ⟨-, h⟩ | ⟨misses', -, hcount, hlt⟩
      · exact h
      · omega
    unfold waitFrom
    refine ⟨0, by decide, fun v => ?_⟩
    simp only [hmiss]
    split <;> trivial
  | succ most ih =>
    obtain ⟨turns, rfl⟩ : ∃ n, turns = n + 1 := ⟨turns - 1, by omega⟩
    obtain ⟨misses', hmiss, hcount⟩ : ∃ misses', (budget polls).miss misses = .again misses' ∧
        misses'.toNat = misses.toNat + 1 := by
      rcases hcounted.miss_budget with ⟨hle, -⟩ | ⟨misses', h, hcount, -⟩
      · omega
      · exact ⟨misses', h, hcount⟩
    have hrest := ih (Counted.again hmiss) (by omega : misses'.toNat + turns = polls.toNat) (by omega)
    unfold waitFrom
    refine ⟨⟨most + 1, most + 1, 0⟩, by simp [Effort.le_iff]; omega, fun v => ?_⟩
    simp only [hmiss]
    split
    · trivial
    · exact ⟨⟨most + 1, most, 0⟩, by simp [Effort.le_iff, Effort.ofAction]; omega, hrest⟩

end PollPolicy

namespace Block

variable {b : Block}

theorem within_read (q : Register) : (b.read q).Within ⟨1, 0, 0⟩ :=
  Within.require.bind ⟨1, 0, 0⟩ (by decide) fun _ => ⟨0, by decide, fun _ => trivial⟩

theorem within_write (q : Register) (v : UInt32) : (b.write q v).Within ⟨0, 0, 1⟩ :=
  Within.require.bind ⟨0, 0, 1⟩ (by decide) fun _ => Within.perform _

theorem within_waitFor (polls : UInt32) (fuel : Nat) (q : Register) (mask : UInt32) :
    (b.waitFor (.budget polls) fuel q mask).Within (PollPolicy.effort polls) := by
  obtain ⟨most, hmost⟩ : ∃ n, max 1 polls.toNat = n + 1 := ⟨max 1 polls.toNat - 1, by omega⟩
  refine Within.require.bind ⟨most + 1, most, 0⟩ ?_ fun a =>
    PollPolicy.within_waitFrom (PollPolicy.counted_zero _) (Nat.zero_add _) hmost
  simp [PollPolicy.effort, hmost, Effort.le_iff]

end Block

namespace Transmit

variable {b : Block} {polls : UInt32} {fuel : Nat}

/-- What sending some words can cost: a wait and a write for each. -/
def sendingEffort (polls : UInt32) (words : Nat) : Effort :=
  ⟨words * max 1 polls.toNat, words * (max 1 polls.toNat - 1), words⟩

/-- Each word has a wait of its own. It ends with the word, or with a reset and no further word. -/
theorem within_sendWords (words : List FifoWord) :
    (sendWords b (.budget polls) fuel words).Within (sendingEffort polls words.length) := by
  induction words with
  | nil => trivial
  | cons w rest ih =>
    have hstep : PollPolicy.effort polls + (⟨0, 0, 1⟩ + sendingEffort polls rest.length) ≤
        sendingEffort polls (rest.length + 1) := by
      simp only [PollPolicy.effort, sendingEffort, Effort.le_iff, Effort.add_reads,
        Effort.add_delays, Effort.add_writes, Nat.succ_mul]
      omega
    refine (Block.within_waitFor polls fuel .sr Status.txReady).bind _ hstep fun r => ?_
    cases r with
    | error e =>
      refine (Block.within_write .cr Command.resetTx).bind _ le_rfl fun _ => trivial
    | ok _ => exact (Block.within_write .tf w.raw).bind _ le_rfl fun _ => ih

theorem within_awaitIdle :
    (awaitIdle b (.budget polls) fuel).Within (⟨1, 0, 0⟩ + PollPolicy.effort polls) := by
  refine (Block.within_read .sr).bind _ le_rfl fun v => ?_
  split
  · exact Block.within_waitFor polls fuel .isr InterruptStatus.txReady
  · trivial

theorem within_transfer (count : UInt32) (words : List FifoWord) :
    (transfer b (.budget polls) fuel count words).Within
      (⟨0, 0, 2⟩ + sendingEffort polls words.length) := by
  refine (Within.perform .enter).bind (⟨0, 0, 2⟩ + sendingEffort polls words.length) ?_ fun _ => ?_
  · simp [Effort.le_iff, Effort.ofAction]
  refine (Block.within_write .noCharsForTx count).bind
    (⟨0, 0, 1⟩ + sendingEffort polls words.length) ?_ fun _ => ?_
  · simp [Effort.le_iff]; omega
  refine (Block.within_write .cr Command.resetTxReady).bind _ le_rfl fun _ => ?_
  refine (within_sendWords words).bind 0 ?_ fun _ => ?_
  · simp [Effort.le_iff]
  · exact (Within.perform .leave).bind 0 (by decide) fun _ => trivial

/-- **A transfer.** A text that is refused costs nothing. -/
theorem within_transmit (text : List UInt8) :
    (transmit b (.budget polls) fuel text).Within (effort polls text) := by
  by_cases htext : text = [] ∨ 0x100000000 ≤ physicalLength text
  · rw [transmit_of_refused htext]
    trivial
  · obtain ⟨hne, hfit⟩ := not_or.mp htext
    obtain ⟨count, hcount, -⟩ := count?_of_lt (Nat.lt_of_not_le hfit)
    have hwords : (words text).length = (wordsFor (UInt64.ofNat (physicalLength text))).toNat := by
      rw [length_words, toNat_wordsFor, UInt64.toNat_ofNat', Nat.mod_eq_of_lt (by omega)]
    have hsum : ⟨1, 0, 0⟩ + PollPolicy.effort polls +
        (⟨0, 0, 2⟩ + sendingEffort polls (words text).length) ≤ effort polls text := by
      simp only [effort, PollPolicy.effort, sendingEffort, hwords, Effort.le_iff, Effort.add_reads,
        Effort.add_delays, Effort.add_writes, Nat.succ_mul]
      omega
    rw [transmit_of_count? hne hcount]
    refine within_awaitIdle.bind _ hsum fun r => ?_
    cases r with
    | error _ => trivial
    | ok _ => exact within_transfer count (words text)

end Transmit

namespace Receive

variable {b : Block}

theorem within_clearOverrun : (clearOverrun b).Within ⟨1, 0, 1⟩ := by
  refine (Block.within_read .sr).bind ⟨0, 0, 1⟩ (by decide) fun v => ?_
  split
  · exact Block.within_write .cr Command.resetErrorStatus
  · trivial

theorem within_forceOut : (forceOut b).Within ⟨1, 0, 3⟩ :=
  (Block.within_write .cr Command.forceStale).bind ⟨1, 0, 2⟩ (by decide) fun _ =>
    (Block.within_read .rf).bind ⟨0, 0, 2⟩ (by decide) fun _ =>
    (Block.within_write .cr Command.resetStaleInterrupt).bind ⟨0, 0, 1⟩ (by decide) fun _ =>
    (Block.within_write .dmrx receiveOneWord).bind 0 (by decide) fun _ => trivial

theorem within_fetch : (fetch b).Within effort := by
  refine within_clearOverrun.bind ⟨3, 0, 3⟩ (by decide) fun _ => ?_
  refine (Block.within_read .sr).bind ⟨2, 0, 3⟩ (by decide) fun v => ?_
  split
  · exact (Block.within_read .rf).bind ⟨1, 0, 3⟩ (by decide) fun _ => trivial
  · refine (Block.within_read .rxfs).bind ⟨1, 0, 3⟩ (by decide) fun count => ?_
    dsimp only
    split
    · trivial
    · exact within_forceOut.bind 0 (by decide) fun _ => trivial

end Receive

namespace Driver

variable {slots : Nat} {d : Driver slots} {polls : UInt32} {fuel : Nat} {port : PortId}

/-! ### Sending -/

theorem within_onPort {α : Type} {operation : Block → Program (Except IoError α)} {e : Effort}
    (h : ∀ base, (operation (d.block base)).Within e) : (d.onPort port operation).Within e := by
  unfold onPort
  split
  · trivial
  · exact h _

theorem within_write (hpoll : d.config.poll = .budget polls) (text : List UInt8) :
    (d.write fuel port text).Within (Transmit.effort polls text) := by
  refine within_onPort fun base => ?_
  rw [hpoll]
  exact Transmit.within_transmit text

theorem within_flush (hpoll : d.config.poll = .budget polls) :
    (d.flush fuel port).Within (PollPolicy.effort polls) := by
  refine within_onPort fun base => ?_
  rw [hpoll]
  exact Block.within_waitFor polls fuel .sr Status.txEmpty

/-- What follows the write of a stream operation is over at once. -/
theorem within_write_bind {α : Type} {k : Except IoError Unit → Program α}
    (hpoll : d.config.poll = .budget polls) (text : List UInt8) (hk : ∀ r, (k r).Within 0) :
    ((d.write fuel port text).bind k).Within (Transmit.effort polls text) :=
  (within_write hpoll text).bind 0 (by simp [Effort.le_iff]) hk

theorem within_writeBytes (hpoll : d.config.poll = .budget polls) (text : List UInt8) :
    (d.writeBytes fuel port text).Within (Transmit.effort polls text) := by
  unfold writeBytes
  split
  · trivial
  · refine within_write_bind hpoll text fun r => ?_
    cases r <;> trivial

theorem within_writeAll (hpoll : d.config.poll = .budget polls) (text : List UInt8) :
    (d.writeAll fuel port text).Within (Transmit.effort polls text) := by
  unfold writeAll
  split
  · trivial
  · refine (within_writeBytes hpoll text).bind 0 (by simp [Effort.le_iff]) fun r => ?_
    cases r <;> trivial

theorem within_writeText (hpoll : d.config.poll = .budget polls) (text : List UInt8) :
    (d.writeText fuel port text).Within (Transmit.effort polls text) := by
  unfold writeText
  split
  · trivial
  · refine within_write_bind hpoll text fun r => ?_
    cases r <;> trivial

theorem within_writePieces (hpoll : d.config.poll = .budget polls) (pieces : List (List UInt8)) :
    (d.writePieces fuel port pieces).Within (pieces.map (Transmit.effort polls)).sum := by
  induction pieces with
  | nil => trivial
  | cons piece rest ih =>
    refine (within_writeText hpoll piece).bind _ le_rfl fun r => ?_
    cases r with
    | error _ => trivial
    | ok _ => exact ih

/-! ### Receiving without waiting -/

theorem within_setCache (slot : Nat) (cache : RxCache) : (d.setCache slot cache).Within 0 := by
  unfold setCache
  split <;> trivial

theorem within_takeFrom (slot : Nat) (cache : RxCache) : (d.takeFrom slot cache).Within 0 := by
  unfold takeFrom
  split
  · trivial
  · exact (within_setCache slot _).bind 0 (by decide) fun _ => trivial

theorem within_getChar : (d.getChar fuel port false).Within Receive.effort := by
  have hcache : (d.cache port.index).Within 0 := by
    unfold cache
    split <;> trivial
  unfold getChar
  split
  · trivial
  · refine hcache.bind Receive.effort (by decide) fun cache => ?_
    split
    · refine Receive.within_fetch.bind 0 (by decide) fun r => ?_
      cases r with
      | none => trivial
      | some received => exact within_takeFrom port.index _
    · exact (within_takeFrom port.index cache).mono (Effort.zero_le _)

/-- What a number of reads that do not wait can cost. -/
def readsEffort (most : Nat) : Effort := ⟨4 * most, 0, 4 * most⟩

/-- One such read, and those after it. -/
theorem within_getChar_bind {α : Type} {k : Except IoError UInt8 × Driver slots → Program α}
    {most : Nat} (hk : ∀ r, (k r).Within (readsEffort most)) :
    ((d.getChar fuel port false).bind k).Within (readsEffort (most + 1)) := by
  refine within_getChar.bind (readsEffort most) ?_ hk
  simp only [readsEffort, Receive.effort, Effort.le_iff, Effort.add_reads, Effort.add_delays,
    Effort.add_writes]
  omega

theorem within_drain (most : Nat) : (d.drain fuel port most).Within (readsEffort most) := by
  induction most generalizing d with
  | zero => trivial
  | succ most ih =>
    refine within_getChar_bind fun r => ?_
    obtain ⟨r, d'⟩ := r
    cases r with
    | error _ => trivial
    | ok _ => exact ih.bind 0 (by simp [Effort.le_iff]) fun _ => trivial

theorem within_takeReady (room : Nat) : (d.takeReady fuel port room).Within (readsEffort room) := by
  induction room generalizing d with
  | zero => trivial
  | succ room ih =>
    refine within_getChar_bind fun r => ?_
    obtain ⟨r, d'⟩ := r
    cases r with
    | error e => cases e <;> trivial
    | ok _ => exact ih.bind 0 (by simp [Effort.le_iff]) fun _ => trivial

/-! ### Bringing up a port -/

theorem within_programBlock (config : Config) (b : Block) :
    (programBlock config b).Within ⟨0, 0, 6⟩ :=
  (Block.within_write .csr _).bind ⟨0, 0, 5⟩ (by decide) fun _ =>
    (Within.perform .barrier).bind ⟨0, 0, 5⟩ (by decide) fun _ =>
    (Block.within_write .mr1 _).bind ⟨0, 0, 4⟩ (by decide) fun _ =>
    (Block.within_write .mr2 _).bind ⟨0, 0, 3⟩ (by decide) fun _ =>
    (Block.within_write .cr _).bind ⟨0, 0, 2⟩ (by decide) fun _ =>
    (Block.within_write .cr _).bind ⟨0, 0, 1⟩ (by decide) fun _ => Block.within_write .dmen _

theorem within_selectProtocol (wrapper : Address) : (selectProtocol wrapper).Within ⟨0, 0, 1⟩ :=
  Within.require.bind ⟨0, 0, 1⟩ (by decide) fun _ =>
    (Within.perform _).bind 0 (by simp only [Effort.ofAction]; decide) fun _ => Within.perform .barrier

/-- Preparing a block takes six writes, and one more for a wrapper. -/
theorem within_prepare (config : Config) (board : Board) (number : UInt8)
    (wrapper : Option Address) (b : Block) :
    (prepare config board number wrapper b).Within ⟨0, 0, 7⟩ := by
  have hclock : (board.configureClock number).Within 0 := by
    cases board with
    | ready => trivial
    | hooks => exact Within.perform _
  have hpads : (board.configurePads number).Within 0 := by
    cases board with
    | ready => trivial
    | hooks => exact Within.perform _
  refine hclock.bind ⟨0, 0, 7⟩ (by decide) fun _ =>
    (Within.perform .barrier).bind ⟨0, 0, 7⟩ (by decide) fun _ =>
    hpads.bind ⟨0, 0, 7⟩ (by decide) fun _ =>
    (Within.perform .barrier).bind ⟨0, 0, 7⟩ (by decide) fun _ => ?_
  cases wrapper with
  | none => exact (within_programBlock config b).mono (by decide)
  | some address =>
    exact (within_selectProtocol address).bind ⟨0, 0, 6⟩ (by decide) fun _ =>
      within_programBlock config b

end Driver

/-- What sending the banner can cost. -/
def Config.bannerEffort (config : Config) (polls : UInt32) : Effort :=
  match config.banner with
  | none => 0
  | some text => Transmit.effort polls text

theorem Driver.within_init {slots : Nat} {d : Driver slots} {polls : UInt32} {fuel : Nat}
    (hpoll : d.config.poll = .budget polls) (board : Board) (number : UInt8)
    (wrapper : Option Address) (base : Address) :
    (d.init fuel board number wrapper base).Within
      (⟨0, 0, 7⟩ + d.config.bannerEffort polls) := by
  by_cases haccepts : d.Accepts base
  · have hbanner : (sendBanner d.config fuel (d.block base)).Within (d.config.bannerEffort polls) := by
      rw [sendBanner, Config.bannerEffort, hpoll]
      cases d.config.banner with
      | none => trivial
      | some text => exact Transmit.within_transmit text
    have hadd : (d.addPort base).Within 0 := by
      unfold addPort
      split
      · trivial
      · exact (within_setCache _ _).bind 0 (by decide) fun _ => trivial
    rw [init_of_accepted haccepts]
    refine (within_prepare d.config board number wrapper (d.block base)).bind _ le_rfl
      fun _ => hbanner.bind 0 (by simp [Effort.le_iff]) fun r => ?_
    cases r with
    | error _ => trivial
    | ok _ => exact hadd
  · obtain ⟨e, -, hrefused⟩ := init_of_not_accepted haccepts
    rw [hrefused]
    trivial

/-! ## Calls -/

/-- What a call can cost under a budget. A call that waits for a character has no bound. -/
def Call.effort? (polls : UInt32) (config : Config) : Call → Option Effort
  | .init _ _ _ _ => some (⟨0, 0, 7⟩ + config.bannerEffort polls)
  | .putChar _ byte => some (Transmit.effort polls [byte])
  | .write _ text => some (Transmit.effort polls text)
  | .flush _ => some (PollPolicy.effort polls)
  | .getChar _ true => none
  | .getChar _ false => some Receive.effort
  | .drain _ most => some (Driver.readsEffort most)
  | .borrow _ => some 0
  | .writeBytes _ text => some (Transmit.effort polls text)
  | .writeAll _ text => some (Transmit.effort polls text)
  | .readBytes _ 0 => some 0
  | .readBytes _ (_ + 1) => none
  | .readExact _ 0 => some 0
  | .readExact _ (_ + 1) => none
  | .writeText _ text => some (Transmit.effort polls text)
  | .writePieces _ pieces => some (pieces.map (Transmit.effort polls)).sum

/-- **No call costs more than its bound.** -/
theorem Call.within_program {slots : Nat} {d : Driver slots} {polls : UInt32} {fuel : Nat}
    {c : Call} {e : Effort} (hpoll : d.config.poll = .budget polls)
    (h : c.effort? polls d.config = some e) : (c.program fuel d).Within e := by
  -- what a call answers is made of the result of one operation
  have hanswer : ∀ {α : Type} {p : Program α} {k : α → Program (Reply × Driver slots)},
      p.Within e → (∀ a, (k a).Within 0) → (p.bind k).Within e :=
    fun hp hk => hp.bind 0 (by simp [Effort.le_iff]) hk
  cases c with
  | init board number wrapper base =>
    obtain rfl := Option.some.inj h
    exact hanswer (Driver.within_init hpoll board number wrapper base) fun _ => trivial
  | putChar port byte =>
    obtain rfl := Option.some.inj h
    exact hanswer (Driver.within_write hpoll [byte]) fun _ => trivial
  | write port text =>
    obtain rfl := Option.some.inj h
    exact hanswer (Driver.within_write hpoll text) fun _ => trivial
  | flush port =>
    obtain rfl := Option.some.inj h
    exact hanswer (Driver.within_flush hpoll) fun _ => trivial
  | getChar port wait =>
    cases wait with
    | true => cases h
    | false =>
      obtain rfl := Option.some.inj h
      exact hanswer Driver.within_getChar fun _ => trivial
  | drain port most =>
    obtain rfl := Option.some.inj h
    exact hanswer (Driver.within_drain most) fun _ => trivial
  | borrow port =>
    exact hanswer (Driver.within_onPort fun _ => trivial) fun _ => trivial
  | writeBytes port text =>
    obtain rfl := Option.some.inj h
    exact hanswer (Driver.within_writeBytes hpoll text) fun _ => trivial
  | writeAll port text =>
    obtain rfl := Option.some.inj h
    exact hanswer (Driver.within_writeAll hpoll text) fun _ => trivial
  | readBytes port room | readExact port room =>
    cases room with
    | zero => trivial
    | succ room => cases h
  | writeText port text =>
    obtain rfl := Option.some.inj h
    exact hanswer (Driver.within_writeText hpoll text) fun _ => trivial
  | writePieces port pieces =>
    obtain rfl := Option.some.inj h
    exact hanswer (Driver.within_writePieces hpoll pieces) fun _ => trivial

end PolledUart

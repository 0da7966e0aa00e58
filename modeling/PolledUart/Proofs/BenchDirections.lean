import PolledUart.Proofs.HeededBits
import PolledUart.Proofs.Layouts

/-!
# The two directions of a bench block

Sending and receiving share the status and the command register of a block, and in one layout
the data register, too. Yet each works on a part of the block of its own: `Bench.receiver` is
what receiving works on, `Bench.sender` what sending works on. Neither direction touches the
part of the other, and of the shared status each heeds its own bits only.

* `Bench.shows_receiver`, `Bench.shows_sender` — each direction on its own part.
* `Bench.spares_receiver`, `Bench.spares_sender` — and beside the part of the other.
-/

namespace PolledUart

open Program Sim

/-! ### The requests of the directions -/

/-- What sending on a block asks for. -/
inductive Request.Sending (b : Block) : Request → Prop where
  /-- A look at one of the status registers. -/
  | look {q : Register} : q ∈ [Register.sr, .isr] → Sending b (.read (b.location q))
  /-- The count, or a word. -/
  | data {q : Register} {v : UInt32} : q ∈ [Register.noCharsForTx, .tf] →
      Sending b (.act (.write (b.location q) v))
  /-- A command to the transmitter. -/
  | command {v : UInt32} : v ∈ [Command.resetTxReady, Command.resetTx] →
      Sending b (.act (.write (b.location .cr) v))
  /-- No access. -/
  | aside {c : Action} : (∀ a v, c ≠ .write a v) → Sending b (.act c)
  /-- An end without a value. -/
  | stop : Sending b .stop

/-- What receiving from a block asks for. -/
inductive Request.Receiving (b : Block) : Request → Prop where
  /-- A look at the status or at what has arrived. -/
  | look {q : Register} : q ∈ [Register.sr, .rxfs, .rf] → Receiving b (.read (b.location q))
  /-- A command to the receiver. -/
  | command {v : UInt32} :
      v ∈ [Command.resetErrorStatus, Command.forceStale, Command.resetStaleInterrupt] →
      Receiving b (.act (.write (b.location .cr) v))
  /-- The receiver is armed again. -/
  | rearm {v : UInt32} : Receiving b (.act (.write (b.location .dmrx) v))
  /-- An end without a value. -/
  | stop : Receiving b .stop

theorem Transmit.allowed_sending (b : Block) : Transmit.Allowed b (Request.Sending b) where
  stop := fun _ _ => .stop
  look := fun _ hq => .look hq
  delay := .aside fun _ _ => nofun
  enter := .aside fun _ _ => nofun
  leave := .aside fun _ _ => nofun
  count := fun _ => .data (by decide)
  command := fun _ hv => .command hv
  data := fun _ => .data (by decide)

theorem Receive.allowed_receiving (b : Block) : Receive.Allowed b (Request.Receiving b) where
  stop := fun _ _ => .stop
  look := fun _ hq => .look hq
  command := fun _ hv => .command hv
  rearm := .rearm

/-! ### The bits of the directions -/

/-- Some bits of the status register of a block, and all bits of every other register. -/
def Block.statusBits (b : Block) (mask : UInt32) (a : Address) : UInt32 :=
  if a = b.location .sr then mask else 0xffffffff

/-- The bits of the status that tell about the transmitter. -/
def Status.sending : UInt32 := Status.txReady ||| Status.txEmpty

/-- The bits of the status that tell about the receiver. -/
def Status.receiving : UInt32 := Status.rxReady ||| Status.overrun

section Bits

variable {b : Block} (hm : Bench.TellsApart b.map)

theorem Block.statusBits_sr (b : Block) (mask : UInt32) :
    b.statusBits mask (b.location .sr) = mask := if_pos rfl

include hm

theorem Block.statusBits_of_ne (mask : UInt32) {q : Register}
    (hq : q ∈ [Register.isr, .rxfs, .rf]) :
    b.statusBits mask (b.location q) = 0xffffffff := by
  have hne : b.map.offset q ≠ b.map.offset .sr :=
    hm.reads .sr (by decide) q (by revert q; decide) (by rintro rfl; revert hq; decide)
  exact if_neg fun heq => hne (location_inj.1 heq)

theorem Transmit.heeded_statusBits : Transmit.Heeded b (b.statusBits Status.sending) where
  empty := by
    rw [b.statusBits_sr]
    decide
  ready := by
    rw [b.statusBits_sr]
    decide
  taken := by
    rw [Block.statusBits_of_ne hm _ (by decide)]
    decide

theorem Receive.heeded_statusBits : Receive.Heeded b (b.statusBits Status.receiving) where
  overrun := by
    rw [b.statusBits_sr]
    decide
  ready := by
    rw [b.statusBits_sr]
    decide
  state := Block.statusBits_of_ne hm _ (by decide)
  data := Block.statusBits_of_ne hm _ (by decide)

end Bits

/-! ### The parts of the block -/

namespace Sim.Bench

/-- What receiving works on. -/
structure Receiver where
  base : Address
  map : RegisterMap
  rx : List UInt8
  stale : Bool
  overrun : Bool

/-- What sending works on. -/
structure Sender where
  base : Address
  map : RegisterMap
  transfersBack : List Transfer
  dataWrites : Nat
  stallAt : Option Nat
  txStuck : Bool
  txBusyPolls : Nat
  srBusyPolls : Nat
  waited : UInt32

/-- The part of a block that receives. -/
def receiver (d : Bench) : Receiver := ⟨d.base, d.map, d.rx, d.stale, d.overrun⟩

/-- The part of a block that sends. -/
def sender (d : Bench) : Sender :=
  ⟨d.base, d.map, d.transfersBack, d.dataWrites, d.stallAt, d.txStuck, d.txBusyPolls,
    d.srBusyPolls, d.waited⟩

/-- The receiver answers where the driver looks for it. -/
def Receiver.Ready (b : Block) (r : Receiver) : Prop := r.base = b.base ∧ r.map = b.map

/-- The sender answers where the driver looks for it, and its status does not pretend to be
busy. -/
def Sender.Ready (b : Block) (s : Sender) : Prop :=
  s.base = b.base ∧ s.map = b.map ∧ s.srBusyPolls = 0

variable {b : Block} {d d' d₁ d₂ : Bench} {q : Register} {v : UInt32}

/-! #### What the parts show -/

/-- The status is made of flags for the two parts. -/
theorem readStatus_receiving (d : Bench) :
    d.readStatus.1 &&& Status.receiving =
      (if 4 ≤ d.rx.length then Status.rxReady else 0) |||
        (if d.overrun then Status.overrun else 0) := by
  have hbits : ∀ ready takes idle lost : Bool,
      ((if ready then Status.rxReady else 0) ||| (if takes then Status.txReady else 0) |||
        (if idle then Status.txEmpty else 0) ||| (if lost then Status.overrun else 0)) &&&
          Status.receiving =
        (if ready then Status.rxReady else 0) ||| (if lost then Status.overrun else 0) := by
    decide
  have hstatus : d.status &&& Status.receiving =
      (if decide (4 ≤ d.rx.length) then Status.rxReady else 0) |||
        (if d.overrun then Status.overrun else 0) :=
    hbits _ d.takesWords d.idle d.overrun
  simp only [decide_eq_true_eq] at hstatus
  have hbusy : ~~~(Status.txReady ||| Status.txEmpty) &&& Status.receiving = Status.receiving := by
    decide
  unfold readStatus
  split
  · exact hstatus
  · rw [UInt32.and_assoc, hbusy, hstatus]

theorem status_sending (d : Bench) :
    d.status &&& Status.sending =
      (if d.takesWords then Status.txReady else 0) ||| (if d.idle then Status.txEmpty else 0) := by
  have hbits : ∀ ready takes idle lost : Bool,
      ((if ready then Status.rxReady else 0) ||| (if takes then Status.txReady else 0) |||
        (if idle then Status.txEmpty else 0) ||| (if lost then Status.overrun else 0)) &&&
          Status.sending =
        (if takes then Status.txReady else 0) ||| (if idle then Status.txEmpty else 0) := by
    decide
  exact hbits _ d.takesWords d.idle d.overrun

theorem look_receiver (h : d₂.receiver = d₁.receiver) (hq : q ∈ [Register.sr, .rxfs, .rf]) :
    (d₁.look q).1 &&& b.statusBits Status.receiving (b.location q) =
        (d₂.look q).1 &&& b.statusBits Status.receiving (b.location q) ∧
      (d₂.look q).2.receiver = (d₁.look q).2.receiver := by
  obtain ⟨hbase, hmap, hrx, hstale, hoverrun⟩ := Receiver.mk.inj h
  simp only [List.mem_cons, List.not_mem_nil, or_false] at hq
  rcases hq with rfl | rfl | rfl
  · refine ⟨?_, ?_⟩
    · rw [b.statusBits_sr]
      show d₁.readStatus.1 &&& _ = d₂.readStatus.1 &&& _
      rw [readStatus_receiving, readStatus_receiving, hrx, hoverrun]
    · have hsame : ∀ d : Bench, (d.look .sr).2.receiver = d.receiver := by
        intro d
        show d.readStatus.2.receiver = _
        unfold readStatus
        split <;> rfl
      rw [hsame, hsame, h]
  · have hstate : d₂.receiveState = d₁.receiveState := by rw [receiveState, receiveState, hrx]
    exact ⟨congrArg (· &&& _) hstate.symm, h⟩
  · have hdata : d₂.readData.1 = d₁.readData.1 ∧
        d₂.readData.2.receiver = d₁.readData.2.receiver := by
      unfold readData
      rw [hstale, hrx]
      split
      · simp [popWord, receiver, *]
      · split
        · simp [popWord, receiver, *]
        · exact ⟨rfl, h⟩
    exact ⟨congrArg (· &&& _) hdata.1.symm, hdata.2⟩

theorem look_sender (h : d₂.sender = d₁.sender) (hidle : d₁.srBusyPolls = 0)
    (hq : q ∈ [Register.sr, .isr]) :
    (d₁.look q).1 &&& b.statusBits Status.sending (b.location q) =
        (d₂.look q).1 &&& b.statusBits Status.sending (b.location q) ∧
      (d₂.look q).2.sender = (d₁.look q).2.sender := by
  obtain ⟨hbase, hmap, htransfers, hwrites, hstall, hstuck, hpolls, hsr, hwaited⟩ :=
    Sender.mk.inj h
  have htakes : d₂.takesWords = d₁.takesWords := by
    rw [takesWords, takesWords, stalled, stalled, hstall, hstuck, hwrites]
  have hempty : d₂.idle = d₁.idle := by rw [Bench.idle, Bench.idle, htakes, hpolls]
  simp only [List.mem_cons, List.not_mem_nil, or_false] at hq
  rcases hq with rfl | rfl
  · have hstatus : ∀ d : Bench, d.srBusyPolls = 0 → d.look .sr = (d.status, d) := by
      intro d hd
      show d.readStatus = _
      unfold readStatus
      rw [hd]
    rw [hstatus _ hidle, hstatus _ (hsr.trans hidle), b.statusBits_sr]
    exact ⟨by rw [status_sending, status_sending, htakes, hempty], h⟩
  · have hdata : d₂.readInterruptStatus.1 = d₁.readInterruptStatus.1 ∧
        d₂.readInterruptStatus.2.sender = d₁.readInterruptStatus.2.sender := by
      unfold readInterruptStatus
      rw [htakes, hpolls]
      split
      · split
        · exact ⟨rfl, h⟩
        · simp [sender, *]
      · exact ⟨rfl, h⟩
    exact ⟨congrArg (· &&& _) hdata.1.symm, hdata.2⟩

/-! #### What a write does to them -/

theorem put_receiver (h : d₂.receiver = d₁.receiver) (q : Register) (v : UInt32) :
    (d₂.put q v).receiver = (d₁.put q v).receiver := by
  obtain ⟨hbase, hmap, hrx, hstale, hoverrun⟩ := Receiver.mk.inj h
  unfold put
  split
  · unfold takeWord
    dsimp only
    split <;> split <;> simp [receiver, *]
  · unfold obey
    dsimp only
    repeat' split
    all_goals simp [receiver, *]
  · unfold store
    dsimp only
    split <;> split <;> simp [receiver, *]

theorem put_sender (h : d₂.sender = d₁.sender) (q : Register) (v : UInt32) :
    (d₂.put q v).sender = (d₁.put q v).sender := by
  obtain ⟨hbase, hmap, htransfers, hwrites, hstall, hstuck, hpolls, hsr, hwaited⟩ :=
    Sender.mk.inj h
  unfold put
  split
  · unfold takeWord
    dsimp only
    rw [htransfers]
    split <;> simp [sender, *]
  · unfold obey
    dsimp only
    repeat' split
    all_goals simp [sender, *]
  · unfold store
    dsimp only
    rw [hmap]
    split <;> simp [sender, *]

theorem look_ready (h : d.sender.Ready b) (hq : q ∈ [Register.sr, .isr]) :
    (d.look q).2.sender.Ready b := by
  obtain ⟨hbase, hmap, hidle⟩ := h
  have hidle' : d.srBusyPolls = 0 := hidle
  simp only [List.mem_cons, List.not_mem_nil, or_false] at hq
  rcases hq with rfl | rfl
  · show d.readStatus.2.sender.Ready b
    unfold readStatus
    rw [hidle']
    exact ⟨hbase, hmap, hidle⟩
  · show d.readInterruptStatus.2.sender.Ready b
    unfold readInterruptStatus
    repeat' split
    all_goals exact ⟨hbase, hmap, hidle⟩

theorem put_ready (h : d.sender.Ready b) (q : Register) (v : UInt32) :
    (d.put q v).sender.Ready b := by
  unfold put takeWord obey store
  dsimp only
  repeat' split
  all_goals exact h

/-- Only a delay is noticed by the sender. -/
theorem act_sender {c : Action} (hc : ∀ a v, c ≠ .write a v) (h : d₂.sender = d₁.sender)
    (hact : bus.act c d₁ = .ok () d') :
    d'.base = d₁.base ∧ d'.map = d₁.map ∧ d'.srBusyPolls = d₁.srBusyPolls ∧
      ∃ d'', bus.act c d₂ = .ok () d'' ∧ d''.sender = d'.sender := by
  obtain ⟨hbase, hmap, htransfers, hwrites, hstall, hstuck, hpolls, hsr, hwaited⟩ :=
    Sender.mk.inj h
  cases c with
  | write a v => exact absurd rfl (hc a v)
  | delay us =>
    have hwait : d₁.wait us = .ok () d' := hact
    unfold wait at hwait
    split at hwait
    · rename_i hfits
      obtain ⟨-, rfl⟩ := Outcome.ok.inj hwait
      refine ⟨rfl, rfl, rfl, { d₂ with waited := d₂.waited + us }, ?_, ?_⟩
      · show d₂.wait us = _
        rw [wait, hwaited, if_pos hfits]
      · simp [sender, *]
    · cases hwait
  | _ =>
    obtain ⟨-, rfl⟩ := Outcome.ok.inj hact
    exact ⟨rfl, rfl, rfl, d₂, rfl, h⟩

/-! #### What a control does to them -/

/-- If fewer words have been written, a stall can still be set. -/
theorem control_receiver {k : Control} (h : d₂.receiver = d₁.receiver)
    (hle : d₂.dataWrites ≤ d₁.dataWrites) (hk : control k d₁ = some d') :
    ∃ d'', control k d₂ = some d'' ∧ d''.receiver = d'.receiver ∧
      d''.dataWrites ≤ d'.dataWrites := by
  obtain ⟨hbase, hmap, hrx, hstale, hoverrun⟩ := Receiver.mk.inj h
  cases k with
  | stallAfter words =>
    rw [control] at hk
    split at hk
    · obtain rfl := Option.some.inj hk
      refine ⟨{ d₂ with stallAt := some (d₂.dataWrites + words) }, ?_, h, hle⟩
      rw [control, if_pos (by omega)]
    · cases hk
  | _ =>
    obtain rfl := Option.some.inj hk
    exact ⟨_, rfl, by simp [receiver, *], hle⟩

theorem control_sender {k : Control} (h : d₂.sender = d₁.sender) (hk : control k d₁ = some d') :
    ∃ d'', control k d₂ = some d'' ∧ d''.sender = d'.sender := by
  obtain ⟨hbase, hmap, htransfers, hwrites, hstall, hstuck, hpolls, hsr, hwaited⟩ :=
    Sender.mk.inj h
  cases k with
  | stallAfter words =>
    rw [control] at hk
    split at hk
    · rename_i hfits
      obtain rfl := Option.some.inj hk
      refine ⟨{ d₂ with stallAt := some (d₂.dataWrites + words) }, ?_, by simp [sender, *]⟩
      rw [control, if_pos (by omega)]
    · cases hk
  | _ =>
    obtain rfl := Option.some.inj hk
    exact ⟨_, rfl, by simp [sender, *]⟩

theorem control_ready {k : Control} (h : d.sender.Ready b)
    (hidle : ∀ n, k = .busyStatusPolls n → n = 0) (hk : control k d = some d') :
    d'.sender.Ready b := by
  cases k with
  | busyStatusPolls n =>
    obtain rfl := hidle n rfl
    obtain rfl := Option.some.inj hk
    exact ⟨h.1, h.2.1, rfl⟩
  | stallAfter words =>
    rw [control] at hk
    split at hk
    · obtain rfl := Option.some.inj hk
      exact h
    · cases hk
  | _ =>
    obtain rfl := Option.some.inj hk
    exact h

/-! #### What leaves them alone -/

theorem receiver_look (hq : q ∈ [Register.sr, .isr]) : (d.look q).2.receiver = d.receiver := by
  simp only [List.mem_cons, List.not_mem_nil, or_false] at hq
  rcases hq with rfl | rfl
  · show d.readStatus.2.receiver = _
    unfold readStatus
    split <;> rfl
  · show d.readInterruptStatus.2.receiver = _
    unfold readInterruptStatus
    repeat' split
    all_goals rfl

theorem receiver_put (hq : q ∈ [Register.noCharsForTx, .tf]) (v : UInt32) :
    (d.put q v).receiver = d.receiver := by
  simp only [List.mem_cons, List.not_mem_nil, or_false] at hq
  rcases hq with rfl | rfl
  · show (d.store _ _).receiver = _
    unfold store
    dsimp only
    split <;> rfl
  · show (d.takeWord _).receiver = _
    unfold takeWord
    dsimp only
    split <;> rfl

theorem receiver_obey (hv : v ∈ [Command.resetTxReady, Command.resetTx]) :
    (d.put .cr v).receiver = d.receiver := by
  simp only [List.mem_cons, List.not_mem_nil, or_false] at hv
  rcases hv with rfl | rfl <;> rfl

theorem receiver_act {c : Action} (hc : ∀ a v, c ≠ .write a v) (hact : bus.act c d = .ok () d') :
    d'.receiver = d.receiver := by
  cases c with
  | write a v => exact absurd rfl (hc a v)
  | delay us =>
    have hwait : d.wait us = .ok () d' := hact
    unfold wait at hwait
    split at hwait
    · obtain ⟨-, rfl⟩ := Outcome.ok.inj hwait
      rfl
    · cases hwait
  | _ =>
    obtain ⟨-, rfl⟩ := Outcome.ok.inj hact
    rfl

theorem sender_look (hidle : d.srBusyPolls = 0) (hq : q ∈ [Register.sr, .rxfs, .rf]) :
    (d.look q).2.sender = d.sender := by
  simp only [List.mem_cons, List.not_mem_nil, or_false] at hq
  rcases hq with rfl | rfl | rfl
  · show d.readStatus.2.sender = _
    unfold readStatus
    rw [hidle]
  · rfl
  · show d.readData.2.sender = _
    unfold readData
    repeat' split
    all_goals rfl

theorem sender_obey
    (hv : v ∈ [Command.resetErrorStatus, Command.forceStale, Command.resetStaleInterrupt]) :
    (d.put .cr v).sender = d.sender := by
  simp only [List.mem_cons, List.not_mem_nil, or_false] at hv
  rcases hv with rfl | rfl | rfl <;> rfl

/-- A register that is no count. -/
theorem sender_store {offset : UInt64} (h : offset ≠ d.map.noCharsForTx) (v : UInt32) :
    (d.store offset v).sender = d.sender := by
  unfold store
  rw [if_neg h]
  rfl

/-! #### Each direction on its own part -/

/-- The data writes are only ever counted up. -/
theorem dataWrites_le_of_step {e : Event} (h : bus.Step d e d') :
    d.dataWrites ≤ d'.dataWrites := by
  cases e with
  | read a v =>
    obtain ⟨-, rfl⟩ := Outcome.ok.inj h
    show d.dataWrites ≤ (d.read a).2.dataWrites
    unfold Bench.read readAt readStatus readInterruptStatus readData popWord
    dsimp only
    repeat' split
    all_goals exact Nat.le_refl _
  | act c =>
    cases c with
    | write a v =>
      obtain ⟨-, rfl⟩ := Outcome.ok.inj h
      show d.dataWrites ≤ (d.write a v).dataWrites
      unfold Bench.write writeAt takeWord obey store
      dsimp only
      repeat' split
      all_goals simp only [Nat.le_refl, Nat.le_succ]
    | delay us =>
      have hwait : d.wait us = .ok () d' := h
      unfold wait at hwait
      split at hwait
      · obtain ⟨-, rfl⟩ := Outcome.ok.inj hwait
        exact Nat.le_refl _
      · cases hwait
    | _ =>
      obtain ⟨-, rfl⟩ := Outcome.ok.inj h
      exact Nat.le_refl _

theorem dataWrites_le_of_path {t : List Event} (h : Bus.Path bus.Step d t d') :
    d.dataWrites ≤ d'.dataWrites := by
  induction h with
  | nil => exact Nat.le_refl _
  | cons hstep _ ih => exact Nat.le_trans (dataWrites_le_of_step hstep) ih

section Parts

variable (hm : TellsApart b.map)

include hm

theorem read_eq_of_serves (hd : d.Serves b) (hq : q ∈ Register.readable) :
    bus.read (b.location q) d =
      .ok (d.look q).1 { (d.look q).2 with logged := (d.look q).2.logged + 1 } := by
  show Outcome.ok (d.read (b.location q)).1 (d.read (b.location q)).2 = _
  rw [hd.read_eq_look hm hq]

theorem act_eq_of_serves (hd : d.Serves b) (hq : q ∈ Register.written) (v : UInt32) :
    bus.act (.write (b.location q) v) d = .ok () (put { d with logged := d.logged + 1 } q v) := by
  show Outcome.ok () (d.write (b.location q) v) = _
  rw [hd.write_eq_put hm hq]

/-- **Receiving** works on the receiver. -/
theorem shows_receiver : bus.Shows (b.statusBits Status.receiving) (Request.Receiving b)
    (Receiver.Ready b) receiver where
  read := by
    rintro _ ⟨hq⟩ s₁ s₂ s₁' v hready hview hread
    have hreadable : ∀ q ∈ [Register.sr, .rxfs, .rf], q ∈ Register.readable := by decide
    have hserves : s₁.Serves b := hready
    have hserves' : s₂.Serves b := by rw [← hview] at hready; exact hready
    have hmoved : s₁'.Serves b := by
      obtain ⟨-, rfl⟩ := Outcome.ok.inj hread
      exact hserves.read _
    rw [read_eq_of_serves hm hserves (hreadable _ hq)] at hread
    obtain ⟨rfl, rfl⟩ := Outcome.ok.inj hread
    obtain ⟨hbits, hpart⟩ := look_receiver (b := b) hview hq
    exact ⟨hmoved, _, _, read_eq_of_serves hm hserves' (hreadable _ hq), hbits, hpart⟩
  act := by
    rintro c hc s₁ s₂ s₁' hready hview hact
    obtain ⟨q, v, hwritten, rfl⟩ : ∃ q v, q ∈ Register.written ∧ c = .write (b.location q) v := by
      cases hc with
      | command => exact ⟨_, _, by decide, rfl⟩
      | rearm => exact ⟨_, _, by decide, rfl⟩
    have hserves : s₁.Serves b := hready
    have hserves' : s₂.Serves b := by rw [← hview] at hready; exact hready
    have hmoved : s₁'.Serves b := by
      obtain ⟨-, rfl⟩ := Outcome.ok.inj hact
      exact hserves.write _ _
    rw [act_eq_of_serves hm hserves hwritten] at hact
    obtain ⟨-, rfl⟩ := Outcome.ok.inj hact
    have hlogged : receiver { s₂ with logged := s₂.logged + 1 } =
        receiver { s₁ with logged := s₁.logged + 1 } := hview
    exact ⟨hmoved, _, act_eq_of_serves hm hserves' hwritten v, put_receiver hlogged q v⟩

/-- **Sending** works on the sender. -/
theorem shows_sender : bus.Shows (b.statusBits Status.sending) (Request.Sending b)
    (Sender.Ready b) sender where
  read := by
    rintro _ ⟨hq⟩ s₁ s₂ s₁' v hready hview hread
    have hreadable : ∀ q ∈ [Register.sr, .isr], q ∈ Register.readable := by decide
    have hserves : s₁.Serves b := ⟨hready.1, hready.2.1⟩
    have hserves' : s₂.Serves b := by rw [← hview] at hready; exact ⟨hready.1, hready.2.1⟩
    rw [read_eq_of_serves hm hserves (hreadable _ hq)] at hread
    obtain ⟨rfl, rfl⟩ := Outcome.ok.inj hread
    obtain ⟨hbits, hpart⟩ := look_sender (b := b) hview hready.2.2 hq
    exact ⟨look_ready hready hq, _, _, read_eq_of_serves hm hserves' (hreadable _ hq), hbits, hpart⟩
  act := by
    rintro c hc s₁ s₂ s₁' hready hview hact
    have hserves : s₁.Serves b := ⟨hready.1, hready.2.1⟩
    have hserves' : s₂.Serves b := by rw [← hview] at hready; exact ⟨hready.1, hready.2.1⟩
    by_cases hwrite : ∃ a v, c = .write a v
    · obtain ⟨q, v, hwritten, rfl⟩ : ∃ q v, q ∈ Register.written ∧ c = .write (b.location q) v := by
        cases hc with
        | data hq =>
          have hwritten : ∀ q ∈ [Register.noCharsForTx, .tf], q ∈ Register.written := by decide
          exact ⟨_, _, hwritten _ hq, rfl⟩
        | command => exact ⟨_, _, by decide, rfl⟩
        | aside hc =>
          obtain ⟨a, v, rfl⟩ := hwrite
          exact absurd rfl (hc a v)
      rw [act_eq_of_serves hm hserves hwritten] at hact
      obtain ⟨-, rfl⟩ := Outcome.ok.inj hact
      have hlogged : sender { s₂ with logged := s₂.logged + 1 } =
          sender { s₁ with logged := s₁.logged + 1 } := hview
      have hready' : Sender.Ready b (sender { s₁ with logged := s₁.logged + 1 }) := hready
      exact ⟨put_ready hready' q v, _, act_eq_of_serves hm hserves' hwritten v,
        put_sender hlogged q v⟩
    · obtain ⟨hbase, hmap, hsr, s₂', hact', hpart⟩ :=
        act_sender (fun a v heq => hwrite ⟨a, v, heq⟩) hview hact
      exact ⟨⟨hbase.trans hready.1, hmap.trans hready.2.1, hsr.trans hready.2.2⟩, s₂', hact', hpart⟩

/-- Sending goes unnoticed by the receiver. -/
theorem spares_receiver :
    bus.Spares (Request.Sending b) (Receiver.Ready b) receiver := by
  intro e he s s' hready hstep
  have hserves : s.Serves b := hready
  cases e with
  | read a v =>
    obtain ⟨hq⟩ := he
    have hreadable : ∀ q ∈ [Register.sr, .isr], q ∈ Register.readable := by decide
    have hread : bus.read _ s = .ok v s' := hstep
    rw [read_eq_of_serves hm hserves (hreadable _ hq)] at hread
    obtain ⟨-, rfl⟩ := Outcome.ok.inj hread
    exact receiver_look hq
  | act c =>
    have hact : bus.act c s = .ok () s' := hstep
    cases he with
    | data hq =>
      have hwritten : ∀ q ∈ [Register.noCharsForTx, .tf], q ∈ Register.written := by decide
      rw [act_eq_of_serves hm hserves (hwritten _ hq)] at hact
      obtain ⟨-, rfl⟩ := Outcome.ok.inj hact
      exact receiver_put hq _
    | command hv =>
      rw [act_eq_of_serves hm hserves (by decide)] at hact
      obtain ⟨-, rfl⟩ := Outcome.ok.inj hact
      exact receiver_obey hv
    | aside hc => exact receiver_act hc hact

/-- Receiving goes unnoticed by the sender. -/
theorem spares_sender :
    bus.Spares (Request.Receiving b) (Sender.Ready b) sender := by
  intro e he s s' hready hstep
  have hserves : s.Serves b := ⟨hready.1, hready.2.1⟩
  cases e with
  | read a v =>
    obtain ⟨hq⟩ := he
    have hreadable : ∀ q ∈ [Register.sr, .rxfs, .rf], q ∈ Register.readable := by decide
    have hread : bus.read _ s = .ok v s' := hstep
    rw [read_eq_of_serves hm hserves (hreadable _ hq)] at hread
    obtain ⟨-, rfl⟩ := Outcome.ok.inj hread
    exact sender_look hready.2.2 hq
  | act c =>
    have hact : bus.act c s = .ok () s' := hstep
    cases he with
    | command hv =>
      rw [act_eq_of_serves hm hserves (by decide)] at hact
      obtain ⟨-, rfl⟩ := Outcome.ok.inj hact
      exact sender_obey hv
    | rearm =>
      rw [act_eq_of_serves hm hserves (by decide)] at hact
      obtain ⟨-, rfl⟩ := Outcome.ok.inj hact
      have hcount : s.map.offset .dmrx ≠ s.map.offset .noCharsForTx := by
        rw [hserves.2]
        exact hm.writes _ (by decide) _ (by decide) (by decide)
      exact sender_store (d := { s with logged := s.logged + 1 }) hcount _

end Parts

end Sim.Bench

end PolledUart

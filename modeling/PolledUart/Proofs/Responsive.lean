import PolledUart.Proofs.Attempts
import PolledUart.Proofs.TransmitWrites

/-!
# Transfers that are bound to end

The trace of a completed transfer tells how it went; here the hardware makes it end. As long as
the status shows an empty transmitter that takes words, and goes on to do so whatever a transfer
writes, a transfer is sent (`Bus.Serving`). While the polls of a wait find its bit clear, and the
delays between them complete, the wait gives up when its budget is used up (`Bus.Silent`).

* `Transmit.completes_of_silent` — a transfer that times out in the idle wait.
* `Transmit.Serving.completes_transmit` — a transfer that succeeds.
* `Transmit.Taking.reach` — a transfer that has completed where the first word is taken has found
  all its registers in the address space.
-/

namespace PolledUart

open Newline

variable {σ α : Type} {bus : Bus σ} {b : Block} {policy : PollPolicy} {fuel : Nat} {s s' : σ}
  {t : List Event}

/-- A program completes in one way only. -/
theorem Bus.Completes.unique {p : Program α} {a a' : α} {t' : List Event} {s'' : σ}
    (h : bus.Completes p s t a s') (h' : bus.Completes p s t' a' s'') :
    a' = a ∧ t' = t ∧ s'' = s' := by
  have hsame := (Bus.completes_iff.1 h).symm.trans (Bus.completes_iff.1 h')
  simp only [Run.mk.injEq, Outcome.ok.injEq] at hsame
  obtain ⟨⟨rfl, rfl⟩, rfl⟩ := hsame
  exact ⟨rfl, rfl, rfl⟩

/-! ### Waits -/

namespace Block

variable {q : Register} {mask v : UInt32} {r : Except IoError Unit}

/-- A register that has been waited for has an address. -/
theorem address?_of_waitFor (h : bus.Completes (b.waitFor policy fuel q mask) s t r s') :
    b.address? q = some (b.location q) := by
  obtain ⟨_, _, _, _, haddress, -, -⟩ := Bus.completes_bind_iff.1 h
  exact (completes_address_iff.1 haddress).1

/-- A wait for a bit that is set is over at once. -/
theorem completes_waitFor_of_set (policy : PollPolicy) (fuel : Nat)
    (ha : b.address? q = some (b.location q))
    (hread : bus.read (b.location q) s = .ok v s') (hv : v &&& mask ≠ 0) :
    bus.Completes (b.waitFor policy fuel q mask) s [b.readEvent q v] (.ok ()) s' := by
  rw [waitFor, address_of_address? ha, Program.done_bind, PollPolicy.wait, PollPolicy.waitFrom]
  refine .read hread ?_
  rw [if_pos hv]
  exact .done

end Block

/-- Polls of an address find no bit of a mask. A state of `S n` leaves room for `n` more
microseconds of delays. -/
structure Bus.Silent (bus : Bus σ) (address : Address) (mask : UInt32) (S : Nat → σ → Prop) :
    Prop where
  read : ∀ n s, S n s → ∃ v s', bus.read address s = .ok v s' ∧ v &&& mask = 0 ∧ S n s'
  delay : ∀ n s, S (n + 1) s → ∃ s', bus.delay 1 s = .ok () s' ∧ S n s'
  less : ∀ n s, S (n + 1) s → S n s

section Silence

variable {S : Nat → σ → Prop} {address : Address} {mask polls : UInt32} {turns n : Nat}

theorem Bus.Silent.add (h : bus.Silent address mask S) (k : Nat) (hs : S (k + n) s) : S n s := by
  induction k with
  | zero => rwa [Nat.zero_add] at hs
  | succ k ih => exact ih (h.less _ _ (by rwa [Nat.add_right_comm] at hs))

namespace PollPolicy

variable {v misses misses' : UInt32} {s₁ s₂ : σ} {r : Except IoError Unit}

/-- A wait that polls again has counted one more miss, and has not used up its budget. -/
theorem toNat_of_again (h : (PollPolicy.budget polls).miss misses = .again misses') :
    misses'.toNat = misses.toNat + 1 ∧ misses'.toNat < polls.toNat := by
  unfold miss at h
  dsimp only at h
  split at h
  · rename_i hfit
    split at h
    · cases h
    · rename_i hlt
      obtain rfl := AfterMiss.again.inj h
      refine ⟨?_, UInt32.lt_iff_toNat_lt.1 (UInt32.not_le.1 hlt)⟩
      rw [UInt32.toNat_add]
      exact Nat.mod_eq_of_lt hfit
  · cases h

/-- The last poll of a wait. -/
theorem completes_waitFrom_giveUp (hread : bus.read address s = .ok v s₁) (hv : v &&& mask = 0)
    (hmiss : policy.miss misses = .giveUp) :
    bus.Completes (policy.waitFrom address mask turns misses) s [.read address v]
      (.error .timeout) s₁ := by
  unfold waitFrom
  refine .read hread ?_
  rw [if_neg (by simpa using hv), hmiss]
  exact .done

/-- A poll of a wait that goes on. -/
theorem completes_waitFrom_again (hread : bus.read address s = .ok v s₁) (hv : v &&& mask = 0)
    (hmiss : policy.miss misses = .again misses') (hdelay : bus.delay 1 s₁ = .ok () s₂)
    (hrest : bus.Completes (policy.waitFrom address mask turns misses') s₂ t r s') :
    bus.Completes (policy.waitFrom address mask (turns + 1) misses) s
      (.read address v :: .act (.delay 1) :: t) r s' := by
  unfold waitFrom
  refine .read hread ?_
  rw [if_neg (by simpa using hv), hmiss]
  exact .act hdelay hrest

/-- **A wait that finds its bit clear** gives up when its budget is used up. -/
theorem completes_waitFrom_of_silent (h : bus.Silent address mask S)
    (hcounted : (PollPolicy.budget polls).Counted misses)
    (hturns : misses.toNat + turns = polls.toNat) (hs : S (turns + n) s) :
    ∃ t s', bus.Completes ((PollPolicy.budget polls).waitFrom address mask turns misses) s t
      (.error .timeout) s' ∧ S n s' := by
  induction turns generalizing misses s with
  | zero =>
    obtain ⟨v, s₁, hread, hv, hs₁⟩ := h.read _ _ hs
    cases hmiss : (PollPolicy.budget polls).miss misses with
    | giveUp => exact ⟨_, s₁, completes_waitFrom_giveUp hread hv hmiss, h.add _ hs₁⟩
    | fault => exact absurd hmiss hcounted.miss_ne_fault
    | again misses' =>
      obtain ⟨hcount, hlt⟩ := toNat_of_again hmiss
      omega
  | succ turns ih =>
    obtain ⟨v, s₁, hread, hv, hs₁⟩ := h.read _ _ hs
    cases hmiss : (PollPolicy.budget polls).miss misses with
    | giveUp => exact ⟨_, s₁, completes_waitFrom_giveUp hread hv hmiss, h.add _ hs₁⟩
    | fault => exact absurd hmiss hcounted.miss_ne_fault
    | again misses' =>
      obtain ⟨hcount, -⟩ := toNat_of_again hmiss
      obtain ⟨s₂, hdelay, hs₂⟩ := h.delay (turns + n) s₁ (by rwa [Nat.add_right_comm] at hs₁)
      obtain ⟨t, s', hrest, hs'⟩ := ih (.again hmiss) (by omega) hs₂
      exact ⟨_, s', completes_waitFrom_again hread hv hmiss hdelay hrest, hs'⟩

end PollPolicy

theorem Block.completes_waitFor_of_silent {q : Register} (fuel : Nat)
    (ha : b.address? q = some (b.location q)) (h : bus.Silent (b.location q) mask S)
    (hs : S (polls.toNat + n) s) :
    ∃ t s', bus.Completes (b.waitFor (.budget polls) fuel q mask) s t (.error .timeout) s' ∧
      S n s' := by
  rw [waitFor, address_of_address? ha, Program.done_bind]
  exact PollPolicy.completes_waitFrom_of_silent h (PollPolicy.counted_zero _) (Nat.zero_add _) hs

end Silence

namespace Transmit

variable {r : Except IoError Unit} {text : List UInt8}

/-! ### A transmitter that stays busy -/

section Silence

variable {S : Nat → σ → Prop} {polls : UInt32} {n : Nat}

/-- A transfer that finds the transmitter busy looks at both status registers. -/
theorem reach_of_silent (hsr : bus.Silent (b.location .sr) Status.txEmpty S) (hs : S n s)
    (htext : Sendable text) (h : bus.Completes (transmit b policy fuel text) s t r s') :
    b.address? .sr = some (b.location .sr) ∧ b.address? .isr = some (b.location .isr) := by
  obtain ⟨hne, hfit⟩ := htext
  obtain ⟨count, hcount, -⟩ := count?_of_lt hfit
  obtain ⟨r₁, s₁, t₁, hidle⟩ : ∃ r₁ s₁ t₁, bus.Completes (awaitIdle b policy fuel) s t₁ r₁ s₁ := by
    rcases (completes_transmit_iff hne hcount).1 h with ⟨e, -, hidle⟩ | ⟨s₁, t₁, -, hidle, -⟩
    · exact ⟨_, _, _, hidle⟩
    · exact ⟨_, _, _, hidle⟩
  obtain ⟨v, s₂, t₂, t₃, hstatus, hwait, -⟩ := Bus.completes_bind_iff.1 hidle
  obtain ⟨hreach, hread, -⟩ := Block.completes_read_iff.1 hstatus
  obtain ⟨v', s₃, hread', hv', -⟩ := hsr.read _ _ hs
  obtain ⟨rfl, -⟩ := Outcome.ok.inj (hread.symm.trans hread')
  rw [if_pos hv'] at hwait
  exact ⟨hreach, Block.address?_of_waitFor hwait⟩

/-- **A transfer that finds the transmitter busy** and keeps finding it so times out, and has
written nothing. -/
theorem completes_of_silent (fuel : Nat) (hsr : bus.Silent (b.location .sr) Status.txEmpty S)
    (hisr : bus.Silent (b.location .isr) InterruptStatus.txReady S)
    (hreach : b.address? .sr = some (b.location .sr) ∧ b.address? .isr = some (b.location .isr))
    (htext : Sendable text) (hs : S (polls.toNat + n) s) :
    ∃ t s', bus.Completes (transmit b (.budget polls) fuel text) s t (.error .timeout) s' ∧
      Trace.writes t = [] ∧ S n s' := by
  obtain ⟨hne, hfit⟩ := htext
  obtain ⟨count, hcount, -⟩ := count?_of_lt hfit
  obtain ⟨v, s₁, hread, hv, hs₁⟩ := hsr.read _ _ hs
  obtain ⟨t, s', hwait, hs'⟩ :=
    Block.completes_waitFor_of_silent fuel hreach.2 hisr hs₁
  have hidle : bus.Completes (awaitIdle b (.budget polls) fuel) s (b.readEvent .sr v :: t)
      (.error .timeout) s' := by
    refine Bus.completes_bind_iff.2
      ⟨v, s₁, _, t, Block.completes_read_iff.2 ⟨hreach.1, hread, rfl⟩, ?_, rfl⟩
    rw [if_pos hv]
    exact hwait
  exact ⟨_, s', (completes_transmit_iff hne hcount).2 (.inl ⟨_, rfl, hidle⟩),
    (idles_of_completes hidle).writes_eq, hs'⟩

end Silence

/-! ### A transmitter that takes words -/

/-- In the states of `S` the status shows an empty transmitter that takes words. It goes on to do so
when it is looked at, and when a transfer is announced. -/
structure Taking (bus : Bus σ) (b : Block) (S : σ → Prop) : Prop where
  status : ∀ s, S s → ∃ v s', bus.read (b.location .sr) s = .ok v s' ∧ S s' ∧
    v &&& Status.txReady ≠ 0 ∧ v &&& Status.txEmpty ≠ 0
  announce : ∀ q ∈ [Register.noCharsForTx, .cr], ∀ v s, S s →
    ∃ s', bus.write (b.location q) v s = .ok () s' ∧ S s'

/-- It goes on to do so, too, when it is given words. -/
structure Serving (bus : Bus σ) (b : Block) (S : σ → Prop) : Prop extends Taking bus b S where
  data : ∀ v s, S s → ∃ s', bus.write (b.location .tf) v s = .ok () s' ∧ S s'

/-- The registers that a transfer uses where it need not wait are in the address space. -/
def Reaches (b : Block) : Prop :=
  ∀ q ∈ [Register.sr, .noCharsForTx, .cr, .tf], b.address? q = some (b.location q)

section Taking

variable {S : σ → Prop}

theorem words_ne_nil (htext : Sendable text) : words text ≠ [] := by
  intro hwords
  have hlength := length_words text
  have hpos : 0 < physicalLength text :=
    Nat.lt_of_lt_of_le (List.length_pos_iff.2 htext.1) (Nat.le_add_right _ _)
  rw [hwords, List.length_nil] at hlength
  omega

/-- The idle wait does not wait. -/
theorem Taking.idle (h : Taking bus b S) (hs : S s)
    (hidle : bus.Completes (awaitIdle b policy fuel) s t r s') :
    b.address? .sr = some (b.location .sr) ∧ r = .ok () ∧ S s' := by
  obtain ⟨v, s₁, t₁, t₂, hstatus, hwait, -⟩ := Bus.completes_bind_iff.1 hidle
  obtain ⟨hreach, hread, -⟩ := Block.completes_read_iff.1 hstatus
  obtain ⟨v', s₂, hread', hs₂, -, hempty⟩ := h.status s hs
  obtain ⟨rfl, rfl⟩ := Outcome.ok.inj (hread.symm.trans hread')
  rw [if_neg hempty] at hwait
  obtain ⟨-, rfl, rfl⟩ := Bus.completes_done_iff.1 hwait
  exact ⟨hreach, rfl, hs₂⟩

/-- A transfer that completes gives out its first word, so all its registers have an address. -/
theorem Taking.reach (h : Taking bus b S) (hs : S s) (htext : Sendable text)
    (hrun : bus.Completes (transmit b policy fuel text) s t r s') :
    Reaches b ∧ Trace.writes t ≠ [] := by
  obtain ⟨hne, hfit⟩ := htext
  obtain ⟨count, hcount, -⟩ := count?_of_lt hfit
  rcases (completes_transmit_iff hne hcount).1 hrun with
    ⟨e, -, hidle⟩ | ⟨s₁, t₁, t₂, hidle, htransfer, rfl⟩
  · cases (h.idle hs hidle).2.1
  · obtain ⟨hsr, -, hs₁⟩ := h.idle hs hidle
    obtain ⟨_, s₂, u₁, u₂, henter, h₁, rfl⟩ := Bus.completes_bind_iff.1 htransfer
    obtain ⟨hact, -⟩ := Bus.completes_perform_iff.1 henter
    obtain ⟨-, rfl⟩ := Outcome.ok.inj hact
    obtain ⟨_, s₃, u₃, u₄, hannounce, h₂, rfl⟩ := Bus.completes_bind_iff.1 h₁
    obtain ⟨hcharacters, hwrite, rfl⟩ := Block.completes_write_iff.1 hannounce
    obtain ⟨_, hwrite', hs₃⟩ := h.announce .noCharsForTx (by decide) count s₁ hs₁
    obtain ⟨-, rfl⟩ := Outcome.ok.inj (hwrite.symm.trans hwrite')
    obtain ⟨_, s₄, u₅, u₆, hcommand, h₃, rfl⟩ := Bus.completes_bind_iff.1 h₂
    obtain ⟨hcr, hwrite, rfl⟩ := Block.completes_write_iff.1 hcommand
    obtain ⟨_, hwrite', hs₄⟩ := h.announce .cr (by decide) Command.resetTxReady s₃ hs₃
    obtain ⟨-, rfl⟩ := Outcome.ok.inj (hwrite.symm.trans hwrite')
    obtain ⟨r₁, s₅, u₇, u₈, hsend, -, rfl⟩ := Bus.completes_bind_iff.1 h₃
    obtain ⟨w, rest, hwords⟩ := List.exists_cons_of_ne_nil (words_ne_nil ⟨hne, hfit⟩)
    rw [hwords] at hsend
    obtain ⟨r₂, s₆, u₉, u, hwait, hword, rfl⟩ := Bus.completes_bind_iff.1 hsend
    obtain ⟨v, s₇, hread, hs₇, hready, -⟩ := h.status s₄ hs₄
    obtain ⟨rfl, rfl, rfl⟩ :=
      (Block.completes_waitFor_of_set policy fuel hsr hread hready).unique hwait
    obtain ⟨_, _, _, _, hdata, -, -⟩ := Bus.completes_bind_iff.1 hword
    have htf := (Block.completes_write_iff.1 hdata).1
    refine ⟨?_, by simp [Block.writeEvent]⟩
    simp only [Reaches, List.forall_mem_cons]
    exact ⟨hsr, hcharacters, hcr, htf, fun q hq => absurd hq List.not_mem_nil⟩

/-- All words are given out. -/
theorem Serving.completes_sendWords (policy : PollPolicy) (fuel : Nat) (h : Serving bus b S)
    (hreach : Reaches b) (hs : S s) (ws : List FifoWord) :
    ∃ t s', bus.Completes (sendWords b policy fuel ws) s t (.ok ()) s' ∧ S s' := by
  induction ws generalizing s with
  | nil => exact ⟨[], s, .done, hs⟩
  | cons w rest ih =>
    obtain ⟨v, s₁, hread, hs₁, hready, -⟩ := h.status s hs
    obtain ⟨s₂, hwrite, hs₂⟩ := h.data w.raw s₁ hs₁
    obtain ⟨t, s', hrest, hs'⟩ := ih hs₂
    have hwait :=
      Block.completes_waitFor_of_set policy fuel (hreach .sr (by decide)) hread hready
    have hword : bus.Completes (b.write .tf w.raw) s₁ _ () s₂ :=
      Block.completes_write_iff.2 ⟨hreach .tf (by decide), hwrite, rfl⟩
    exact ⟨_, s', Bus.completes_bind_iff.2 ⟨_, s₁, _, _, hwait,
      Bus.completes_bind_iff.2 ⟨_, s₂, _, _, hword, hrest, rfl⟩, rfl⟩, hs'⟩

/-- **A transfer succeeds** where the transmitter goes on to take words. -/
theorem Serving.completes_transmit (policy : PollPolicy) (fuel : Nat) (h : Serving bus b S)
    (hreach : Reaches b) (hs : S s) (htext : Sendable text) :
    ∃ t s', bus.Completes (transmit b policy fuel text) s t (.ok ()) s' ∧ S s' := by
  obtain ⟨hne, hfit⟩ := htext
  obtain ⟨count, hcount, -⟩ := count?_of_lt hfit
  obtain ⟨v, s₁, hread, hs₁, -, hempty⟩ := h.status s hs
  obtain ⟨s₂, hwrite, hs₂⟩ := h.announce .noCharsForTx (by decide) count s₁ hs₁
  obtain ⟨s₃, hwrite', hs₃⟩ := h.announce .cr (by decide) Command.resetTxReady s₂ hs₂
  obtain ⟨u, s', hsend, hs'⟩ :=
    h.completes_sendWords policy fuel hreach hs₃ (words text)
  have hidle : bus.Completes (awaitIdle b policy fuel) s [b.readEvent .sr v] (.ok ()) s₁ := by
    refine Bus.completes_bind_iff.2
      ⟨v, s₁, _, [], Block.completes_read_iff.2 ⟨hreach .sr (by decide), hread, rfl⟩, ?_, rfl⟩
    rw [if_neg hempty]
    exact .done
  have henter : bus.Completes (Program.perform .enter) s₁ _ () s₁ :=
    Bus.completes_perform_iff.2 ⟨rfl, rfl⟩
  have hannounce : bus.Completes (b.write .noCharsForTx count) s₁ _ () s₂ :=
    Block.completes_write_iff.2 ⟨hreach .noCharsForTx (by decide), hwrite, rfl⟩
  have hcommand : bus.Completes (b.command Command.resetTxReady) s₂ _ () s₃ :=
    Block.completes_write_iff.2 ⟨hreach .cr (by decide), hwrite', rfl⟩
  have hleave : bus.Completes (Program.perform .leave) s' _ () s' :=
    Bus.completes_perform_iff.2 ⟨rfl, rfl⟩
  have htransfer : bus.Completes (transfer b policy fuel count (words text)) s₁ _ (.ok ()) s' :=
    Bus.completes_bind_iff.2 ⟨_, s₁, _, _, henter,
      Bus.completes_bind_iff.2 ⟨_, s₂, _, _, hannounce,
      Bus.completes_bind_iff.2 ⟨_, s₃, _, _, hcommand,
      Bus.completes_bind_iff.2 ⟨_, s', _, _, hsend,
      Bus.completes_bind_iff.2 ⟨_, s', _, _, hleave, .done, rfl⟩, rfl⟩, rfl⟩, rfl⟩, rfl⟩
  exact ⟨_, s', (completes_transmit_iff hne hcount).2 (.inr ⟨s₁, _, _, hidle, htransfer, rfl⟩), hs'⟩

end Taking

end Transmit

end PolledUart

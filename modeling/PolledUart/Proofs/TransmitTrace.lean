import PolledUart.Proofs.Completion
import PolledUart.Proofs.Packing

/-!
# The traces of a transfer

Whatever a bus answers, the events of a completed transfer follow a small
grammar: a wait is polls with delays between them (`Polled`), the words go out
one after a poll each until one is given up (`Sends`), the idle wait is one look
at the status and perhaps a wait (`Idles`), and a whole transfer is an idle wait
and then one critical section (`Transmits`).

The grammar says everything a transfer can do on the bus; what is proved of
transfers elsewhere is read off it, and not off the programs.

* `Transmit.transmits_of_completes` — the trace of a completed transfer of a text
  that can be announced is in the grammar.
* `Transmit.transmit_of_refused` — any other text is refused with no event.
-/

namespace PolledUart

/-! ### A wait -/

/-- The events of a wait for a bit of `mask` at an address, and how it ended. -/
inductive Polled (address : Address) (mask : UInt32) : List Event → Except IoError Unit → Prop where
  /-- The bit is set. -/
  | ready {v : UInt32} : v &&& mask ≠ 0 → Polled address mask [.read address v] (.ok ())
  /-- The bit is clear, and this was the last poll. -/
  | gaveUp {v : UInt32} :
      v &&& mask = 0 → Polled address mask [.read address v] (.error .timeout)
  /-- The bit is clear, and the wait goes on a microsecond later. -/
  | again {v : UInt32} {t : List Event} {r : Except IoError Unit} :
      v &&& mask = 0 → Polled address mask t r →
      Polled address mask (.read address v :: .act (.delay 1) :: t) r

namespace Polled

variable {address : Address} {mask : UInt32} {t : List Event} {r : Except IoError Unit}

/-- A wait reads its address and delays, and does nothing else. -/
theorem of_mem (h : Polled address mask t r) {e : Event} (he : e ∈ t) :
    (∃ v, e = .read address v) ∨ e = .act (.delay 1) := by
  induction h with
  | ready _ | gaveUp _ => exact .inl ⟨_, List.mem_singleton.1 he⟩
  | again _ _ ih =>
    rcases List.mem_cons.1 he with rfl | he
    · exact .inl ⟨_, rfl⟩
    rcases List.mem_cons.1 he with rfl | he
    · exact .inr rfl
    · exact ih he

@[simp] theorem writes_eq (h : Polled address mask t r) : Trace.writes t = [] := by
  refine List.filterMap_eq_nil_iff.2 fun e he => ?_
  rcases h.of_mem he with ⟨v, rfl⟩ | rfl <;> rfl

/-- A wait that is given up is given up as timed out. -/
theorem error_eq {e : IoError} (h : Polled address mask t (.error e)) : e = .timeout := by
  generalize hr : Except.error e = r at h
  induction h with
  | ready _ => cases hr
  | gaveUp _ => exact Except.error.inj hr
  | again _ _ ih => exact ih hr

/-- A wait that succeeds ends with the read that saw the bit. -/
theorem eq_append (h : Polled address mask t (.ok ())) :
    ∃ t₁ v, t = t₁ ++ [.read address v] ∧ v &&& mask ≠ 0 := by
  generalize hr : Except.ok () = r at h
  induction h with
  | ready hv => exact ⟨[], _, rfl, hv⟩
  | gaveUp _ => cases hr
  | again _ _ ih =>
    obtain ⟨t₁, v, rfl, hv⟩ := ih hr
    exact ⟨_ :: _ :: t₁, v, rfl, hv⟩

end Polled

section Waits

variable {σ : Type} {bus : Bus σ} {s s' : σ} {t : List Event} {r : Except IoError Unit}

theorem PollPolicy.polled_of_waitFrom {policy : PollPolicy} {address : Address} {mask : UInt32}
    {turns : Nat} {misses : UInt32}
    (h : bus.Completes (policy.waitFrom address mask turns misses) s t r s') :
    Polled address mask t r := by
  induction turns using Nat.strongRecOn generalizing misses s t with
  | ind turns ih =>
    unfold waitFrom at h
    obtain ⟨v, s₁, t₁, hr, hn, rfl⟩ := Bus.completes_read_iff.1 h
    split at hn
    · rename_i hv
      obtain ⟨rfl, rfl, rfl⟩ := Bus.completes_done_iff.1 hn
      exact .ready hv
    · rename_i hv
      split at hn
      · obtain ⟨rfl, rfl, rfl⟩ := Bus.completes_done_iff.1 hn
        exact .gaveUp (Decidable.not_not.1 hv)
      · exact absurd hn Bus.not_completes_fault
      · -- one turn less is left for the polls to come
        split at hn
        · exact absurd hn Bus.not_completes_limit
        · obtain ⟨s₂, t₂, -, hw, rfl⟩ := Bus.completes_act_iff.1 hn
          exact .again (Decidable.not_not.1 hv) (ih _ (Nat.lt_succ_self _) hw)

/-- A wait for a register of a block polls that register. -/
theorem Block.polled_of_waitFor {b : Block} {policy : PollPolicy} {fuel : Nat} {q : Register}
    {mask : UInt32} (h : bus.Completes (b.waitFor policy fuel q mask) s t r s') :
    Polled (b.location q) mask t r := by
  obtain ⟨a, s₁, t₁, t₂, h₁, h₂, rfl⟩ := Bus.completes_bind_iff.1 h
  obtain ⟨-, rfl, rfl, rfl⟩ := Block.completes_address_iff.1 h₁
  exact PollPolicy.polled_of_waitFrom h₂

end Waits

namespace Transmit

/-! ### The grammar -/

/-- The events of sending words, and how it ended: all are out, or a wait was given up and the
transmitter reset. -/
inductive Sends (b : Block) : List FifoWord → List Event → Except IoError Unit → Prop where
  /-- No word is left. -/
  | done : Sends b [] [] (.ok ())
  /-- The FIFO can take a word, and gets it at once. -/
  | word {w : FifoWord} {rest : List FifoWord} {t u : List Event} {r : Except IoError Unit} :
      Polled (b.location .sr) Status.txReady t (.ok ()) → Sends b rest u r →
      Sends b (w :: rest) (t ++ b.writeEvent .tf w.raw :: u) r
  /-- The FIFO does not become ready for the next word. -/
  | abandoned {w : FifoWord} {rest : List FifoWord} {t : List Event} {e : IoError} :
      Polled (b.location .sr) Status.txReady t (.error e) →
      Sends b (w :: rest) (t ++ [b.writeEvent .cr Command.resetTx]) (.error e)

/-- The events of waiting until the previous transfer has left the FIFO, and how it ended. -/
inductive Idles (b : Block) : List Event → Except IoError Unit → Prop where
  /-- The transmitter is empty. -/
  | empty {v : UInt32} : v &&& Status.txEmpty ≠ 0 → Idles b [b.readEvent .sr v] (.ok ())
  /-- It is not, and the interrupt status is polled. -/
  | polled {v : UInt32} {t : List Event} {r : Except IoError Unit} :
      v &&& Status.txEmpty = 0 → Polled (b.location .isr) InterruptStatus.txReady t r →
      Idles b (b.readEvent .sr v :: t) r

/-- The events of announcing and sending words in one critical section. -/
def announced (b : Block) (count : UInt32) (sending : List Event) : List Event :=
  .act .enter :: b.writeEvent .noCharsForTx count ::
    b.writeEvent .cr Command.resetTxReady :: (sending ++ [.act .leave])

/-- The events of a transfer, and how it ended. -/
inductive Transmits (b : Block) (count : UInt32) (words : List FifoWord) :
    List Event → Except IoError Unit → Prop where
  /-- The previous transfer does not end. -/
  | blocked {t : List Event} {e : IoError} :
      Idles b t (.error e) → Transmits b count words t (.error e)
  /-- The words are announced and sent, as far as the FIFO takes them. -/
  | started {t u : List Event} {r : Except IoError Unit} :
      Idles b t (.ok ()) → Sends b words u r →
      Transmits b count words (t ++ announced b count u) r

/-! ### The programs keep to it -/

section Completion

variable {σ : Type} {bus : Bus σ} {b : Block} {policy : PollPolicy} {fuel : Nat} {s s' : σ}
  {t : List Event} {r : Except IoError Unit}

theorem sends_of_completes {words : List FifoWord}
    (h : bus.Completes (sendWords b policy fuel words) s t r s') : Sends b words t r := by
  induction words generalizing s t with
  | nil =>
    obtain ⟨rfl, rfl, rfl⟩ := Bus.completes_done_iff.1 h
    exact .done
  | cons w rest ih =>
    obtain ⟨r₁, s₁, t₁, t₂, hw, hn, rfl⟩ := Bus.completes_bind_iff.1 h
    have hpoll := Block.polled_of_waitFor hw
    cases r₁ with
    | error e =>
      obtain ⟨_, s₂, t₃, t₄, hc, hd, rfl⟩ := Bus.completes_bind_iff.1 hn
      obtain ⟨-, -, rfl⟩ := Block.completes_write_iff.1 hc
      obtain ⟨rfl, rfl, rfl⟩ := Bus.completes_done_iff.1 hd
      exact .abandoned hpoll
    | ok _ =>
      obtain ⟨_, s₂, t₃, t₄, hc, hd, rfl⟩ := Bus.completes_bind_iff.1 hn
      obtain ⟨-, -, rfl⟩ := Block.completes_write_iff.1 hc
      exact .word hpoll (ih hd)

theorem idles_of_completes (h : bus.Completes (awaitIdle b policy fuel) s t r s') :
    Idles b t r := by
  obtain ⟨v, s₁, t₁, t₂, hr, hn, rfl⟩ := Bus.completes_bind_iff.1 h
  obtain ⟨-, -, rfl⟩ := Block.completes_read_iff.1 hr
  split at hn
  · rename_i hv
    exact .polled hv (Block.polled_of_waitFor hn)
  · rename_i hv
    obtain ⟨rfl, rfl, rfl⟩ := Bus.completes_done_iff.1 hn
    exact .empty hv

theorem announced_of_completes {count : UInt32} {words : List FifoWord}
    (h : bus.Completes (transfer b policy fuel count words) s t r s') :
    ∃ u, Sends b words u r ∧ t = announced b count u := by
  obtain ⟨_, s₁, t₁, u₁, he, h₁, rfl⟩ := Bus.completes_bind_iff.1 h
  obtain ⟨-, rfl⟩ := Bus.completes_perform_iff.1 he
  obtain ⟨_, s₂, t₂, u₂, hn, h₂, rfl⟩ := Bus.completes_bind_iff.1 h₁
  obtain ⟨-, -, rfl⟩ := Block.completes_write_iff.1 hn
  obtain ⟨_, s₃, t₃, u₃, hc, h₃, rfl⟩ := Bus.completes_bind_iff.1 h₂
  obtain ⟨-, -, rfl⟩ := Block.completes_write_iff.1 hc
  obtain ⟨r₁, s₄, t₄, u₄, hw, h₄, rfl⟩ := Bus.completes_bind_iff.1 h₃
  obtain ⟨_, s₅, t₅, u₅, hl, h₅, rfl⟩ := Bus.completes_bind_iff.1 h₄
  obtain ⟨-, rfl⟩ := Bus.completes_perform_iff.1 hl
  obtain ⟨rfl, rfl, rfl⟩ := Bus.completes_done_iff.1 h₅
  exact ⟨t₄, sends_of_completes hw, rfl⟩

/-- A text that is empty, or too long to be announced, is refused before the first access. -/
theorem transmit_of_refused {data : List UInt8}
    (h : data = [] ∨ 0x100000000 ≤ Newline.physicalLength data) :
    transmit b policy fuel data = .done (.error .invalidArgument) := by
  unfold transmit
  split
  · rfl
  · rename_i hne
    rw [count?_of_ge (h.resolve_left fun hd => hne (by rw [hd]; rfl))]
    rfl

/-- A text that can be announced is sent by waiting for the transmitter and then transferring
its words. -/
theorem transmit_of_count? {data : List UInt8} {count : UInt32} (hne : data ≠ [])
    (hc : count? data = some count) :
    transmit b policy fuel data = (awaitIdle b policy fuel).bind fun
      | .error e => .done (.error e)
      | .ok () => transfer b policy fuel count (words data) := by
  unfold transmit
  rw [if_neg (by simpa using hne), hc]
  rfl

/-- How a completed transfer went: given up while the previous one was in the way, or started
right after the idle wait. -/
theorem completes_transmit_iff {data : List UInt8} {count : UInt32} (hne : data ≠ [])
    (hc : count? data = some count) :
    bus.Completes (transmit b policy fuel data) s t r s' ↔
      (∃ e, r = .error e ∧ bus.Completes (awaitIdle b policy fuel) s t (.error e) s') ∨
      ∃ s₁ t₁ t₂, bus.Completes (awaitIdle b policy fuel) s t₁ (.ok ()) s₁ ∧
        bus.Completes (transfer b policy fuel count (words data)) s₁ t₂ r s' ∧ t = t₁ ++ t₂ := by
  rw [transmit_of_count? hne hc, Bus.completes_bind_iff]
  constructor
  · rintro ⟨r₁, s₁, t₁, t₂, hi, ht, rfl⟩
    cases r₁ with
    | error e =>
      obtain ⟨rfl, rfl, rfl⟩ := Bus.completes_done_iff.1 ht
      exact .inl ⟨e, rfl, by rwa [List.append_nil]⟩
    | ok _ => exact .inr ⟨s₁, t₁, t₂, hi, ht, rfl⟩
  · rintro (⟨e, rfl, hi⟩ | ⟨s₁, t₁, t₂, hi, ht, rfl⟩)
    · exact ⟨_, s', t, [], hi, .done, (List.append_nil t).symm⟩
    · exact ⟨_, s₁, t₁, t₂, hi, ht, rfl⟩

theorem transmits_of_completes {data : List UInt8} {count : UInt32} (hne : data ≠ [])
    (hc : count? data = some count)
    (h : bus.Completes (transmit b policy fuel data) s t r s') :
    Transmits b count (words data) t r := by
  rcases (completes_transmit_iff hne hc).1 h with ⟨e, rfl, hi⟩ | ⟨s₁, t₁, t₂, hi, ht, rfl⟩
  · exact .blocked (idles_of_completes hi)
  · obtain ⟨u, hs, rfl⟩ := announced_of_completes ht
    exact .started (idles_of_completes hi) hs

end Completion

end Transmit

end PolledUart

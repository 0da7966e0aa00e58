import PolledUart.Proofs.TransmitWrites

/-!
# The transmit handshake

The order in which a transfer touches the hardware: it announces itself only
after the transmitter was seen idle, puts a word into the FIFO only right after
the FIFO was seen ready, and makes all its writes inside one critical section,
which it always leaves.

* `Trace.PolledBefore` — every word comes right after a read that saw the FIFO
  ready. It holds of two traces in a row when it holds of both.
* `Transmit.SawIdle` — the reads of a trace showed the transmitter idle.
* `Transmit.transmit_handshake` — the whole order, for every completed transfer.
-/

namespace PolledUart

namespace Trace

variable {b : Block} {t u : List Event}

/-- No critical section is entered or left. -/
def Unmarked (t : List Event) : Prop := .act .enter ∉ t ∧ .act .leave ∉ t

theorem Unmarked.append (ht : Unmarked t) (hu : Unmarked u) : Unmarked (t ++ u) :=
  ⟨fun h => (List.mem_append.1 h).elim ht.1 hu.1, fun h => (List.mem_append.1 h).elim ht.2 hu.2⟩

theorem unmarked_readEvent (b : Block) (q : Register) (v : UInt32) :
    Unmarked [b.readEvent q v] :=
  ⟨by simp [Block.readEvent], by simp [Block.readEvent]⟩

theorem unmarked_writeEvent (b : Block) (q : Register) (v : UInt32) :
    Unmarked [b.writeEvent q v] :=
  ⟨by simp [Block.writeEvent], by simp [Block.writeEvent]⟩

/-- Every word that goes into the FIFO does so right after a read that saw the FIFO ready. -/
def PolledBefore (b : Block) (t : List Event) : Prop :=
  ∀ before w after, t = before ++ b.writeEvent .tf w :: after →
    ∃ earlier v, before = earlier ++ [b.readEvent .sr v] ∧ v &&& Status.txReady ≠ 0

theorem polledBefore_of_not_mem (h : ∀ w, b.writeEvent .tf w ∉ t) : PolledBefore b t := by
  rintro before w after rfl
  exact absurd (List.mem_append_right _ (List.mem_cons_self ..)) (h w)

theorem PolledBefore.append (ht : PolledBefore b t) (hu : PolledBefore b u) :
    PolledBefore b (t ++ u) := by
  intro before w after h
  rcases List.append_eq_append_iff.1 h with ⟨c, rfl, hc⟩ | ⟨c, hc, hr⟩
  · -- the word is in the second part
    obtain ⟨earlier, v, rfl, hv⟩ := hu c w after hc
    exact ⟨t ++ earlier, v, (List.append_assoc ..).symm, hv⟩
  · cases c with
    | nil =>
      -- it is the first event of the second part, which has no read before it
      obtain ⟨earlier, v, he, -⟩ := hu [] w after hr.symm
      simp at he
    | cons e c =>
      obtain ⟨rfl, rfl⟩ := List.cons.inj hr
      exact ht before w c hc

end Trace

namespace Transmit

open Trace

/-- The transmitter was seen idle: the first look at the status found it empty, or the last look
at the interrupt status found the previous transfer taken. -/
def SawIdle (b : Block) (t : List Event) : Prop :=
  (∃ v, (readsAt (b.location .sr) t).head? = some v ∧ v &&& Status.txEmpty ≠ 0) ∨
    ∃ v, (readsAt (b.location .isr) t).getLast? = some v ∧ v &&& InterruptStatus.txReady ≠ 0

variable {b : Block} {count : UInt32} {words : List FifoWord} {t u : List Event}
  {r : Except IoError Unit}

/-- What was seen stays seen, as long as the interrupt status is not looked at again. -/
theorem SawIdle.append (h : SawIdle b t) (hu : readsAt (b.location .isr) u = []) :
    SawIdle b (t ++ u) := by
  rcases h with ⟨v, hv, hm⟩ | ⟨v, hv, hm⟩
  · refine .inl ⟨v, ?_, hm⟩
    rw [readsAt_append, List.head?_append, hv, Option.some_or]
  · refine .inr ⟨v, ?_, hm⟩
    rw [readsAt_append, hu, List.append_nil, hv]

/-! ### Waits -/

theorem unmarked_of_polled {a : Address} {mask : UInt32} (h : Polled a mask t r) :
    Unmarked t := by
  constructor <;> intro he <;> rcases h.of_mem he with ⟨_, he⟩ | he <;> cases he

theorem polledBefore_of_polled {q : Register} {mask : UInt32}
    (h : Polled (b.location q) mask t r) : PolledBefore b t := by
  refine polledBefore_of_not_mem fun w he => ?_
  rcases h.of_mem he with ⟨_, he⟩ | he <;> cases he

theorem eq_location_of_polled {q : Register} {mask v : UInt32} {a : Address}
    (h : Polled (b.location q) mask t r) (he : .read a v ∈ t) : a = b.location q := by
  rcases h.of_mem he with ⟨_, he⟩ | he
  · exact (Event.read.inj he).1
  · cases he

/-! ### The idle wait -/

theorem Idles.unmarked (h : Idles b t r) : Unmarked t := by
  cases h with
  | empty _ => exact unmarked_readEvent b .sr _
  | polled _ h => exact (unmarked_readEvent b .sr _).append (unmarked_of_polled h)

theorem Idles.reads (h : Idles b t r) {a : Address} {v : UInt32} (he : .read a v ∈ t) :
    a = b.location .sr ∨ a = b.location .isr := by
  cases h with
  | empty _ => exact .inl (Event.read.inj (List.mem_singleton.1 he)).1
  | polled _ h =>
    rcases List.mem_cons.1 he with he | he
    · exact .inl (Event.read.inj he).1
    · exact .inr (eq_location_of_polled h he)

/-- An idle wait that succeeds has seen the transmitter idle. -/
theorem Idles.sawIdle (h : Idles b t (.ok ())) : SawIdle b t := by
  generalize hr : Except.ok () = r at h
  cases h with
  | @empty v hv => exact .inl ⟨v, by simp [readsAt, Block.readEvent, Event.readAt?], hv⟩
  | polled _ h =>
    subst hr
    obtain ⟨t₁, v, rfl, hv⟩ := h.eq_append
    refine .inr ⟨v, ?_, hv⟩
    rw [← List.cons_append, readsAt_append,
      show readsAt (b.location .isr) [.read (b.location .isr) v] = [v] by
        simp [readsAt, Event.readAt?], List.getLast?_concat]

/-! ### The words -/

theorem Sends.unmarked (h : Sends b words t r) : Unmarked t := by
  induction h with
  | done => exact ⟨List.not_mem_nil, List.not_mem_nil⟩
  | word hpoll _ ih =>
    exact (unmarked_of_polled hpoll).append ((unmarked_writeEvent b .tf _).append ih)
  | abandoned hpoll => exact (unmarked_of_polled hpoll).append (unmarked_writeEvent b .cr _)

theorem Sends.reads (h : Sends b words t r) {a : Address} {v : UInt32} (he : .read a v ∈ t) :
    a = b.location .sr := by
  induction h with
  | done => cases he
  | word hpoll _ ih =>
    rcases List.mem_append.1 he with he | he
    · exact eq_location_of_polled hpoll he
    rcases List.mem_cons.1 he with he | he
    · cases he
    · exact ih he
  | abandoned hpoll =>
    rcases List.mem_append.1 he with he | he
    · exact eq_location_of_polled hpoll he
    · cases List.mem_singleton.1 he

/-- A wait for room in the FIFO and the word that goes in right after it. -/
theorem polledBefore_word {w : UInt32}
    (h : Polled (b.location .sr) Status.txReady t (.ok ())) :
    PolledBefore b (t ++ [b.writeEvent .tf w]) := by
  intro before w' after he
  rcases List.append_eq_append_iff.1 he with ⟨c, rfl, hc⟩ | ⟨c, rfl, hc⟩
  · cases c with
    | nil =>
      rw [List.append_nil]
      exact h.eq_append
    | cons e c => simp at hc
  · cases c with
    | nil =>
      rw [List.append_nil] at h
      exact h.eq_append
    | cons e c =>
      obtain ⟨rfl, -⟩ := List.cons.inj hc
      exact polledBefore_of_polled h before w' c rfl

theorem Sends.polledBefore (hcr : b.map.tf ≠ b.map.cr) (h : Sends b words t r) :
    PolledBefore b t := by
  induction h with
  | done => exact polledBefore_of_not_mem fun _ => List.not_mem_nil
  | @word w rest t u r hpoll _ ih =>
    have := (polledBefore_word (w := w.raw) hpoll).append ih
    rwa [List.append_assoc] at this
  | abandoned hpoll =>
    -- the reset is no word: it goes to another register
    refine (polledBefore_of_polled hpoll).append (polledBefore_of_not_mem fun w he => ?_)
    have he := List.mem_singleton.1 he
    simp only [Block.writeEvent, Event.act.injEq, Action.write.injEq, Block.location_inj] at he
    exact hcr he.1

/-! ### The whole transfer -/

/-- What the events of a transfer show of its order. -/
structure Handshake (b : Block) (t : List Event) : Prop where
  /-- Only the two status registers are read. -/
  reads : ∀ a v, .read a v ∈ t → a = b.location .sr ∨ a = b.location .isr
  /-- The transfer is announced only if the transmitter was seen idle. -/
  announce : ∀ v, b.writeEvent .noCharsForTx v ∈ t → SawIdle b t
  /-- A word goes in right after the FIFO was seen ready. -/
  words : PolledBefore b t

theorem Idles.handshake (h : Idles b t r) : Handshake b t where
  reads _ _ he := h.reads he
  announce v he := by
    have : (b.location .noCharsForTx, v) ∈ Trace.writes t := List.mem_filterMap.2 ⟨_, he, rfl⟩
    rw [h.writes_eq] at this
    cases this
  words := polledBefore_of_not_mem fun w he => by
    have : (b.location .tf, w) ∈ Trace.writes t := List.mem_filterMap.2 ⟨_, he, rfl⟩
    rw [h.writes_eq] at this
    cases this

theorem handshake_started (hsr : b.map.sr ≠ b.map.isr) (hcr : b.map.tf ≠ b.map.cr)
    (hcount : b.map.tf ≠ b.map.noCharsForTx) (hi : Idles b t (.ok ())) (hs : Sends b words u r) :
    Handshake b (t ++ announced b count u) := by
  have hannounced : announced b count u =
      [.act .enter, b.writeEvent .noCharsForTx count, b.writeEvent .cr Command.resetTxReady] ++
        (u ++ [.act .leave]) := rfl
  refine ⟨fun a v he => ?_, fun v _ => hi.sawIdle.append (readsAt_eq_nil fun v he => hsr ?_), ?_⟩
  · rcases List.mem_append.1 he with he | he
    · exact hi.reads he
    · simp only [announced, Block.writeEvent, List.mem_cons, List.mem_append, reduceCtorEq,
        List.not_mem_nil, or_false, false_or] at he
      exact .inl (hs.reads he)
  · simp only [announced, Block.writeEvent, List.mem_cons, List.mem_append, reduceCtorEq,
      List.not_mem_nil, or_false, false_or] at he
    exact (Block.location_inj.1 (hs.reads he)).symm
  · rw [hannounced]
    refine hi.handshake.words.append (.append (polledBefore_of_not_mem fun w he => ?_)
      ((hs.polledBefore hcr).append (polledBefore_of_not_mem (by simp [Block.writeEvent]))))
    simp only [Block.writeEvent, List.mem_cons, Event.act.injEq, Action.write.injEq, reduceCtorEq,
      Block.location_inj, List.not_mem_nil, or_false, false_or] at he
    exact he.elim (fun e => hcount e.1) (fun e => hcr e.1)

/-- **The transmit handshake.** Every completed transfer keeps the order; if the idle wait gives
up, that is all it does, and otherwise everything after the idle wait is one critical section
that holds all its writes and is left at the end. -/
theorem transmit_handshake {σ : Type} {bus : Bus σ} {policy : PollPolicy} {fuel : Nat}
    {data : List UInt8} {s s' : σ} (hsr : b.map.sr ≠ b.map.isr) (hcr : b.map.tf ≠ b.map.cr)
    (hcount : b.map.tf ≠ b.map.noCharsForTx) (hne : data ≠ [])
    (hfit : Newline.physicalLength data < 0x100000000)
    (h : bus.run (transmit b policy fuel data) s = ⟨.ok r s', t⟩) :
    Handshake b t ∧
      ((bus.run (awaitIdle b policy fuel) s = ⟨.ok (.error .timeout) s', t⟩ ∧
          r = .error .timeout ∧ writes t = [] ∧ Unmarked t) ∨
        ∃ s₁ idle inside, bus.run (awaitIdle b policy fuel) s = ⟨.ok (.ok ()) s₁, idle⟩ ∧
          t = idle ++ .act .enter :: (inside ++ [.act .leave]) ∧
          SawIdle b idle ∧ writes idle = [] ∧ Unmarked idle ∧ Unmarked inside) := by
  obtain ⟨count, hc, -⟩ := count?_of_lt hfit
  rcases (completes_transmit_iff hne hc).1 (Bus.completes_iff.2 h) with
    ⟨e, rfl, hi⟩ | ⟨s₁, t₁, t₂, hi, ht, rfl⟩
  · have hidle := idles_of_completes hi
    obtain rfl := hidle.error_eq
    exact ⟨hidle.handshake, .inl ⟨Bus.completes_iff.1 hi, rfl, hidle.writes_eq, hidle.unmarked⟩⟩
  · have hidle := idles_of_completes hi
    obtain ⟨u, hs, rfl⟩ := announced_of_completes ht
    refine ⟨handshake_started hsr hcr hcount hidle hs, .inr ⟨s₁, t₁, b.writeEvent .noCharsForTx count ::
      b.writeEvent .cr Command.resetTxReady :: u, Bus.completes_iff.1 hi, rfl, hidle.sawIdle,
      hidle.writes_eq, hidle.unmarked, ?_⟩⟩
    exact (unmarked_writeEvent b .noCharsForTx count).append
      ((unmarked_writeEvent b .cr Command.resetTxReady).append hs.unmarked)

/-- A transfer that stalls after its first word still leaves its critical section. -/
theorem transmit_handshake_stalled :
    ∃ s' t, Sim.Bench.bus.run
        (transmit ⟨0x1000, .gsbi⟩ (.budget 3) 0 [0x31, 0x32, 0x33, 0x34, 0x0a])
        { Sim.Bench.new 0x1000 .gsbi with stallAt := some 1 } = ⟨.ok (.error .timeout) s', t⟩ ∧
      Handshake ⟨0x1000, .gsbi⟩ t ∧
      ∃ idle inside, t = idle ++ .act .enter :: (inside ++ [.act .leave]) ∧
        SawIdle ⟨0x1000, .gsbi⟩ idle ∧ writes idle = [] ∧ Unmarked inside := by
  refine ⟨_, _, rfl, ?_⟩
  obtain ⟨hh, h | ⟨_, idle, inside, -, ht, hidle, hw, -, hin⟩⟩ := transmit_handshake
    (by decide) (by decide) (by decide) (by decide) (by decide)
    (rfl : Sim.Bench.bus.run
      (transmit ⟨0x1000, .gsbi⟩ (.budget 3) 0 [0x31, 0x32, 0x33, 0x34, 0x0a])
      { Sim.Bench.new 0x1000 .gsbi with stallAt := some 1 } = _)
  · exact absurd h.2.2.1 (by decide)
  · exact ⟨hh, idle, inside, ht, hidle, hw, hin⟩

end Transmit

end PolledUart

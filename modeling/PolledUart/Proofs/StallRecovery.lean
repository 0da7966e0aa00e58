import PolledUart.Proofs.Layouts
import PolledUart.Proofs.Responsive

/-!
# After a stall

A bench block can be told to stall after some more words, until its transmitter is reset. A
transfer that stalls between two words resets it, so the next transfer finds it as if nothing had
happened. A transfer that finds it stalled already gives up in the idle wait and resets nothing,
and so does every transfer after it.

* `Bench.taking`, `Bench.serving`, `Bench.silent_sr`, `Bench.silent_isr` — what a block does that
  is about to stall, that does not stall, and that has stalled.
* `Bench.Stands.released` — a transfer that times out on a block that took its first word has
  reset it.
* `sent_after_stall` — two writes in a row: the second one succeeds exactly if the block took a
  word of the first.
-/

namespace PolledUart

open Newline Transmit Sim

namespace Transmit

variable {b : Block} {count : UInt32} {words : List FifoWord} {t : List Event} {e : IoError}

/-- Words that are given up end with the reset. -/
theorem Sends.eq_append_of_error (h : Sends b words t (.error e)) :
    ∃ u, t = u ++ [b.writeEvent .cr Command.resetTx] := by
  generalize hr : Except.error e = r at h
  induction h with
  | done => cases hr
  | @word w _ t _ _ _ _ ih =>
    obtain ⟨u, rfl⟩ := ih hr
    exact ⟨t ++ b.writeEvent .tf w.raw :: u, by simp⟩
  | abandoned _ => exact ⟨_, rfl⟩

/-- A transfer that is given up after it has written something ends with the reset. -/
theorem Transmits.eq_append_of_error (h : Transmits b count words t (.error e))
    (hwrites : Trace.writes t ≠ []) :
    ∃ u, t = u ++ [b.writeEvent .cr Command.resetTx, .act .leave] := by
  cases h with
  | blocked hidle => exact absurd hidle.writes_eq hwrites
  | @started idle _ _ _ hsends =>
    obtain ⟨u, rfl⟩ := hsends.eq_append_of_error
    exact ⟨idle ++ .act .enter :: b.writeEvent .noCharsForTx count ::
      b.writeEvent .cr Command.resetTxReady :: u, by simp [announced]⟩

end Transmit

namespace Sim.Bench

variable {b : Block} {d d' : Bench} {policy : PollPolicy} {fuel n : Nat} {text : List UInt8}
  {t : List Event}

/-! ### The status of the transmitter -/

theorem status_txReady (d : Bench) :
    d.status &&& Status.txReady ≠ 0 ↔ d.takesWords = true := by
  have hbits : ∀ ready takes idle lost : Bool,
      ((if ready then Status.rxReady else 0) ||| (if takes then Status.txReady else 0) |||
        (if idle then Status.txEmpty else 0) ||| (if lost then Status.overrun else 0)) &&&
          Status.txReady ≠ 0 ↔ takes = true := by
    decide
  exact hbits _ d.takesWords d.idle d.overrun

theorem status_txEmpty (d : Bench) : d.status &&& Status.txEmpty ≠ 0 ↔ d.idle = true := by
  have hbits : ∀ ready takes idle lost : Bool,
      ((if ready then Status.rxReady else 0) ||| (if takes then Status.txReady else 0) |||
        (if idle then Status.txEmpty else 0) ||| (if lost then Status.overrun else 0)) &&&
          Status.txEmpty ≠ 0 ↔ idle = true := by
    decide
  exact hbits _ d.takesWords d.idle d.overrun

/-- Nothing but a stall can hold up the transmitter: it is not stuck, and does not pretend to be
busy. -/
def Prompt (d : Bench) : Prop := d.txStuck = false ∧ d.txBusyPolls = 0 ∧ d.srBusyPolls = 0

namespace Prompt

theorem takesWords_eq (h : d.Prompt) : d.takesWords = !d.stalled := by
  simp [takesWords, h.1]

theorem idle_eq (h : d.Prompt) : d.idle = !d.stalled := by
  simp [idle, h.takesWords_eq, h.2.1]

theorem readStatus_eq (h : d.Prompt) : d.readStatus = (d.status, d) := by
  rw [readStatus, h.2.2]

theorem readInterruptStatus_eq (h : d.Prompt) :
    d.readInterruptStatus = (if d.stalled then 0 else InterruptStatus.txReady, d) := by
  rw [readInterruptStatus, h.takesWords_eq, h.2.1]
  cases d.stalled <;> rfl

/-- Looking at the status changes nothing but the number of accesses. -/
theorem read_status (h : d.Prompt) (hd : d.Serves b) (hm : TellsApart b.map) :
    d.read (b.location .sr) = (d.status, { d with logged := d.logged + 1 }) := by
  have hlook : d.readAt (d.map.offset .sr) = (d.status, d) :=
    (readAt_offset (hd.2 ▸ hm) (by decide)).trans h.readStatus_eq
  rw [hd.read_location hm, hlook]

/-- Nor does looking at the interrupt status. -/
theorem read_interruptStatus (h : d.Prompt) (hd : d.Serves b) (hm : TellsApart b.map) :
    d.read (b.location .isr) =
      (if d.stalled then 0 else InterruptStatus.txReady, { d with logged := d.logged + 1 }) := by
  have hlook : d.readAt (d.map.offset .isr) =
      (if d.stalled then 0 else InterruptStatus.txReady, d) :=
    (readAt_offset (hd.2 ▸ hm) (by decide)).trans h.readInterruptStatus_eq
  rw [hd.read_location hm, hlook]

theorem read (h : d.Prompt) (a : Address) : (d.read a).2.Prompt := by
  unfold Bench.read readAt
  simp only [h.readStatus_eq, h.readInterruptStatus_eq, readData, popWord]
  repeat' split
  all_goals exact h

theorem write (h : d.Prompt) (a : Address) (v : UInt32) : (d.write a v).Prompt := by
  unfold Bench.write writeAt takeWord obey store
  dsimp only
  repeat' split
  all_goals exact h

end Prompt

/-! ### Steps -/

theorem bus_read {a : Address} {v : UInt32} (h : d.read a = (v, d')) :
    bus.read a d = .ok v d' := by
  simp only [bus, h]

/-- The block answers where the driver looks for it, and can be held up by nothing but a stall. -/
structure Stands (d : Bench) (b : Block) : Prop where
  serves : d.Serves b
  prompt : d.Prompt

/-- What a step leaves: the block as it stands, and a record of transfers that changes with the
writes. -/
theorem Stands.step {e : Event} (h : d.Stands b) (hm : TellsApart b.map) (hs : bus.Step d e d') :
    d'.Stands b ∧ d'.transfersBack = recordEvent b d.transfersBack e := by
  obtain ⟨hd, hprompt⟩ := h
  cases e with
  | read a v =>
    obtain ⟨rfl, rfl⟩ := Outcome.ok.inj hs
    exact ⟨⟨hd.read a, hprompt.read a⟩, read_transfersBack a⟩
  | act c =>
    cases c with
    | write a v =>
      obtain ⟨-, rfl⟩ := Outcome.ok.inj hs
      exact ⟨⟨hd.write a v, hprompt.write a v⟩, hd.write_transfersBack hm a v⟩
    | delay us =>
      simp only [Bus.Step, Bus.act, bus, wait] at hs
      split at hs
      · obtain ⟨-, rfl⟩ := Outcome.ok.inj hs
        exact ⟨⟨hd, hprompt⟩, rfl⟩
      · cases hs
    | _ =>
      obtain ⟨-, rfl⟩ := Outcome.ok.inj hs
      exact ⟨⟨hd, hprompt⟩, rfl⟩

/-- **The record of transfers** is a fold over the writes. -/
theorem Stands.path (h : d.Stands b) (hm : TellsApart b.map) (hpath : Bus.Path bus.Step d t d') :
    d'.Stands b ∧ d'.transfersBack = (Trace.writes t).foldl (record b) d.transfersBack := by
  obtain ⟨hd', hrecord⟩ := Bus.Path.map (fun x : Bench => x.Stands b) transfersBack
    (fun ts e ts' => ts' = recordEvent b ts e) (fun hx hs => hx.step hm hs) h hpath
  exact ⟨hd', (Bus.path_fold_iff.1 hrecord).trans (foldl_recordEvent t _)⟩

/-- What a completed run puts on the wire. -/
theorem Stands.txBytes_eq {α : Type} {p : Program α} {a : α} {attempts : List Attempt}
    (h : d.Stands b) (hm : TellsApart b.map) (hrun : bus.Completes p d t a d')
    (hcarries : Carries b t attempts) :
    d'.txBytes = d.txBytes ++ attempts.flatMap Attempt.wire := by
  obtain ⟨new, hnew, hwire, -⟩ := hcarries.record
  have hrecord := (h.path hm hrun.path).2
  rw [hnew] at hrecord
  rw [txBytes, transfers, hrecord, List.reverse_append, List.reverse_reverse,
    List.flatMap_append, hwire]
  rfl

/-! ### Stalls -/

/-- The status of a block that has not stalled shows an empty transmitter that takes words. -/
theorem Stands.status (h : d.Stands b) (hm : TellsApart b.map) (hstalled : d.stalled = false) :
    bus.read (b.location .sr) d = .ok d.status { d with logged := d.logged + 1 } ∧
      d.status &&& Status.txReady ≠ 0 ∧ d.status &&& Status.txEmpty ≠ 0 := by
  refine ⟨?_, (status_txReady d).2 ?_, (status_txEmpty d).2 ?_⟩
  · exact bus_read (h.prompt.read_status h.serves hm)
  · rw [h.prompt.takesWords_eq, hstalled]
    rfl
  · rw [h.prompt.idle_eq, hstalled]
    rfl

/-- The count and the commands do not bring a stall any nearer. -/
theorem Stands.eased (h : d.Stands b) (hm : TellsApart b.map) {q : Register}
    (hq : q ∈ [Register.noCharsForTx, .cr]) (v : UInt32) :
    (d.write (b.location q) v).stallAt = none ∨
      (d.write (b.location q) v).stallAt = d.stallAt ∧
        (d.write (b.location q) v).dataWrites = d.dataWrites := by
  rw [h.serves.write_eq_put hm (by revert q; decide)]
  simp only [List.mem_cons, List.not_mem_nil, or_false] at hq
  rcases hq with rfl | rfl
  · show (store _ _ _).stallAt = _ ∨ (store _ _ _).stallAt = _ ∧ (store _ _ _).dataWrites = _
    unfold store
    dsimp only
    split <;> exact .inr ⟨rfl, rfl⟩
  · show (obey _ _).stallAt = _ ∨ (obey _ _).stallAt = _ ∧ (obey _ _).dataWrites = _
    unfold obey
    dsimp only
    repeat' split
    all_goals first | exact .inl rfl | exact .inr ⟨rfl, rfl⟩

/-- **A block that has not stalled** takes a first word. -/
theorem taking (hm : TellsApart b.map) :
    Taking bus b fun d => d.Stands b ∧ d.stalled = false where
  status := by
    rintro d ⟨h, hstalled⟩
    obtain ⟨hread, hready, hempty⟩ := h.status hm hstalled
    exact ⟨_, _, hread, ⟨⟨h.serves, h.prompt⟩, hstalled⟩, hready, hempty⟩
  announce := by
    rintro q hq v d ⟨h, hstalled⟩
    refine ⟨_, rfl, ⟨h.serves.write _ v, h.prompt.write _ v⟩, ?_⟩
    rcases h.eased hm hq v with hnone | ⟨hstall, hcount⟩
    · rw [stalled, hnone]
    · rw [stalled, hstall, hcount]
      exact hstalled

/-- **A block that is not told to stall** takes all words. -/
theorem serving (hm : TellsApart b.map) :
    Serving bus b fun d => d.Stands b ∧ d.stallAt = none where
  status := by
    rintro d ⟨h, hstall⟩
    have hstalled : d.stalled = false := by rw [stalled, hstall]
    obtain ⟨hread, hready, hempty⟩ := h.status hm hstalled
    exact ⟨_, _, hread, ⟨⟨h.serves, h.prompt⟩, hstall⟩, hready, hempty⟩
  announce := by
    rintro q hq v d ⟨h, hstall⟩
    refine ⟨_, rfl, ⟨h.serves.write _ v, h.prompt.write _ v⟩, ?_⟩
    rcases h.eased hm hq v with hnone | ⟨hsame, -⟩
    · exact hnone
    · exact hsame.trans hstall
  data := by
    rintro v d ⟨h, hstall⟩
    refine ⟨_, rfl, ⟨h.serves.write _ v, h.prompt.write _ v⟩, ?_⟩
    rw [h.serves.write_eq_put hm (by decide)]
    show (takeWord _ _).stallAt = none
    unfold takeWord
    dsimp only
    split <;> exact hstall

/-- The block has stalled, and its clock has room for some more microseconds. -/
structure Stalled (b : Block) (n : Nat) (d : Bench) : Prop where
  stands : d.Stands b
  stalled : d.stalled = true
  room : d.waited.toNat + n < 0x100000000

theorem Stalled.wait (h : Stalled b (n + 1) d) :
    ∃ d', bus.delay 1 d = .ok () d' ∧ Stalled b n d' := by
  have hfit : d.waited.toNat + (1 : UInt32).toNat < 0x100000000 :=
    Nat.lt_of_le_of_lt (Nat.add_le_add_left (Nat.le_add_left 1 n) _) h.room
  refine ⟨{ d with waited := d.waited + 1 }, if_pos hfit,
    ⟨h.stands.serves, h.stands.prompt⟩, h.stalled, ?_⟩
  have hroom := h.room
  have hwaited : (d.waited + 1).toNat = d.waited.toNat + 1 := by
    rw [UInt32.toNat_add]
    exact Nat.mod_eq_of_lt hfit
  dsimp only
  omega

theorem Stalled.less (h : Stalled b (n + 1) d) : Stalled b n d :=
  ⟨h.stands, h.stalled, Nat.lt_of_succ_lt h.room⟩

/-- **A block that has stalled** does not look empty, -/
theorem silent_sr (hm : TellsApart b.map) :
    bus.Silent (b.location .sr) Status.txEmpty (Stalled b) where
  read := by
    intro n d h
    refine ⟨d.status, { d with logged := d.logged + 1 }, ?_, ?_, ?_⟩
    · exact bus_read (h.stands.prompt.read_status h.stands.serves hm)
    · refine Decidable.not_not.1 fun hempty => ?_
      have hidle := (status_txEmpty d).1 hempty
      rw [h.stands.prompt.idle_eq, h.stalled] at hidle
      cases hidle
    · exact ⟨⟨h.stands.serves, h.stands.prompt⟩, h.stalled, h.room⟩
  delay := fun _ _ h => h.wait
  less := fun _ _ h => h.less

/-- nor does it ask for more. -/
theorem silent_isr (hm : TellsApart b.map) :
    bus.Silent (b.location .isr) InterruptStatus.txReady (Stalled b) where
  read := by
    intro n d h
    refine ⟨0, { d with logged := d.logged + 1 }, ?_, UInt32.zero_and, ?_⟩
    · refine bus_read ((h.stands.prompt.read_interruptStatus h.stands.serves hm).trans ?_)
      rw [h.stalled]
      rfl
    · exact ⟨⟨h.stands.serves, h.stands.prompt⟩, h.stalled, h.room⟩
  delay := fun _ _ h => h.wait
  less := fun _ _ h => h.less

/-! ### Transfers -/

/-- **A transfer that times out** on a block that took its first word has reset the transmitter. -/
theorem Stands.released {e : IoError} (h : d.Stands b) (hm : TellsApart b.map)
    (hstalled : d.stalled = false) (htext : Sendable text)
    (hrun : bus.Completes (transmit b policy fuel text) d t (.error e) d') :
    Reaches b ∧ d'.Stands b ∧ d'.stallAt = none := by
  obtain ⟨hreach, hwrites⟩ := (taking hm).reach ⟨h, hstalled⟩ htext hrun
  obtain ⟨count, hcount, -⟩ := count?_of_lt htext.2
  obtain ⟨u, rfl⟩ := (transmits_of_completes htext.1 hcount hrun).eq_append_of_error hwrites
  obtain ⟨y, hbefore, hafter⟩ := Bus.path_append_iff.1 hrun.path
  have hy := (h.path hm hbefore).1
  obtain ⟨z, hreset, hafter⟩ := Bus.path_cons_iff.1 hafter
  obtain ⟨z', hleave, hafter⟩ := Bus.path_cons_iff.1 hafter
  obtain rfl := Bus.path_nil_iff.1 hafter
  obtain ⟨-, rfl⟩ := Outcome.ok.inj hleave
  obtain ⟨-, rfl⟩ := Outcome.ok.inj hreset
  refine ⟨hreach, ⟨hy.serves.write _ _, hy.prompt.write _ _⟩, ?_⟩
  rw [hy.serves.write_eq_put hm (by decide)]
  rfl

/-- A block that is not told to stall sends a text. -/
theorem Stands.sends (policy : PollPolicy) (fuel : Nat) (h : d.Stands b) (hm : TellsApart b.map)
    (hstall : d.stallAt = none) (hreach : Reaches b) (htext : Sendable text) :
    ∃ t d', bus.Completes (transmit b policy fuel text) d t (.ok ()) d' ∧
      d'.txBytes = d.txBytes ++ expand text := by
  obtain ⟨t, d', hrun, -⟩ := (serving hm).completes_transmit policy fuel hreach ⟨h, hstall⟩ htext
  obtain ⟨attempts, hsending, hcarries⟩ := carries_transmit hm hrun
  refine ⟨t, d', hrun, ?_⟩
  rw [h.txBytes_eq hm hrun hcarries, hsending.wire_of_ok, List.flatten_singleton]

/-- A block that has stalled makes a transfer time out, and stays stalled. -/
theorem Stalled.blocks {polls : UInt32} (fuel : Nat) (h : Stalled b (polls.toNat + n) d)
    (hm : TellsApart b.map)
    (hreach : b.address? .sr = some (b.location .sr) ∧ b.address? .isr = some (b.location .isr))
    (htext : Sendable text) :
    ∃ t d', bus.Completes (transmit b (.budget polls) fuel text) d t (.error .timeout) d' ∧
      d'.txBytes = d.txBytes ∧ Stalled b n d' := by
  obtain ⟨t, d', hrun, hwrites, hstalled⟩ :=
    completes_of_silent fuel (silent_sr hm) (silent_isr hm) hreach htext h
  have hrecord := (h.stands.path hm hrun.path).2
  rw [hwrites] at hrecord
  refine ⟨t, d', hrun, ?_, hstalled⟩
  rw [txBytes, transfers, hrecord]
  rfl

end Sim.Bench

/-! ### Writes -/

section Sessions

variable {slots fuel fuel' : Nat} {port : PortId} {text : List UInt8}

/-- A write on a registered port is a transfer on its block, and leaves the driver as it is. -/
theorem Session.perform_write_iff {σ : Type} {bus : Bus σ} {x x' : Session σ slots}
    {base : Address} {r : Except IoError Unit} {t : List Event}
    (hport : x.driver.ports.resolve port = some base) :
    Session.perform bus fuel (.write port text) x = ⟨.ok (.done r) x', t⟩ ↔
      x'.driver = x.driver ∧ bus.Completes
        (transmit (x.driver.block base) x.driver.config.poll fuel text) x.bus t r x'.bus := by
  have hprogram : (Call.write port text).program fuel x.driver =
      (transmit (x.driver.block base) x.driver.config.poll fuel text).bind fun r =>
        .done (.done r, x.driver) := by
    rw [Call.program, Driver.write, Driver.onPort, hport]
    rfl
  rw [Session.perform_eq_ok_iff, hprogram, Bus.completes_bind_done_iff]
  constructor
  · rintro ⟨r', hrun, heq⟩
    simp only [Prod.mk.injEq, Reply.done.injEq] at heq
    obtain ⟨rfl, hdriver⟩ := heq
    exact ⟨hdriver, hrun⟩
  · rintro ⟨hdriver, hrun⟩
    exact ⟨r, hrun, by rw [hdriver]⟩

variable {x x₁ : Session Bench slots} {block : Bench} {polls : UInt32} {w : Nat}
  {abandoned : List UInt8} {t : List Event}

/-- **After a stall.** A block is told to stall after some more words, and a write times out. The
next write is sent, and what it puts on the wire comes after all that the first one did, if the
block was to take at least one word before it stalled. Otherwise that write times out, too. -/
theorem sent_after_stall (hmap : x.bus.map = .blsp ∨ x.bus.map = .gsbi)
    (hregisters : x.driver.config.registers = x.bus.map)
    (hport : x.driver.ports.resolve port = some x.bus.base)
    (hpoll : x.driver.config.poll = .budget polls) (hprompt : x.bus.Prompt)
    (hroom : x.bus.waited.toNat + 2 * polls.toNat < 0x100000000)
    (hstall : Bench.control (.stallAfter w) x.bus = some block) (habandoned : Sendable abandoned)
    (htext : Sendable text)
    (htimeout : Session.perform Bench.bus fuel (.write port abandoned) ⟨x.driver, block⟩ =
      ⟨.ok (.done (.error .timeout)) x₁, t⟩) :
    ∃ r x₂ t₂, Session.perform Bench.bus fuel' (.write port text) x₁ = ⟨.ok (.done r) x₂, t₂⟩ ∧
      (0 < w ∧ r = .ok () ∧ x₂.bus.txBytes = x₁.bus.txBytes ++ expand text ∨
        w = 0 ∧ r = .error .timeout ∧ x₂.bus.txBytes = x₁.bus.txBytes) := by
  obtain ⟨hdriver, hrun⟩ := (Session.perform_write_iff (x := ⟨x.driver, block⟩) hport).1 htimeout
  have hm : Bench.TellsApart (x.driver.block x.bus.base).map := by
    rw [Driver.block, hregisters]
    exact Bench.tellsApart_of_known hmap
  have hport₁ : x₁.driver.ports.resolve port = some x.bus.base := by rw [hdriver, hport]
  have hperform : ∀ {r : Except IoError Unit} {d : Bench} {t₂ : List Event},
      Bench.bus.Completes (transmit (x.driver.block x.bus.base) (.budget polls) fuel' text) x₁.bus
        t₂ r d →
      Session.perform Bench.bus fuel' (.write port text) x₁ =
        ⟨.ok (.done r) ⟨x₁.driver, d⟩, t₂⟩ := fun hrun₂ =>
    (Session.perform_write_iff hport₁).2 ⟨rfl, by rw [hdriver, hpoll]; exact hrun₂⟩
  rw [hpoll] at hrun
  simp only [Bench.control] at hstall
  split at hstall
  · obtain rfl := Option.some.inj hstall
    have hstands : Bench.Stands { x.bus with stallAt := some (x.bus.dataWrites + w) }
        (x.driver.block x.bus.base) := ⟨⟨rfl, hregisters.symm⟩, hprompt⟩
    rcases Nat.eq_zero_or_pos w with rfl | hw
    · -- the block has stalled already
      have hstalled : Bench.Stalled (x.driver.block x.bus.base) (polls.toNat + polls.toNat)
          { x.bus with stallAt := some (x.bus.dataWrites + 0) } :=
        ⟨hstands, decide_eq_true (Nat.le_refl _), by rwa [← Nat.two_mul]⟩
      have hreach := reach_of_silent (Bench.silent_sr hm) hstalled habandoned hrun
      obtain ⟨t', d, hrun', -, hstalled₁⟩ := hstalled.blocks fuel hm hreach habandoned
      obtain ⟨-, -, rfl⟩ := hrun'.unique hrun
      obtain ⟨t₂, d₂, hrun₂, hwire, -⟩ :=
        Bench.Stalled.blocks (n := 0) fuel' hstalled₁ hm hreach htext
      exact ⟨_, _, t₂, hperform hrun₂, .inr ⟨rfl, rfl, hwire⟩⟩
    · -- it takes a word first, and the first write resets it
      have hstalled : Bench.stalled { x.bus with stallAt := some (x.bus.dataWrites + w) } = false :=
        decide_eq_false (by dsimp only; omega)
      obtain ⟨hreach, hstands₁, hnone⟩ := hstands.released hm hstalled habandoned hrun
      obtain ⟨t₂, d₂, hrun₂, hwire⟩ :=
        hstands₁.sends (.budget polls) fuel' hm hnone hreach htext
      exact ⟨_, _, t₂, hperform hrun₂, .inl ⟨hw, rfl, hwire⟩⟩
  · cases hstall

/-- The session after a call that timed out. -/
def Run.timedOut? {σ : Type} : Run (Session σ slots) Reply → Option (Session σ slots)
  | ⟨.ok (.done (.error .timeout)) x, _⟩ => some x
  | _ => none

theorem Run.eq_of_timedOut? {σ : Type} {r : Run (Session σ slots) Reply} {x : Session σ slots}
    (h : r.timedOut? = some x) : ∃ t, r = ⟨.ok (.done (.error .timeout)) x, t⟩ := by
  unfold timedOut? at h
  split at h
  · obtain rfl := Option.some.inj h
    exact ⟨_, rfl⟩
  · cases h

/-- A block that takes one word of three; of the text that comes after, all reaches the wire. -/
theorem sent_after_stall_midway :
    ∃ (x x₁ : Session Bench 2) (block : Bench) (t : List Event),
      (x.bus.map = .blsp ∨ x.bus.map = .gsbi) ∧ x.driver.config.registers = x.bus.map ∧
      x.driver.ports.resolve ⟨0⟩ = some x.bus.base ∧ x.driver.config.poll = .budget 2 ∧
      x.bus.Prompt ∧ x.bus.waited.toNat + 2 * (2 : UInt32).toNat < 0x100000000 ∧
      Bench.control (.stallAfter 1) x.bus = some block ∧
      Sendable [0x31, 0x32, 0x33, 0x0a, 0x34, 0x35, 0x36, 0x37] ∧ Sendable [0x6f, 0x6b, 0x0a] ∧
      Session.perform Bench.bus 0 (.write ⟨0⟩ [0x31, 0x32, 0x33, 0x0a, 0x34, 0x35, 0x36, 0x37])
        ⟨x.driver, block⟩ = ⟨.ok (.done (.error .timeout)) x₁, t⟩ ∧
      ∃ x₂ t₂, Session.perform Bench.bus 0 (.write ⟨0⟩ [0x6f, 0x6b, 0x0a]) x₁ =
          ⟨.ok (.done (.ok ())) x₂, t₂⟩ ∧
        x₂.bus.txBytes = [0x31, 0x32, 0x33, 0x0d] ++ [0x6f, 0x6b, 0x0d, 0x0a] := by
  let driver : Driver 2 :=
    { config := { Config.standard with registers := .gsbi, poll := .budget 2 }
      ports := ⟨[0x1000], by decide⟩
      caches := .replicate 2 .empty }
  let x : Session Bench 2 := ⟨driver, .new 0x1000 .gsbi⟩
  let block : Bench := { x.bus with stallAt := some 1 }
  have hrun : (Session.perform Bench.bus 0
      (.write ⟨0⟩ [0x31, 0x32, 0x33, 0x0a, 0x34, 0x35, 0x36, 0x37])
      (⟨x.driver, block⟩ : Session Bench 2)).timedOut?.map (·.bus.txBytes) =
      some [0x31, 0x32, 0x33, 0x0d] := by
    decide +kernel
  obtain ⟨x₁, hended, hwire⟩ := Option.map_eq_some_iff.1 hrun
  obtain ⟨t, hfirst⟩ := Run.eq_of_timedOut? hended
  have habandoned : Sendable [0x31, 0x32, 0x33, 0x0a, 0x34, 0x35, 0x36, 0x37] := by
    constructor <;> decide
  have htext : Sendable [0x6f, 0x6b, 0x0a] := by
    constructor <;> decide
  have hstall : Bench.control (.stallAfter 1) x.bus = some block := rfl
  have hroom : x.bus.waited.toNat + 2 * (2 : UInt32).toNat < 0x100000000 := by decide
  obtain ⟨r, x₂, t₂, hsecond, ⟨-, rfl, hbytes⟩ | ⟨hw, -⟩⟩ := sent_after_stall (.inr rfl) rfl rfl
    rfl ⟨rfl, rfl, rfl⟩ hroom hstall habandoned htext hfirst
  · rw [hwire] at hbytes
    exact ⟨x, x₁, block, t, .inr rfl, rfl, rfl, rfl, ⟨rfl, rfl, rfl⟩, hroom, hstall, habandoned,
      htext, hfirst, x₂, t₂, hsecond, hbytes⟩
  · cases hw

/-- A block that has stalled before the first word: the second write times out as the first one
did, and none of its text reaches the wire. -/
theorem sent_after_stall_blocked :
    ∃ (x x₁ x₂ : Session Bench 2) (block : Bench) (t t₂ : List Event),
      x.bus.map = .blsp ∧ x.driver.config.registers = .blsp ∧
      x.driver.ports.resolve ⟨0⟩ = some x.bus.base ∧ x.driver.config.poll = .budget 2 ∧
      x.bus.Prompt ∧ x.bus.stallAt = none ∧ x.bus.waited = 0 ∧
      Bench.control (.stallAfter 0) x.bus = some block ∧
      Session.perform Bench.bus 0 (.write ⟨0⟩ [0x61]) ⟨x.driver, block⟩ =
        ⟨.ok (.done (.error .timeout)) x₁, t⟩ ∧
      Session.perform Bench.bus 0 (.write ⟨0⟩ [0x62]) x₁ =
        ⟨.ok (.done (.error .timeout)) x₂, t₂⟩ ∧
      x₂.bus.txBytes = [] := by
  let driver : Driver 2 :=
    { config := { Config.standard with poll := .budget 2 }
      ports := ⟨[0x1000], by decide⟩
      caches := .replicate 2 .empty }
  let x : Session Bench 2 := ⟨driver, .new 0x1000 .blsp⟩
  let block : Bench := { x.bus with stallAt := some 0 }
  have hrun : ((Session.perform Bench.bus 0 (.write ⟨0⟩ [0x61])
      (⟨x.driver, block⟩ : Session Bench 2)).timedOut?.bind fun x₁ =>
        (Session.perform Bench.bus 0 (.write ⟨0⟩ [0x62]) x₁).timedOut?.map (·.bus.txBytes)) =
      some [] := by
    decide +kernel
  obtain ⟨x₁, hended, hrest⟩ := Option.bind_eq_some_iff.1 hrun
  obtain ⟨x₂, hended₂, hwire⟩ := Option.map_eq_some_iff.1 hrest
  obtain ⟨t, hfirst⟩ := Run.eq_of_timedOut? hended
  obtain ⟨t₂, hsecond⟩ := Run.eq_of_timedOut? hended₂
  exact ⟨x, x₁, x₂, block, t, t₂, rfl, rfl, rfl, rfl, ⟨rfl, rfl, rfl⟩, rfl, rfl, rfl, hfirst,
    hsecond, hwire⟩

end Sessions

end PolledUart

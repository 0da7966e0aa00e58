import PolledUart.Proofs.Answers
import PolledUart.Proofs.FaultFree

/-!
# Waiting is reading again

A read that waits has its loop inside: it looks at the cache once, and then fetches until a word
has arrived. The same can be had from outside, with reads that do not wait: each looks up the port
and its cache anew, and the reader tries again as long as nothing has been received
(`Driver.readAgain`). The two are the same program on a registered port, so they make the same
requests and end alike on every bus.

* `Driver.getChar_of_resolve` — a read of a registered port is a fetch into an empty cache, or
  takes a character from one that is not.
* `Driver.getChar_eq_readAgain` — the two loops are one.
* `waiting_read_retries` — what a waiting read comes to, in calls that do not wait.
-/

namespace PolledUart

variable {σ : Type} {slots : Nat} {d d' : Driver slots} {fuel : Nat} {port : PortId}
  {base : Address} {bus : Bus σ} {s s' : σ} {t : List Event}

namespace RxCache

variable {c : RxCache}

theorem remaining_ne_zero (h : c.isEmpty = false) : c.remaining ≠ 0 := by
  intro h0
  rw [isEmpty, h0] at h
  cases h

theorem exists_pop? (h : c.remaining ≠ 0) : ∃ byte rest, c.pop? = some (byte, rest) := by
  cases hpop : c.pop? with
  | none => exact absurd (pop?_eq_none_iff.1 hpop) h
  | some r => exact ⟨r.1, r.2, rfl⟩

end RxCache

namespace Driver

/-! ### One read -/

/-- Taking a character from a cache that has one. -/
theorem takeFrom_of_pop? {cache rest : RxCache} {byte : UInt8} (hslot : port.index < slots)
    (h : cache.pop? = some (byte, rest)) :
    d.takeFrom port.index cache = .done (.ok byte, d.withCache port rest) := by
  have hset : d.setCache port.index rest = .done (d.withCache port rest) := by
    rw [setCache, dif_pos hslot, withCache]
    refine congrArg Program.done (congrArg (Driver.mk d.config d.ports) ?_)
    ext i hi
    rw [Vector.getElem_set, Vector.getElem_setIfInBounds]
  rw [takeFrom, h]
  dsimp only
  rw [hset]
  rfl

/-- What a read does with what it has fetched. -/
def handOut (d : Driver slots) (port : PortId) :
    Option Received → Program (Except IoError UInt8 × Driver slots)
  | none => .done (.error .rxNotReady, d)
  | some received => d.takeFrom port.index (.ofReceived received)

/-- **A read of a registered port** fetches if its cache is used up, and else takes a character
from the cache. -/
theorem getChar_of_resolve (hport : d.ports.resolve port = some base) (wait : Bool) :
    d.getChar fuel port wait =
      if (d.cacheOf port).isEmpty then
        (fetchWord fuel wait (d.block base)).bind (d.handOut port)
      else d.takeFrom port.index (d.cacheOf port) := by
  have hslot := index_lt_of_resolve hport
  have hcache : d.cache port.index = .done (d.cacheOf port) := by
    rw [cache, dif_pos hslot, cacheOf, Vector.getElem?_eq_getElem hslot]
    rfl
  unfold getChar
  rw [hport]
  dsimp only
  rw [hcache, Program.bind_eq, Program.done_bind]
  split
  · refine congrArg _ (funext fun r => ?_)
    cases r <;> rfl
  · rfl

/-! ### The loop outside -/

/-- Reads without waiting, again and again as long as nothing has been received, with at most one
read more than the given number of turns. -/
def readAgain (d : Driver slots) (port : PortId) (turns : Nat) :
    Program (Except IoError UInt8 × Driver slots) := do
  match ← d.getChar 0 port false with
  | (.error .rxNotReady, d) =>
    match turns with
    | 0 => .limit
    | turns + 1 => readAgain d port turns
  | r => return r

/-- What follows a read of the loop. -/
def afterRead (port : PortId) (turns : Nat) :
    Except IoError UInt8 × Driver slots → Program (Except IoError UInt8 × Driver slots)
  | (.error .rxNotReady, d) =>
    match turns with
    | 0 => .limit
    | turns + 1 => d.readAgain port turns
  | r => .done r

theorem readAgain_eq (turns : Nat) :
    d.readAgain port turns = (d.getChar 0 port false).bind (afterRead port turns) := by
  rw [readAgain]
  refine congrArg _ (funext fun r => ?_)
  obtain ⟨r, d'⟩ := r
  cases r with
  | ok byte => rfl
  | error e => cases e <;> cases turns <;> rfl

/-- A character ends the loop. -/
theorem takeFrom_bind_afterRead {cache : RxCache} (hslot : port.index < slots)
    (h : cache.remaining ≠ 0) (turns : Nat) :
    (d.takeFrom port.index cache).bind (afterRead port turns) = d.takeFrom port.index cache := by
  obtain ⟨byte, rest, hpop⟩ := RxCache.exists_pop? h
  rw [takeFrom_of_pop? hslot hpop]
  rfl

/-- What follows a fetch of the loop inside. -/
def afterFetch (b : Block) (turns : Nat) : Option Received → Program Received
  | some received => .done received
  | none =>
    match turns with
    | 0 => .limit
    | turns + 1 => Receive.fetchWaiting b turns

theorem fetchWaiting_eq (b : Block) (turns : Nat) :
    Receive.fetchWaiting b turns = (Receive.fetch b).bind (afterFetch b turns) := by
  rw [Receive.fetchWaiting.eq_def]
  refine congrArg _ (funext fun r => ?_)
  cases r <;> cases turns <;> rfl

/-- With a cache that is used up, each round of either loop is a fetch. -/
theorem fetchWaiting_handOut (hport : d.ports.resolve port = some base)
    (hempty : (d.cacheOf port).isEmpty = true) (turns : Nat) :
    ((Receive.fetchWaiting (d.block base) turns).bind fun received =>
      d.handOut port (some received)) = d.readAgain port turns := by
  have hround : d.getChar 0 port false = (Receive.fetch (d.block base)).bind (d.handOut port) := by
    rw [getChar_of_resolve hport, if_pos hempty]
    rfl
  have hslot := index_lt_of_resolve hport
  -- A word that was fetched has a character, so neither loop goes on after it.
  have hstep : ∀ turns, ((afterFetch (d.block base) turns none).bind fun received =>
        d.handOut port (some received)) = afterRead port turns (.error .rxNotReady, d) →
      ((Receive.fetchWaiting (d.block base) turns).bind fun received =>
        d.handOut port (some received)) = d.readAgain port turns := by
    intro turns hnone
    rw [readAgain_eq, hround, fetchWaiting_eq, Program.bind_assoc, Program.bind_assoc]
    refine (Receive.fetch_nonempty (d.block base)).bind_congr fun r hr => ?_
    cases r with
    | none => exact hnone
    | some received => exact (takeFrom_bind_afterRead hslot (hr received rfl) turns).symm
  induction turns with
  | zero => exact hstep 0 rfl
  | succ turns ih => exact hstep (turns + 1) ih

/-- **A read that waits is a read repeated**: the loop around the fetch and the loop around the
whole read are the same program. -/
theorem getChar_eq_readAgain (hport : d.ports.resolve port = some base) (turns : Nat) :
    d.getChar turns port true = d.readAgain port turns := by
  cases hempty : (d.cacheOf port).isEmpty with
  | false =>
    have hfull := RxCache.remaining_ne_zero hempty
    rw [readAgain_eq, getChar_of_resolve hport, getChar_of_resolve hport, hempty]
    exact (takeFrom_bind_afterRead (index_lt_of_resolve hport) hfull turns).symm
  | true =>
    rw [← fetchWaiting_handOut hport hempty, getChar_of_resolve hport, if_pos hempty]
    exact Program.bind_assoc _ _ _

/-- A read that waits need not wait where one that does not brings a character. -/
theorem completes_getChar_waiting {byte : UInt8} (hport : d.ports.resolve port = some base)
    (h : bus.Completes (d.getChar fuel port false) s t (.ok byte, d') s') (turns : Nat) :
    bus.Completes (d.getChar turns port true) s t (.ok byte, d') s' := by
  rw [getChar_eq_readAgain hport, readAgain_eq]
  exact Bus.completes_bind_iff.2 ⟨_, s', t, [], h, .done, (List.append_nil t).symm⟩

end Driver

/-! ### Calls that do not wait, one after the other -/

namespace Session

variable {x x' : Session σ slots} {byte : UInt8} {failed : List (List Event)}

/-- Reads of a port that do not wait, one after the other: some that bring nothing, each with its
events, and then one that brings a character. -/
inductive Retries (bus : Bus σ) (port : PortId) :
    Session σ slots → List (List Event) → List Event → UInt8 → Session σ slots → Prop where
  /-- A read that brings a character. -/
  | brings {x x' : Session σ slots} {fuel : Nat} {t : List Event} {byte : UInt8} :
      perform bus fuel (.getChar port false) x = ⟨.ok (.byte (.ok byte)) x', t⟩ →
      Retries bus port x [] t byte x'
  /-- A read that brings nothing, and the reads after it. -/
  | nothing {x x₁ x' : Session σ slots} {fuel : Nat} {u t : List Event}
      {failed : List (List Event)} {byte : UInt8} :
      perform bus fuel (.getChar port false) x = ⟨.ok (.byte (.error .rxNotReady)) x₁, u⟩ →
      Retries bus port x₁ failed t byte x' → Retries bus port x (u :: failed) t byte x'

theorem perform_getChar_iff {wait : Bool} {r : Except IoError UInt8} :
    perform bus fuel (.getChar port wait) x = ⟨.ok (.byte r) x', t⟩ ↔
      bus.Completes (x.driver.getChar fuel port wait) x.bus t (r, x'.driver) x'.bus := by
  rw [perform_eq_ok_iff]
  constructor
  · intro h
    obtain ⟨⟨r', d'⟩, hrun, heq⟩ := Bus.completes_bind_done_iff.1 h
    obtain ⟨hr, rfl⟩ := Prod.mk.inj heq
    obtain rfl := Reply.byte.inj hr
    exact hrun
  · intro h
    exact Bus.completes_bind_done_iff.2 ⟨_, h, rfl⟩

/-- There is nothing to unroll in a read that does not wait. -/
theorem perform_getChar_eq :
    perform bus fuel (.getChar port false) x = perform bus 0 (.getChar port false) x := rfl

/-- One call of the loop outside, and what follows it. -/
theorem completes_readAgain_step {turns : Nat} :
    bus.Completes (x.driver.readAgain port turns) x.bus t (.ok byte, x'.driver) x'.bus ↔
      perform bus 0 (.getChar port false) x = ⟨.ok (.byte (.ok byte)) x', t⟩ ∨
        ∃ u v x₁ turns', turns = turns' + 1 ∧ t = u ++ v ∧
          perform bus 0 (.getChar port false) x = ⟨.ok (.byte (.error .rxNotReady)) x₁, u⟩ ∧
          bus.Completes (x₁.driver.readAgain port turns') x₁.bus v (.ok byte, x'.driver)
            x'.bus := by
  rw [Driver.readAgain_eq, Bus.completes_bind_iff]
  constructor
  · rintro ⟨⟨r, d₁⟩, s₁, u, v, hread, hafter, rfl⟩
    obtain ⟨x₁, rfl, rfl⟩ : ∃ x₁ : Session σ slots, x₁.driver = d₁ ∧ x₁.bus = s₁ :=
      ⟨⟨d₁, s₁⟩, rfl, rfl⟩
    have hround := perform_getChar_iff.2 hread
    cases r with
    | ok byte' =>
      obtain ⟨rfl, heq, hbus⟩ := Bus.completes_done_iff.1 hafter
      obtain ⟨hbyte, hdriver⟩ := Prod.mk.inj heq
      obtain rfl := Except.ok.inj hbyte
      obtain ⟨driver, state⟩ := x'
      obtain rfl := hdriver
      obtain rfl := hbus
      exact .inl (by rwa [List.append_nil])
    | error e =>
      cases e with
      | rxNotReady =>
        cases turns with
        | zero => exact absurd hafter Bus.not_completes_limit
        | succ turns => exact .inr ⟨u, v, x₁, turns, rfl, rfl, hround, hafter⟩
      | _ =>
        obtain ⟨-, heq, -⟩ := Bus.completes_done_iff.1 hafter
        cases (Prod.mk.inj heq).1
  · rintro (hround | ⟨u, v, x₁, turns', rfl, rfl, hround, hafter⟩)
    · exact ⟨_, _, t, [], perform_getChar_iff.1 hround, .done, (List.append_nil t).symm⟩
    · exact ⟨_, _, u, v, perform_getChar_iff.1 hround, hafter, rfl⟩

/-- The loop outside, call by call. -/
theorem completes_readAgain_iff {turns : Nat} :
    bus.Completes (x.driver.readAgain port turns) x.bus t (.ok byte, x'.driver) x'.bus ↔
      ∃ failed last, failed.length ≤ turns ∧ t = failed.flatten ++ last ∧
        Retries bus port x failed last byte x' := by
  constructor
  · intro h
    induction turns generalizing x t with
    | zero =>
      rcases completes_readAgain_step.1 h with hround | ⟨_, _, _, _, hzero, -⟩
      · exact ⟨[], t, Nat.zero_le _, rfl, .brings hround⟩
      · cases hzero
    | succ turns ih =>
      rcases completes_readAgain_step.1 h with hround | ⟨u, v, x₁, _, hsucc, rfl, hround, hrest⟩
      · exact ⟨[], t, Nat.zero_le _, rfl, .brings hround⟩
      · obtain rfl := Nat.succ.inj hsucc
        obtain ⟨failed, last, hlength, rfl, hretries⟩ := ih hrest
        exact ⟨u :: failed, last, Nat.succ_le_succ hlength, (List.append_assoc ..).symm,
          .nothing hround hretries⟩
  · rintro ⟨failed, last, hlength, rfl, h⟩
    induction h generalizing turns with
    | brings hround => exact completes_readAgain_step.2 (.inl hround)
    | @nothing _ _ _ _ u last failed _ hround _ ih =>
      obtain ⟨turns, rfl⟩ := Nat.exists_eq_add_of_le' (Nat.lt_of_lt_of_le (Nat.succ_pos _) hlength)
      exact completes_readAgain_step.2 (.inr ⟨u, failed.flatten ++ last, _, turns, rfl,
        List.append_assoc .., hround, ih (Nat.le_of_succ_le_succ hlength)⟩)

/-- A read that brings nothing leaves the driver as it is, and its events are those of a fetch that
finds nothing. -/
theorem fetches_of_rxNotReady (hport : x.driver.ports.resolve port = some base)
    (h : perform bus fuel (.getChar port false) x = ⟨.ok (.byte (.error .rxNotReady)) x', t⟩) :
    x'.driver = x.driver ∧ Fetches (x.driver.block base) t none := by
  have hread := perform_getChar_iff.1 h
  rw [Driver.getChar_of_resolve hport] at hread
  split at hread
  · obtain ⟨r, s₁, u, v, hfetch, hout, rfl⟩ := Bus.completes_bind_iff.1 hread
    cases r with
    | none =>
      obtain ⟨rfl, heq, -⟩ := Bus.completes_done_iff.1 hout
      rw [List.append_nil]
      exact ⟨(Prod.mk.inj heq).2, Receive.fetches_of_completes hfetch⟩
    | some received =>
      have hpop := (Driver.brings_of_fetchWord hfetch).pop?_ne_none
      obtain ⟨-, -, _, _, -, hr, -⟩ := Driver.completes_takeFrom hpop hout
      cases hr
  · rename_i hfull
    have hpop : (x.driver.cacheOf port).pop? ≠ none := fun h0 =>
      hfull (by simp [RxCache.isEmpty, RxCache.pop?_eq_none_iff.1 h0])
    obtain ⟨-, -, _, _, -, hr, -⟩ := Driver.completes_takeFrom hpop hread
    cases hr

/-- So does every read but the last. -/
theorem Retries.fetches {last : List Event} (h : Retries bus port x failed last byte x')
    (hport : x.driver.ports.resolve port = some base) :
    ∀ u ∈ failed, Fetches (x.driver.block base) u none := by
  induction h with
  | brings _ => exact fun _ hu => absurd hu List.not_mem_nil
  | nothing hround _ ih =>
    obtain ⟨hdriver, hfetches⟩ := fetches_of_rxNotReady hport hround
    rw [hdriver] at ih
    exact List.forall_mem_cons.2 ⟨hfetches, ih hport⟩

/-- A read of a cache with characters takes one, without an event. -/
theorem perform_getChar_of_cached (bus : Bus σ) {rest : RxCache}
    (hport : x.driver.ports.resolve port = some base)
    (hpop : (x.driver.cacheOf port).pop? = some (byte, rest)) (fuel : Nat) (wait : Bool) :
    perform bus fuel (.getChar port wait) x =
      ⟨.ok (.byte (.ok byte)) ⟨x.driver.withCache port rest, x.bus⟩, []⟩ := by
  have hfull : ¬ (x.driver.cacheOf port).isEmpty = true := fun h0 => by
    rw [RxCache.pop?, if_pos h0] at hpop
    cases hpop
  rw [perform_getChar_iff, Driver.getChar_of_resolve hport, if_neg hfull,
    Driver.takeFrom_of_pop? (Driver.index_lt_of_resolve hport) hpop]
  exact .done

end Session

/-- **A waiting read is the non-waiting read repeated.** On every bus, from every state of the
driver and for every registered port:

* a read that waits completes with a character just if reads that do not wait bring it after some
  that bring nothing; the session at the end is the same, the events are those of all these reads,
  and there are no more of them than the wait has been unrolled for;
* it never answers that nothing has been received;
* a read that does answer so leaves the driver as it was, whatever the state of the bus;
* it has looked at the overrun, the status and the count of waiting characters, and come neither to
  pushing them out nor to the data register;
* a port with characters in its cache hands one out at once, waiting or not, and the bus sees
  nothing of it. -/
theorem waiting_read_retries {x : Session σ slots}
    (hport : x.driver.ports.resolve port = some base) :
    (∀ fuel t byte x', Session.perform bus fuel (.getChar port true) x =
        ⟨.ok (.byte (.ok byte)) x', t⟩ ↔
      ∃ failed last, failed.length ≤ fuel ∧ t = failed.flatten ++ last ∧
        Session.Retries bus port x failed last byte x') ∧
    (∀ fuel t reply x', Session.perform bus fuel (.getChar port true) x = ⟨.ok reply x', t⟩ →
      ∃ byte, reply = .byte (.ok byte)) ∧
    (∀ s fuel t x', Session.perform bus fuel (.getChar port false) ⟨x.driver, s⟩ =
      ⟨.ok (.byte (.error .rxNotReady)) x', t⟩ → x'.driver = x.driver) ∧
    (∀ failed last byte x', Session.Retries bus port x failed last byte x' → ∀ u ∈ failed,
      (∃ looks v count, Checks (x.driver.block base) looks ∧ v &&& Status.rxReady = 0 ∧
        ReceiveState.bufferCount count = 0 ∧ u = looks ++
          [(x.driver.block base).readEvent .sr v, (x.driver.block base).readEvent .rxfs count]) ∧
      Trace.forceEvent (x.driver.block base) ∉ u ∧
      (x.driver.config.registers.ReadsApart →
        Trace.readsAt ((x.driver.block base).location .rf) u = [])) ∧
    ((x.driver.cacheOf port).isEmpty = false → ∀ fuel, ∃ byte x', x'.bus = x.bus ∧
      Session.perform bus fuel (.getChar port true) x = ⟨.ok (.byte (.ok byte)) x', []⟩ ∧
      Session.Retries bus port x [] [] byte x') := by
  refine ⟨fun fuel t byte x' => ?_, fun fuel t reply x' h => ?_, fun s fuel t x' h => ?_,
    fun failed last byte x' h u hu => ?_, fun hfull fuel => ?_⟩
  · rw [Session.perform_getChar_iff, Driver.getChar_eq_readAgain hport,
      Session.completes_readAgain_iff]
  · exact Call.satisfied_of_completes (c := .getChar port true) rfl hport
      (Session.perform_eq_ok_iff.1 h)
  · exact (Session.fetches_of_rxNotReady (x := ⟨x.driver, s⟩) hport h).1
  · have hfetches := h.fetches hport u hu
    refine ⟨?_, hfetches.force_not_mem, fun hm => hfetches.readsAt_data hm⟩
    cases hfetches with
    | nothing hchecks hstatus hcount => exact ⟨_, _, _, hchecks, hstatus, hcount, rfl⟩
  · obtain ⟨byte, rest, hpop⟩ := RxCache.exists_pop? (RxCache.remaining_ne_zero hfull)
    have hperform := Session.perform_getChar_of_cached bus hport hpop fuel
    refine ⟨byte, ⟨x.driver.withCache port rest, x.bus⟩, rfl, hperform true, ?_⟩
    exact .brings (hperform false)

/-- The session after a run that has answered with a character. -/
def Run.brought? : Run (Session σ slots) Reply → Option (UInt8 × Session σ slots)
  | ⟨.ok (.byte (.ok byte)) x, _⟩ => some (byte, x)
  | _ => none

theorem Run.eq_of_brought? {r : Run (Session σ slots) Reply} {byte : UInt8}
    {x : Session σ slots} (h : r.brought? = some (byte, x)) :
    ∃ t, r = ⟨.ok (.byte (.ok byte)) x, t⟩ := by
  unfold brought? at h
  split at h
  · cases h
    exact ⟨_, rfl⟩
  · cases h

/-- A wait that is over in its second round: in the first an overrun is cleared and nothing has
arrived, in the second a full word has. -/
theorem waiting_read_retries_once :
    ∃ x : Session (List UInt32) 1, x.driver.ports.resolve ⟨0⟩ = some 0x1000 ∧
      ∃ failed last x', failed.length = 1 ∧
        Session.Retries Trace.prepared ⟨0⟩ x failed last 0x61 x' := by
  let driver : Driver 1 :=
    { config := Config.standard
      ports := ⟨[0x1000], by decide⟩
      caches := .replicate 1 .empty }
  let x : Session (List UInt32) 1 := ⟨driver, [0x10, 0, 0, 0, 1, 0x64636261]⟩
  have hrun : (Session.perform Trace.prepared 1 (.getChar ⟨0⟩ true) x).brought?.map (·.1) =
      some 0x61 := by
    decide +kernel
  have honce : (Session.perform Trace.prepared 0 (.getChar ⟨0⟩ false) x).brought?.map (·.1) =
      none := by
    decide +kernel
  obtain ⟨⟨_, x'⟩, hbrought, rfl⟩ := Option.map_eq_some_iff.1 hrun
  obtain ⟨t, hwaited⟩ := Run.eq_of_brought? hbrought
  obtain ⟨failed, last, hlength, -, h⟩ := ((waiting_read_retries rfl).1 1 t _ x').1 hwaited
  refine ⟨x, rfl, failed, last, x', ?_, h⟩
  cases h with
  | brings hround =>
    rw [← Session.perform_getChar_eq, hround] at honce
    cases honce
  | nothing _ _ => exact Nat.le_antisymm hlength (Nat.succ_pos _)

end PolledUart

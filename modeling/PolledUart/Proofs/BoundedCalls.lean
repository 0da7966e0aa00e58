import Mathlib.Data.List.Forall2
import PolledUart.Proofs.Effort
import PolledUart.Proofs.FaultFree
import PolledUart.Proofs.WaitingReads

/-!
# Calls that cannot hang

Under a poll budget every wait for the transmitter gives up, so a call that
sends, flushes, reads without waiting or brings up a port is over after a number
of accesses that its arguments tell (`Call.effort?`), whatever the hardware
answers. What is left are the reads that wait for a first character. Their loop
is unrolled as often as asked for, and a run of it that is cut off
(`Bus.CutOff`) shows why it has not ended: with the cache used up, each fetch
found no full word and an empty packing buffer (`Driver.Starves`). So such a
read goes on only as long as nothing arrives, and it does go on if nothing ever
does (`Call.cutOff_silent`).
-/

namespace PolledUart

variable {σ α β : Type} {bus : Bus σ} {s s' : σ} {t : List Event}

open Program

/-! ## Runs that are cut off -/

namespace Bus

/-- The run of a program is cut off, after the events of a trace. -/
def CutOff (bus : Bus σ) (p : Program α) (s : σ) (t : List Event) : Prop :=
  bus.run p s = ⟨.limit, t⟩

theorem not_cutOff_done {a : α} : ¬ bus.CutOff (.done a) s t := nofun

/-- A sequence is cut off in its first part, or in the second after the first has completed. -/
theorem cutOff_bind_iff {p : Program α} {f : α → Program β} :
    bus.CutOff (p.bind f) s t ↔ bus.CutOff p s t ∨
      ∃ a s₁ t₁ t₂, bus.Completes p s t₁ a s₁ ∧ bus.CutOff (f a) s₁ t₂ ∧ t = t₁ ++ t₂ := by
  simp only [CutOff, completes_iff, run_bind]
  obtain ⟨outcome, u⟩ := bus.run p s
  cases outcome with
  | ok a s₁ =>
    simp only [Run.andThen, Run.mk.injEq, reduceCtorEq, false_and, false_or, Outcome.ok.injEq]
    constructor
    · rintro ⟨hlimit, rfl⟩
      refine ⟨a, s₁, u, (bus.run (f a) s₁).trace, ⟨⟨rfl, rfl⟩, rfl⟩, ?_, rfl⟩
      rw [← hlimit]
    · rintro ⟨_, _, _, t₂, ⟨⟨rfl, rfl⟩, rfl⟩, hrun, rfl⟩
      rw [hrun]
      exact ⟨rfl, rfl⟩
  | fault | halt | limit => simp [Run.andThen]

end Bus

open Bus

/-- A bounded program is not cut off, unless by the bus. -/
theorem Program.Within.not_cutOff {p : Program α} {e : Effort} (h : p.Within e)
    (hbus : bus.Unlimited) : ¬ bus.CutOff p s t := by
  intro hcut
  apply h.ends hbus s
  rw [show bus.run p s = _ from hcut]

/-- A sequence with a bounded first part is cut off in the second. -/
theorem Bus.CutOff.of_bind {p : Program α} {f : α → Program β} {e : Effort}
    (h : bus.CutOff (p.bind f) s t) (hp : p.Within e) (hbus : bus.Unlimited) :
    ∃ a s₁ t₁ t₂, bus.Completes p s t₁ a s₁ ∧ bus.CutOff (f a) s₁ t₂ ∧ t = t₁ ++ t₂ :=
  (cutOff_bind_iff.mp h).resolve_left (hp.not_cutOff hbus)

/-- A sequence with bounded second parts is cut off in the first. -/
theorem Bus.CutOff.of_bind_left {p : Program α} {f : α → Program β}
    (h : bus.CutOff (p.bind f) s t) (hf : ∀ a, ∃ e, (f a).Within e) (hbus : bus.Unlimited) :
    bus.CutOff p s t := by
  rcases cutOff_bind_iff.mp h with hp | ⟨a, s₁, t₁, t₂, -, hcut, -⟩
  · exact hp
  · obtain ⟨e, hwithin⟩ := hf a
    exact absurd hcut (hwithin.not_cutOff hbus)

/-! ## Reads that wait -/

/-- The events of a number of fetches that found nothing, one after the other. -/
def Trace.Starved (b : Block) (n : Nat) (t : List Event) : Prop :=
  ∃ us : List (List Event), us.length = n ∧ t = us.flatten ∧ ∀ u ∈ us, Fetches b u none

/-- Some characters of a port were read, which used up its cache, and then a number of fetches found
nothing. -/
def Driver.Starves {slots : Nat} (d : Driver slots) (port : PortId) (n : Nat) (t : List Event) :
    Prop :=
  ∃ base bytes cache t₀ t₁, d.ports.resolve port = some base ∧
    Reads (d.block base) (d.cacheOf port) t₀ bytes cache ∧ cache.isEmpty = true ∧
    Trace.Starved (d.block base) n t₁ ∧ t = t₀ ++ t₁

/-- **A wait for a word** that is cut off has fetched as often as it could, each time in vain. -/
theorem Receive.starved_of_cutOff {b : Block} {turns : Nat} (hbus : bus.Unlimited)
    (h : bus.CutOff (fetchWaiting b turns) s t) : Trace.Starved b (turns + 1) t := by
  induction turns generalizing s t with
  | zero =>
    rw [Driver.fetchWaiting_eq] at h
    obtain ⟨r, s₁, u, v, hfetch, hcut, rfl⟩ := h.of_bind within_fetch hbus
    cases r with
    | none =>
      obtain rfl : [] = v := (Run.mk.inj hcut).2
      exact ⟨[u], rfl, by simp, by simpa using fetches_of_completes hfetch⟩
    | some received => exact absurd hcut not_cutOff_done
  | succ turns ih =>
    rw [Driver.fetchWaiting_eq] at h
    obtain ⟨r, s₁, u, v, hfetch, hcut, rfl⟩ := h.of_bind within_fetch hbus
    cases r with
    | none =>
      obtain ⟨us, hlength, rfl, hus⟩ := ih hcut
      refine ⟨u :: us, by simp [hlength], rfl, ?_⟩
      exact List.forall_mem_cons.mpr ⟨fetches_of_completes hfetch, hus⟩
    | some received => exact absurd hcut not_cutOff_done

namespace Driver

variable {slots : Nat} {d : Driver slots} {fuel : Nat} {port : PortId}

theorem starves_of_getChar (hbus : bus.Unlimited)
    (h : bus.CutOff (d.getChar fuel port true) s t) : d.Starves port (fuel + 1) t := by
  cases hport : d.ports.resolve port with
  | none =>
    rw [getChar_of_none hport] at h
    exact absurd h not_cutOff_done
  | some base =>
    rw [getChar_of_resolve hport] at h
    split at h
    · rename_i hempty
      have hhand : ∀ r, ∃ e, (d.handOut port r).Within e := by
        intro r
        cases r with
        | none => exact ⟨0, trivial⟩
        | some received => exact ⟨0, within_takeFrom port.index _⟩
      have hword : bus.CutOff (fetchWord fuel true (d.block base)) s t := h.of_bind_left hhand hbus
      have hwait : bus.CutOff (Receive.fetchWaiting (d.block base) fuel) s t :=
        Bus.CutOff.of_bind_left (f := fun r => .done (some r)) hword (fun _ => ⟨0, trivial⟩) hbus
      exact ⟨base, [], _, [], t, hport, .done, hempty, Receive.starved_of_cutOff hbus hwait, rfl⟩
    · exact absurd h ((within_takeFrom port.index _).not_cutOff hbus)

theorem starves_of_readBytes {room : Nat} (hbus : bus.Unlimited)
    (h : bus.CutOff (d.readBytes fuel port room) s t) : d.Starves port (fuel + 1) t := by
  cases room with
  | zero => exact absurd h not_cutOff_done
  | succ room =>
    refine starves_of_getChar hbus (h.of_bind_left (fun r => ?_) hbus)
    obtain ⟨r, d'⟩ := r
    cases r with
    | error e => exact ⟨0, trivial⟩
    | ok byte =>
      exact ⟨readsEffort room, (within_takeReady room).bind 0 (by simp [Effort.le_iff])
        fun _ => trivial⟩

/-- What was read before counts with it. -/
theorem Starves.after {base : Address} {bytes : List UInt8} {cache : RxCache} {n : Nat}
    {u : List Event} (hport : d.ports.resolve port = some base)
    (hreads : Reads (d.block base) (d.cacheOf port) u bytes cache)
    (h : (d.withCache port cache).Starves port n t) : d.Starves port n (u ++ t) := by
  obtain ⟨base', bytes', cache', t₀, t₁, hport', hlater, hempty, hstarved, rfl⟩ := h
  obtain rfl : base = base' := Option.some.inj (hport.symm.trans hport')
  rw [cacheOf_withCache (index_lt_of_resolve hport)] at hlater
  exact ⟨base, _, cache', u ++ t₀, t₁, hport, hreads.append hlater, hempty, hstarved,
    (List.append_assoc ..).symm⟩

theorem starves_of_fillFrom {reads room : Nat} (hbus : bus.Unlimited)
    (h : bus.CutOff (d.fillFrom fuel port reads room) s t) : d.Starves port (fuel + 1) t := by
  induction reads generalizing d s t room with
  | zero => cases room <;> exact absurd h not_cutOff_done
  | succ reads ih =>
    cases room with
    | zero => exact absurd h not_cutOff_done
    | succ room =>
      rcases cutOff_bind_iff.mp h with hread | ⟨⟨⟨bytes, result⟩, d₁⟩, s₁, u, v, hread, hcut, rfl⟩
      · exact starves_of_readBytes hbus hread
      · cases hport : d.ports.resolve port with
        | none =>
          rw [readBytes, getChar_of_none hport] at hread
          obtain ⟨rfl, heq, rfl⟩ := Bus.completes_done_iff.1 hread
          obtain ⟨hfilled, rfl⟩ := Prod.mk.inj heq
          cases hfilled
          exact absurd hcut not_cutOff_done
        | some base =>
          obtain ⟨hresult, -, hpos⟩ := readBytes_result hport hread
          obtain ⟨cache, hreads, rfl⟩ := reads_of_readBytes hport hread
          dsimp only at hresult hpos hreads
          obtain rfl := hresult
          -- a read into a buffer with room is not empty, so the loop goes on after it
          obtain ⟨n, hn⟩ := Nat.exists_eq_succ_of_ne_zero
            (Nat.pos_iff_ne_zero.1 (hpos (Nat.succ_pos _)))
          rw [hn] at hcut
          exact (ih (hcut.of_bind_left (fun _ => ⟨0, trivial⟩) hbus)).after hport hreads

end Driver

/-! ## Calls -/

section Calls

variable {slots : Nat} {d : Driver slots} {fuel : Nat} {port : PortId} {base : Address}
  {polls : UInt32} {c : Call}

/-- The calls that wait for a first character of a port. -/
inductive Call.Awaits (port : PortId) : Call → Prop where
  | getChar : Awaits port (.getChar port true)
  | readBytes (room : Nat) : Awaits port (.readBytes port (room + 1))
  | readExact (room : Nat) : Awaits port (.readExact port (room + 1))

/-- Every other call is bounded. -/
theorem Call.effort?_eq_none_iff {config : Config} :
    c.effort? polls config = none ↔ ∃ port, c.Awaits port := by
  constructor
  · intro h
    cases c with
    | getChar port wait =>
      cases wait with
      | false => cases h
      | true => exact ⟨port, .getChar⟩
    | readBytes port room =>
      cases room with
      | zero => cases h
      | succ room => exact ⟨port, .readBytes room⟩
    | readExact port room =>
      cases room with
      | zero => cases h
      | succ room => exact ⟨port, .readExact room⟩
    | _ => cases h
  · rintro ⟨port, h⟩
    cases h <;> rfl

/-- **A call that is cut off** is one that waits for a character, and it has found none. -/
theorem Call.starves_of_cutOff (hpoll : d.config.poll = .budget polls) (hbus : bus.Unlimited)
    (h : bus.CutOff (c.program fuel d) s t) :
    ∃ port, c.Awaits port ∧ d.Starves port (fuel + 1) t := by
  have hanswer : ∀ r : Reply × Driver slots, ∃ e, (Program.done r).Within e :=
    fun _ => ⟨0, trivial⟩
  cases he : c.effort? polls d.config with
  | some e => exact absurd h ((Call.within_program hpoll he).not_cutOff hbus)
  | none =>
    obtain ⟨port, hc⟩ := effort?_eq_none_iff.mp he
    refine ⟨port, hc, ?_⟩
    cases hc with
    | getChar => exact Driver.starves_of_getChar hbus (h.of_bind_left (fun _ => hanswer _) hbus)
    | readBytes room =>
      exact Driver.starves_of_readBytes hbus (h.of_bind_left (fun _ => hanswer _) hbus)
    | readExact room =>
      exact Driver.starves_of_fillFrom hbus (h.of_bind_left (fun _ => hanswer _) hbus)

/-! ### Hardware on which nothing ever arrives -/

theorem Receive.cutOff_fetchWaiting {b : Block} {u : List Event}
    (hfetch : bus.Completes (fetch b) s u none s) (turns : Nat) :
    ∃ t, bus.CutOff (fetchWaiting b turns) s t := by
  induction turns with
  | zero =>
    refine ⟨u ++ [], ?_⟩
    rw [Driver.fetchWaiting_eq]
    exact cutOff_bind_iff.mpr (.inr ⟨none, s, u, [], hfetch, rfl, rfl⟩)
  | succ turns ih =>
    obtain ⟨t, hcut⟩ := ih
    refine ⟨u ++ t, ?_⟩
    rw [Driver.fetchWaiting_eq]
    exact cutOff_bind_iff.mpr (.inr ⟨none, s, u, t, hfetch, hcut, rfl⟩)

/-- A block whose registers all read as zero has received nothing. -/
theorem Receive.completes_fetch_zero {b : Block} (hb : b.Addressable) :
    ∃ u, (Bus.constant 0).Completes (fetch b) () u none () := by
  obtain ⟨sr, hsr⟩ := Option.isSome_iff_exists.mp (hb .sr)
  obtain ⟨rxfs, hrxfs⟩ := Option.isSome_iff_exists.mp (hb .rxfs)
  have hfetch : fetch b = .read sr fun v =>
      (if v &&& Status.overrun ≠ 0 then b.command Command.resetErrorStatus else return ()).bind
        fun _ => .read sr fun v =>
          if v &&& Status.rxReady ≠ 0 then do
            let word ← b.read .rf
            return some ⟨⟨word⟩, 4⟩
          else .read rxfs fun count =>
            if ReceiveState.bufferCount count = 0 then return none
            else do
              let word ← forceOut b
              return some ⟨word, UInt8.ofNat (min (ReceiveState.bufferCount count).toNat
                FifoWord.laneCount)⟩ := by
    simp only [fetch, clearOverrun, Block.read_of_address? hsr, Block.read_of_address? hrxfs]
    rfl
  rw [hfetch]
  exact ⟨_, .read rfl (.read rfl (.read rfl .done))⟩

/-- **A call that waits for a character** goes on as often as it is unrolled, if each fetch finds
nothing and leaves the bus as it is. -/
theorem Call.cutOff_silent {u : List Event} (hc : c.Awaits port)
    (hport : d.ports.resolve port = some base) (hempty : (d.cacheOf port).isEmpty = true)
    (hfetch : bus.Completes (Receive.fetch (d.block base)) s u none s) (fuel : Nat) :
    ∃ t, bus.CutOff (c.program fuel d) s t := by
  obtain ⟨t, hwait⟩ := Receive.cutOff_fetchWaiting hfetch fuel
  have hget : bus.CutOff (d.getChar fuel port true) s t := by
    rw [Driver.getChar_of_resolve hport, if_pos hempty]
    exact cutOff_bind_iff.mpr (.inl (cutOff_bind_iff.mpr (.inl hwait)))
  have hread : ∀ room, bus.CutOff (d.readBytes fuel port (room + 1)) s t :=
    fun room => cutOff_bind_iff.mpr (.inl hget)
  refine ⟨t, ?_⟩
  cases hc with
  | getChar => exact cutOff_bind_iff.mpr (.inl hget)
  | readBytes room => exact cutOff_bind_iff.mpr (.inl (hread room))
  | readExact room => exact cutOff_bind_iff.mpr (.inl (cutOff_bind_iff.mpr (.inl (hread room))))

/-! ### Sessions -/

namespace Session

variable {x : Session σ slots}

theorem cutOff_iff : (perform bus fuel c x).outcome = .limit ↔
    bus.CutOff (c.program fuel x.driver) x.bus (perform bus fuel c x).trace := by
  rw [perform_eq_map, CutOff]
  cases bus.run (c.program fuel x.driver) x.bus with
  | mk outcome trace => cases outcome <;> simp [Outcome.map]

theorem trace_eq : (perform bus fuel c x).trace = (bus.run (c.program fuel x.driver) x.bus).trace := by
  rw [perform_eq_map]

/-- What a call answers is no event. -/
theorem trace_of_answer {p : Program α} {f : α → Reply × Driver slots}
    (h : c.program fuel x.driver = p.bind fun a => .done (f a)) :
    (perform bus fuel c x).trace = (bus.run p x.bus).trace := by
  rw [trace_eq, h, run_bind]
  cases bus.run p x.bus with
  | mk outcome trace => cases outcome <;> simp [Run.andThen]

/-- **The pieces of a formatted text** are sent as so many pieces of text, one after the other, as
far as it comes to them. -/
theorem pieces_of_trace (bus : Bus σ) (fuel : Nat) (x : Session σ slots) (port : PortId)
    (pieces : List (List UInt8)) :
    ∃ ts : List (List Event),
      (bus.run (x.driver.writePieces fuel port pieces) x.bus).trace = ts.flatten ∧
      List.Forall₂ (fun piece t => ∃ y, t = (perform bus fuel (.writeText port piece)
        ⟨x.driver, y⟩).trace) (pieces.take ts.length) ts := by
  obtain ⟨driver, s⟩ := x
  dsimp only
  induction pieces generalizing s with
  | nil => exact ⟨[], rfl, .nil⟩
  | cons piece rest ih =>
    have hpiece : (perform bus fuel (.writeText port piece) ⟨driver, s⟩).trace =
        (bus.run (driver.writeText fuel port piece) s).trace := trace_of_answer rfl
    have hlast : List.Forall₂ (fun piece t => ∃ y, t = (perform bus fuel (.writeText port piece)
        ⟨driver, y⟩).trace) ((piece :: rest).take 1)
          [(bus.run (driver.writeText fuel port piece) s).trace] :=
      .cons ⟨s, hpiece.symm⟩ .nil
    rw [Driver.writePieces, Program.bind_eq, run_bind]
    cases hrun : bus.run (driver.writeText fuel port piece) s with
    | mk outcome t =>
      rw [hrun] at hpiece hlast
      cases outcome with
      | ok r s₁ =>
        cases r with
        | error e => exact ⟨[t], by simp [Run.andThen], hlast⟩
        | ok _ =>
          obtain ⟨ts, htrace, hts⟩ := ih s₁
          exact ⟨t :: ts, congrArg (t ++ ·) htrace, .cons ⟨s, hpiece.symm⟩ hts⟩
      | fault | halt | limit => exact ⟨[t], by simp [Run.andThen], hlast⟩

/-- A bounded call on a block in the address space comes back with an answer, on a bus that neither
stops the machine nor cuts it off. -/
theorem answers_of_steady {S : σ → Prop} {e : Effort}
    (hpoll : x.driver.config.poll = .budget polls)
    (he : c.effort? polls x.driver.config = some e) (hbus : bus.Unlimited) (hsteady : bus.Steady S)
    (hs : S x.bus)
    (hbase : ∀ base, c.base? x.driver = some base → (x.driver.block base).Addressable) :
    ∃ reply x', (perform bus fuel c x).outcome = .ok reply x' := by
  have hgoes := hsteady.run_goes (Call.asks_ne_stop fuel hbase) hs
  have hends : (bus.run (c.program fuel x.driver) x.bus).outcome ≠ .limit :=
    (Call.within_program hpoll he).ends hbus x.bus
  rw [perform_eq_map]
  cases hend : (bus.run (c.program fuel x.driver) x.bus).outcome with
  | ok r s' => exact ⟨_, _, rfl⟩
  | fault | halt =>
    rw [hend] at hgoes
    exact hgoes.elim
  | limit => exact absurd hend hends

end Session

/-- **No bounded call can hang.** Under a budget, on every bus and in every state of the driver:

* a call costs no more than its bound, however its run ends, and if the block lies in the address
  space and the bus answers every access, it comes back with an answer; only a call that waits for
  a first character has no bound;
* each piece of a formatted text is within the bound of a single write;
* a call that is cut off on a bus that takes every access is one that waits for a first character,
  and after the characters it has read, each fetch found the cache used up, no full word and an
  empty packing buffer;
* those calls do go on for ever on a bus whose registers all read as zero. -/
theorem calls_bounded (bus : Bus σ) (fuel : Nat) (x : Session σ slots) (polls : UInt32)
    (hpoll : x.driver.config.poll = .budget polls) (c : Call) :
    ((c.effort? polls x.driver.config = none ↔ ∃ port, c.Awaits port) ∧
      ∀ e, c.effort? polls x.driver.config = some e →
        Trace.effort (Session.perform bus fuel c x).trace ≤ e ∧
        ∀ S : σ → Prop, bus.Unlimited → bus.Steady S → S x.bus →
          (∀ base, c.base? x.driver = some base → (x.driver.block base).Addressable) →
          ∃ reply x', (Session.perform bus fuel c x).outcome = .ok reply x') ∧
    (∀ port pieces, c = .writePieces port pieces → ∃ ts : List (List Event),
      (Session.perform bus fuel c x).trace = ts.flatten ∧
      List.Forall₂ (fun piece t => Trace.effort t ≤ Transmit.effort polls piece ∧
        ∃ y, t = (Session.perform bus fuel (.writeText port piece) ⟨x.driver, y⟩).trace)
        (pieces.take ts.length) ts) ∧
    (bus.Unlimited → (Session.perform bus fuel c x).outcome = .limit →
      ∃ port, c.Awaits port ∧
        x.driver.Starves port (fuel + 1) (Session.perform bus fuel c x).trace) ∧
    (∀ port base, c.Awaits port → x.driver.ports.resolve port = some base →
      (x.driver.cacheOf port).isEmpty = true → (x.driver.block base).Addressable →
      ∀ fuel, (Session.perform (Bus.constant 0) fuel c ⟨x.driver, ()⟩).outcome = .limit) := by
  refine ⟨⟨Call.effort?_eq_none_iff, ?_⟩, ?_, ?_, ?_⟩
  · intro e he
    refine ⟨?_, fun S => Session.answers_of_steady hpoll he⟩
    rw [Session.trace_eq]
    exact (Call.within_program hpoll he).effort_run bus x.bus
  · rintro port pieces rfl
    obtain ⟨ts, htrace, hts⟩ := Session.pieces_of_trace bus fuel x port pieces
    refine ⟨ts, (Session.trace_of_answer rfl).trans htrace, hts.imp ?_⟩
    rintro piece t ⟨y, rfl⟩
    refine ⟨?_, y, rfl⟩
    rw [Session.trace_eq]
    exact (Call.within_program (c := .writeText port piece) hpoll rfl).effort_run bus y
  · intro hbus hlimit
    exact Call.starves_of_cutOff hpoll hbus (Session.cutOff_iff.mp hlimit)
  · intro port base hc hport hempty hb fuel
    obtain ⟨u, hfetch⟩ := Receive.completes_fetch_zero hb
    obtain ⟨t, hcut⟩ := Call.cutOff_silent hc hport hempty hfetch fuel
    rw [Session.perform_eq_map, show (Bus.constant 0).run _ _ = _ from hcut]
    rfl

/-- Registers that all read as zero, under a budget of three polls: a write of three characters gives
up in time, and a read of two characters goes on for ever. -/
theorem calls_bounded_zero :
    ∃ x : Session Unit 1, x.driver.config.poll = .budget 3 ∧
      x.driver.ports.resolve ⟨0⟩ = some 0x1000 ∧
      Trace.effort (Session.perform (Bus.constant 0) 0 (.write ⟨0⟩ [0x61, 0x0a]) x).trace ≤
        ⟨7, 4, 3⟩ ∧
      (∃ reply x', (Session.perform (Bus.constant 0) 0 (.write ⟨0⟩ [0x61, 0x0a]) x).outcome =
        .ok reply x') ∧
      ∀ fuel, (Session.perform (Bus.constant 0) fuel (.readExact ⟨0⟩ 2) x).outcome = .limit := by
  let driver : Driver 1 :=
    { config := { Config.standard with poll := .budget 3 }
      ports := ⟨[0x1000], by decide⟩
      caches := .replicate 1 .empty }
  have hblock : (driver.block 0x1000).Addressable := by
    intro r
    cases r <;> rfl
  have hbase : ∀ base, Call.base? driver (.write ⟨0⟩ [0x61, 0x0a]) = some base →
      (driver.block base).Addressable := by
    intro base hresolve
    obtain rfl : base = 0x1000 := (Option.some.inj hresolve).symm
    exact hblock
  have hunlimited : (Bus.constant 0).Unlimited := ⟨nofun, nofun, nofun⟩
  have hsteady : (Bus.constant 0).Steady fun _ => True :=
    ⟨fun _ _ h => h, fun _ _ _ h => h, fun _ _ h => h, fun _ h => h⟩
  obtain ⟨hcost, hanswer⟩ := (calls_bounded (Bus.constant 0) 0 ⟨driver, ()⟩ 3 rfl
    (.write ⟨0⟩ [0x61, 0x0a])).1.2 _ rfl
  have hbound : Transmit.effort 3 [0x61, 0x0a] = ⟨7, 4, 3⟩ := by decide
  rw [hbound] at hcost
  refine ⟨⟨driver, ()⟩, rfl, rfl, hcost, hanswer _ hunlimited hsteady trivial hbase, ?_⟩
  exact (calls_bounded (Bus.constant 0) 0 ⟨driver, ()⟩ 3 rfl (.readExact ⟨0⟩ 2)).2.2.2 ⟨0⟩ _
    (.readExact 1) rfl rfl hblock

end Calls

end PolledUart

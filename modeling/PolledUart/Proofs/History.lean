import PolledUart.Proofs.Completion
import PolledUart.Session

/-!
# Histories of a session

Between two calls whoever operates the device from the other side may change it.
A `History` is a run of a session: completed calls and controls in any order, each
call with the driver it was made on, its answer and its trace. Every session that
calls and controls lead to is the end of a history, so what is proved of all
histories holds after every completed call.

* `Session.perform_eq_ok_iff` — a call of a session is a completed run of its
  program.
* `history_append_iff` — a history can be cut anywhere.
* `history_of_replay`, `history_of_replayPort` — a history can be computed, as far as
  its moves complete.
-/

namespace PolledUart

variable {σ κ : Type} {slots : Nat}

/-- Something that happened to a session. -/
inductive Entry (slots : Nat) (κ : Type) where
  /-- A call on a driver, its answer and what it did on the bus. -/
  | call (driver : Driver slots) (call : Call) (reply : Reply) (trace : List Event)
  /-- A control from the other side. -/
  | control (k : κ)

namespace Entry

/-- What an entry did on the bus. -/
def trace : Entry slots κ → List Event
  | .call _ _ _ t => t
  | .control _ => []

/-- The call of an entry, if it is one, has a property. -/
def Calls (P : Call → Prop) : Entry slots κ → Prop
  | .call _ c _ _ => P c
  | .control _ => True

end Entry

/-- The outcome with another value and another state. -/
def Outcome.map {τ α β : Type} (f : α → σ → β × τ) : Outcome σ α → Outcome τ β
  | .ok a s => .ok (f a s).1 (f a s).2
  | .fault => .fault
  | .halt => .halt
  | .limit => .limit

/-- A call runs its program, and goes on with the driver that the program leaves. -/
theorem Session.perform_eq_map (bus : Bus σ) (fuel : Nat) (c : Call) (s : Session σ slots) :
    Session.perform bus fuel c s =
      ⟨(bus.run (c.program fuel s.driver) s.bus).outcome.map fun a state => (a.1, ⟨a.2, state⟩),
        (bus.run (c.program fuel s.driver) s.bus).trace⟩ := by
  unfold Session.perform
  rw [Bus.execute_eq_run]
  cases bus.run (c.program fuel s.driver) s.bus with
  | mk outcome trace => cases outcome <;> rfl

theorem Session.perform_eq_ok_iff {bus : Bus σ} {fuel : Nat} {c : Call} {s s' : Session σ slots}
    {reply : Reply} {t : List Event} :
    Session.perform bus fuel c s = ⟨.ok reply s', t⟩ ↔
      bus.Completes (c.program fuel s.driver) s.bus t (reply, s'.driver) s'.bus := by
  rw [Bus.completes_iff, Session.perform, Bus.execute_eq_run]
  cases hrun : bus.run (c.program fuel s.driver) s.bus with
  | mk outcome trace =>
    obtain ⟨driver, state⟩ := s'
    cases outcome with
    | ok value _ =>
      obtain ⟨reply', driver'⟩ := value
      simp [and_assoc]
    | fault | halt | limit => simp

/-- A session goes through some entries and ends as another. -/
inductive History (bus : Bus σ) (operate : κ → σ → Option σ) :
    Session σ slots → List (Entry slots κ) → Session σ slots → Prop where
  /-- Nothing has happened yet. -/
  | nil {s : Session σ slots} : History bus operate s [] s
  /-- A call that completes. -/
  | call {s s₁ s' : Session σ slots} {fuel : Nat} {c : Call} {reply : Reply} {t : List Event}
      {rest : List (Entry slots κ)} : Session.perform bus fuel c s = ⟨.ok reply s₁, t⟩ →
      History bus operate s₁ rest s' →
      History bus operate s (.call s.driver c reply t :: rest) s'
  /-- A control that does not stop the machine. -/
  | control {s s' : Session σ slots} {k : κ} {x : σ} {rest : List (Entry slots κ)} :
      operate k s.bus = some x → History bus operate ⟨s.driver, x⟩ rest s' →
      History bus operate s (.control k :: rest) s'

/-- A history can be cut anywhere. -/
theorem history_append_iff {bus : Bus σ} {operate : κ → σ → Option σ} {s s' : Session σ slots}
    {before after : List (Entry slots κ)} :
    History bus operate s (before ++ after) s' ↔
      ∃ y, History bus operate s before y ∧ History bus operate y after s' := by
  constructor
  · intro h
    generalize hall : before ++ after = entries at h
    induction h generalizing before with
    | nil =>
      obtain ⟨rfl, rfl⟩ := List.append_eq_nil_iff.1 hall
      exact ⟨_, .nil, .nil⟩
    | @call s _ _ _ _ _ _ _ hperform hrest ih =>
      cases before with
      | nil =>
        rw [List.nil_append] at hall
        exact ⟨s, .nil, hall ▸ .call hperform hrest⟩
      | cons e before =>
        obtain ⟨rfl, hlater⟩ := List.cons.inj hall
        obtain ⟨y, hbefore, hafter⟩ := ih hlater
        exact ⟨y, .call hperform hbefore, hafter⟩
    | @control s _ _ _ _ hoperate hrest ih =>
      cases before with
      | nil =>
        rw [List.nil_append] at hall
        exact ⟨s, .nil, hall ▸ .control hoperate hrest⟩
      | cons e before =>
        obtain ⟨rfl, hlater⟩ := List.cons.inj hall
        obtain ⟨y, hbefore, hafter⟩ := ih hlater
        exact ⟨y, .control hoperate hbefore, hafter⟩
  · rintro ⟨y, hbefore, hafter⟩
    induction hbefore with
    | nil => exact hafter
    | call hperform _ ih => exact .call hperform (ih hafter)
    | control hoperate _ ih => exact .control hoperate (ih hafter)

/-! ### Replaying moves -/

/-- Something to be done to a session. -/
inductive Move (κ : Type) where
  /-- Make a call, with loops unrolled `fuel` times. -/
  | call (fuel : Nat) (c : Call)
  /-- Carry out a control. -/
  | control (k : κ)

/-- The call of a move, if it is one, has a property. -/
def Move.Calls (P : Call → Prop) : Move κ → Prop
  | .call _ c => P c
  | .control _ => True

/-- Makes some moves, one after the other: what happened, and the session after it; nothing if a
move does not complete. -/
def Session.replay (bus : Bus σ) (operate : κ → σ → Option σ) :
    List (Move κ) → Session σ slots → Option (List (Entry slots κ) × Session σ slots)
  | [], s => some ([], s)
  | .call fuel c :: rest, s =>
    match Session.perform bus fuel c s with
    | ⟨.ok reply s₁, t⟩ =>
      (replay bus operate rest s₁).map fun r => (.call s.driver c reply t :: r.1, r.2)
    | _ => none
  | .control k :: rest, s =>
    (operate k s.bus).bind fun x =>
      (replay bus operate rest ⟨s.driver, x⟩).map fun r => (.control k :: r.1, r.2)

/-- Moves that complete make a history of their calls. -/
theorem history_of_replay {bus : Bus σ} {operate : κ → σ → Option σ} {moves : List (Move κ)}
    {s s' : Session σ slots} {entries : List (Entry slots κ)}
    (h : Session.replay bus operate moves s = some (entries, s')) :
    History bus operate s entries s' ∧
      ∀ P, (∀ m ∈ moves, m.Calls P) → ∀ e ∈ entries, e.Calls P := by
  induction moves generalizing s entries with
  | nil =>
    obtain ⟨rfl, rfl⟩ := Prod.mk.inj (Option.some.inj h)
    exact ⟨.nil, fun _ _ _ he => absurd he List.not_mem_nil⟩
  | cons m rest ih =>
    cases m with
    | call fuel c =>
      rw [Session.replay] at h
      split at h
      · rename_i reply s₁ t hperform
        obtain ⟨⟨later, s₂⟩, hlater, hr⟩ := Option.map_eq_some_iff.1 h
        obtain ⟨rfl, rfl⟩ := Prod.mk.inj hr
        obtain ⟨hhistory, hcalls⟩ := ih hlater
        refine ⟨.call hperform hhistory, fun P hP => List.forall_mem_cons.2 ⟨?_, ?_⟩⟩
        · exact hP _ List.mem_cons_self
        · exact hcalls P fun m hm => hP m (List.mem_cons_of_mem _ hm)
      · cases h
    | control k =>
      obtain ⟨x, hoperate, h₁⟩ := Option.bind_eq_some_iff.1 h
      obtain ⟨⟨later, s₂⟩, hlater, hr⟩ := Option.map_eq_some_iff.1 h₁
      obtain ⟨rfl, rfl⟩ := Prod.mk.inj hr
      obtain ⟨hhistory, hcalls⟩ := ih hlater
      refine ⟨.control hoperate hhistory, fun P hP => List.forall_mem_cons.2 ⟨trivial, ?_⟩⟩
      exact hcalls P fun m hm => hP m (List.mem_cons_of_mem _ hm)

/-- Brings up a port and then makes some moves: the port and its session, what happened since, and
the session after it; nothing if the port does not come up. -/
def Session.replayPort (bus : Bus σ) (operate : κ → σ → Option σ) (fuel : Nat) (c : Call)
    (moves : List (Move κ)) (s : Session σ slots) :
    Option (PortId × Session σ slots × List (Entry slots κ) × Session σ slots) :=
  match Session.perform bus fuel c s with
  | ⟨.ok (.port (.ok port)) s₀, _⟩ =>
    (replay bus operate moves s₀).map fun r => (port, s₀, r)
  | _ => none

theorem history_of_replayPort {bus : Bus σ} {operate : κ → σ → Option σ} {fuel : Nat} {c : Call}
    {moves : List (Move κ)} {s s₀ s' : Session σ slots} {port : PortId}
    {entries : List (Entry slots κ)}
    (h : Session.replayPort bus operate fuel c moves s = some (port, s₀, entries, s')) :
    (∃ t, Session.perform bus fuel c s = ⟨.ok (.port (.ok port)) s₀, t⟩) ∧
      History bus operate s₀ entries s' ∧
      ∀ P, (∀ m ∈ moves, m.Calls P) → ∀ e ∈ entries, e.Calls P := by
  unfold Session.replayPort at h
  split at h
  · rename_i port₁ s₁ t hperform
    obtain ⟨⟨later, s₂⟩, hlater, hr⟩ := Option.map_eq_some_iff.1 h
    simp only [Prod.mk.injEq] at hr
    obtain ⟨rfl, rfl, rfl, rfl⟩ := hr
    exact ⟨⟨t, hperform⟩, history_of_replay hlater⟩
  · cases h

end PolledUart

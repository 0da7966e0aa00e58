import PolledUart.Proofs.Completion

/-!
# Programs answered by a trace

A completed run has two sides. The program asks, and the trace says what was asked and what
the answers were; the bus steps from state to state, and the trace says which steps these
were. `Program.follow` is the program's side alone: what it ends with if its requests are
answered as a trace tells. It needs no bus, so whoever else has access to the device may
come between any two events.

* `Bus.completes_iff_follow` — a completed run is a trace that both sides agree on.
* `Program.completes_of_follow` — what a trace answers is a completed run on some bus.
-/

namespace PolledUart

variable {σ α β : Type}

namespace Program

/-- What a program ends with if its requests are answered as a trace tells; nothing if the trace
is not that of the program, or stops short of its end. -/
def follow : Program α → List Event → Option α
  | .done a, [] => some a
  | .read a next, .read a' v :: t => if a' = a then (next v).follow t else none
  | .act c next, .act c' :: t => if c' = c then next.follow t else none
  | _, _ => none

section Inversion

variable {t : List Event} {a : α}

@[simp] theorem follow_done_iff {b : α} : (done b).follow t = some a ↔ t = [] ∧ a = b := by
  cases t with
  | nil => simp [follow, eq_comm]
  | cons e t => simp [follow]

@[simp] theorem follow_fault : (fault : Program α).follow t = none := by
  unfold follow
  rfl

@[simp] theorem follow_limit : (limit : Program α).follow t = none := by
  unfold follow
  rfl

theorem follow_read_iff {address : Address} {next : UInt32 → Program α} :
    (read address next).follow t = some a ↔
      ∃ v t₁, t = .read address v :: t₁ ∧ (next v).follow t₁ = some a := by
  constructor
  · intro h
    match t with
    | [] => simp [follow] at h
    | .act c :: t₁ => simp [follow] at h
    | .read address' v :: t₁ =>
      rw [follow] at h
      split at h
      · rename_i heq
        exact ⟨v, t₁, by rw [heq], h⟩
      · cases h
  · rintro ⟨v, t₁, rfl, h⟩
    rw [follow, if_pos rfl]
    exact h

theorem follow_act_iff {c : Action} {next : Program α} :
    (act c next).follow t = some a ↔ ∃ t₁, t = .act c :: t₁ ∧ next.follow t₁ = some a := by
  constructor
  · intro h
    match t with
    | [] => simp [follow] at h
    | .read address v :: t₁ => simp [follow] at h
    | .act c' :: t₁ =>
      rw [follow] at h
      split at h
      · rename_i heq
        exact ⟨t₁, by rw [heq], h⟩
      · cases h
  · rintro ⟨t₁, rfl, h⟩
    rw [follow, if_pos rfl]
    exact h

/-- A program that goes on to its end at once is answered by the same trace. -/
theorem follow_bind_done_iff {p : Program α} {f : α → β} {b : β} :
    (p.bind fun a => .done (f a)).follow t = some b ↔ ∃ a, p.follow t = some a ∧ b = f a := by
  induction p generalizing t with
  | done a => simp [and_assoc]
  | fault => simp
  | limit => simp
  | read address next ih =>
    simp only [read_bind, follow_read_iff, ih]
    constructor
    · rintro ⟨v, t₁, rfl, a, hfollow, rfl⟩
      exact ⟨a, ⟨v, t₁, rfl, hfollow⟩, rfl⟩
    · rintro ⟨a, ⟨v, t₁, rfl, hfollow⟩, rfl⟩
      exact ⟨v, t₁, rfl, a, hfollow, rfl⟩
  | act c next ih =>
    simp only [act_bind, follow_act_iff, ih]
    constructor
    · rintro ⟨t₁, rfl, a, hfollow, rfl⟩
      exact ⟨a, ⟨t₁, rfl, hfollow⟩, rfl⟩
    · rintro ⟨a, ⟨t₁, rfl, hfollow⟩, rfl⟩
      exact ⟨t₁, rfl, a, hfollow, rfl⟩

end Inversion

end Program

/-- **A completed run is a trace that both sides agree on**: the program is answered by it, and the
bus steps along it. -/
theorem Bus.completes_iff_follow {bus : Bus σ} {p : Program α} {s s' : σ} {t : List Event}
    {a : α} : bus.Completes p s t a s' ↔ p.follow t = some a ∧ Bus.Path bus.Step s t s' := by
  constructor
  · intro h
    refine ⟨?_, h.path⟩
    induction h with
    | done => rfl
    | read _ _ ih => exact Program.follow_read_iff.2 ⟨_, _, rfl, ih⟩
    | act _ _ ih => exact Program.follow_act_iff.2 ⟨_, rfl, ih⟩
  · rintro ⟨hfollow, hpath⟩
    induction p generalizing s t with
    | done b =>
      obtain ⟨rfl, rfl⟩ := Program.follow_done_iff.1 hfollow
      obtain rfl := Bus.path_nil_iff.1 hpath
      exact .done
    | fault => simp at hfollow
    | limit => simp at hfollow
    | read address next ih =>
      obtain ⟨v, t₁, rfl, hnext⟩ := Program.follow_read_iff.1 hfollow
      obtain ⟨s₁, hstep, hrest⟩ := Bus.path_cons_iff.1 hpath
      exact .read hstep (ih v hnext hrest)
    | act c next ih =>
      obtain ⟨t₁, rfl, hnext⟩ := Program.follow_act_iff.1 hfollow
      obtain ⟨s₁, hstep, hrest⟩ := Bus.path_cons_iff.1 hpath
      exact .act hstep (ih hnext hrest)

namespace Trace

/-- The answers of the reads of a trace, in order. -/
def answers (t : List Event) : List UInt32 := t.filterMap fun
  | .read _ v => some v
  | .act _ => none

/-- A bus that gives prepared answers, whatever is asked, and takes no notice of anything else. -/
def prepared : Bus (List UInt32) where
  read _
    | [] => .limit
    | v :: rest => .ok v rest
  write _ _ s := .ok () s
  delay _ s := .ok () s
  barrier s := s

theorem path_prepared (t : List Event) : Bus.Path prepared.Step (answers t) t [] := by
  induction t with
  | nil => exact .nil
  | cons e t ih =>
    cases e with
    | read a v => exact .cons (y := answers t) rfl ih
    | act c =>
      have hstep : prepared.Step (answers t) (.act c) (answers t) := by
        cases c <;> rfl
      exact .cons hstep ih

end Trace

/-- **What a trace answers is a completed run**, on the bus that gives the answers of the trace. -/
theorem Program.completes_of_follow {p : Program α} {t : List Event} {a : α}
    (h : p.follow t = some a) : Trace.prepared.Completes p (Trace.answers t) t a [] :=
  Bus.completes_iff_follow.2 ⟨h, Trace.path_prepared t⟩

end PolledUart

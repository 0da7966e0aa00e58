import PolledUart.Word

/-!
# What a source of characters answers

A source may yield again after it has yielded nothing. So it is told by the
whole sequence of its answers, `Source.answer`, and by where it stands after some
questions, `Source.after`.

Packing sees nothing else of a source. `Source.Leading` names what it takes: the
characters in front of the first nothing, as far as a limit allows. The lemma
`FifoWord.pull_of_leading` says that pulling takes exactly these and puts no
question beyond them, except for the one that is answered by nothing.

A source that keeps yielding nothing once it has done so (`Source.Fused`) is told
by a list, the characters it yields before (`Source.Holds`), and two sources that
hold the same list give the same words (`FifoWord.packUpTo_congr`).
-/

namespace PolledUart

namespace Source

variable {σ : Type} {next : σ → Option UInt8 × σ} {s : σ}

/-! ### Questions and answers -/

/-- Where a source stands after `n` questions. -/
def after (next : σ → Option UInt8 × σ) : Nat → σ → σ
  | 0, s => s
  | n + 1, s => after next n (next s).2

/-- What a source answers to the next question after `n` others. -/
def answer (next : σ → Option UInt8 × σ) (s : σ) (n : Nat) : Option UInt8 :=
  (next (after next n s)).1

theorem after_add (m n : Nat) (s : σ) : after next (m + n) s = after next n (after next m s) := by
  induction m generalizing s with
  | zero => rw [Nat.zero_add, after]
  | succ m ih => rw [Nat.succ_add, after, after, ih]

theorem answer_after (m n : Nat) (s : σ) :
    answer next (after next m s) n = answer next s (m + n) := by
  rw [answer, answer, after_add]

/-- The same source with a count of the questions put to it. -/
def counted (next : σ → Option UInt8 × σ) (s : σ × Nat) : Option UInt8 × (σ × Nat) :=
  ((next s.1).1, (next s.1).2, s.2 + 1)

theorem after_counted (n : Nat) (s : σ) (count : Nat) :
    after (counted next) n (s, count) = (after next n s, count + n) := by
  induction n generalizing s count with
  | zero => rfl
  | succ n ih => rw [after, counted, ih, after, Nat.add_right_comm, Nat.add_assoc]

theorem answer_counted (s : σ) (count : Nat) :
    answer (counted next) (s, count) = answer next s := by
  funext n
  rw [answer, after_counted, counted, answer]

/-! ### The characters in front of the first nothing -/

/-- The characters that come before the first nothing among the first `limit` answers. -/
structure Leading (answers : Nat → Option UInt8) (limit : Nat) (items : List UInt8) : Prop where
  length_le : items.length ≤ limit
  yielded : ∀ n < items.length, answers n = items[n]?
  ended : items.length < limit → answers items.length = none

/-- How many answers it takes to learn the leading characters: one each, and the nothing that
ends them if they are fewer than the limit. -/
def questions (limit : Nat) (items : List UInt8) : Nat :=
  items.length + if items.length < limit then 1 else 0

variable {answers : Nat → Option UInt8} {limit : Nat} {items : List UInt8}

theorem questions_cons (b : UInt8) :
    questions (limit + 1) (b :: items) = questions limit items + 1 := by
  simp only [questions, List.length_cons, Nat.add_lt_add_iff_right]
  omega

theorem Leading.questions_le (h : Leading answers limit items) : questions limit items ≤ limit := by
  have := h.length_le
  unfold questions
  split <;> omega

theorem Leading.tail {b : UInt8} (h : Leading answers (limit + 1) (b :: items)) :
    Leading (fun n => answers (n + 1)) limit items where
  length_le := Nat.le_of_succ_le_succ h.length_le
  yielded n hn := h.yielded (n + 1) (Nat.succ_lt_succ hn)
  ended hlt := h.ended (Nat.succ_lt_succ hlt)

theorem Leading.cons {b : UInt8} (hb : answers 0 = some b)
    (h : Leading (fun n => answers (n + 1)) limit items) :
    Leading answers (limit + 1) (b :: items) where
  length_le := Nat.succ_le_succ h.length_le
  yielded
    | 0, _ => hb
    | n + 1, hn => h.yielded n (Nat.lt_of_succ_lt_succ hn)
  ended hlt := h.ended (Nat.lt_of_succ_lt_succ hlt)

theorem exists_leading (answers : Nat → Option UInt8) (limit : Nat) :
    ∃ items, Leading answers limit items := by
  induction limit generalizing answers with
  | zero => exact ⟨[], ⟨Nat.le_refl 0, nofun, nofun⟩⟩
  | succ limit ih =>
    cases hb : answers 0 with
    | none => exact ⟨[], ⟨Nat.zero_le _, nofun, fun _ => hb⟩⟩
    | some b =>
      obtain ⟨items, hitems⟩ := ih fun n => answers (n + 1)
      exact ⟨b :: items, hitems.cons hb⟩

/-! ### Sources that stay at their end -/

/-- Once the answer is nothing it is nothing for ever. -/
def Fused (answers : Nat → Option UInt8) : Prop :=
  ∀ m n, m ≤ n → answers m = none → answers n = none

/-- The source yields the characters of a list, in order, and then nothing for ever. -/
def Holds (next : σ → Option UInt8 × σ) (s : σ) (items : List UInt8) : Prop :=
  ∀ n, answer next s n = items[n]?

theorem Holds.fused (h : Holds next s items) : Fused (answer next s) := by
  intro m n hmn hm
  rw [h, List.getElem?_eq_none_iff] at hm ⊢
  exact Nat.le_trans hm hmn

/-- Answers that end and stay at their end are those of a list. -/
theorem Fused.exists_items {n : Nat} (h : Fused answers) (hn : answers n = none) :
    ∃ items : List UInt8, ∀ k, answers k = items[k]? := by
  induction n generalizing answers with
  | zero => exact ⟨[], fun k => h 0 k (Nat.zero_le k) hn⟩
  | succ n ih =>
    cases hb : answers 0 with
    | none => exact ⟨[], fun k => h 0 k (Nat.zero_le k) hb⟩
    | some b =>
      have htail : Fused fun k => answers (k + 1) := fun i j hij hi =>
        h (i + 1) (j + 1) (Nat.succ_le_succ hij) hi
      obtain ⟨items, hitems⟩ := ih htail hn
      refine ⟨b :: items, fun k => ?_⟩
      cases k with
      | zero => exact hb
      | succ k => exact hitems k

/-- A source holds the list that it is seen through, if each step takes the first character off
this view. That has to be so only in states `I`, which the steps do not leave. -/
theorem holds_of_view (view : σ → List UInt8) (I : σ → Prop)
    (hstep : ∀ s, I s →
      (next s).1 = (view s).head? ∧ view (next s).2 = (view s).tail ∧ I (next s).2)
    (hs : I s) : Holds next s (view s) := by
  intro n
  induction n generalizing s with
  | zero => exact (hstep s hs).1.trans List.head?_eq_getElem?
  | succ n ih =>
    obtain ⟨-, htail, hs'⟩ := hstep s hs
    calc answer next s (n + 1) = (view (next s).2)[n]? := ih hs'
      _ = (view s)[n + 1]? := by rw [htail, List.getElem?_tail]

theorem holds_list (bytes : List UInt8) : Holds FifoWord.ofList bytes bytes :=
  holds_of_view id (fun _ => True)
    (fun bytes _ => by cases bytes <;> exact ⟨rfl, rfl, trivial⟩) trivial

variable {items : List UInt8}

theorem Holds.after (h : Holds next s items) (n : Nat) :
    Holds next (after next n s) (items.drop n) := by
  intro k
  rw [answer_after, h, List.getElem?_drop]

theorem Holds.leading (h : Holds next s items) (limit : Nat) :
    Leading (answer next s) limit (items.take limit) where
  length_le := List.length_take_le limit items
  yielded n hn := by
    rw [h, List.getElem?_take_of_lt (by rw [List.length_take] at hn; omega)]
  ended hlt := by
    rw [h, List.getElem?_eq_none_iff]
    rw [List.length_take] at hlt ⊢
    omega

/-- After its leading characters have been learned, a source holds the others. -/
theorem Holds.rest (h : Holds next s items) (limit : Nat) :
    Holds next (Source.after next (questions limit (items.take limit)) s) (items.drop limit) := by
  have hrest := h.after (questions limit (items.take limit))
  rwa [show items.drop (questions limit (items.take limit)) = items.drop limit from ?_] at hrest
  unfold questions
  rw [List.length_take]
  split
  · -- the list has been used up, and one question more drops nothing
    rw [List.drop_eq_nil_of_le (by omega), List.drop_eq_nil_of_le (by omega)]
  · congr 1
    omega

end Source

/-! ## Packing sees the answers alone -/

namespace FifoWord

open Source

variable {σ : Type} {next : σ → Option UInt8 × σ} {s : σ} {items : List UInt8}

/-- Pulling takes the leading characters, and asks as often as it takes to learn them. -/
theorem pull_of_leading {limit : Nat} (h : Leading (answer next s) limit items) :
    pull next limit s = (items, after next (questions limit items) s) := by
  induction limit generalizing s items with
  | zero =>
    obtain rfl := List.eq_nil_of_length_eq_zero (Nat.le_zero.1 h.length_le)
    rfl
  | succ limit ih =>
    cases items with
    | nil =>
      have hnone : next s = (none, (next s).2) := Prod.ext (h.ended (Nat.succ_pos limit)) rfl
      rw [pull, hnone]
      rfl
    | cons b items =>
      have hsome : next s = (some b, (next s).2) :=
        Prod.ext (h.yielded 0 (Nat.succ_pos items.length)) rfl
      rw [pull, hsome]
      simp only [ih h.tail]
      rw [questions_cons]
      rfl

/-- The word that carries some characters, if there are any. -/
def packed? (items : List UInt8) : Option Packed :=
  if items = [] then none else some ⟨ofBytes items, items.length⟩

/-- Packing carries the characters in front of the first nothing among four answers. -/
theorem pack_of_leading (h : Leading (answer next s) 4 items) :
    pack next s = (packed? items, after next (questions 4 items) s) := by
  rw [pack, pull_of_leading h]
  cases items <;> rfl

theorem packed?_eq_none_iff : packed? items = none ↔ items = [] := by
  simp [packed?]

/-- Two sources that hold the same characters give the same words. -/
theorem packUpTo_congr {τ : Type} {next' : τ → Option UInt8 × τ} {t : τ}
    (h : Holds next s items) (h' : Holds next' t items) (n : Nat) :
    packUpTo next n s = packUpTo next' n t := by
  induction n generalizing s t items with
  | zero => rfl
  | succ n ih =>
    rw [packUpTo, packUpTo, pack_of_leading (h.leading 4), pack_of_leading (h'.leading 4)]
    cases packed? (items.take 4) with
    | none => rfl
    | some p => exact congrArg (p :: ·) (ih (h.rest 4) (h'.rest 4))

end FifoWord

end PolledUart

import Mathlib.Data.List.Basic
import PolledUart.Newline

/-!
# The expansion of line feeds can be undone

A stream is read to its end by asking for the next character until there is
none (`Stream.collect`). Two things could go wrong. The stream keeps a flag
between two questions, so the end of one text might reach into the next one;
and a text may hold carriage returns of its own, so a pair on the wire does not
tell by itself which of its characters the driver put there.

Neither happens. What a stream yields from any of its states is `Stream.toList`
of that state (`collect_eq_toList`), and a text leaves no line feed owed at its
end. A line feed on the wire always comes right after the carriage return that
was made for it (`expand_eq_append_lineFeed`): the character in front of a line
feed is never one of the text. Taking out exactly that character
(`withoutReturns`) gives the text back, whatever else stood before it.
-/

namespace PolledUart.Newline

/-! ## Reading a stream to its end -/

namespace Stream

/-- Each character that a stream yields makes what is still to come one shorter. -/
theorem remaining_next {s rest : Stream} {b : UInt8} (h : s.next = (some b, rest)) :
    s.remaining = rest.remaining + 1 := by
  obtain ⟨hhead, htail⟩ := next_eq s
  rw [h] at hhead htail
  rw [← length_toList, ← length_toList, htail]
  cases hlist : s.toList with
  | nil => simp [hlist] at hhead
  | cons c cs => rfl

/-- All that a stream yields until it has nothing more. -/
def collect (s : Stream) : List UInt8 :=
  match _h : s.next with
  | (none, _) => []
  | (some b, rest) => b :: rest.collect
termination_by s.remaining
decreasing_by
  rw [remaining_next _h]
  exact Nat.lt_succ_self _

theorem collect_of_none {s rest : Stream} (h : s.next = (none, rest)) : s.collect = [] := by
  rw [collect]
  split <;> simp_all

theorem collect_of_some {s rest : Stream} {b : UInt8} (h : s.next = (some b, rest)) :
    s.collect = b :: rest.collect := by
  rw [collect]
  split <;> simp_all

/-- What a stream yields is what was still to come, also when a line feed is owed. -/
theorem collect_eq_toList (s : Stream) : s.collect = s.toList := by
  induction s using collect.induct with
  | case1 s rest h =>
    rw [collect_of_none h, (next_fst_eq_none_iff s).mp (by rw [h])]
  | case2 s b rest h ih =>
    obtain ⟨hhead, htail⟩ := next_eq s
    rw [h] at hhead htail
    rw [collect_of_some h, ih, htail, List.cons_head?_tail hhead.symm]

@[simp] theorem collect_ofBytes (bytes : List UInt8) : (ofBytes bytes).collect = expand bytes := by
  simp [collect_eq_toList]

/-- After `n` questions the first `n` of the characters to come are gone. -/
theorem toList_drop (n : Nat) (s : Stream) : (drop n s).toList = s.toList.drop n := by
  induction n generalizing s with
  | zero => rfl
  | succ n ih => rw [drop, ih, (next_eq s).2, ← List.drop_one, List.drop_drop, Nat.add_comm]

/-- The answers to the questions, one after the other, are the characters collected, and nothing
from their end on. -/
theorem nth_fst (n : Nat) (s : Stream) : (s.nth n).1 = s.collect[n]? := by
  rw [nth, (next_eq _).1, toList_drop, collect_eq_toList, List.head?_drop]

end Stream

/-! ## Where the line feeds are -/

theorem expand_lineFeed_cons (rest : List UInt8) :
    expand (lineFeed :: rest) = carriageReturn :: lineFeed :: expand rest := by
  simp [expandByte]

theorem expand_cons_of_ne {b : UInt8} (hb : b ≠ lineFeed) (rest : List UInt8) :
    expand (b :: rest) = b :: expand rest := by
  simp [expandByte, hb]

theorem carriageReturn_ne_lineFeed : carriageReturn ≠ lineFeed := by decide

/-- No expansion starts with a line feed. -/
theorem head?_expand_ne (bytes : List UInt8) : (expand bytes).head? ≠ some lineFeed := by
  cases bytes with
  | nil => simp
  | cons b rest =>
    by_cases hb : b = lineFeed
    · rw [hb, expand_lineFeed_cons]
      simp [carriageReturn_ne_lineFeed]
    · rw [expand_cons_of_ne hb]
      simpa using hb

/-- A line feed of an expansion was made from a line feed of the text. In front of it stand the
expansion of what the text has before, and then the carriage return of this line feed. -/
theorem expand_eq_append_lineFeed {bytes u v : List UInt8}
    (h : expand bytes = u ++ lineFeed :: v) :
    ∃ before after, bytes = before ++ lineFeed :: after ∧
      u = expand before ++ [carriageReturn] ∧ v = expand after := by
  induction bytes generalizing u with
  | nil => simp at h
  | cons b rest ih =>
    by_cases hb : b = lineFeed
    · subst hb
      rw [expand_lineFeed_cons] at h
      -- the line feed asked for is the one just made, or one of the rest
      rcases u with _ | ⟨c, _ | ⟨d, u⟩⟩
      · simp [carriageReturn_ne_lineFeed] at h
      · obtain ⟨rfl, -, rfl⟩ : carriageReturn = c ∧ lineFeed = lineFeed ∧ expand rest = v := by
          simpa using h
        exact ⟨[], rest, rfl, rfl, rfl⟩
      · obtain ⟨rfl, rfl, hrest⟩ : carriageReturn = c ∧ lineFeed = d ∧
            expand rest = u ++ lineFeed :: v := by simpa using h
        obtain ⟨before, after, rfl, rfl, rfl⟩ := ih hrest
        exact ⟨lineFeed :: before, after, rfl, by rw [expand_lineFeed_cons]; rfl, rfl⟩
    · rw [expand_cons_of_ne hb] at h
      rcases u with _ | ⟨c, u⟩
      · exact absurd (by simpa using h : b = lineFeed ∧ expand rest = v).1 hb
      · obtain ⟨rfl, hrest⟩ : b = c ∧ expand rest = u ++ lineFeed :: v := by simpa using h
        obtain ⟨before, after, rfl, rfl, rfl⟩ := ih hrest
        exact ⟨b :: before, after, rfl, by rw [expand_cons_of_ne hb]; rfl, rfl⟩

/-! ## The way back -/

/-- A sequence of characters without those that stand right before a line feed. -/
def withoutReturns : List UInt8 → List UInt8
  | a :: b :: rest =>
    if b = lineFeed then withoutReturns (b :: rest) else a :: withoutReturns (b :: rest)
  | short => short

/-- A character stays unless a line feed follows it. -/
theorem withoutReturns_cons (a : UInt8) {rest : List UInt8} (h : rest.head? ≠ some lineFeed) :
    withoutReturns (a :: rest) = a :: withoutReturns rest := by
  cases rest with
  | nil => rfl
  | cons b rest => simp [withoutReturns, show b ≠ lineFeed by simpa using h]

/-- Taking out the character in front of each line feed undoes the expansion. -/
theorem withoutReturns_expand (bytes : List UInt8) : withoutReturns (expand bytes) = bytes := by
  induction bytes with
  | nil => rfl
  | cons b rest ih =>
    have hhead := head?_expand_ne rest
    by_cases hb : b = lineFeed
    · subst hb
      rw [expand_lineFeed_cons, withoutReturns, if_pos rfl, withoutReturns_cons lineFeed hhead, ih]
    · rw [expand_cons_of_ne hb, withoutReturns_cons b hhead, ih]

theorem expand_injective : Function.Injective expand :=
  Function.LeftInverse.injective withoutReturns_expand

/-- **Newline transcoding is a homomorphism that can be undone.** The stream of a text made of two
is the stream of the first and then the stream of the second, and its length is the sum of the two
physical lengths. Every line feed that a stream yields follows at once on the carriage return
inserted for it, so taking out the character in front of each line feed gives the text back, and
no two texts have the same stream. A stream that has once answered that there is nothing more
answers so for ever. -/
theorem transcoding_reversible (xs ys : List UInt8) :
    (Stream.ofBytes (xs ++ ys)).collect = (Stream.ofBytes xs).collect ++ (Stream.ofBytes ys).collect ∧
    (Stream.ofBytes (xs ++ ys)).collect.length = physicalLength (xs ++ ys) ∧
    physicalLength (xs ++ ys) = physicalLength xs + physicalLength ys ∧
    (∀ u v, (Stream.ofBytes xs).collect = u ++ lineFeed :: v →
      ∃ before after, xs = before ++ lineFeed :: after ∧
        u = (Stream.ofBytes before).collect ++ [carriageReturn] ∧
        v = (Stream.ofBytes after).collect) ∧
    withoutReturns (Stream.ofBytes xs).collect = xs ∧
    ((Stream.ofBytes xs).collect = (Stream.ofBytes ys).collect → xs = ys) ∧
    (∀ (s : Stream) (k n : Nat), k ≤ n → (s.nth k).1 = none → (s.nth n).1 = none) := by
  simp only [Stream.collect_ofBytes]
  refine ⟨expand_append xs ys, length_expand _, physicalLength_append xs ys,
    fun u v h => expand_eq_append_lineFeed h, withoutReturns_expand xs,
    fun h => expand_injective h, ?_⟩
  intro s k n hkn hk
  rw [Stream.nth_fst, List.getElem?_eq_none_iff] at hk ⊢
  omega

/-- A carriage return of the text stays, and its line feed gets another one. -/
example : withoutReturns [0x61, 0x0d, 0x0d, 0x0a] = [0x61, 0x0d, 0x0a] := by decide

end PolledUart.Newline

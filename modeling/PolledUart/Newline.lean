/-!
# Newline expansion

The block has no line discipline, so every line feed leaves the driver as a
carriage return and a line feed. The expansion is given twice: at once, as a
list (`Newline.expand`), and one character at a time without a second buffer
(`Newline.Stream`). The number of characters the hardware will send is computed
from the text alone (`Newline.physicalLength`).

* `Newline.Stream.next_eq` — a step of the stream takes the first character of
  what is still to come, `Newline.Stream.toList`.
* `Newline.Stream.length_toList` — the count of what is still to come.
* `Newline.Stream.toList_ofBytes` — a fresh stream yields the expansion.
-/

namespace PolledUart.Newline

/-- The line feed, `\n`. -/
def lineFeed : UInt8 := 0x0a

/-- The carriage return, `\r`. -/
def carriageReturn : UInt8 := 0x0d

/-- What one character becomes on the wire. -/
def expandByte (b : UInt8) : List UInt8 :=
  if b = lineFeed then [carriageReturn, lineFeed] else [b]

/-- What a text becomes on the wire: every line feed gets a carriage return in front of it,
and every other character stays as it is. -/
def expand (bytes : List UInt8) : List UInt8 :=
  bytes.flatMap expandByte

/-- Number of characters the hardware sends for a text. -/
def physicalLength (bytes : List UInt8) : Nat :=
  bytes.length + bytes.count lineFeed

@[simp] theorem expand_nil : expand [] = [] := rfl

@[simp] theorem expand_cons (b : UInt8) (bytes : List UInt8) :
    expand (b :: bytes) = expandByte b ++ expand bytes := by
  simp [expand]

@[simp] theorem expand_append (xs ys : List UInt8) : expand (xs ++ ys) = expand xs ++ expand ys := by
  simp [expand]

@[simp] theorem physicalLength_nil : physicalLength [] = 0 := rfl

@[simp] theorem physicalLength_append (xs ys : List UInt8) :
    physicalLength (xs ++ ys) = physicalLength xs + physicalLength ys := by
  simp only [physicalLength, List.length_append, List.count_append]
  omega

theorem physicalLength_cons (b : UInt8) (bytes : List UInt8) :
    physicalLength (b :: bytes) = (expandByte b).length + physicalLength bytes := by
  simp only [physicalLength, List.length_cons, List.count_cons, expandByte, beq_iff_eq]
  split <;> simp <;> omega

/-- The physical length is the length of the expansion. -/
@[simp] theorem length_expand (bytes : List UInt8) :
    (expand bytes).length = physicalLength bytes := by
  induction bytes with
  | nil => rfl
  | cons b rest ih => rw [expand_cons, List.length_append, ih, physicalLength_cons]

/-! ### One character at a time -/

/-- Where the expansion of a text stands. -/
structure Stream where
  /-- The carriage return of a pair is out and its line feed is owed. -/
  owesLineFeed : Bool
  /-- The characters of the text not looked at yet. -/
  unread : List UInt8
  deriving DecidableEq, Repr

namespace Stream

/-- The start of the expansion of a text. -/
def ofBytes (bytes : List UInt8) : Stream := ⟨false, bytes⟩

/-- The next physical character, or nothing at the end. -/
def next (s : Stream) : Option UInt8 × Stream :=
  if s.owesLineFeed then (some lineFeed, ⟨false, s.unread⟩)
  else
    match s.unread with
    | [] => (none, s)
    | b :: rest =>
      if b = lineFeed then (some carriageReturn, ⟨true, rest⟩) else (some b, ⟨false, rest⟩)

/-- The physical characters still to come. -/
def toList (s : Stream) : List UInt8 :=
  if s.owesLineFeed then lineFeed :: expand s.unread else expand s.unread

/-- Number of physical characters still to come. -/
def remaining (s : Stream) : Nat :=
  s.owesLineFeed.toNat + physicalLength s.unread

/-- Bounds on the number of characters still to come that need no look at the text: no unread
character is a line feed, or every one is. The upper bound is missing if it does not fit
in 64 bits. -/
def sizeHint (s : Stream) : Nat × Option Nat :=
  let low := s.unread.length + s.owesLineFeed.toNat
  (low, if low + s.unread.length < 0x10000000000000000 then some (low + s.unread.length) else none)

/-- The stream after `n` characters have been dropped. -/
def drop : Nat → Stream → Stream
  | 0, s => s
  | n + 1, s => drop n s.next.2

/-- The character after the next `n`, which are dropped. -/
def nth (n : Nat) (s : Stream) : Option UInt8 × Stream :=
  (drop n s).next

@[simp] theorem toList_ofBytes (bytes : List UInt8) : (ofBytes bytes).toList = expand bytes := rfl

@[simp] theorem length_toList (s : Stream) : s.toList.length = s.remaining := by
  unfold toList remaining
  cases s.owesLineFeed <;> simp; omega

/-- A step takes the first character of what is still to come and leaves the rest. -/
theorem next_eq (s : Stream) :
    s.next.1 = s.toList.head? ∧ s.next.2.toList = s.toList.tail := by
  obtain ⟨owes, unread⟩ := s
  cases owes with
  | true => simp [next, toList]
  | false =>
    cases unread with
    | nil => simp [next, toList]
    | cons b rest =>
      by_cases h : b = lineFeed <;> simp [next, toList, expandByte, h]

/-- The stream has ended exactly when nothing is still to come, and then it stays there. -/
theorem next_fst_eq_none_iff (s : Stream) : s.next.1 = none ↔ s.toList = [] := by
  rw [(next_eq s).1, List.head?_eq_none_iff]

end Stream

end PolledUart.Newline

/-!
# FIFO words

The data registers move four characters at a time. Character `j` of a word
travels in bits `8j` to `8j + 7`, so the lowest lane is the first character on
the wire.

`FifoWord.pack` fills one word from a source of characters. A source is any
state with a step that yields a character or nothing; it need not keep yielding
nothing once it has done so. Packing asks at most four times and stops at the
first nothing, so no character is pulled and then dropped.

* `FifoWord.lanes_ofLanes` — the lanes of a word are the characters it was
  built from.
* `FifoWord.lanes_shift` — moving the lanes down drops the lowest one.
* `FifoWord.pull_list` and `FifoWord.pack_list` — on a list of characters,
  packing takes the first four and leaves the rest.
-/

namespace PolledUart

/-- A value of a FIFO data register. -/
structure FifoWord where
  /-- The register value. -/
  raw : UInt32
  deriving DecidableEq, Repr

namespace FifoWord

/-- Number of byte lanes of a word. -/
def laneCount : Nat := 4

/-- The word with all lanes zero. -/
def zero : FifoWord := ⟨0⟩

instance : Inhabited FifoWord := ⟨zero⟩

/-- The four lanes, lowest first. -/
def lanes (w : FifoWord) : List UInt8 :=
  [w.raw.toUInt8, (w.raw >>> 8).toUInt8, (w.raw >>> 16).toUInt8, (w.raw >>> 24).toUInt8]

/-- The character in lane `j`, if there is such a lane. -/
def lane? (w : FifoWord) (j : Nat) : Option UInt8 :=
  w.lanes[j]?

/-- The lowest lane. -/
def first (w : FifoWord) : UInt8 := w.raw.toUInt8

/-- The word with the given lanes, lowest first. -/
def ofLanes (a b c d : UInt8) : FifoWord :=
  ⟨a.toUInt32 ||| (b.toUInt32 <<< 8) ||| (c.toUInt32 <<< 16) ||| (d.toUInt32 <<< 24)⟩

/-- The word that carries the first four of the given characters, with zero in the lanes
left over. -/
def ofBytes (bytes : List UInt8) : FifoWord :=
  ofLanes (bytes.getD 0 0) (bytes.getD 1 0) (bytes.getD 2 0) (bytes.getD 3 0)

/-- The word with its lowest lane removed and the others moved down by one. -/
def shift (w : FifoWord) : FifoWord := ⟨w.raw >>> 8⟩

@[simp] theorem length_lanes (w : FifoWord) : w.lanes.length = 4 := rfl

theorem lane?_eq_none_iff {w : FifoWord} {j : Nat} : w.lane? j = none ↔ laneCount ≤ j := by
  simp [lane?, laneCount]

private theorem byte_ofLanes_zero (a b c d : UInt8) : (ofLanes a b c d).raw.toUInt8 = a := by
  apply UInt8.toBitVec_inj.1
  simp only [ofLanes]
  ext i hi
  simp

private theorem byte_ofLanes_one (a b c d : UInt8) :
    ((ofLanes a b c d).raw >>> 8).toUInt8 = b := by
  apply UInt8.toBitVec_inj.1
  simp only [ofLanes]
  ext i hi
  simp
  grind

private theorem byte_ofLanes_two (a b c d : UInt8) :
    ((ofLanes a b c d).raw >>> 16).toUInt8 = c := by
  apply UInt8.toBitVec_inj.1
  simp only [ofLanes]
  ext i hi
  simp
  grind

private theorem byte_ofLanes_three (a b c d : UInt8) :
    ((ofLanes a b c d).raw >>> 24).toUInt8 = d := by
  apply UInt8.toBitVec_inj.1
  simp only [ofLanes]
  ext i hi
  simp
  grind

/-- The lanes of a word are the characters it was built from. -/
@[simp] theorem lanes_ofLanes (a b c d : UInt8) : (ofLanes a b c d).lanes = [a, b, c, d] := by
  simp only [lanes, byte_ofLanes_zero, byte_ofLanes_one, byte_ofLanes_two, byte_ofLanes_three]

theorem lanes_ofBytes {bytes : List UInt8} (h : bytes.length ≤ 4) :
    (ofBytes bytes).lanes = bytes ++ List.replicate (4 - bytes.length) 0 := by
  rw [ofBytes, lanes_ofLanes]
  match bytes, h with
  | [], _ => rfl
  | [_], _ => rfl
  | [_, _], _ => rfl
  | [_, _, _], _ => rfl
  | [_, _, _, _], _ => rfl

/-- The lowest lane comes first. -/
theorem lanes_eq_cons (w : FifoWord) : w.lanes = w.first :: w.lanes.tail := rfl

/-- Moving the lanes down drops the lowest one and brings in a zero at the other end. -/
theorem lanes_shift (w : FifoWord) : w.shift.lanes = w.lanes.tail ++ [0] := by
  have h1 : ((w.raw >>> 8) >>> 8).toUInt8 = (w.raw >>> 16).toUInt8 := by
    apply UInt8.toBitVec_inj.1
    ext i hi
    simp
  have h2 : ((w.raw >>> 8) >>> 16).toUInt8 = (w.raw >>> 24).toUInt8 := by
    apply UInt8.toBitVec_inj.1
    ext i hi
    simp
  have h3 : ((w.raw >>> 8) >>> 24).toUInt8 = 0 := by
    apply UInt8.toBitVec_inj.1
    ext i hi
    simp
  simp only [lanes, shift, h1, h2, h3, List.tail_cons, List.cons_append, List.nil_append]

/-! ### Packing -/

/-- A packed word and the number of its lanes that carry a character. -/
structure Packed where
  word : FifoWord
  filled : Nat
  deriving DecidableEq, Repr

/-- Up to `n` characters from a source, stopping at the first nothing. -/
def pull {σ : Type} (next : σ → Option UInt8 × σ) : Nat → σ → List UInt8 × σ
  | 0, s => ([], s)
  | n + 1, s =>
    match next s with
    | (none, s') => ([], s')
    | (some b, s') =>
      let (bytes, s'') := pull next n s'
      (b :: bytes, s'')

/-- One word from a source, or nothing if the source yields nothing at once. -/
def pack {σ : Type} (next : σ → Option UInt8 × σ) (s : σ) : Option Packed × σ :=
  match pull next 4 s with
  | ([], s') => (none, s')
  | (bytes, s') => (some ⟨ofBytes bytes, bytes.length⟩, s')

/-- Words packed one after the other until the source yields nothing, at most `n` of them. -/
def packUpTo {σ : Type} (next : σ → Option UInt8 × σ) : Nat → σ → List Packed
  | 0, _ => []
  | n + 1, s =>
    match pack next s with
    | (none, _) => []
    | (some p, s') => p :: packUpTo next n s'

/-- A list as a source: its characters in order, then nothing for ever. -/
def ofList : List UInt8 → Option UInt8 × List UInt8
  | [] => (none, [])
  | b :: rest => (some b, rest)

theorem pull_list (n : Nat) (bytes : List UInt8) :
    pull ofList n bytes = (bytes.take n, bytes.drop n) := by
  induction n generalizing bytes with
  | zero => simp [pull]
  | succ n ih => cases bytes <;> simp [pull, ofList, ih]

theorem pack_list (bytes : List UInt8) :
    pack ofList bytes =
      if bytes = [] then (none, [])
      else (some ⟨ofBytes (bytes.take 4), min 4 bytes.length⟩, bytes.drop 4) := by
  unfold pack
  rw [pull_list]
  cases bytes with
  | nil => simp
  | cons b rest => simp only [List.take_succ_cons, List.drop_succ_cons]; simp; omega

end FifoWord

/-! ### Counting words -/

/-- Number of words needed for a number of characters. -/
def wordsFor (chars : UInt64) : UInt64 :=
  chars / 4 + if chars % 4 = 0 then 0 else 1

/-- The count is the quotient by four, rounded up; no size of buffer makes it overflow. -/
theorem toNat_wordsFor (chars : UInt64) : (wordsFor chars).toNat = (chars.toNat + 3) / 4 := by
  have h := chars.toNat_lt
  have h4 : (chars % 4 = 0) ↔ chars.toNat % 4 = 0 := by
    rw [← UInt64.toNat_inj, UInt64.toNat_mod]; rfl
  unfold wordsFor
  rw [UInt64.toNat_add, UInt64.toNat_div]
  by_cases h0 : chars % 4 = 0
  · have := h4.1 h0
    simp only [h0, ↓reduceIte, UInt64.toNat_ofNat, Nat.reducePow, Nat.reduceMod]
    omega
  · have : chars.toNat % 4 ≠ 0 := fun e => h0 (h4.2 e)
    simp only [h0, ↓reduceIte, UInt64.toNat_ofNat, Nat.reducePow, Nat.reduceMod]
    omega

end PolledUart

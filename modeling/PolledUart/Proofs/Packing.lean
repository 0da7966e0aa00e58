import PolledUart.Transmit
import PolledUart.Proofs.Sources

/-!
# Packing a stream of characters

A source of characters is seen through the list of what it still yields
(`FifoWord.Yields`), and packing it is packing that list. The words packed from
a list carry exactly its characters, in order, with zero only in the lanes after
the last one, and there are no more of them than needed: only the last word can
have a free lane (`FifoWord.filled_packUpTo`).

Applied to the expansion of a text this ties the two computations of the
transmit path together: the number of characters is computed from the text, the
words from the expanded stream (`Transmit.lanes_words`, `Transmit.length_words`).
-/

namespace PolledUart

namespace FifoWord

/-! ### Sources seen as lists -/

section Sources

variable {σ : Type} {next : σ → Option UInt8 × σ} {view : σ → List UInt8}

/-- A step of the source takes the first character off the view, and yields nothing when the
view is empty. -/
def Yields (next : σ → Option UInt8 × σ) (view : σ → List UInt8) : Prop :=
  ∀ s, (next s).1 = (view s).head? ∧ view (next s).2 = (view s).tail

theorem Yields.holds (h : Yields next view) (s : σ) : Source.Holds next s (view s) :=
  Source.holds_of_view view (fun _ => True) (fun s _ => ⟨(h s).1, (h s).2, trivial⟩) trivial

/-- Packing a source packs its view. -/
theorem packUpTo_of_yields (h : Yields next view) (n : Nat) (s : σ) :
    packUpTo next n s = packUpTo ofList n (view s) :=
  packUpTo_congr (h.holds s) (Source.holds_list (view s)) n

end Sources

/-! ### The words of a list -/

/-- The words of a list, one after the other: the first four characters make a word, and those
after them the other words. The bound has to be above the number of characters. -/
theorem packUpTo_induction {motive : List UInt8 → List Packed → Prop} (nil : motive [] [])
    (word : ∀ bytes words, bytes ≠ [] → motive (bytes.drop 4) words →
      motive bytes (⟨ofBytes (bytes.take 4), min 4 bytes.length⟩ :: words))
    {n : Nat} {bytes : List UInt8} (h : bytes.length < n) :
    motive bytes (packUpTo ofList n bytes) := by
  induction n generalizing bytes with
  | zero => exact absurd h (Nat.not_lt_zero _)
  | succ n ih =>
    have hpack := pack_list bytes
    rw [packUpTo]
    by_cases hb : bytes = []
    · rw [hb, if_pos rfl] at hpack
      rw [hb, hpack]
      exact nil
    · have hpos := List.length_pos_iff.2 hb
      rw [if_neg hb] at hpack
      rw [hpack]
      exact word bytes _ hb (ih (by rw [List.length_drop]; omega))

/-- Four characters a word, rounded up. -/
theorem length_packUpTo {n : Nat} {bytes : List UInt8} (h : bytes.length < n) :
    (packUpTo ofList n bytes).length = (bytes.length + 3) / 4 := by
  refine packUpTo_induction
    (motive := fun bytes words => words.length = (bytes.length + 3) / 4) rfl ?_ h
  intro bytes words hb ih
  have hpos := List.length_pos_iff.2 hb
  rw [List.length_cons, ih, List.length_drop]
  omega

/-- **The lanes of the words are the characters**, followed by zeros up to the end of the last
word. -/
theorem lanes_packUpTo {n : Nat} {bytes : List UInt8} (h : bytes.length < n) :
    (packUpTo ofList n bytes).flatMap (fun p => p.word.lanes) =
      bytes ++ List.replicate (4 * ((bytes.length + 3) / 4) - bytes.length) 0 := by
  refine packUpTo_induction
    (motive := fun bytes words => words.flatMap (fun p => p.word.lanes) =
      bytes ++ List.replicate (4 * ((bytes.length + 3) / 4) - bytes.length) 0) rfl ?_ h
  intro bytes words hb ih
  have hpos := List.length_pos_iff.2 hb
  have hlanes : (ofBytes (bytes.take 4)).lanes =
      bytes.take 4 ++ List.replicate (4 - min 4 bytes.length) 0 := by
    rw [lanes_ofBytes (List.length_take_le 4 bytes), List.length_take]
  rw [List.flatMap_cons, hlanes, ih, List.length_drop]
  by_cases hlast : bytes.length ≤ 4
  · -- the last word: everything is taken, and its free lanes are zero
    rw [List.drop_eq_nil_of_le hlast, List.take_of_length_le hlast,
      show 4 * ((bytes.length - 4 + 3) / 4) - (bytes.length - 4) = 0 by omega,
      List.replicate_zero, List.append_nil, List.append_nil]
    congr 2
    omega
  · -- a full word has no free lane, and the rest goes on after it
    rw [show 4 - min 4 bytes.length = 0 by omega, List.replicate_zero, List.append_nil,
      ← List.append_assoc, List.take_append_drop]
    congr 2
    omega

/-- The characters that a packed word carries. -/
def Packed.characters (p : Packed) : List UInt8 :=
  p.word.lanes.take p.filled

theorem characters_ofBytes {bytes : List UInt8} (h : bytes.length ≤ 4) :
    Packed.characters ⟨ofBytes bytes, bytes.length⟩ = bytes := by
  rw [Packed.characters, lanes_ofBytes h, List.take_left]

/-- The words carry the characters of the list and no others. -/
theorem characters_packUpTo {n : Nat} {bytes : List UInt8} (h : bytes.length < n) :
    (packUpTo ofList n bytes).flatMap Packed.characters = bytes := by
  refine packUpTo_induction
    (motive := fun bytes words => words.flatMap Packed.characters = bytes) rfl ?_ h
  intro bytes words _ ih
  have hfirst := characters_ofBytes (List.length_take_le 4 bytes)
  rw [List.length_take] at hfirst
  rw [List.flatMap_cons, hfirst, ih, List.take_append_drop]

/-- Only the last word can have a free lane. -/
theorem filled_packUpTo {n : Nat} {bytes : List UInt8} (h : bytes.length < n) :
    ∀ p ∈ (packUpTo ofList n bytes).dropLast, p.filled = 4 := by
  -- a word after another one shows that there are characters for it
  have hboth := packUpTo_induction
    (motive := fun bytes words => (bytes = [] → words = []) ∧ ∀ p ∈ words.dropLast, p.filled = 4)
    ⟨fun _ => rfl, nofun⟩ (fun bytes words hb ih => ⟨fun hnil => absurd hnil hb, ?_⟩) h
  · exact hboth.2
  · obtain ⟨hnil, hfull⟩ := ih
    cases words with
    | nil => exact nofun
    | cons q words =>
      have hmore : bytes.drop 4 ≠ [] := fun he => List.cons_ne_nil q words (hnil he)
      have hlong : 4 < bytes.length := by simpa using hmore
      rw [List.dropLast_cons_cons, List.forall_mem_cons]
      exact ⟨Nat.min_eq_left (Nat.le_of_lt hlong), hfull⟩

/-- Whole words cut off the front are whole words' lanes cut off the front. -/
theorem flatMap_lanes_take (words : List FifoWord) (k : Nat) :
    (words.take k).flatMap lanes = (words.flatMap lanes).take (4 * k) := by
  induction words generalizing k with
  | nil => simp
  | cons w rest ih =>
    cases k with
    | zero => rfl
    | succ k =>
      rw [List.take_succ_cons, List.flatMap_cons, List.flatMap_cons, ih,
        show 4 * (k + 1) = w.lanes.length + 4 * k by rw [length_lanes]; omega,
        List.take_length_add_append]

end FifoWord

/-! ### The words of a text -/

namespace Transmit

open Newline

theorem yields_next : FifoWord.Yields Stream.next Stream.toList := Stream.next_eq

theorem words_eq (data : List UInt8) :
    words data =
      (FifoWord.packUpTo FifoWord.ofList (physicalLength data + 1) (expand data)).map (·.word) := by
  simp only [words]
  rw [FifoWord.packUpTo_of_yields yields_next, ← Stream.length_toList, Stream.toList_ofBytes,
    length_expand]

/-- As many words as the announced number of characters takes. -/
theorem length_words (data : List UInt8) : (words data).length = (physicalLength data + 3) / 4 := by
  rw [words_eq, List.length_map, FifoWord.length_packUpTo (by rw [length_expand]; omega),
    length_expand]

/-- The words carry the expansion of the text, and nothing but zeros after it. -/
theorem lanes_words (data : List UInt8) :
    (words data).flatMap FifoWord.lanes =
      expand data ++ List.replicate (4 * (words data).length - physicalLength data) 0 := by
  rw [length_words, words_eq, List.flatMap_map,
    FifoWord.lanes_packUpTo (by rw [length_expand]; omega), length_expand]

/-- What some of the words carry, cut at the announced number of characters, is the same part
of the expansion. -/
theorem take_lanes_words (data : List UInt8) (k : Nat) :
    (((words data).take k).flatMap FifoWord.lanes).take (physicalLength data) =
      (expand data).take (4 * k) := by
  rw [FifoWord.flatMap_lanes_take, lanes_words, List.take_take, List.take_append_of_le_length
    (by rw [length_expand]; omega), Nat.min_comm, ← List.take_take, ← length_expand,
    List.take_length]

theorem toNat_of_count? {data : List UInt8} {count : UInt32} (h : count? data = some count) :
    count.toNat = physicalLength data := by
  unfold count? at h
  split at h
  · rename_i hlt
    cases h
    exact Nat.mod_eq_of_lt hlt
  · cases h

theorem count?_of_lt {data : List UInt8} (h : physicalLength data < 0x100000000) :
    ∃ count, count? data = some count ∧ count.toNat = physicalLength data :=
  have hc : count? data = some (UInt32.ofNat (physicalLength data)) := if_pos h
  ⟨_, hc, toNat_of_count? hc⟩

theorem count?_of_ge {data : List UInt8} (h : 0x100000000 ≤ physicalLength data) :
    count? data = none :=
  if_neg (Nat.not_lt.2 h)

end Transmit

end PolledUart

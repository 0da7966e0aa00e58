import Mathlib.Data.List.Basic
import PolledUart.Receive
import PolledUart.Proofs.PackedSources

/-!
# The receive cache undoes the packer

The packer puts characters into the lanes of a word side by side; the cache takes
them out of the lowest lane, moves the others down, and counts them apart. So the
two see a word in different ways. They meet in the list of its lanes: lane `k` of
a word is the byte from bit `8k` on (`FifoWord.lanes_getElem?`), and the cache
hands out as many of the lanes, lowest first, as its count says
(`RxCache.holds_toList`).

* `RxCache.cache_undoes_packing` — filled with the words of a text one after the
  other, the cache hands out the text again; filled with any word and count, it
  hands out that many bytes of the word and then nothing.
-/

namespace PolledUart

namespace FifoWord

/-- Lane `k` of a word is the byte from bit `8k` on. -/
theorem lanes_getElem? (w : FifoWord) {k : Nat} (hk : k < 4) :
    w.lanes[k]? = some (UInt8.ofBitVec (w.raw.toBitVec.extractLsb' (8 * k) 8)) := by
  match k, hk with
  | 0, _ | 1, _ | 2, _ | 3, _ =>
    refine congrArg some (UInt8.toBitVec_inj.1 ?_)
    ext i hi
    simp

/-- A packed word as it is handed to the cache. -/
def Packed.received (p : Packed) : Received := ⟨p.word, UInt8.ofNat p.filled⟩

end FifoWord

namespace RxCache

variable {c : RxCache}

/-! ### Handing out characters -/

/-- The cache as a source of characters. -/
def next (c : RxCache) : Option UInt8 × RxCache :=
  match c.pop? with
  | some (byte, rest) => (some byte, rest)
  | none => (none, c)

/-- What a cache hands out is the list of its characters, and then nothing for ever. -/
theorem holds_toList (h : c.remaining ≤ 4) : Source.Holds next c c.toList := by
  refine Source.holds_of_view toList (·.remaining ≤ 4) (fun c hc => ?_) h
  rw [next]
  cases hpop : c.pop? with
  | none =>
    have hnil : c.toList = [] := toList_of_isEmpty (by simp [isEmpty, pop?_eq_none_iff.1 hpop])
    simp [hnil, hc]
  | some taken =>
    obtain ⟨byte, rest⟩ := taken
    simp [toList_of_pop? hpop hc, remaining_of_pop? hpop hc]

/-- All that a cache hands out until it is empty. -/
def drain (c : RxCache) : List UInt8 :=
  match _h : c.pop? with
  | none => []
  | some (byte, rest) => byte :: rest.drain
termination_by c.remaining.toNat
decreasing_by
  rw [toNat_remaining_of_pop? _h]
  exact Nat.lt_succ_self _

theorem drain_eq_toList (h : c.remaining ≤ 4) : c.drain = c.toList := by
  induction c using drain.induct with
  | case1 c hpop =>
    rw [toList_of_isEmpty (by simp [isEmpty, pop?_eq_none_iff.1 hpop]), drain]
    split <;> simp_all
  | case2 c byte rest hpop ih =>
    rw [toList_of_pop? hpop h, ← ih (remaining_of_pop? hpop h), drain]
    split <;> simp_all

/-! ### Packed and handed out -/

/-- A cache filled with a packed word hands out the characters of that word. -/
theorem drain_received {p : FifoWord.Packed} (h : p.filled ≤ 4) :
    (ofReceived p.received).drain = p.characters := by
  have hfilled : (UInt8.ofNat p.filled).toNat = p.filled :=
    UInt8.toNat_ofNat_of_lt (Nat.lt_of_le_of_lt h (by decide))
  have hle : UInt8.ofNat p.filled ≤ 4 := UInt8.le_iff_toNat_le.2 (by rw [hfilled]; exact h)
  rw [drain_eq_toList hle, toList_ofReceived, Received.toList, FifoWord.Packed.characters,
    FifoWord.Packed.received, hfilled]

open FifoWord in
/-- **The cache undoes the packer.** A text cut into words to its end comes out of the cache again,
every character of it in order, when the cache is filled with each word in turn and emptied. And a
cache filled with any word and a count of at most four hands out that many bytes, the `k`-th of them
the bits `8k` to `8k + 7` of the word, whatever the lanes above hold, and after them nothing. -/
theorem cache_undoes_packing (bytes : List UInt8) (word : FifoWord) (n : UInt8) (hn : n ≤ 4) :
    ((∃ words rest, PacksAll ofList bytes words rest) ∧
      ∀ words rest, PacksAll ofList bytes words rest →
        words.flatMap (fun p => (ofReceived p.received).drain) = bytes) ∧
    ∀ k, Source.answer next (ofReceived ⟨word, n⟩) k =
      if k < n.toNat then some (UInt8.ofBitVec (word.raw.toBitVec.extractLsb' (8 * k) 8))
      else none := by
  have hbytes := Source.holds_list bytes
  refine ⟨⟨exists_packsAll_of_holds hbytes, fun words rest h => ?_⟩, fun k => ?_⟩
  · obtain ⟨-, hcharacters, -⟩ := h.of_holds hbytes
    calc words.flatMap (fun p => (ofReceived p.received).drain)
        = words.flatMap Packed.characters :=
          List.flatMap_congr fun p hp => drain_received (h.filled_le p hp)
      _ = bytes := hcharacters
  · rw [holds_toList hn k, toList_ofReceived, Received.toList]
    by_cases hk : k < n.toNat
    · have hlane : k < 4 := Nat.lt_of_lt_of_le hk (UInt8.le_iff_toNat_le.1 hn)
      rw [if_pos hk, List.getElem?_take_of_lt hk, lanes_getElem? word hlane]
    · rw [if_neg hk, List.getElem?_take_eq_none (Nat.not_lt.1 hk)]

open FifoWord in
/-- The characters of the text are kept when they are zero, and a lane above the count is not handed
out. -/
theorem cache_undoes_packing_zeros :
    (3 : UInt8) ≤ 4 ∧
    (∃ words rest, PacksAll ofList [0x61, 0, 0, 0, 0, 0x62, 0] words rest ∧
      words.flatMap (fun p => (ofReceived p.received).drain) = [0x61, 0, 0, 0, 0, 0x62, 0]) ∧
    Source.answer next (ofReceived ⟨⟨0xdead00ef⟩, 3⟩) 1 = some 0 ∧
    Source.answer next (ofReceived ⟨⟨0xdead00ef⟩, 3⟩) 2 = some 0xad ∧
    Source.answer next (ofReceived ⟨⟨0xdead00ef⟩, 3⟩) 3 = none := by
  have hcount : (3 : UInt8) ≤ 4 := by decide
  obtain ⟨⟨⟨words, rest, h⟩, hall⟩, hlanes⟩ :=
    cache_undoes_packing [0x61, 0, 0, 0, 0, 0x62, 0] ⟨0xdead00ef⟩ 3 hcount
  exact ⟨hcount, ⟨words, rest, h, hall words rest h⟩, (hlanes 1).trans (by decide),
    (hlanes 2).trans (by decide), (hlanes 3).trans (by decide)⟩

end RxCache

end PolledUart

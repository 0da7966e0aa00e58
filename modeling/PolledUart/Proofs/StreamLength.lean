import PolledUart.Proofs.NewlineTranscoding

/-!
# How many characters a stream still yields

The number of characters still to come is told in three ways: by counting what
the stream yields to its end (`Stream.collect`), from the unread text and the
line feed that may be owed (`Stream.remaining`), and by bounds that do not look
at the text (`Stream.sizeHint`). They have to go together in each state that a
stream passes through, also between the carriage return and the line feed of a
pair, where the line feed owed is one character in the count and in both bounds.

* `Stream.length_predicted` — in each state the count is exact, the bounds
  enclose it, and a bound is reached only where it has to be.
-/

namespace PolledUart.Newline.Stream

/-! ## The count -/

theorem length_collect (s : Stream) : s.collect.length = s.remaining := by
  rw [collect_eq_toList, length_toList]

theorem remaining_ofBytes (bytes : List UInt8) :
    (ofBytes bytes).remaining = physicalLength bytes :=
  Nat.zero_add _

/-- Each question takes one of the characters to come, until there are none. -/
theorem remaining_drop (n : Nat) (s : Stream) : (drop n s).remaining = s.remaining - n := by
  rw [← length_toList, toList_drop, List.length_drop, length_toList]

/-! ## The bounds -/

theorem sizeHint_fst_le (s : Stream) : s.sizeHint.1 ≤ s.remaining := by
  simp only [sizeHint, remaining, physicalLength]
  omega

/-- The lower bound counts each unread character once. -/
theorem remaining_eq_sizeHint_fst_iff (s : Stream) :
    s.remaining = s.sizeHint.1 ↔ ∀ b ∈ s.unread, b ≠ lineFeed := by
  have hcount : s.remaining = s.sizeHint.1 ↔ s.unread.count lineFeed = 0 := by
    simp only [sizeHint, remaining, physicalLength]
    omega
  rw [hcount, List.count_eq_zero]
  exact ⟨fun h b hb hfeed => h (hfeed ▸ hb), fun h hmem => h lineFeed hmem rfl⟩

theorem sizeHint_snd_eq_some {s : Stream} {high : Nat} (h : s.sizeHint.2 = some high) :
    high = s.owesLineFeed.toNat + 2 * s.unread.length := by
  simp only [sizeHint] at h
  split at h
  · obtain rfl := Option.some.inj h
    omega
  · cases h

theorem remaining_le_of_sizeHint {s : Stream} {high : Nat} (h : s.sizeHint.2 = some high) :
    s.remaining ≤ high := by
  have hcount : s.unread.count lineFeed ≤ s.unread.length := List.count_le_length
  rw [sizeHint_snd_eq_some h, remaining, physicalLength]
  omega

/-- The upper bound counts each unread character twice. -/
theorem remaining_eq_iff_of_sizeHint {s : Stream} {high : Nat} (h : s.sizeHint.2 = some high) :
    s.remaining = high ↔ ∀ b ∈ s.unread, b = lineFeed := by
  have hcount : s.remaining = high ↔ s.unread.count lineFeed = s.unread.length := by
    rw [sizeHint_snd_eq_some h, remaining, physicalLength]
    omega
  rw [hcount, List.count_eq_length]
  exact forall₂_congr fun b _ => eq_comm

/-! ### Where there is an upper bound -/

/-- A question leaves the end of the unread text unread. -/
theorem unread_next_suffix (s : Stream) : s.next.2.unread <:+ s.unread := by
  obtain ⟨owes, unread⟩ := s
  cases owes with
  | true => exact List.suffix_refl unread
  | false =>
    cases unread with
    | nil => exact List.suffix_refl []
    | cons b rest =>
      by_cases h : b = lineFeed <;> simp [next, h]

theorem unread_drop_suffix (n : Nat) (s : Stream) : (drop n s).unread <:+ s.unread := by
  induction n generalizing s with
  | zero => exact List.suffix_refl _
  | succ n ih => exact (ih s.next.2).trans (unread_next_suffix s)

theorem exists_sizeHint_snd {s : Stream} (h : s.unread.length ≤ 0x7fffffffffffffff) :
    ∃ high, s.sizeHint.2 = some high := by
  have howed : s.owesLineFeed.toNat ≤ 1 := Bool.toNat_le _
  exact ⟨_, if_pos (by omega)⟩

/-- **The length is predicted in each state.** After any number of questions to the stream of a
text, the characters that it still yields are the line feed owed, if any, and the physical
length of the unread text; each character that it yields makes them one fewer. The lower bound is
reached exactly if no unread character is a line feed, and the upper one exactly if every one is.
There is an upper bound for each text that fits in memory. -/
theorem length_predicted (bytes : List UInt8) (n : Nat) :
    let s := drop n (ofBytes bytes)
    (s.collect.length = s.owesLineFeed.toNat + physicalLength s.unread ∧
      s.collect.length = physicalLength bytes - n) ∧
    (s.sizeHint.1 ≤ s.collect.length ∧
      (s.collect.length = s.sizeHint.1 ↔ ∀ b ∈ s.unread, b ≠ lineFeed)) ∧
    (bytes.length ≤ 0x7fffffffffffffff → ∃ high, s.sizeHint.2 = some high ∧
      s.collect.length ≤ high ∧ (s.collect.length = high ↔ ∀ b ∈ s.unread, b = lineFeed)) ∧
    ∀ b rest, s.next = (some b, rest) → rest.remaining + 1 = s.remaining := by
  intro s
  have hleft : s.remaining = physicalLength bytes - n := by
    rw [remaining_drop, remaining_ofBytes]
  rw [length_collect]
  refine ⟨⟨rfl, hleft⟩, ⟨sizeHint_fst_le s, remaining_eq_sizeHint_fst_iff s⟩, fun hlength => ?_,
    fun b rest h => (remaining_next h).symm⟩
  have hunread : s.unread.length ≤ bytes.length :=
    (unread_drop_suffix n (ofBytes bytes)).length_le
  obtain ⟨high, hhigh⟩ := exists_sizeHint_snd (Nat.le_trans hunread hlength)
  exact ⟨high, hhigh, remaining_le_of_sizeHint hhigh, remaining_eq_iff_of_sizeHint hhigh⟩

/-- Between the two characters of a pair: the line feed owed is one of the two still to come, and
the bounds allow for two or three. -/
theorem length_predicted_between :
    [0x61, lineFeed, 0x62].length ≤ 0x7fffffffffffffff ∧
    drop 2 (ofBytes [0x61, lineFeed, 0x62]) = ⟨true, [0x62]⟩ ∧
    (Stream.mk true [0x62]).collect.length = 2 ∧
    (Stream.mk true [0x62]).sizeHint = (2, some 3) ∧
    ∃ high, (Stream.mk true [0x62]).sizeHint.2 = some high ∧ 2 ≤ high := by
  have hlength : [0x61, lineFeed, 0x62].length ≤ 0x7fffffffffffffff := by decide
  obtain ⟨⟨hcount, -⟩, -, hbound, -⟩ := length_predicted [0x61, lineFeed, 0x62] 2
  obtain ⟨high, hhigh, hle, -⟩ := hbound hlength
  have htwo : (drop 2 (ofBytes [0x61, lineFeed, 0x62])).collect.length = 2 := hcount
  exact ⟨hlength, rfl, htwo, rfl, high, hhigh, by rw [← htwo]; exact hle⟩

end PolledUart.Newline.Stream

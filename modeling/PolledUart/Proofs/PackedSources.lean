import PolledUart.Proofs.Packing

/-!
# Packing a source to its end

One call of the packer asks a source at most four times. Which questions it puts
decides whether a character can be lost between two words: a fifth one would pull
a character that no lane takes. Here the source is any, also one that yields
again after nothing, and the packer is tied to the answers of the source alone.

Packing goes on until a call finds nothing (`FifoWord.PacksAll`). A relation says
so without a bound on the number of words; it agrees with the loop that has one
(`PacksAll.packUpTo_eq`, `exists_packsAll`).

* `FifoWord.pack_any_source` — what one call takes and what all calls together
  take.
-/

namespace PolledUart.FifoWord

open Source

variable {σ : Type} {next : σ → Option UInt8 × σ} {s s' : σ} {words : List Packed}

/-! ### One word -/

theorem packed?_eq_some {items : List UInt8} {p : Packed} (h : packed? items = some p)
    (hlength : items.length ≤ 4) :
    p.filled = items.length ∧ 1 ≤ p.filled ∧ p.filled ≤ 4 ∧
      p.word.lanes = items ++ List.replicate (4 - p.filled) 0 := by
  unfold packed? at h
  split at h
  · cases h
  · rename_i hne
    cases h
    exact ⟨rfl, List.length_pos_iff.2 hne, hlength, lanes_ofBytes hlength⟩

/-- A call that finds nothing has put one question. -/
theorem pack_fst_eq_none_iff : (pack next s).1 = none ↔ answer next s 0 = none := by
  obtain ⟨items, h⟩ := exists_leading (answer next s) 4
  rw [pack_of_leading h, packed?_eq_none_iff]
  cases items with
  | nil => exact iff_of_true rfl (h.ended (by decide))
  | cons b items => simp [h.yielded 0 (Nat.succ_pos _)]

/-! ### Word after word -/

/-- Packing again and again until a call finds nothing: the words, and where the source stands
after them. -/
inductive PacksAll (next : σ → Option UInt8 × σ) : σ → List Packed → σ → Prop where
  /-- Nothing is left. -/
  | done {s s' : σ} : pack next s = (none, s') → PacksAll next s [] s'
  /-- A word, and the words after it. -/
  | more {s t s' : σ} {p : Packed} {words : List Packed} :
      pack next s = (some p, t) → PacksAll next t words s' → PacksAll next s (p :: words) s'

/-- A loop with a bound above the number of words finds them all. -/
theorem PacksAll.packUpTo_eq (h : PacksAll next s words s') {n : Nat} (hn : words.length < n) :
    packUpTo next n s = words := by
  induction h generalizing n with
  | done hp =>
    obtain ⟨n, rfl⟩ := Nat.exists_eq_add_one_of_ne_zero (Nat.ne_of_gt hn)
    rw [packUpTo, hp]
  | more hp _ ih =>
    obtain ⟨n, rfl⟩ := Nat.exists_eq_add_one_of_ne_zero (Nat.ne_of_gt (Nat.zero_lt_of_lt hn))
    rw [packUpTo, hp]
    exact congrArg _ (ih (Nat.lt_of_succ_lt_succ hn))

/-- A loop that has not used up its bound has come to the end. -/
theorem exists_packsAll {n : Nat} (h : (packUpTo next n s).length < n) :
    ∃ s', PacksAll next s (packUpTo next n s) s' := by
  induction n generalizing s with
  | zero => cases h
  | succ n ih =>
    rw [packUpTo] at h ⊢
    cases hp : pack next s with
    | mk p? t =>
      rw [hp] at h
      cases p? with
      | none => exact ⟨t, .done hp⟩
      | some p =>
        obtain ⟨s', hrest⟩ := ih (Nat.lt_of_succ_lt_succ h)
        exact ⟨s', .more hp hrest⟩

/-- Only a source that answers with nothing at some time is packed to an end. -/
theorem PacksAll.exists_answer_eq_none (h : PacksAll next s words s') :
    ∃ n, answer next s n = none := by
  induction h with
  | done hp => exact ⟨0, pack_fst_eq_none_iff.1 (congrArg Prod.fst hp)⟩
  | @more s t _ _ _ hp _ ih =>
    -- the later words start after the questions of this one, so their end is a later answer
    obtain ⟨n, hn⟩ := ih
    obtain ⟨items, hitems⟩ := exists_leading (answer next s) 4
    have ht : after next (questions 4 items) s = t := by
      rw [pack_of_leading hitems] at hp
      exact congrArg Prod.snd hp
    exact ⟨questions 4 items + n, by rw [← answer_after, ht, hn]⟩

/-- No word has more than its four lanes filled. -/
theorem PacksAll.filled_le (h : PacksAll next s words s') : ∀ p ∈ words, p.filled ≤ 4 := by
  induction h with
  | done => exact nofun
  | @more s _ _ p _ hp _ ih =>
    obtain ⟨items, hitems⟩ := exists_leading (answer next s) 4
    rw [pack_of_leading hitems] at hp
    obtain ⟨-, -, hfilled, -⟩ := packed?_eq_some (congrArg Prod.fst hp) hitems.length_le
    exact List.forall_mem_cons.2 ⟨hfilled, ih⟩

section Holds

variable {items : List UInt8}

/-- A source that holds a list is packed to an end, with no more words than characters. -/
theorem exists_packsAll_of_holds (h : Holds next s items) : ∃ words s', PacksAll next s words s' := by
  have hlength : (packUpTo next (items.length + 1) s).length < items.length + 1 := by
    rw [packUpTo_congr h (holds_list items), length_packUpTo (Nat.lt_succ_self _)]
    omega
  exact ⟨_, exists_packsAll hlength⟩

/-- The words of a source are those of the list that it holds. -/
theorem PacksAll.eq_packUpTo_list (h : PacksAll next s words s') (hs : Holds next s items) :
    ∃ n, items.length < n ∧ words = packUpTo ofList n items := by
  refine ⟨words.length + items.length + 1, by omega, ?_⟩
  rw [← packUpTo_congr hs (holds_list items), h.packUpTo_eq (by omega)]

/-- The words of a source carry the characters that it holds, four in each word but the last,
and there are as many words as are counted for them. -/
theorem PacksAll.of_holds (h : PacksAll next s words s') (hs : Holds next s items) :
    (∀ p ∈ words.dropLast, p.filled = 4) ∧ words.flatMap Packed.characters = items ∧
      ∀ chars : UInt64, chars.toNat = items.length → words.length = (wordsFor chars).toNat := by
  obtain ⟨n, hn, rfl⟩ := h.eq_packUpTo_list hs
  refine ⟨filled_packUpTo hn, characters_packUpTo hn, fun chars hchars => ?_⟩
  rw [toNat_wordsFor, hchars, length_packUpTo hn]

end Holds

/-- **Packing any source.** One call takes the characters in front of the first nothing among the
next four answers. It puts as many questions as it takes characters, and one more if there are
fewer than four, the one answered by nothing; it finds nothing exactly if that is the first answer.
Otherwise the lanes are these characters in order, with zero in those left over.

Where the source stays at its end once it has reached it, packing until a call finds nothing comes
to an end exactly if the source does. The words then carry all its characters in order, four in each
but the last, and there are as many of them as are counted for that number of characters. -/
theorem pack_any_source (next : σ → Option UInt8 × σ) (s : σ) :
    (∃ items asked,
      Leading (answer next s) 4 items ∧
      asked = items.length + (if items.length < 4 then 1 else 0) ∧ asked ≤ 4 ∧
      (pack next s).2 = after next asked s ∧
      (∀ count, pack (counted next) (s, count) =
        ((pack next s).1, after next asked s, count + asked)) ∧
      ((pack next s).1 = none ↔ answer next s 0 = none) ∧
      ∀ p, (pack next s).1 = some p →
        p.filled = items.length ∧ 1 ≤ p.filled ∧ p.filled ≤ 4 ∧
          p.word.lanes = items ++ List.replicate (4 - p.filled) 0) ∧
    (Fused (answer next s) →
      ((∃ words s', PacksAll next s words s') ↔ ∃ n, answer next s n = none) ∧
      ∀ words s', PacksAll next s words s' →
        (∀ n, words.length < n → packUpTo next n s = words) ∧
        ∃ items, Holds next s items ∧
          (∀ p ∈ words.dropLast, p.filled = 4) ∧
          words.flatMap Packed.characters = items ∧
          ∀ chars : UInt64, chars.toNat = items.length →
            words.length = (wordsFor chars).toNat) := by
  constructor
  · obtain ⟨items, h⟩ := exists_leading (answer next s) 4
    have hpack := pack_of_leading h
    refine ⟨items, questions 4 items, h, rfl, h.questions_le, by rw [hpack], fun count => ?_,
      pack_fst_eq_none_iff, fun p hp => ?_⟩
    · -- counting changes no answer, so a call takes the same from the source that counts
      have hcounted : Leading (answer (counted next) (s, count)) 4 items := by
        rwa [answer_counted]
      rw [pack_of_leading hcounted, after_counted, hpack]
    · rw [hpack] at hp
      exact packed?_eq_some hp h.length_le
  · intro hfused
    have hholds : (∃ n, answer next s n = none) → ∃ items, Holds next s items :=
      fun ⟨_, hn⟩ => hfused.exists_items hn
    refine ⟨⟨fun ⟨_, _, h⟩ => h.exists_answer_eq_none, fun hends => ?_⟩, fun words s' h => ?_⟩
    · obtain ⟨items, hitems⟩ := hholds hends
      exact exists_packsAll_of_holds hitems
    · obtain ⟨items, hitems⟩ := hholds h.exists_answer_eq_none
      exact ⟨fun n => h.packUpTo_eq, items, hitems, h.of_holds hitems⟩

/-- Six characters make a full word and one with two free lanes. -/
theorem pack_any_source_six :
    Fused (answer ofList [1, 2, 3, 4, 5, 6]) ∧
    ∃ words s', PacksAll ofList [1, 2, 3, 4, 5, 6] words s' ∧
      (∀ p ∈ words.dropLast, p.filled = 4) ∧
      words.flatMap Packed.characters = [1, 2, 3, 4, 5, 6] ∧ words.length = 2 := by
  have hlist := holds_list [1, 2, 3, 4, 5, 6]
  refine ⟨hlist.fused, ?_⟩
  obtain ⟨hends, hall⟩ := (pack_any_source ofList [1, 2, 3, 4, 5, 6]).2 hlist.fused
  obtain ⟨words, s', h⟩ := hends.2 ⟨6, rfl⟩
  obtain ⟨-, items, hitems, hfull, hcharacters, hcount⟩ := hall words s' h
  obtain rfl : items = [1, 2, 3, 4, 5, 6] :=
    List.ext_getElem? fun n => (hitems n).symm.trans (hlist n)
  exact ⟨words, s', h, hfull, hcharacters, hcount 6 rfl⟩

/-- A source that gives some answers, one after the other, and then nothing. -/
def ofAnswers : List (Option UInt8) → Option UInt8 × List (Option UInt8)
  | [] => (none, [])
  | a :: rest => (a, rest)

/-- A call stops at the first nothing and leaves what the source yields again after it. -/
example : pack (counted ofAnswers) ([some 0x61, none, some 0x62], 0) =
    (some ⟨⟨0x61⟩, 1⟩, [some 0x62], 2) := by decide

/-- No fifth question is put after a full word. -/
example : (pack (counted ofAnswers) ([some 1, some 2, some 3, some 4, some 5], 0)).2 =
    ([some 5], 4) := by decide

end PolledUart.FifoWord

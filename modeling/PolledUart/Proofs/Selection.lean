import Mathlib.Data.String.Basic
import Mathlib.Data.UInt
import PolledUart.Tasks.Examples

/-!
# The examples that a test selects

A test selects the examples by the files that hold them, each once and in the order of the bytes
of their names.

Texts are ordered by their characters and bytes by their values. Both orders are the same for
what the texts are written as: the first byte of a character tells how many follow, more of them
for greater code points, and the bits of a code point are written from the top.

* `Text.encode_lt_encode` — texts are written in their order.
* `mem_selecting_iff` — which examples are selected.
* `pairwise_selecting` — they come in the order of their bytes, each once.
-/

namespace PolledUart

namespace Text

/-- Two numbers are compared digit by digit. -/
theorem digits_lt {v w : Nat} (h : v < w) :
    v / 262144 < w / 262144 ∨ v / 262144 = w / 262144 ∧
      (v / 4096 % 64 < w / 4096 % 64 ∨ v / 4096 % 64 = w / 4096 % 64 ∧
        (v / 64 % 64 < w / 64 % 64 ∨ v / 64 % 64 = w / 64 % 64 ∧ v % 64 < w % 64)) := by
  have hlow : v / 64 < w / 64 ∨ v / 64 = w / 64 ∧ v % 64 < w % 64 := by omega
  have hmiddle : v / 4096 < w / 4096 ∨ v / 4096 = w / 4096 ∧ v / 64 % 64 ≤ w / 64 % 64 := by omega
  omega

/-- The bytes of two characters differ before either ends, whatever follows. -/
theorem utf8EncodeChar_lt {c d : Char} (h : c < d) (s t : List UInt8) :
    String.utf8EncodeChar c ++ s < String.utf8EncodeChar d ++ t := by
  have hv : c.val.toNat < d.val.toNat := h
  have hd : d.val.toNat < 0x110000 := by
    rcases d.valid with h | h <;> omega
  have hdigits := digits_lt hv
  unfold String.utf8EncodeChar
  dsimp only
  repeat' split
  all_goals
    simp (disch := omega) only [List.cons_append, List.nil_append, List.cons_lt_cons_iff,
      UInt8.lt_iff_toNat_lt, ← UInt8.toNat_inj, UInt8.toNat_ofNat', Nat.mod_eq_of_lt]
    omega

theorem encode_eq_flatMap (text : String) :
    encode text = text.toList.flatMap String.utf8EncodeChar := by
  show text.toByteArray.data.toList = _
  rw [← String.utf8Encode_toList]
  exact List.toList_data_toByteArray

theorem flatMap_utf8EncodeChar_lt {s t : List Char} (h : s < t) :
    s.flatMap String.utf8EncodeChar < t.flatMap String.utf8EncodeChar := by
  induction s generalizing t with
  | nil =>
    cases t with
    | nil => cases h
    | cons c t =>
      have hbytes : ∃ b bs, String.utf8EncodeChar c = b :: bs :=
        List.exists_cons_of_ne_nil (String.utf8EncodeChar_ne_nil)
      obtain ⟨b, bs, hc⟩ := hbytes
      rw [List.flatMap_nil, List.flatMap_cons, hc, List.cons_append]
      exact List.nil_lt_cons _ _
  | cons c s ih =>
    cases t with
    | nil => cases h
    | cons d t =>
      rw [List.flatMap_cons, List.flatMap_cons]
      rcases List.cons_lt_cons_iff.1 h with hlt | ⟨rfl, hrest⟩
      · exact utf8EncodeChar_lt hlt _ _
      · exact List.append_left_lt (ih hrest)

/-- **Texts are written in their order.** -/
theorem encode_lt_encode {s t : String} (h : s < t) : encode s < encode t := by
  rw [encode_eq_flatMap, encode_eq_flatMap]
  exact flatMap_utf8EncodeChar_lt (String.lt_iff.1 h)

end Text

namespace Tasks

variable {tree : Tree} {filter : Option String} {names files : List String}

/-- A directory lists each name once. -/
theorem Tree.nodup_of_list {path : Path} (h : tree.list path = .ok files) : files.Nodup := by
  unfold list at h
  cases hl : tree.locate path with
  | error e => simp [hl, bind, Except.bind] at h
  | ok child =>
    cases child with
    | file contents =>
      simp [hl, bind, Except.bind, throw, throwThe, MonadExceptOf.throw] at h
    | directory entries =>
      simp only [hl, bind, Except.bind, pure, Except.pure, Except.ok.injEq] at h
      exact h ▸ nodup_names entries

/-- The name of an example tells the file that holds it. -/
theorem stem?_injective {file file' name : String} (h : stem? file = some name)
    (h' : stem? file' = some name) : file = file' :=
  String.toList_injective
    ((stem?_eq_some_iff.1 h).2.trans (stem?_eq_some_iff.1 h').2.symm)

theorem mem_stems_iff {name : String} :
    name ∈ stems files ↔ ∃ file ∈ files, stem? file = some name := by
  rw [stems, List.mem_mergeSort, List.mem_filterMap]

theorem nodup_stems (h : files.Nodup) : (stems files).Nodup := by
  refine (List.mergeSort_perm _ _).nodup_iff.2 (h.filterMap fun file file' name hn hn' => ?_)
  exact stem?_injective hn hn'

theorem selected_eq (filter : Option String)
    (h : tree.list (testsuite ++ ["examples"]) = .ok files) :
    selected tree filter = .ok (selecting filter (stems files)) := by
  simp only [selected, h, Except.mapError, bind, Except.bind, pure, Except.pure]

/-- Files that are listed in order are selected in order. -/
theorem selected_of_pairwise (h : tree.list (testsuite ++ ["examples"]) = .ok files)
    (hordered : (files.filterMap stem?).Pairwise fun a b => decide (a ≤ b) = true) :
    selected tree none = .ok (files.filterMap stem?) := by
  rw [selected_eq none h]
  exact congrArg Except.ok (List.mergeSort_of_pairwise hordered)

/-- What is selected hangs on which files there are. -/
theorem selecting_congr {files' : List String} (filter : Option String) (h : files.Nodup)
    (h' : files'.Nodup) (hsame : ∀ file, file ∈ files ↔ file ∈ files') :
    selecting filter (stems files) = selecting filter (stems files') := by
  have hperm : (stems files).Perm (stems files') :=
    (List.mergeSort_perm _ _).trans <|
      (((List.perm_ext_iff_of_nodup h h').2 hsame).filterMap stem?).trans
        (List.mergeSort_perm _ _).symm
  rw [hperm.eq_of_pairwise (fun _ _ _ _ => String.le_antisymm) (pairwise_stems files)
    (pairwise_stems files')]

/-- **Which examples are selected**: those with a source file whose names contain the filter. -/
theorem mem_selecting_iff {name : String} :
    name ∈ selecting filter (stems files) ↔
      name ≠ "" ∧ (∃ file ∈ files, file.toList = name.toList ++ extension) ∧
        ∀ part, filter = some part → part.toList <:+: name.toList := by
  have hstems : name ∈ stems files ↔
      name ≠ "" ∧ ∃ file ∈ files, file.toList = name.toList ++ extension := by
    simp only [mem_stems_iff, stem?_eq_some_iff]
    constructor
    · rintro ⟨file, hfile, hname, heq⟩
      exact ⟨hname, file, hfile, heq⟩
    · rintro ⟨hname, file, hfile, heq⟩
      exact ⟨file, hfile, hname, heq⟩
  cases filter with
  | none => simp [selecting, hstems]
  | some part => simp [selecting, hstems, occurs_iff, and_assoc]

theorem selecting_sublist (filter : Option String) (names : List String) :
    (selecting filter names).Sublist names := by
  cases filter with
  | none => exact .refl _
  | some part => exact List.filter_sublist

/-- **The selected examples** come in the order of their bytes, each once. -/
theorem pairwise_selecting (filter : Option String) (h : files.Nodup) :
    (selecting filter (stems files)).Pairwise fun a b => Text.encode a < Text.encode b := by
  refine List.Pairwise.sublist (selecting_sublist _ _) ?_
  have hordered := (pairwise_stems files).and (nodup_stems h)
  refine hordered.imp fun ⟨hle, hne⟩ => Text.encode_lt_encode ?_
  exact lt_of_le_of_ne hle hne

end Tasks

end PolledUart

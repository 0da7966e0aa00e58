import PolledUart.Tasks.Failure

/-!
# The examples of a project

Each source file among the examples holds one, named after the file.

* `stem?_eq_some_iff` — the file of an example is its name and the extension.
* `occurs_iff` — the filter asks whether a text is part of the name.
* `pairwise_stems` — the names come in order.
-/

namespace PolledUart.Tasks

/-- The extension of source files. -/
def extension : List Char := ['.', 'r', 's']

/-- The name of the example in a source file; other files hold none. -/
def stem? (file : String) : Option String :=
  let name := file.toList.take (file.toList.length - extension.length)
  if name ≠ [] ∧ file.toList = name ++ extension then some (String.ofList name) else none

theorem stem?_eq_some_iff {file name : String} :
    stem? file = some name ↔ name ≠ "" ∧ file.toList = name.toList ++ extension := by
  simp only [stem?]
  constructor
  · intro h
    split at h
    · rename_i hn
      cases h
      exact ⟨by simpa using hn.1, by simpa using hn.2⟩
    · cases h
  · rintro ⟨hn, hf⟩
    have hne : name.toList ≠ [] := fun e => hn (String.toList_eq_nil_iff.1 e)
    simp [hf, hne]

/-- The names of the examples among some files, in order. -/
def stems (files : List String) : List String :=
  (files.filterMap stem?).mergeSort fun a b => decide (a ≤ b)

theorem pairwise_stems (files : List String) : (stems files).Pairwise (· ≤ ·) := by
  have : (stems files).Pairwise fun a b => decide (a ≤ b) = true :=
    List.pairwise_mergeSort (by simpa using fun _ _ _ => String.le_trans)
      (by simpa using String.le_total) _
  simpa using this

/-- Whether some characters occur, side by side, among others. -/
def occurs (part : List Char) : List Char → Bool
  | [] => part.isEmpty
  | c :: text => part.isPrefixOf (c :: text) || occurs part text

theorem occurs_iff {part text : List Char} : occurs part text = true ↔ part <:+: text := by
  induction text with
  | nil => simp [occurs]
  | cons c text ih => simp [occurs, ih, List.infix_cons_iff]

/-- The names that contain a text. -/
def selecting (filter : Option String) (names : List String) : List String :=
  match filter with
  | none => names
  | some part => names.filter fun name => occurs part.toList name.toList

/-- The examples of a project that a test runs. -/
def selected (tree : Tree) (filter : Option String) : Except Failure (List String) := do
  let files ← (tree.list (testsuite ++ ["examples"])).mapError .unreadableExamples
  return selecting filter (stems files)

end PolledUart.Tasks

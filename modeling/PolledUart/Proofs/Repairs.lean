import PolledUart.Proofs.Blessing

/-!
# What blessing repairs

Blessing reads an expected file as text before it writes it. So it repairs a file that is missing
and one that holds some other text, and says which, but not one that holds bytes that are no text:
there the example fails, and the file stays as it is.

* `Blessable` — the expected files that can be blessed.
* `bless_of_blessable`, `bless_of_not_blessable` — what blessing does to an expected file.
* `test_repairs` — which expected files a test that blesses repairs.
-/

namespace PolledUart.Tasks

/-! ### Files that can be blessed -/

/-- An expected file can be blessed: it holds what the console shows already, or it holds a text,
or there is none and nothing is in its way. The names of files that are written have to be as long
as names can be, or shorter. -/
def Blessable (tree : Tree) (name console : String) : Prop :=
  match tree.entry? (expectedPath name) with
  | some (.file old) => old.bytes = Text.encode console ∨
      (∃ text, old.bytes = Text.encode text) ∧ Tree.Short (expectedPath name)
  | some .directory => False
  | none => (∀ contents, tree.entry? expectedDirectory ≠ some (.file contents)) ∧
      Tree.Short (expectedPath name)

/-- What is done to a file so that it holds some bytes. -/
inductive ChangesTo (bytes : List UInt8) : Option Entry → Change → Prop where
  /-- There is none yet. -/
  | created : ChangesTo bytes none .created
  /-- It holds other bytes. -/
  | updated {old : File} : old.bytes ≠ bytes → ChangesTo bytes (some (.file old)) .updated
  /-- It holds these bytes. -/
  | unchanged {old : File} : old.bytes = bytes → ChangesTo bytes (some (.file old)) .unchanged

section Bless

variable {name console : String} {t u : Tree} {change : Change} {cause : FileError} {old : File}

theorem blessable_congr (hfile : u.entry? (expectedPath name) = t.entry? (expectedPath name))
    (hdir : u.entry? expectedDirectory = t.entry? expectedDirectory) :
    Blessable u name console ↔ Blessable t name console := by
  rw [Blessable, Blessable, hfile, hdir]

/-- An expected file can be written if its name is not too long. -/
theorem writeExpected_of_short (hdir : t.entry? expectedDirectory = some .directory)
    (hfree : t.entry? (expectedPath name) ≠ some .directory)
    (hshort : Tree.Short (expectedPath name)) (console : String) (change : Change) :
    ∃ written, writeExpected t name console change = (.ok change, written) := by
  obtain ⟨written, hwritten⟩ := Tree.exists_write (.ofText console) hdir hfree hshort
  have hwrite : t.write (expectedPath name) (.ofText console) = .ok written := hwritten
  exact ⟨written, by rw [writeExpected, hwrite]⟩

theorem writeExpected_of_long (hdir : t.entry? expectedDirectory = some .directory)
    (hfree : t.entry? (expectedPath name) ≠ some .directory)
    (hlong : ¬ Tree.Short (expectedPath name)) (console : String) (change : Change) :
    writeExpected t name console change = (.error .nameTooLong, t) := by
  have hwrite : t.write (expectedPath name) (.ofText console) = .error .nameTooLong :=
    Tree.write_of_too_long hdir hfree hlong
  rw [writeExpected, hwrite]

/-- An expected file is in a directory, which it is not itself. -/
theorem expected_in_directory (h : t.entry? (expectedPath name) = some (.file old)) :
    t.entry? expectedDirectory = some .directory ∧
      t.entry? (expectedPath name) ≠ some .directory :=
  ⟨Tree.directory_above h (Tree.expectedDirectory_above name) (by simp [expectedPath]),
    by simp [h]⟩

/-- So is one that is missing, once the directory has been made. -/
theorem expected_in_made {made : Tree} (hnone : t.entry? (expectedPath name) = none)
    (hmade : t.makeDirectories expectedDirectory = .ok made) :
    made.entry? expectedDirectory = some .directory ∧
      made.entry? (expectedPath name) ≠ some .directory := by
  rw [Tree.entry?_makeDirectories hmade, if_pos (List.prefix_refl _),
    Tree.entry?_expectedPath_of_made hmade, hnone]
  simp

/-- **A file that holds no text** is not blessed, whatever the console shows. -/
theorem bless_of_not_text (hentry : t.entry? (expectedPath name) = some (.file old))
    (hbytes : Text.decode? old.bytes = none) :
    bless t name console = (.error .notText, t) := by
  have hread : t.readText (expectedPath name) = .error .notText := by
    rw [Tree.readText, Tree.readFile_eq_ok_iff.2 hentry]
    simp [hbytes, bind, Except.bind, throw, throwThe, MonadExceptOf.throw]
  rw [bless, if_pos (contains_of_holds ⟨old, hentry, rfl⟩), hread]

/-- Blessing where there is a directory. -/
theorem bless_of_directory (hentry : t.entry? (expectedPath name) = some .directory) :
    bless t name console = (.error .isADirectory, t) := by
  have hread : t.readText (expectedPath name) = .error .isADirectory := by
    rw [Tree.readText, Tree.readFile_of_directory hentry]
    rfl
  rw [bless, if_pos (by simp [Tree.contains, hentry]), hread]

/-- Blessing a file that is missing. -/
theorem bless_of_none (hnone : t.entry? (expectedPath name) = none) :
    bless t name console = match t.makeDirectories expectedDirectory with
      | .error e => (.error e, t)
      | .ok made => writeExpected made name console .created := by
  have hcontains : ¬ t.contains (expectedPath name) = true := by simp [Tree.contains, hnone]
  unfold bless
  cases t.makeDirectories expectedDirectory <;> exact if_neg hcontains

/-- **A file that can be blessed** is. -/
theorem bless_of_blessable (htestsuite : t.entry? testsuite = some .directory)
    (h : Blessable t name console) : ∃ change u, bless t name console = (.ok change, u) ∧
      ChangesTo (Text.encode console) (t.entry? (expectedPath name)) change := by
  unfold Blessable at h
  split at h
  · rename_i old hentry
    rw [hentry]
    by_cases hsame : old.bytes = Text.encode console
    · have hbless : bless t name console = (.ok .unchanged, t) :=
        (bless_of_text ⟨old, hentry, hsame⟩).trans (if_pos rfl)
      exact ⟨.unchanged, t, hbless, .unchanged hsame⟩
    · obtain ⟨⟨text, htext⟩, hshort⟩ := h.resolve_left hsame
      have hother : text ≠ console := fun heq => hsame (heq ▸ htext)
      obtain ⟨hdir, hfree⟩ := expected_in_directory hentry
      obtain ⟨written, hwritten⟩ := writeExpected_of_short hdir hfree hshort console .updated
      exact ⟨.updated, written, by rw [bless_of_text ⟨old, hentry, htext⟩, if_neg hother, hwritten],
        .updated hsame⟩
  · exact h.elim
  · rename_i hnone
    have hclear := (Tree.clear_expectedDirectory_iff htestsuite).2 h.1
    obtain ⟨made, hmade⟩ := Tree.exists_makeDirectories_iff.2 hclear
    obtain ⟨hdir, hfree⟩ := expected_in_made hnone hmade
    obtain ⟨written, hwritten⟩ := writeExpected_of_short hdir hfree h.2 console .created
    rw [hnone]
    refine ⟨.created, written, ?_, .created⟩
    rw [bless_of_none hnone, hmade]
    exact hwritten

/-- **A file that cannot be blessed** stays as it is. -/
theorem bless_of_not_blessable (htestsuite : t.entry? testsuite = some .directory)
    (h : ¬ Blessable t name console) : ∃ cause u, bless t name console = (.error cause, u) ∧
      u.entry? (expectedPath name) = t.entry? (expectedPath name) := by
  unfold Blessable at h
  split at h
  · rename_i old hentry
    cases hdecode : Text.decode? old.bytes with
    | none => exact ⟨_, t, bless_of_not_text hentry hdecode, rfl⟩
    | some text =>
      have htext := Text.decode?_eq_some_iff.1 hdecode
      obtain ⟨hdiffers, hlong⟩ := not_or.1 h
      have hother : text ≠ console := fun heq => hdiffers (heq ▸ htext)
      have hlong' : ¬ Tree.Short (expectedPath name) := fun hshort => hlong ⟨⟨text, htext⟩, hshort⟩
      obtain ⟨hdir, hfree⟩ := expected_in_directory hentry
      refine ⟨.nameTooLong, t, ?_, rfl⟩
      rw [bless_of_text ⟨old, hentry, htext⟩, if_neg hother,
        writeExpected_of_long hdir hfree hlong' console]
  · rename_i hentry
    exact ⟨_, t, bless_of_directory hentry, rfl⟩
  · rename_i hnone
    cases hmade : t.makeDirectories expectedDirectory with
    | error cause => exact ⟨cause, t, by rw [bless_of_none hnone, hmade], rfl⟩
    | ok made =>
      have hclear := Tree.exists_makeDirectories_iff.1 ⟨made, hmade⟩
      have hlong : ¬ Tree.Short (expectedPath name) := fun hshort =>
        h ⟨(Tree.clear_expectedDirectory_iff htestsuite).1 hclear, hshort⟩
      obtain ⟨hdir, hfree⟩ := expected_in_made hnone hmade
      refine ⟨.nameTooLong, made, ?_, Tree.entry?_expectedPath_of_made hmade⟩
      rw [bless_of_none hnone, hmade]
      exact writeExpected_of_long hdir hfree hlong console .created

end Bless

/-! ### Examples that are blessed -/

/-- What blessing an example whose console is known comes to: the result `r`, the tree `after` and
the `output`. -/
structure Repairs (tree : Tree) (name console : String) (r : Result) (after : Tree)
    (output : List UInt8) : Prop where
  /-- The example is accepted exactly if its expected file can be blessed. -/
  accepted : accepted r = true ↔ Blessable tree name console
  /-- If so, the file holds what the console shows, and it is said what has been done to it. -/
  blessed : Blessable tree name console → ∃ change,
    ChangesTo (Text.encode console) (tree.entry? (expectedPath name)) change ∧
    r = .ok (.blessed change) ∧ after.Holds (expectedPath name) (Text.encode console) ∧
    Text.encode s!"  {name}.expected: {change.label}\n" <:+: output
  /-- Otherwise the file stays as it is. -/
  kept : ¬ Blessable tree name console → ∃ cause, r = .error (.expectedFile cause) ∧
    after.entry? (expectedPath name) = tree.entry? (expectedPath name)
  /-- This is what happens to all files that hold no text. -/
  notText : ∀ old, tree.entry? (expectedPath name) = some (.file old) →
    Text.decode? old.bytes = none → r = .error (.expectedFile .notText)

section Examples

variable {workspace : Workspace} {tools : Toolchain} {name console : String}
  {t after after' : Tree} {p p' : Progress}
  {r r' : Result} {output output' : List UInt8} {shown : Capture}

/-- Such a result does not hang on other examples. -/
theorem Repairs.eq_of_alike (h : Repairs t name console r after output) (halike : Alike r r') :
    r' = r := by
  refine halike.resolve_right ?_
  rintro ⟨cause, cause', rfl, -⟩
  by_cases hb : Blessable t name console
  · obtain ⟨change, -, hr, -⟩ := h.blessed hb
    cases hr
  · obtain ⟨cause, hr, -⟩ := h.kept hb
    cases hr

/-- Where other examples follow, it is the same. -/
theorem Repairs.followed (h : Repairs t name console r after output)
    (hentry : after'.entry? (expectedPath name) = after.entry? (expectedPath name))
    (houtput : output <:+: output') : Repairs t name console r after' output' where
  accepted := h.accepted
  blessed hb := by
    obtain ⟨change, hchange, hr, ⟨contents, hfile, hbytes⟩, hprinted⟩ := h.blessed hb
    exact ⟨change, hchange, hr, ⟨contents, hentry.trans hfile, hbytes⟩, hprinted.trans houtput⟩
  kept hb := by
    obtain ⟨cause, hr, hkept⟩ := h.kept hb
    exact ⟨cause, hr, hentry.trans hkept⟩
  notText := h.notText

/-- **Running an example that is blessed.** -/
theorem runExample_repairs (hslash : '/' ∉ name.toList)
    (htestsuite : p.tree.entry? testsuite = some .directory)
    (h : (capture workspace tools ⟨name, false⟩).run p = (.ok shown, p')) :
    Repairs p.tree name shown.text ((runExample workspace tools true name).run p).1
      ((runExample workspace tools true name).run p).2.tree
      ((runExample workspace tools true name).run p).2.output := by
  have hcaptured := (captures_iff htestsuite).1 h
  have hsame : ∀ rest, p'.tree.entry? ("testsuite" :: rest) =
      p.tree.entry? ("testsuite" :: rest) := fun rest => hcaptured.entry?_eq hslash (by decide)
  have hfile : p'.tree.entry? (expectedPath name) = p.tree.entry? (expectedPath name) := hsame _
  have hblessable : Blessable p'.tree name shown.text ↔ Blessable p.tree name shown.text :=
    blessable_congr hfile (hsame _)
  have htestsuite' : p'.tree.entry? testsuite = some .directory := (hsame _).trans htestsuite
  rw [run_runExample, h]
  dsimp only
  rw [verdict, if_pos rfl]
  by_cases hb : Blessable p'.tree name shown.text
  · obtain ⟨change, u, hbless, hchange⟩ := bless_of_blessable htestsuite' hb
    rw [hbless]
    exact {
      accepted := iff_of_true rfl (hblessable.1 hb)
      blessed := fun _ => ⟨change, hfile ▸ hchange, rfl, holds_of_bless hbless,
        (List.suffix_append _ _).isInfix⟩
      kept := fun hn => absurd (hblessable.1 hb) hn
      notText := by
        intro old hentry hdecode
        rw [bless_of_not_text (hfile.trans hentry) hdecode] at hbless
        cases hbless }
  · obtain ⟨cause, u, hbless, hkept⟩ := bless_of_not_blessable htestsuite' hb
    have hb' : ¬ Blessable p.tree name shown.text := fun hyes => hb (hblessable.2 hyes)
    rw [hbless]
    exact {
      accepted := iff_of_false Bool.false_ne_true hb'
      blessed := fun hyes => absurd hyes hb'
      kept := fun _ => ⟨cause, rfl, hkept.trans hfile⟩
      notText := by
        intro old hentry hdecode
        rw [bless_of_not_text (hfile.trans hentry) hdecode] at hbless
        cases hbless
        rfl }

end Examples

/-! ### Tests that bless -/

/-- Blessing an example in a test is exact, if its run is complete. -/
structure ExactBlessing (workspace : Workspace) (tools : Toolchain) (tree : Tree)
    (outcome : Outcome) (run : Visit) (r : String × Result) : Prop where
  /-- It is the result of this example. -/
  name : r.1 = run.name
  /-- The example is as it would be on its own. -/
  repairs : ∀ {shown : Capture} {after : Progress},
    (capture workspace (tools.after run.earlier) ⟨run.name, false⟩).run ⟨tree, [], [], []⟩ =
      (.ok shown, after) →
    Repairs tree run.name shown.text r.2 outcome.progress.tree outcome.progress.output

/-- **What a test that blesses repairs.** Of the examples whose runs are complete, it accepts those
whose expected files can be blessed, and these hold what the consoles show from then on. The others
fail, and their expected files stay as they are. -/
theorem test_repairs {tree : Tree} {files : List String} (workspace : Workspace)
    (tools : Toolchain) (filter : Option String)
    (hlist : tree.list (testsuite ++ ["examples"]) = .ok files)
    (hslash : ∀ file ∈ files, '/' ∉ file.toList) :
    List.Forall₂
      (ExactBlessing workspace tools tree (perform workspace tools tree (.test filter true)))
      (visits workspace tools true tree [] (selecting filter (stems files)))
      (perform workspace tools tree (.test filter true)).results := by
  have hselected := selected_eq filter hlist
  have hruns := (runTests_selected workspace tools true filter hlist hslash).1
  have hresults := results_perform_test workspace tools true hselected
  obtain ⟨text, hprogress⟩ := progress_perform_test workspace tools true hselected
  rw [hresults]
  refine ((List.forall₂_and_left _ _).2 ⟨fun _ hrun => hrun, hruns.results⟩).imp ?_
  rintro run r ⟨hrun, hname, halike⟩
  refine ⟨hname, fun {shown after} h => ?_⟩
  -- Later examples keep the file, and what has been printed stays printed.
  have hentry := (hruns.trees run hrun).owned _ (owns_expectedPath _)
  have hprinted := (Visit.infix_output workspace hrun).trans
    (hruns.output ▸ (List.suffix_append _ _).isInfix)
  obtain ⟨earlier, name, hmem, rfl⟩ := mem_visits hrun
  have halone := runExample_repairs (slashless_of_selected hslash name hmem)
    (testsuite_of_list hlist) h
  rw [halone.eq_of_alike halike, hprogress]
  exact halone.followed hentry (hprinted.trans (List.prefix_append _ _).isInfix)

/-- A project with two examples, whose expected files hold a byte that is no text, and another text
than the example shows. -/
def soiledProject : Tree :=
  .directory [("testsuite", .directory [
    ("examples", .directory [("one.rs", .file (.ofText "")), ("two.rs", .file (.ofText ""))]),
    ("expected", .directory [("one.expected", .file ⟨[0xff], none⟩),
      ("two.expected", .file (.ofText "ho"))])])]

/-- Both examples say hi. -/
def politeTools : Script where
  scenes := [("one", loggingScene "ok" [1, 0] [0x68, 0x69]),
    ("two", loggingScene "ok" [1, 0] [0x68, 0x69])]

theorem test_repairs_soiled :
    soiledProject.list (testsuite ++ ["examples"]) = .ok ["one.rs", "two.rs"] ∧
      (∀ file ∈ ["one.rs", "two.rs"], '/' ∉ file.toList) ∧
      ((capture ⟨"", ""⟩ politeTools.tools ⟨"two", false⟩).run
        ⟨soiledProject, [], [], []⟩).1.toOption.map Capture.text = some "hi" ∧
      Blessable soiledProject "two" "hi" ∧
      List.Forall₂
        (ExactBlessing ⟨"", ""⟩ politeTools.tools soiledProject
          (perform ⟨"", ""⟩ politeTools.tools soiledProject (.test none true)))
        (visits ⟨"", ""⟩ politeTools.tools true soiledProject []
          (selecting none (stems ["one.rs", "two.rs"])))
        (perform ⟨"", ""⟩ politeTools.tools soiledProject (.test none true)).results := by
  have hshort : Tree.Short (expectedPath "two") := by
    unfold Tree.Short
    decide
  exact ⟨rfl, by decide, by decide +kernel, .inr ⟨⟨"ho", rfl⟩, hshort⟩,
    test_repairs _ _ none rfl (by decide)⟩

/-- **A file that holds no text is not repaired.** Both runs are complete and show a text, but only
the second example is blessed. -/
theorem soiled_file_kept :
    ((capture ⟨"", ""⟩ politeTools.tools ⟨"one", false⟩).run
        ⟨soiledProject, [], [], []⟩).1.toOption.map Capture.text = some "hi" ∧
      let outcome := perform ⟨"", ""⟩ politeTools.tools soiledProject (.test none true)
      outcome.results =
          [("one", .error (.expectedFile .notText)), ("two", .ok (.blessed .updated))] ∧
        outcome.progress.tree.entry? (expectedPath "one") = some (.file ⟨[0xff], none⟩) ∧
        outcome.exitCode = 1 := by
  have hlist : soiledProject.list (testsuite ++ ["examples"]) = .ok ["one.rs", "two.rs"] := rfl
  have hselected : selected soiledProject none = .ok ["one", "two"] :=
    selected_of_pairwise hlist (by decide)
  refine ⟨by decide +kernel, ?_⟩
  rw [perform_test _ _ _ hselected (by decide)]
  decide +kernel

end PolledUart.Tasks

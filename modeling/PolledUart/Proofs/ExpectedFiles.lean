import PolledUart.Proofs.RouteChanges
import PolledUart.Proofs.Verdicts
import PolledUart.Tasks.CommandLine

/-!
# The expected files change by blessing

The build tool writes an image, and only blessing writes what is expected. An example of a test has
the name of a file, so its image stands below `target`, and a test changes an expected file only if
it blesses an example whose run is complete. The name that `qemu` is given may be a route to
anywhere, though, the expected files included.

* `verdict_expected`, `Visits.expected` — what an example of a test changes.
* `runTests_expected` — what all of them change.
* `expected_files_kept` — what the program changes.
-/

namespace PolledUart.Tasks

/-! ### Blessing -/

/-- What blessing an example does to a path: its expected file holds a console from then on, or the
directory of the expected files is there, which was not. -/
inductive BlessedAs (name console : String) (path : Path) (before : Option Entry) :
    Option Entry → Prop where
  /-- The expected file is created or rewritten. -/
  | file : path = expectedPath name → before ≠ some .directory →
      BlessedAs name console path before (some (.file (.ofText console)))
  /-- The directory is created. -/
  | directory : path = expectedDirectory → before = none →
      BlessedAs name console path before (some .directory)

section Bless

variable {name name' console console' : String} {path : Path} {e e' e'' : Option Entry}

theorem expectedPath_ne_expectedDirectory (name : String) :
    expectedPath name ≠ expectedDirectory := by
  simp [expectedPath]

theorem expectedPath_injective (h : expectedPath name = expectedPath name') : name = name' :=
  (owns_expectedPath name).unique (h ▸ owns_expectedPath name')

/-- One path is blessed for one example only. -/
theorem BlessedAs.unique (h : BlessedAs name console path e e')
    (h' : BlessedAs name' console' path e' e'') : name = name' := by
  cases h with
  | file hpath _ =>
    cases h' with
    | file hpath' _ => exact expectedPath_injective (hpath.symm.trans hpath')
    | directory _ hnone => cases hnone
  | directory hpath _ =>
    cases h' with
    | file hpath' _ => exact absurd (hpath'.symm.trans hpath) (expectedPath_ne_expectedDirectory _)
    | directory _ hnone => cases hnone

theorem writeExpected_expected (t : Tree) (name console : String) (change : Change)
    (path : Path) :
    Tree.entry? (writeExpected t name console change).2 path = t.entry? path ∨
      path = expectedPath name ∧ Tree.entry? (writeExpected t name console change).2 path =
        some (.file (.ofText console)) := by
  unfold writeExpected
  split
  · rename_i hwrite
    rw [Tree.entry?_write hwrite]
    split
    · rename_i hq
      exact .inr ⟨hq, rfl⟩
    · exact .inl rfl
  · exact .inl rfl

/-- **Blessing an example** changes its expected file, for which it may create the directory. -/
theorem bless_expected (t : Tree) (name console : String) (hpath : expectedDirectory <+: path) :
    Tree.entry? (bless t name console).2 path = t.entry? path ∨
      BlessedAs name console path (t.entry? path) (Tree.entry? (bless t name console).2 path) := by
  unfold bless
  split
  · cases hread : t.readText (expectedPath name) with
    | error e => exact .inl rfl
    | ok old =>
      obtain ⟨contents, hentry, -⟩ := Tree.readText_eq_ok_iff.1 hread
      dsimp only
      split
      · exact .inl rfl
      · refine (writeExpected_expected t name console .updated path).imp_right fun ⟨hq, hfile⟩ => ?_
        rw [hfile]
        exact .file hq (by simp [hq, hentry])
  · rename_i hcontains
    cases hmade : t.makeDirectories expectedDirectory with
    | error e => exact .inl rfl
    | ok made =>
      dsimp only
      rcases writeExpected_expected made name console .created path with hkept | ⟨hq, hfile⟩
      · rw [hkept]
        refine (Tree.laid_of_makeDirectories hmade path).imp_right fun ⟨hbefore, hdir, hway⟩ => ?_
        rw [hdir]
        exact .directory (hway.eq_of_length_le hpath.length_le) hbefore
      · have hnone : t.entry? path = none := by simpa [hq, Tree.contains] using hcontains
        rw [hfile]
        exact .inr (.file hq (by simp [hnone]))

/-- Judging changes nothing. -/
theorem verdict_expected (blessing : Bool) (t : Tree) (name console : String)
    (hpath : expectedDirectory <+: path) :
    Tree.entry? (verdict blessing t name console).2 path = t.entry? path ∨
      blessing = true ∧ BlessedAs name console path (t.entry? path)
        (Tree.entry? (verdict blessing t name console).2 path) := by
  cases blessing with
  | true => exact (bless_expected t name console hpath).imp_right fun hblessed => ⟨rfl, hblessed⟩
  | false => exact .inl rfl

end Bless

/-! ### Runs of examples -/

section Runs

variable {workspace : Workspace} {tools : Toolchain} {blessing : Bool} {name : String}
  {names : List String} {path : Path} {p p' : Progress}

/-- **An example of a test** changes nothing that is expected unless it is blessed, and it is
blessed when its run is complete. -/
theorem Visits.expected {r : Result} (hslash : '/' ∉ name.toList)
    (h : Visits workspace tools blessing name p r p') (hpath : expectedDirectory <+: path) :
    p'.tree.entry? path = p.tree.entry? path ∨
      blessing = true ∧ ∃ shown p₁, Captures workspace tools ⟨name, false⟩ p (.ok shown) p₁ ∧
        BlessedAs name shown.text path (p.tree.entry? path) (p'.tree.entry? path) := by
  have hcaptured : ∀ {shown : Except Failure Capture} {p₁ : Progress},
      Captures workspace tools ⟨name, false⟩ p shown p₁ →
        p₁.tree.entry? path = p.tree.entry? path := by
    obtain ⟨rest, rfl⟩ := hpath
    exact fun hcaptures => hcaptures.entry?_eq hslash (by decide)
  cases h with
  | failed hcaptures => exact .inl (hcaptured hcaptures)
  | @unsettled shown p₁ _ _ hcaptures hverdict | @settled shown p₁ _ _ hcaptures hverdict =>
    have hcases := verdict_expected blessing p₁.tree name shown.text hpath
    rw [hverdict, hcaptured hcaptures] at hcases
    exact hcases.imp_right fun ⟨hblessing, hblessed⟩ =>
      ⟨hblessing, shown, p₁, hcaptures, hblessed⟩

/-- In a test that blesses, the run of an example is complete: the test comes to it, it is built and
runs, its log can be decoded, and this is what it shows. -/
inductive Completes (workspace : Workspace) (tools : Toolchain) :
    List String → Progress → String → Capture → Prop where
  /-- It is the first one. -/
  | here {name : String} {rest : List String} {p p' : Progress} {shown : Capture} :
      Captures workspace tools ⟨name, false⟩ (p.say s!"\n=== Test: {name} ===\n") (.ok shown) p' →
      Completes workspace tools (name :: rest) p name shown
  /-- It comes after one that is not fatal. -/
  | later {first name : String} {rest : List String} {p p' : Progress} {r : Result}
      {shown : Capture} :
      (runExample workspace tools true first).run (p.say s!"\n=== Test: {first} ===\n") = (r, p') →
      isFatal r = false →
      Completes workspace tools rest (p'.say (Result.report workspace r)) name shown →
      Completes workspace tools (first :: rest) p name shown

theorem Completes.mem {workspace : Workspace} {shown : Capture}
    (h : Completes workspace tools names p name shown) : name ∈ names := by
  induction h with
  | here _ => exact List.mem_cons_self
  | later _ _ _ ih => exact List.mem_cons_of_mem _ ih

/-- **The examples of a test** change nothing that is expected but by blessing, and no path twice. -/
theorem runTests_expected (workspace : Workspace) (tools : Toolchain) (blessing : Bool)
    (htestsuite : p.tree.entry? testsuite = some .directory) (hnodup : names.Nodup)
    (hslash : ∀ name ∈ names, '/' ∉ name.toList) (hpath : expectedDirectory <+: path) :
    Tree.entry? ((runTests workspace tools blessing names).run p).2.tree path =
        p.tree.entry? path ∨
      blessing = true ∧ ∃ name shown, Completes workspace tools names p name shown ∧
        BlessedAs name shown.text path (p.tree.entry? path)
          (Tree.entry? ((runTests workspace tools blessing names).run p).2.tree path) := by
  induction names generalizing p with
  | nil => exact .inl rfl
  | cons first rest ih =>
    obtain ⟨hfirst, hrest⟩ := List.nodup_cons.1 hnodup
    obtain ⟨hslash₁, hslash₂⟩ := List.forall_mem_cons.1 hslash
    rcases hrun : (runExample workspace tools blessing first).run
      (p.say s!"\n=== Test: {first} ===\n") with ⟨r, q⟩
    have htestsuite₁ : (p.say s!"\n=== Test: {first} ===\n").tree.entry? testsuite = _ :=
      htestsuite
    have hvisit := (visits_iff htestsuite₁).1 hrun
    have hone := hvisit.expected hslash₁ hpath
    rw [Progress.tree_say] at hone
    rw [runTests_cons, hrun]
    dsimp only
    cases hfatal : isFatal r with
    | true =>
      rw [if_pos rfl]
      exact hone.imp_right fun ⟨hblessing, shown, _, hcaptures, hblessed⟩ =>
        ⟨hblessing, first, shown, .here hcaptures, hblessed⟩
    | false =>
      have htestsuite₂ : q.tree.entry? testsuite = some .directory :=
        (hvisit.grows hslash₁).directory not_owns_testsuite htestsuite₁
      have hothers := ih (p := q.say (Result.report workspace r)) htestsuite₂ hrest hslash₂
      rw [Progress.tree_say] at hothers
      rw [if_neg Bool.false_ne_true]
      rcases hothers with hkept | ⟨rfl, name, shown, hcompletes, hblessed⟩
      · rw [hkept]
        exact hone.imp_right fun ⟨hblessing, shown, _, hcaptures, hblessed⟩ =>
          ⟨hblessing, first, shown, .here hcaptures, hblessed⟩
      · rcases hone with hkept | ⟨-, shown', _, -, hblessed'⟩
        · rw [hkept] at hblessed
          exact .inr ⟨rfl, name, shown, .later hrun hfatal hcompletes, hblessed⟩
        · -- An example that comes later has another name, so it blesses another path.
          exact absurd (hblessed'.unique hblessed ▸ hcompletes.mem) hfirst

end Runs

/-! ### Commands -/

section Commands

variable {workspace : Workspace} {tools : Toolchain} {tree : Tree} {path : Path}
  {arguments : List String}

/-- Without its directory, the build tool is not started. -/
theorem tree_capture_cases (workspace : Workspace) (tools : Toolchain) (job : Job) (p : Progress) :
    ((capture workspace tools job).run p).2.tree = p.tree ∨
      ∃ run image, tools.build p.calls job = .ok run ∧ run.image = some image ∧
        ((capture workspace tools job).run p).2.tree =
          install (tools.home workspace) p.tree (builtImage job.buildArguments) image := by
  cases hlist : p.tree.list testsuite with
  | ok names =>
    have hcaptures : Captures workspace tools job p _ _ :=
      (captures_iff (Tree.exists_list_iff.1 ⟨names, hlist⟩)).1 rfl
    exact hcaptures.tree_cases
  | error cause =>
    have hlist' : (p.building job).tree.list testsuite = .error cause := hlist
    have hbuild : (build workspace tools job).run (p.building job) =
        (.error (.buildNotStarted cause), p.building job) := by
      unfold build
      rw [Task.run_bind, Task.run_get]
      dsimp only
      rw [hlist']
      rfl
    rw [run_capture, hbuild]
    exact .inl rfl

/-- **Running an example by its name** changes nothing that is expected, unless the name has a slash
and the image is built there. -/
theorem performEmulate_expected (workspace : Workspace) (tools : Toolchain) (tree : Tree)
    (job : Job) (hpath : expectedDirectory <+: path) :
    (performEmulate workspace tools job ⟨tree, [], [], []⟩).progress.tree.entry? path =
        tree.entry? path ∨
      '/' ∈ job.name.toList ∧ ∃ run image, tools.build [] job = .ok run ∧ run.image = some image ∧
        job.image.WrittenAs (tools.home workspace) image path (tree.entry? path)
          ((performEmulate workspace tools job ⟨tree, [], [], []⟩).progress.tree.entry? path) := by
  have hprogress : (performEmulate workspace tools job ⟨tree, [], [], []⟩).progress.tree =
      ((capture workspace tools job).run ⟨tree, [], [], []⟩).2.tree := by
    unfold performEmulate
    rcases (capture workspace tools job).run ⟨tree, [], [], []⟩ with ⟨failure | shown, p⟩ <;> rfl
  rw [hprogress]
  rcases tree_capture_cases workspace tools job ⟨tree, [], [], []⟩ with
    hsame | ⟨run, image, hrun, himage, hinstalled⟩
  · exact .inl (congrArg (Tree.entry? · path) hsame)
  · rw [hinstalled]
    by_cases hslash : '/' ∈ job.name.toList
    · have hplace : builtImage job.buildArguments = job.image :=
        builtImage_buildArguments (fun h => absurd (h ▸ hslash) (by decide))
          (fun h => absurd (h ▸ hslash) (by decide))
      rw [hplace]
      exact (Tree.entry?_install_cases _ tree job.image image path).imp_right fun hwritten =>
        ⟨hslash, run, image, hrun, himage, hwritten⟩
    · obtain ⟨rest, rfl⟩ := hpath
      exact .inl (Tree.entry?_install_builtImage _ job image hslash (by decide))

/-- How it comes that a path of the expected files leads to what it does after a run of the
program. -/
inductive Accounts (workspace : Workspace) (tools : Toolchain) (tree : Tree)
    (arguments : List String) (path : Path) (after : Option Entry) : Prop where
  /-- It has been so before. -/
  | kept : after = tree.entry? path → Accounts workspace tools tree arguments path after
  /-- A test blesses it for a selected example whose run is complete. -/
  | blessed {filter : Option String} {names : List String} {name : String} {shown : Capture} :
      Invocation.parse arguments = .run (.test filter true) →
      selected tree filter = .ok names → name ∈ names →
      Completes workspace tools names ⟨tree, [], [], []⟩ name shown →
      BlessedAs name shown.text path (tree.entry? path) after →
      Accounts workspace tools tree arguments path after
  /-- An example is run whose name is a route, and its image is built there. -/
  | built {job : Job} {run : BuildRun} {image : File} :
      Invocation.parse arguments = .run (.emulate job) → '/' ∈ job.name.toList →
      tools.build [] job = .ok run → run.image = some image →
      job.image.WrittenAs (tools.home workspace) image path (tree.entry? path) after →
      Accounts workspace tools tree arguments path after

theorem tree_runProgram {command : Command}
    (h : Invocation.parse arguments = .run command) :
    (runProgram workspace tools tree arguments).tree =
      (perform workspace tools tree command).progress.tree := by
  rw [runProgram, h]

/-- **The expected files change by blessing a complete run**, whose console the file of the example
then holds, and by nothing else that a test does; the names of its files have no slashes. Apart from
a test, only an image comes to stand among them, and only if slashes in the name of its example lead
there. -/
theorem expected_files_kept (workspace : Workspace) (tools : Toolchain) (tree : Tree)
    (arguments : List String)
    (hslash : ∀ files, tree.list (testsuite ++ ["examples"]) = .ok files →
      ∀ file ∈ files, '/' ∉ file.toList)
    (hpath : expectedDirectory <+: path) :
    Accounts workspace tools tree arguments path
      ((runProgram workspace tools tree arguments).tree.entry? path) := by
  cases hparse : Invocation.parse arguments with
  | refused =>
    refine .kept ?_
    rw [runProgram, hparse]
  | help topic =>
    refine .kept ?_
    rw [runProgram, hparse]
  | run command =>
    rw [tree_runProgram hparse]
    cases command with
    | emulate job =>
      rcases performEmulate_expected workspace tools tree job hpath with
        hkept | ⟨hname, run, image, hrun, himage, hwritten⟩
      · exact .kept hkept
      · exact .built hparse hname hrun himage hwritten
    | test filter blessing =>
      cases hlist : tree.list (testsuite ++ ["examples"]) with
      | error cause =>
        have hselected : selected tree filter = .error (.unreadableExamples cause) := by
          rw [selected, hlist]
          rfl
        refine .kept ?_
        unfold perform performTest
        dsimp only
        rw [hselected]
      | ok files =>
        have hselected := selected_eq filter hlist
        obtain ⟨text, hprogress⟩ := progress_perform_test workspace tools blessing hselected
        have htests := runTests_expected workspace tools blessing (p := ⟨tree, [], [], []⟩)
          (testsuite_of_list hlist)
          ((selecting_sublist filter _).nodup (nodup_stems (Tree.nodup_of_list hlist)))
          (slashless_of_selected (hslash files hlist)) hpath
        rw [hprogress, Progress.tree_say]
        rcases htests with hkept | ⟨rfl, name, shown, hcompletes, hblessed⟩
        · exact .kept hkept
        · exact .blessed hparse hselected hcompletes.mem hcompletes hblessed

/-- A test blesses the first example, whose console is no text. -/
theorem expected_files_kept_of_mangled :
    (∀ files, twoExamples.list (testsuite ++ ["examples"]) = .ok files →
        ∀ file ∈ files, '/' ∉ file.toList) ∧
      expectedDirectory <+: expectedPath "one" ∧
      twoExamples.entry? (expectedPath "one") = none ∧
      (runProgram ⟨"", ""⟩ manglingTools.tools twoExamples ["test", "--bless"]).tree.entry?
        (expectedPath "one") = some (.file (.ofText "\uFFFD")) ∧
      Accounts ⟨"", ""⟩ manglingTools.tools twoExamples ["test", "--bless"] (expectedPath "one")
        ((runProgram ⟨"", ""⟩ manglingTools.tools twoExamples ["test", "--bless"]).tree.entry?
          (expectedPath "one")) := by
  have hslash : ∀ files, twoExamples.list (testsuite ++ ["examples"]) = .ok files →
      ∀ file ∈ files, '/' ∉ file.toList := by
    intro files hlist
    have hfiles : ["one.rs", "two.rs"] = files := Except.ok.inj hlist
    rw [← hfiles]
    decide
  have hparse : Invocation.parse ["test", "--bless"] = .run (.test none true) := by decide
  refine ⟨hslash, List.prefix_append _ _, by decide, ?_,
    expected_files_kept _ _ _ _ hslash (List.prefix_append _ _)⟩
  rw [tree_runProgram hparse, perform_test _ _ _ selected_twoExamples (by decide)]
  decide +kernel

/-- Whatever it is asked for, an image is built, and it runs. -/
def obligingTools : Script where
  scenes := [("*", loggingScene "ok" [1, 0] [])]

/-- An image that is built where a name with slashes leads may replace an expected file. -/
theorem expected_replaced_by_image :
    ¬ ∀ path, expectedDirectory <+: path →
      (runProgram ⟨"", ""⟩ obligingTools.tools twoExamples
        ["qemu", "../../../../testsuite/expected/two.expected"]).tree.entry? path =
          twoExamples.entry? path := by
  intro h
  exact absurd (h (expectedPath "two") (List.prefix_append _ _)) (by decide +kernel)

end Commands

end PolledUart.Tasks

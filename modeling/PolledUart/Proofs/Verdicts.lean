import PolledUart.Proofs.TestRuns

/-!
# Verdicts

The expected file of an example holds text, and it is compared with what the console shows as
text. Where the console received text, these are its bytes; other bytes are shown with
replacements, and it is their text that the file has to hold.

* `Captures.entry?_eq` — building and running an example changes nothing outside of `target`.
* `judge_eq_passed_iff` — which consoles pass.
* `test_verdicts` — which examples of a test pass.
-/

namespace PolledUart.Tasks

/-- The file at a path holds some bytes. -/
def Tree.Holds (tree : Tree) (path : Path) (bytes : List UInt8) : Prop :=
  ∃ contents, tree.entry? path = some (.file contents) ∧ contents.bytes = bytes

/-! ### What a run leaves alone -/

section Alone

variable {workspace : Workspace} {tools : Toolchain} {name first : String} {rest : Path} {t : Tree}
  {p p' : Progress}

/-- Images stand below `target`. -/
theorem Tree.entry?_install_builtImage (home : Path) (job : Job) (image : File)
    (hslash : '/' ∉ job.name.toList) (hfirst : first ≠ "target") :
    Tree.entry? (install home t (builtImage job.buildArguments) image) (first :: rest) =
      t.entry? (first :: rest) := by
  have htext : '/' ∉ (builtImage job.buildArguments).text.toList := by rwa [text_builtImage]
  by_cases hf : t.Fits (builtImage job.buildArguments)
  · rw [entry?_install home htext hf, if_neg, if_neg]
    · intro hway
      exact hfirst (List.cons_prefix_cons.1 hway).1
    · intro heq
      exact hfirst (List.cons.inj heq).1
  · rw [install_of_not_fits home htext hf]

/-- **Building and running an example** changes nothing outside of `target`. -/
theorem Captures.entry?_eq {job : Job} {r : Except Failure Capture} (hslash : '/' ∉ job.name.toList)
    (h : Captures workspace tools job p r p') (hfirst : first ≠ "target") :
    p'.tree.entry? (first :: rest) = p.tree.entry? (first :: rest) := by
  rcases h.tree_cases with hsame | ⟨run, image, -, -, hinstalled⟩
  · rw [hsame]
  · rw [hinstalled]
    exact Tree.entry?_install_builtImage _ job image hslash hfirst

end Alone

/-! ### Judging -/

section Judging

variable {workspace : Workspace} {tools : Toolchain} {name console : String} {t : Tree}
  {p p' : Progress} {shown : Capture}

theorem contains_of_holds {path : Path} {bytes : List UInt8} (h : t.Holds path bytes) :
    t.contains path = true := by
  obtain ⟨contents, hentry, -⟩ := h
  exact Option.isSome_iff_exists.2 ⟨_, hentry⟩

theorem judge_of_holds (h : t.Holds (expectedPath name) (Text.encode console)) :
    judge t name console = .ok .passed := by
  rw [judge, if_pos (contains_of_holds h), Tree.readText_eq_ok_iff.2 h]
  simp [bind, Except.bind, pure, Except.pure]

/-- No verdict but one accepts an example, and that one needs the file. -/
theorem holds_of_judge {v : Verdict} (h : judge t name console = .ok v) (hv : v.accepted = true) :
    t.Holds (expectedPath name) (Text.encode console) := by
  unfold judge at h
  split at h
  · cases hread : t.readText (expectedPath name) with
    | error e => simp [hread, bind, Except.bind] at h
    | ok expected =>
      by_cases hsame : expected = console
      · exact Tree.readText_eq_ok_iff.1 (hsame ▸ hread)
      · simp only [hread, bind, Except.bind, pure, Except.pure, if_neg hsame,
          Except.ok.injEq] at h
        subst h
        cases hv
  · cases h
    cases hv

/-- **An example passes** exactly if its expected file holds what its console shows. -/
theorem accepted_runExample (hslash : '/' ∉ name.toList)
    (htestsuite : p.tree.entry? testsuite = some .directory)
    (h : (capture workspace tools ⟨name, false⟩).run p = (.ok shown, p')) :
    accepted ((runExample workspace tools false name).run p).1 = true ↔
      p.tree.Holds (expectedPath name) (Text.encode shown.text) := by
  have hsame : p'.tree.Holds (expectedPath name) (Text.encode shown.text) ↔
      p.tree.Holds (expectedPath name) (Text.encode shown.text) := by
    unfold Tree.Holds
    have hcaptured := (captures_iff htestsuite).1 h
    have hentry : p'.tree.entry? (expectedPath name) = p.tree.entry? (expectedPath name) :=
      hcaptured.entry?_eq hslash (by decide)
    rw [hentry]
  rw [← hsame, run_runExample, h]
  dsimp only
  rw [verdict, if_neg Bool.false_ne_true]
  cases hjudge : judge p'.tree name shown.text with
  | error cause =>
    constructor
    · nofun
    · intro hholds
      cases hjudge.symm.trans (judge_of_holds hholds)
  | ok v =>
    constructor
    · exact holds_of_judge hjudge
    · intro hholds
      cases hjudge.symm.trans (judge_of_holds hholds)
      rfl

end Judging

/-! ### The verdicts of a test -/

/-- The result of an example that is run through is exact. -/
structure ExactVerdict (workspace : Workspace) (tools : Toolchain) (tree : Tree) (run : Visit)
    (r : String × Result) : Prop where
  /-- It is the result of this example. -/
  name : r.1 = run.name
  /-- It is accepted exactly if the file holds the text of the console. -/
  text : ∀ {shown : Capture} {after : Progress},
    (capture workspace (tools.after run.earlier) ⟨run.name, false⟩).run ⟨tree, [], [], []⟩ =
      (.ok shown, after) →
    (accepted r.2 = true ↔ tree.Holds (expectedPath run.name) (Text.encode shown.text))
  /-- For a console that received text, this means that the file holds its bytes. -/
  bytes : ∀ {shown : Capture} {after : Progress} {text : String},
    (capture workspace (tools.after run.earlier) ⟨run.name, false⟩).run ⟨tree, [], [], []⟩ =
      (.ok shown, after) →
    Text.decode? shown.console = some text →
    (accepted r.2 = true ↔ tree.Holds (expectedPath run.name) shown.console)

/-- **The verdicts of a test** are exact. -/
theorem test_verdicts {tree : Tree} {files : List String} (workspace : Workspace)
    (tools : Toolchain) (filter : Option String)
    (hlist : tree.list (testsuite ++ ["examples"]) = .ok files)
    (hslash : ∀ file ∈ files, '/' ∉ file.toList) :
    List.Forall₂ (ExactVerdict workspace tools tree)
      (visits workspace tools false tree [] (selecting filter (stems files)))
      (perform workspace tools tree (.test filter false)).results := by
  have htestsuite := testsuite_of_list hlist
  have hruns := (runTests_selected workspace tools false filter hlist hslash).1.results
  rw [results_perform_test _ _ _ (selected_eq filter hlist)]
  refine ((List.forall₂_and_left _ _).2 ⟨fun _ hrun => hrun, hruns⟩).imp ?_
  rintro run r ⟨hrun, hname, halike⟩
  obtain ⟨earlier, name, hselected, rfl⟩ := mem_visits hrun
  have htext : ∀ {shown : Capture} {after : Progress},
      (capture workspace (tools.after earlier) ⟨name, false⟩).run ⟨tree, [], [], []⟩
        = (.ok shown, after) →
      (accepted r.2 = true ↔ tree.Holds (expectedPath name) (Text.encode shown.text)) := by
    intro shown after h
    rw [halike.accepted_eq]
    exact accepted_runExample (slashless_of_selected hslash name hselected) htestsuite h
  refine ⟨hname, htext, ?_⟩
  intro shown after text h hdecode
  rw [htext h, Capture.text, Text.decodeLossy_of_decode? hdecode, Text.encode_of_decode? hdecode,
    name_runAlone]

/-- A project with two examples, where the first one is expected to show a replacement, and the
second one to say hi. -/
def mangledProject : Tree :=
  .directory [("testsuite", .directory [
    ("examples", .directory [("one.rs", .file (.ofText "")), ("two.rs", .file (.ofText ""))]),
    ("expected", .directory [("one.expected", .file ⟨[0xef, 0xbf, 0xbd], none⟩),
      ("two.expected", .file ⟨[0x68, 0x69], none⟩)])])]

/-- The first example sends a byte that is no text, and the second one says hi. -/
def manglingTools : Script where
  scenes := [("one", loggingScene "ok" [1, 0] [0xff]),
    ("two", loggingScene "ok" [1, 0] [0x68, 0x69])]

theorem test_verdicts_of_mangled :
    mangledProject.list (testsuite ++ ["examples"]) = .ok ["one.rs", "two.rs"] ∧
      (∀ file ∈ ["one.rs", "two.rs"], '/' ∉ file.toList) ∧
      ((capture ⟨"", ""⟩ (manglingTools.tools.after []) ⟨"one", false⟩).run
        ⟨mangledProject, [], [], []⟩).1.toOption.map Capture.console = some [0xff] ∧
      List.Forall₂ (ExactVerdict ⟨"", ""⟩ manglingTools.tools mangledProject)
        (visits ⟨"", ""⟩ manglingTools.tools false mangledProject []
          (selecting none (stems ["one.rs", "two.rs"])))
        (perform ⟨"", ""⟩ manglingTools.tools mangledProject (.test none false)).results :=
  ⟨rfl, by decide, by decide +kernel, test_verdicts _ _ none rfl (by decide)⟩

/-- An example passes whose console has received other bytes than its file holds. -/
theorem mangled_console_passes :
    ((capture ⟨"", ""⟩ manglingTools.tools ⟨"one", false⟩).run
        ⟨mangledProject, [], [], []⟩).1.toOption.map Capture.console = some [0xff] ∧
      ¬ mangledProject.Holds (expectedPath "one") [0xff] ∧
      ((perform ⟨"", ""⟩ manglingTools.tools mangledProject (.test none false)).results.map
        fun r => (r.1, accepted r.2)) = [("one", true), ("two", true)] := by
  refine ⟨by decide +kernel, ?_, ?_⟩
  · rintro ⟨contents, hentry, hbytes⟩
    cases hentry
    cases hbytes
  · have hlist : mangledProject.list (testsuite ++ ["examples"]) = .ok ["one.rs", "two.rs"] := rfl
    have hselected : selected mangledProject none = .ok ["one", "two"] :=
      selected_of_pairwise hlist (by decide)
    rw [perform_test _ _ _ hselected (by decide)]
    decide +kernel

end PolledUart.Tasks

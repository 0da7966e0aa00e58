import PolledUart.Proofs.ExampleIsolation
import PolledUart.Proofs.Selection
import PolledUart.Tasks.Scripted

/-!
# Runs of a test

A test runs the selected examples one after the other. `visits` says what each of them does on
its own, on the project as it was before the test, after the calls of the ones before it. The
test is these, put together: whatever becomes of one example makes no difference to another, and
only a breakdown keeps the rest from being run.

* `runTests_eq_visits` — the examples of a test are run as on their own.
* `test_covers_selected` — which examples a test runs, what it does for each, what it sums up and
  how it ends.
-/

namespace PolledUart.Tasks

/-! ### On its own -/

/-- What an example of a test does on its own. -/
structure Visit where
  /-- The example. -/
  name : String
  /-- The calls that were made before. -/
  earlier : List Call
  /-- What becomes of it. -/
  result : Result
  /-- What is done, printed and changed. -/
  progress : Progress

/-- Runs an example on its own, after some calls. -/
def runAlone (workspace : Workspace) (tools : Toolchain) (blessing : Bool) (tree : Tree)
    (earlier : List Call) (name : String) : Visit :=
  let r := (runExample workspace (tools.after earlier) blessing name).run ⟨tree, [], [], []⟩
  ⟨name, earlier, r.1, r.2⟩

/-- Runs examples, each on its own, up to a breakdown. -/
def visits (workspace : Workspace) (tools : Toolchain) (blessing : Bool) (tree : Tree) :
    List Call → List String → List Visit
  | _, [] => []
  | earlier, name :: rest =>
    let visit := runAlone workspace tools blessing tree earlier name
    visit :: if isFatal visit.result then []
      else visits workspace tools blessing tree (earlier ++ visit.progress.calls) rest

/-- What a test prints about an example. -/
def Visit.output (workspace : Workspace) (visit : Visit) : List UInt8 :=
  Text.encode s!"\n=== Test: {visit.name} ===\n" ++ visit.progress.output ++
    if isFatal visit.result then [] else Text.encode (Result.report workspace visit.result)

theorem Visit.infix_output (workspace : Workspace) {visit : Visit} {visits : List Visit}
    (h : visit ∈ visits) : visit.progress.output <:+: visits.flatMap (·.output workspace) := by
  obtain ⟨before, after, rfl⟩ := List.append_of_mem h
  rw [List.flatMap_append, List.flatMap_cons]
  have hown : visit.progress.output <:+: visit.output workspace := ⟨_, _, rfl⟩
  exact hown.trans ⟨_, _, List.append_assoc _ _ _⟩

/-- An example is built once, and the emulator is started exactly if that went well and a file for
the console can be made. -/
def Staged (tools : Toolchain) (earlier : List Call) (name : String) (calls : List Call)
    (result : Result) : Prop :=
  match tools.build earlier ⟨name, false⟩ with
  | .error cause => calls = [] ∧ result = .error (.buildNotStarted cause)
  | .ok run =>
    if run.exit = some 0 then
      match tools.makeConsole (earlier ++ [.build ⟨name, false⟩]) ⟨name, false⟩ with
      | .error cause =>
        calls = [.build ⟨name, false⟩] ∧ result = .error (.consoleNotMade cause)
      | .ok () =>
        match tools.emulate (earlier ++ [.build ⟨name, false⟩]) ⟨name, false⟩ with
        | .error cause =>
          calls = [.build ⟨name, false⟩] ∧ result = .error (.emulatorNotStarted cause)
        | .ok _ => calls = [.build ⟨name, false⟩, .emulate ⟨name, false⟩]
    else calls = [.build ⟨name, false⟩] ∧ result = .error (.buildFailed name)

/-- The visits, one after the other, come to some results and go from one progress to another. -/
structure PutTogether (workspace : Workspace) (visits : List Visit) (p : Progress)
    (results : List (String × Result)) (p' : Progress) : Prop where
  results : List.Forall₂ (fun visit r => r.1 = visit.name ∧ Alike visit.result r.2) visits results
  calls : p'.calls = p.calls ++ visits.flatMap (·.progress.calls)
  output : p'.output = p.output ++ visits.flatMap (·.output workspace)
  errors : p'.errors = p.errors ++ visits.flatMap (·.progress.errors)
  trees : ∀ visit ∈ visits, Tree.SameFor visit.name visit.progress.tree p'.tree

namespace Alike

variable {r r' : Result}

theorem isFatal_eq (h : Alike r r') : isFatal r' = isFatal r := by
  rcases h with rfl | ⟨_, _, rfl, rfl⟩ <;> rfl

theorem accepted_eq (h : Alike r r') : accepted r' = accepted r := by
  rcases h with rfl | ⟨_, _, rfl, rfl⟩ <;> rfl

theorem report_eq (h : Alike r r') (workspace : Workspace) :
    Result.report workspace r' = Result.report workspace r := by
  rcases h with rfl | ⟨_, _, rfl, rfl⟩ <;> rfl

end Alike

section Visits

variable {workspace : Workspace} {tools : Toolchain} {blessing : Bool} {tree : Tree}
  {earlier : List Call} {name : String} {names done : List String} {p : Progress}

theorem runAlone_visits (htestsuite : tree.entry? testsuite = some .directory) :
    Visits workspace (tools.after earlier) blessing name ⟨tree, [], [], []⟩
      (runAlone workspace tools blessing tree earlier name).result
      (runAlone workspace tools blessing tree earlier name).progress :=
  (visits_iff htestsuite).1 rfl

@[simp] theorem name_runAlone :
    (runAlone workspace tools blessing tree earlier name).name = name := rfl

theorem visits_cons : visits workspace tools blessing tree earlier (name :: names) =
    runAlone workspace tools blessing tree earlier name ::
      if isFatal (runAlone workspace tools blessing tree earlier name).result then []
      else visits workspace tools blessing tree
        (earlier ++ (runAlone workspace tools blessing tree earlier name).progress.calls) names :=
  rfl

theorem runTests_cons : (runTests workspace tools blessing (name :: names)).run p =
    let r := (runExample workspace tools blessing name).run (p.say s!"\n=== Test: {name} ===\n")
    if isFatal r.1 then ([(name, r.1)], r.2)
    else
      let later :=
        (runTests workspace tools blessing names).run (r.2.say (Result.report workspace r.1))
      ((name, r.1) :: later.1, later.2) := by
  rw [runTests]
  show (if isFatal
      ((runExample workspace tools blessing name).run (p.say s!"\n=== Test: {name} ===\n")).1
    then _ else _ : StateM Progress (List (String × Result))).run _ = _
  dsimp only
  split <;> rfl

/-- **The examples of a test** are run as on their own. -/
theorem runTests_eq_visits (htestsuite : tree.entry? testsuite = some .directory)
    (hgrown : Tree.GrownBy done tree p.tree) (hnodup : names.Nodup)
    (hnew : ∀ name ∈ names, name ∉ done) (hslash : ∀ name ∈ names, '/' ∉ name.toList) :
    PutTogether workspace (visits workspace tools blessing tree p.calls names) p
        ((runTests workspace tools blessing names).run p).1
        ((runTests workspace tools blessing names).run p).2 ∧
      Tree.GrownBy names p.tree ((runTests workspace tools blessing names).run p).2.tree := by
  induction names generalizing done p with
  | nil =>
    exact ⟨⟨.nil, (List.append_nil _).symm, (List.append_nil _).symm, (List.append_nil _).symm,
      fun _ h => absurd h List.not_mem_nil⟩, .refl _ _⟩
  | cons name rest ih =>
    obtain ⟨hname, hrest⟩ := List.nodup_cons.1 hnodup
    obtain ⟨hfirst, hothers⟩ := List.forall_mem_cons.1 hslash
    obtain ⟨hnew₁, hnew₂⟩ := List.forall_mem_cons.1 hnew
    have hbeside : Beside name p.calls (p.output ++ Text.encode s!"\n=== Test: {name} ===\n")
        p.errors ⟨tree, [], [], []⟩ (p.say s!"\n=== Test: {name} ===\n") :=
      ⟨hgrown.sameFor hnew₁ htestsuite, (List.append_nil _).symm, (List.append_nil _).symm,
        (List.append_nil _).symm⟩
    have htestsuite' := hbeside.tree.testsuite_right
    have halone : Visits workspace (tools.after p.calls) blessing name ⟨tree, [], [], []⟩ _ _ :=
      runAlone_visits htestsuite
    obtain ⟨r, q, hvisit, halike, hb⟩ := halone.beside hfirst (Toolchain.follow_after _ _ _) hbeside
    have hrun := (visits_iff htestsuite').2 hvisit
    have hgrown₁ := hvisit.grows hfirst
    rw [Progress.tree_say] at hgrown₁
    rw [runTests_cons, hrun, visits_cons]
    dsimp only
    rw [halike.isFatal_eq]
    cases hfatal : isFatal (runAlone workspace tools blessing tree p.calls name).result with
    | true =>
      refine ⟨⟨.cons ⟨rfl, halike⟩ .nil, ?_, ?_, ?_, ?_⟩, hgrown₁.mono (by simp)⟩
      · simpa using hb.calls
      · simp [Visit.output, hfatal, hb.output]
      · simpa using hb.errors
      · rintro visit hvisit
        obtain rfl := List.mem_singleton.1 hvisit
        exact hb.tree
    | false =>
      have hgrown₂ : Tree.GrownBy (name :: done) tree (q.say (Result.report workspace r)).tree :=
        (hgrown.mono fun _ => List.mem_cons_of_mem _).trans (hgrown₁.mono (by simp))
      have hnew' : ∀ other ∈ rest, other ∉ name :: done := fun other hother hmem => by
        rcases List.mem_cons.1 hmem with rfl | hmem
        · exact hname hother
        · exact hnew₂ other hother hmem
      obtain ⟨hlater, hgrown₃⟩ := ih hgrown₂ hrest hnew' hothers
      have hcalls : (q.say (Result.report workspace r)).calls = p.calls ++ _ := hb.calls
      rw [hcalls] at hlater
      simp only [Bool.false_eq_true, if_false]
      refine ⟨⟨.cons ⟨rfl, halike⟩ hlater.results, ?_, ?_, ?_, ?_⟩, ?_⟩
      · rw [hlater.calls, hcalls, List.flatMap_cons, List.append_assoc]
      · rw [hlater.output, List.flatMap_cons, Visit.output, hfatal, if_neg Bool.false_ne_true]
        show q.output ++ Text.encode (Result.report workspace r) ++ _ = _
        rw [hb.output, halike.report_eq, name_runAlone]
        simp only [List.append_assoc]
      · have herrors : (q.say (Result.report workspace r)).errors = p.errors ++ _ := hb.errors
        rw [hlater.errors, herrors, List.flatMap_cons, List.append_assoc]
      · rintro visit hvisit
        rcases List.mem_cons.1 hvisit with rfl | hvisit
        · exact hb.tree.trans (hgrown₃.sameFor hname hb.tree.testsuite_right)
        · exact hlater.trees visit hvisit
      · exact (hgrown₁.mono (by simp)).trans (hgrown₃.mono fun _ => List.mem_cons_of_mem _)

/-! ### What the visits are -/

theorem mem_visits {visit : Visit}
    (h : visit ∈ visits workspace tools blessing tree earlier names) :
    ∃ earlier, ∃ name ∈ names, visit = runAlone workspace tools blessing tree earlier name := by
  induction names generalizing earlier with
  | nil => cases h
  | cons name rest ih =>
    rw [visits_cons] at h
    rcases List.mem_cons.1 h with rfl | h
    · exact ⟨earlier, name, List.mem_cons_self, rfl⟩
    · split at h
      · cases h
      · obtain ⟨earlier', other, hother, heq⟩ := ih h
        exact ⟨earlier', other, List.mem_cons_of_mem _ hother, heq⟩

theorem isFatal_iff {r : Result} : isFatal r = true ↔ r = .error .breakdown := by
  rcases r with failure | v
  · cases failure <;> simp [isFatal, Failure.isFatal]
  · simp [isFatal]

theorem visits_in_order :
    (visits workspace tools blessing tree earlier names).map Visit.name <+: names := by
  induction names generalizing earlier with
  | nil => exact List.nil_prefix
  | cons name rest ih =>
    rw [visits_cons, List.map_cons, name_runAlone]
    refine (List.prefix_cons_inj name).2 ?_
    split
    · exact List.nil_prefix
    · exact ih

/-- Without a breakdown, all examples are run. -/
theorem names_visits
    (h : ∀ visit ∈ visits workspace tools blessing tree earlier names,
      visit.result ≠ .error .breakdown) :
    (visits workspace tools blessing tree earlier names).map Visit.name = names := by
  induction names generalizing earlier with
  | nil => rfl
  | cons name rest ih =>
    rw [visits_cons] at h ⊢
    obtain ⟨hfirst, hothers⟩ := List.forall_mem_cons.1 h
    have hgoes : ¬ isFatal (runAlone workspace tools blessing tree earlier name).result = true :=
      fun hfatal => hfirst (isFatal_iff.1 hfatal)
    rw [if_neg hgoes] at hothers ⊢
    rw [List.map_cons, name_runAlone, ih hothers]

/-- If all are accepted, all examples are run. -/
theorem names_visits_of_accepted
    (h : ∀ visit ∈ visits workspace tools blessing tree earlier names,
      accepted visit.result = true) :
    (visits workspace tools blessing tree earlier names).map Visit.name = names := by
  refine names_visits fun visit hvisit hbreak => ?_
  have hok := h visit hvisit
  rw [hbreak] at hok
  cases hok

/-- **Every example** is built once, and emulated exactly if it has been built. -/
theorem Visits.staged {r : Result} {p' : Progress}
    (h : Visits workspace (tools.after earlier) blessing name ⟨tree, [], [], []⟩ r p') :
    Staged tools earlier name p'.calls r := by
  have hcaptured : ∀ {shown : Except Failure Capture} {p₁ : Progress},
      Captures workspace (tools.after earlier) ⟨name, false⟩ ⟨tree, [], [], []⟩ shown p₁ →
      (∀ failure, shown = .error failure → r = .error failure) →
      Staged tools earlier name p₁.calls r := by
    intro shown p₁ h hr
    cases h <;> simp_all [Staged, Toolchain.after]
  cases h with
  | failed h => exact hcaptured h fun _ heq => by cases heq; rfl
  | unsettled h _ | settled h _ =>
    have hstaged := hcaptured h fun failure heq => by cases heq
    exact hstaged

end Visits

/-! ### Whole tests -/

/-- What a test does with the files among the examples: `names` are the examples that it selects
and `runs` what each does on its own. -/
structure TestCovers (workspace : Workspace) (tools : Toolchain) (filter : Option String)
    (files names : List String) (runs : List Visit) (outcome : Outcome) : Prop where
  /-- Selected are the examples with a source file whose names contain the filter. -/
  selected : ∀ name, name ∈ names ↔
    name ≠ "" ∧ (∃ file ∈ files, file.toList = name.toList ++ extension) ∧
      ∀ part, filter = some part → part.toList <:+: name.toList
  /-- They come in the order of their bytes, each once. -/
  ordered : names.Pairwise fun a b => Text.encode a < Text.encode b
  /-- They are run in this order, -/
  inOrder : runs.map Visit.name <+: names
  /-- all of them, unless there is a breakdown. -/
  all : (∀ run ∈ runs, run.result ≠ .error .breakdown) → runs.map Visit.name = names
  /-- Each is built once, and the emulator is started exactly if that went well and a file for the
  console can be made. -/
  staged : ∀ run ∈ runs, Staged tools run.earlier run.name run.progress.calls run.result
  /-- Each ends as it does on its own, -/
  results : List.Forall₂ (fun run r => r.1 = run.name ∧ Alike run.result r.2) runs outcome.results
  /-- and starts the same tools. -/
  calls : outcome.progress.calls = runs.flatMap (·.progress.calls)
  /-- Each prints the same as on its own, -/
  output : runs.flatMap (·.output workspace) <+: outcome.progress.output
  /-- as do its tools, -/
  errors : outcome.progress.errors = runs.flatMap (·.progress.errors)
  /-- and its files end the same. -/
  kept : ∀ run ∈ runs, ∀ path, Owns run.name path →
    outcome.progress.tree.entry? path = run.progress.tree.entry? path
  /-- The test sums up how many have passed and how many have failed, which together are all. -/
  summary : names ≠ [] → (∀ run ∈ runs, run.result ≠ .error .breakdown) →
    ∃ passed failed, passed = runs.countP (accepted ·.result) ∧ passed + failed = names.length ∧
      outcome.progress.output = runs.flatMap (·.output workspace) ++
        Text.encode s!"\n=== Summary ===\n{passed} passed, {failed} failed\n"
  /-- It ends well exactly if there are examples and each is accepted. -/
  success : outcome.exitCode = 0 ↔ names ≠ [] ∧ ∀ run ∈ runs, accepted run.result = true
  /-- It fails if there are none, and starts no tool then. -/
  nothing : names = [] → outcome.exitCode = 1 ∧ outcome.progress.calls = []
  /-- A breakdown ends the program. -/
  breakdown : (∃ run ∈ runs, run.result = .error .breakdown) → outcome.exitCode = 101

section Covers

variable {workspace : Workspace} {tools : Toolchain} {blessing : Bool} {tree : Tree}
  {filter : Option String} {files names : List String}

theorem slashless_of_selected (hslash : ∀ file ∈ files, '/' ∉ file.toList) :
    ∀ name ∈ selecting filter (stems files), '/' ∉ name.toList := by
  intro name hname hmem
  obtain ⟨-, ⟨file, hfile, heq⟩, -⟩ := mem_selecting_iff.1 hname
  exact hslash file hfile (heq ▸ List.mem_append_left _ hmem)

theorem testsuite_of_list (hlist : tree.list (testsuite ++ ["examples"]) = .ok files) :
    tree.entry? testsuite = some .directory :=
  Tree.directory_above (Tree.exists_list_iff.1 ⟨files, hlist⟩) (List.prefix_append _ _) nofun

/-- The selected examples of a test are run as on their own. -/
theorem runTests_selected (workspace : Workspace) (tools : Toolchain) (blessing : Bool)
    (filter : Option String) (hlist : tree.list (testsuite ++ ["examples"]) = .ok files)
    (hslash : ∀ file ∈ files, '/' ∉ file.toList) :
    PutTogether workspace (visits workspace tools blessing tree [] (selecting filter (stems files)))
        ⟨tree, [], [], []⟩
        ((runTests workspace tools blessing (selecting filter (stems files))).run
          ⟨tree, [], [], []⟩).1
        ((runTests workspace tools blessing (selecting filter (stems files))).run
          ⟨tree, [], [], []⟩).2 ∧
      Tree.GrownBy (selecting filter (stems files)) tree
        ((runTests workspace tools blessing (selecting filter (stems files))).run
          ⟨tree, [], [], []⟩).2.tree :=
  runTests_eq_visits (p := ⟨tree, [], [], []⟩) (testsuite_of_list hlist) (.refl [] _)
    ((selecting_sublist _ _).nodup (nodup_stems (Tree.nodup_of_list hlist)))
    (fun _ _ => List.not_mem_nil) (slashless_of_selected hslash)

section Results

variable {runs : List Visit} {results : List (String × Result)}
  (h : List.Forall₂ (fun run r => r.1 = run.name ∧ Alike run.result r.2) runs results)

include h

theorem countP_results : results.countP (accepted ·.2) = runs.countP (accepted ·.result) := by
  induction h with
  | nil => rfl
  | cons hhead _ ih => simp [List.countP_cons, hhead.2.accepted_eq, ih]

theorem any_results : results.any (isFatal ·.2) = runs.any (isFatal ·.result) := by
  induction h with
  | nil => rfl
  | cons hhead _ ih => simp [hhead.2.isFatal_eq, ih]

theorem forall_results :
    (∀ r ∈ results, accepted r.2 = true) ↔ ∀ run ∈ runs, accepted run.result = true := by
  rw [← List.countP_eq_length, ← List.countP_eq_length, countP_results h, h.length_eq]

end Results

/-- What a test does with the examples that it selects. -/
theorem perform_test (workspace : Workspace) (tools : Toolchain) (blessing : Bool)
    (hselected : Tasks.selected tree filter = .ok names) (hnames : names ≠ []) :
    perform workspace tools tree (.test filter blessing) =
      let r := (runTests workspace tools blessing names).run ⟨tree, [], [], []⟩
      if r.1.any (isFatal ·.2) then ⟨r.1, some .breakdown, r.2⟩
      else
        let passed := r.1.countP (accepted ·.2)
        let failed := r.1.countP (!accepted ·.2)
        ⟨r.1, if failed = 0 then none else some (.testsFailed failed),
          r.2.say s!"\n=== Summary ===\n{passed} passed, {failed} failed\n"⟩ := by
  unfold perform performTest
  dsimp only
  rw [hselected]
  cases names with
  | nil => exact absurd rfl hnames
  | cons name rest => rfl

section Performed

variable (workspace) (tools) (blessing) (hselected : Tasks.selected tree filter = .ok names)

include hselected

theorem perform_test_of_nil (hnames : names = []) :
    perform workspace tools tree (.test filter blessing) =
      ⟨[], some .noTests, ⟨tree, [], [], []⟩⟩ := by
  subst hnames
  unfold perform performTest
  dsimp only
  rw [hselected]

theorem results_perform_test : (perform workspace tools tree (.test filter blessing)).results =
    ((runTests workspace tools blessing names).run ⟨tree, [], [], []⟩).1 := by
  by_cases hnames : names = []
  · rw [perform_test_of_nil _ _ _ hselected hnames, hnames]
    rfl
  · rw [perform_test _ _ _ hselected hnames]
    dsimp only
    split <;> rfl

/-- A test prints no more than a text about its examples when it has run them. -/
theorem progress_perform_test : ∃ text,
    (perform workspace tools tree (.test filter blessing)).progress =
      ((runTests workspace tools blessing names).run ⟨tree, [], [], []⟩).2.say text := by
  have hsay : ∀ p : Progress, p = p.say "" := fun p => by
    show p = { p with output := p.output ++ [] }
    rw [List.append_nil]
  by_cases hnames : names = []
  · rw [perform_test_of_nil _ _ _ hselected hnames, hnames]
    exact ⟨"", hsay _⟩
  · rw [perform_test _ _ _ hselected hnames]
    dsimp only
    split
    · exact ⟨"", hsay _⟩
    · exact ⟨_, rfl⟩

/-- **A test ends well** exactly if there are examples and each is accepted. -/
theorem exitCode_perform_test :
    (perform workspace tools tree (.test filter blessing)).exitCode = 0 ↔ names ≠ [] ∧
      ∀ r ∈ ((runTests workspace tools blessing names).run ⟨tree, [], [], []⟩).1,
        accepted r.2 = true := by
  by_cases hnames : names = []
  · rw [perform_test_of_nil _ _ _ hselected hnames]
    simp [hnames, Outcome.exitCode, Failure.isFatal]
  · rw [perform_test _ _ _ hselected hnames]
    generalize (runTests workspace tools blessing names).run ⟨tree, [], [], []⟩ = r
    dsimp only
    split
    · rename_i hbreak
      obtain ⟨r', hr', hfatal⟩ := List.any_eq_true.1 hbreak
      constructor
      · intro h
        cases h
      · rintro ⟨-, h⟩
        have haccepted := h r' hr'
        rw [isFatal_iff.1 hfatal] at haccepted
        cases haccepted
    · have hcount : r.1.countP (!accepted ·.2) = 0 ↔ ∀ r' ∈ r.1, accepted r'.2 = true := by
        simp [List.countP_eq_zero]
      by_cases hfailed : r.1.countP (!accepted ·.2) = 0
      · simp only [hfailed, Outcome.exitCode, if_true]
        exact ⟨fun _ => ⟨hnames, hcount.1 hfailed⟩, fun _ => trivial⟩
      · simp only [hfailed, Outcome.exitCode, if_false]
        exact ⟨nofun, fun h => absurd (hcount.2 h.2) hfailed⟩

end Performed

/-- **A test covers the selected examples.** Each is run as on its own, in order and once, whatever
becomes of the others, unless decoding a log breaks down; and the test ends well exactly if there
are any and each is accepted. -/
theorem test_covers_selected (workspace : Workspace) (tools : Toolchain) (blessing : Bool)
    (filter : Option String) (hlist : tree.list (testsuite ++ ["examples"]) = .ok files)
    (hslash : ∀ file ∈ files, '/' ∉ file.toList) :
    TestCovers workspace tools filter files (selecting filter (stems files))
      (visits workspace tools blessing tree [] (selecting filter (stems files)))
      (perform workspace tools tree (.test filter blessing)) := by
  have htestsuite := testsuite_of_list hlist
  have hselected := selected_eq filter hlist
  have hruns := (runTests_selected workspace tools blessing filter hlist hslash).1
  have hresults := results_perform_test workspace tools blessing hselected
  obtain ⟨text, hprogress⟩ := progress_perform_test workspace tools blessing hselected
  have hexit := exitCode_perform_test workspace tools blessing hselected
  have hordered := pairwise_selecting filter (Tree.nodup_of_list hlist)
  have hmem : ∀ name, name ∈ selecting filter (stems files) ↔ _ := fun name => mem_selecting_iff
  generalize selecting filter (stems files) = names at *
  have hstaged : ∀ run ∈ visits workspace tools blessing tree [] names,
      Staged tools run.earlier run.name run.progress.calls run.result := by
    intro run hrun
    obtain ⟨earlier, name, -, rfl⟩ := mem_visits hrun
    exact (runAlone_visits htestsuite).staged
  have hall : _ → (visits workspace tools blessing tree [] names).map Visit.name = names :=
    names_visits
  have hnil : names = [] → visits workspace tools blessing tree [] names = [] := fun h => by
    subst h
    rfl
  have hbreak := any_results hruns.results
  exact {
    selected := hmem
    ordered := hordered
    inOrder := visits_in_order
    all := hall
    staged := hstaged
    results := hresults ▸ hruns.results
    calls := by
      rw [hprogress]
      exact hruns.calls
    output := by
      rw [hprogress]
      show _ <+: _ ++ _
      rw [hruns.output]
      exact List.prefix_append _ _
    errors := by
      rw [hprogress]
      exact hruns.errors
    kept := by
      intro run hrun path howns
      rw [hprogress]
      exact (hruns.trees run hrun).owned path howns
    summary := by
      intro hnames hgoes
      have hlast : ¬ ((runTests workspace tools blessing names).run ⟨tree, [], [], []⟩).1.any
          (isFatal ·.2) = true := by
        rw [hbreak, List.any_eq_true]
        rintro ⟨run, hrun, hfatal⟩
        exact hgoes run hrun (isFatal_iff.1 hfatal)
      rw [perform_test _ _ _ hselected hnames]
      dsimp only
      rw [if_neg hlast]
      refine ⟨_, _, countP_results hruns.results, ?_, by
        show _ ++ _ = _
        rw [hruns.output]
        rfl⟩
      have hlength := congrArg List.length (hall hgoes)
      rw [List.length_map, hruns.results.length_eq,
        List.length_eq_countP_add_countP (fun r : String × Result => accepted r.2)] at hlength
      rw [← hlength]
      simp only [Bool.not_eq_true, Bool.decide_eq_false]
    success := hexit.trans (and_congr_right fun _ => forall_results hruns.results)
    nothing := by
      intro h
      rw [perform_test_of_nil _ _ _ hselected h]
      exact ⟨rfl, rfl⟩
    breakdown := by
      rintro ⟨run, hrun, hresult⟩
      have hlast : ((runTests workspace tools blessing names).run ⟨tree, [], [], []⟩).1.any
          (isFatal ·.2) = true := by
        rw [hbreak]
        exact List.any_eq_true.2 ⟨run, hrun, isFatal_iff.2 hresult⟩
      have hnames : names ≠ [] := fun h => List.not_mem_nil (hnil h ▸ hrun)
      rw [perform_test _ _ _ hselected hnames]
      dsimp only
      rw [if_pos hlast]
      rfl }

end Covers

/-! ### Two examples -/

/-- A number in so many bytes, the lowest first. -/
def littleEndian : (size n : Nat) → List UInt8
  | 0, _ => []
  | size + 1, n => UInt8.ofNat n :: littleEndian size (n / 0x100)

/-- Numbers, each in so many bytes. -/
def fields (size : Nat) (numbers : List Nat) : List UInt8 :=
  numbers.flatMap (littleEndian size)

/-- The names of the sections and symbols of an image whose log has one statement, written as raw
frames. Nothing in the text needs to be escaped. -/
def firmwareNames (text : String) : List String :=
  [".defmt", ".symtab", ".strtab", "_defmt_version_ = 4", "_defmt_encoding_ = raw",
    "\x7b\"package\":\"fw\",\"tag\":\"defmt_info\",\"data\":\"" ++ text
      ++ "\",\"disambiguator\":\"1\",\"crate_name\":\"fw\"\x7d"]

/-- The place of a name in the table of the names. -/
def nameOffset (text : String) (index : Nat) : Nat :=
  1 + (((firmwareNames text).take index).map (·.utf8ByteSize + 1)).sum

/-- A symbol of the log section. -/
def firmwareSymbol (text : String) (name address : Nat) : List UInt8 :=
  fields 4 [nameOffset text name, address, 1] ++ [0x11, 0] ++ fields 2 [1]

/-- The bytes of such an image, as they are laid out in an object file: the header, the log section,
the symbols, the names, and the headers of the sections. -/
def firmware (text : String) : List UInt8 :=
  let names := 0 :: (firmwareNames text).flatMap fun name => Text.encode name ++ [0]
  let names := names ++ List.replicate (3 - (names.length + 3) % 4) 0
  let symbols := List.replicate 16 0 ++ firmwareSymbol text 3 2 ++ firmwareSymbol text 4 3
    ++ firmwareSymbol text 5 1
  let sections := List.replicate 40 0
    ++ fields 4 [nameOffset text 0, 1, 0, 0, 52, 4, 0, 0, 1, 0]
    ++ fields 4 [nameOffset text 1, 2, 0, 0, 56, symbols.length, 3, 1, 4, 16]
    ++ fields 4 [nameOffset text 2, 3, 0, 0, 56 + symbols.length, names.length, 0, 0, 1, 0]
  [0x7f, 0x45, 0x4c, 0x46, 1, 1, 1] ++ List.replicate 9 0 ++ fields 2 [2, 40]
    ++ fields 4 [1, 0, 0, 56 + symbols.length + names.length, 0x5000200]
    ++ fields 2 [52, 32, 0, 40, 4, 3] ++ List.replicate 4 0 ++ symbols ++ names ++ sections

example : (Log.Image.ofBytes (firmware "ok")).toOption =
    some ⟨(firmwareNames "ok").drop 3, some [.statement ⟨.message .info, 1, "ok", none⟩], false⟩ := by
  decide +kernel

/-- An example that is built as such an image and runs. -/
def loggingScene (text : String) (log console : List UInt8) : Scene :=
  ⟨⟨some 0, [], [], some ⟨firmware text, none⟩⟩, ⟨some 0, some console, log, []⟩⟩

/-- A project with two examples, where the second one is expected to say hi. -/
def twoExamples : Tree :=
  .directory [("testsuite", .directory [
    ("examples", .directory [("one.rs", .file (.ofText "")), ("two.rs", .file (.ofText ""))]),
    ("expected", .directory [("two.expected", .file (.ofText "hi"))])])]

/-- The second example passes, and the first one cannot be built. -/
def failingBuild : Script where
  scenes := [("one", ⟨⟨some 101, [], [], none⟩, ⟨none, none, [], []⟩⟩),
    ("two", loggingScene "ok" [1, 0] [0x68, 0x69])]

theorem test_covers_selected_failing_build :
    twoExamples.list (testsuite ++ ["examples"]) = .ok ["one.rs", "two.rs"] ∧
      (∀ file ∈ ["one.rs", "two.rs"], '/' ∉ file.toList) ∧
      TestCovers ⟨"", ""⟩ failingBuild.tools none ["one.rs", "two.rs"]
        (selecting none (stems ["one.rs", "two.rs"]))
        (visits ⟨"", ""⟩ failingBuild.tools false twoExamples []
          (selecting none (stems ["one.rs", "two.rs"])))
        (perform ⟨"", ""⟩ failingBuild.tools twoExamples (.test none false)) :=
  ⟨rfl, by decide, test_covers_selected _ _ _ none rfl (by decide)⟩

/-- The second example passes, and the log of the first one has a number of an address's width to
be shown in digits of base sixteen, for which the decoder knows no width. -/
def breakingLog : Script where
  scenes := [("one", loggingScene "\x7b=isize:x\x7d" [1, 0, 0xff, 0, 0, 0] []),
    ("two", loggingScene "ok" [1, 0] [0x68, 0x69])]

/-- Both examples can be built and run, but there is no room for the files of their consoles. -/
def fullDisk : Script where
  scenes := [("*", loggingScene "ok" [1, 0] [0x68, 0x69])]
  consoleFault := some "No space left on device (os error 28) at path \"/tmp/.tmpA0b1C2\""

theorem selected_twoExamples : selected twoExamples none = .ok ["one", "two"] := by
  have hlist : twoExamples.list (testsuite ++ ["examples"]) = .ok ["one.rs", "two.rs"] := rfl
  exact selected_of_pairwise hlist (by decide)

/-- A breakdown keeps the examples after it from being run. Without a file for the console the
emulator is not started, however well the build has gone. -/
theorem examples_cut_short : selected twoExamples none = .ok ["one", "two"] ∧
    (let outcome := perform ⟨"", ""⟩ breakingLog.tools twoExamples (.test none false)
     outcome.results.map Prod.fst = ["one"] ∧ Call.build ⟨"two", false⟩ ∉ outcome.progress.calls ∧
       outcome.exitCode = 101) ∧
    (let outcome := perform ⟨"", ""⟩ fullDisk.tools twoExamples (.test none false)
     (fullDisk.tools.build [] ⟨"one", false⟩).toOption.map BuildRun.exit = some (some 0) ∧
       outcome.progress.calls = [.build ⟨"one", false⟩, .build ⟨"two", false⟩] ∧
       outcome.exitCode = 1) := by
  refine ⟨selected_twoExamples, ?_, ?_⟩
  · rw [perform_test _ _ _ selected_twoExamples (by decide)]
    decide +kernel
  · rw [perform_test _ _ _ selected_twoExamples (by decide)]
    decide +kernel

end PolledUart.Tasks

import PolledUart.Proofs.TreeChanges
import PolledUart.Tasks.Runner

/-!
# How a run of an example ends

A run of an example goes through its stages up to the first one that fails. `Captures` has one
rule for each way in which building, running and decoding can end, and `Visits` one for each way
in which the verdict can; both say what has been started, printed and changed by then.

* `captures_iff` — the ways in which a run can be captured are those of the program.
* `Captures.tree_cases` — what a run changes.
* `visits_iff` — and so are the ways in which an example can be judged or blessed.
-/

namespace PolledUart.Tasks

/-! ### Steps of a command -/

namespace Task

variable {α β : Type}

theorem run_bind (m : Task α) (f : α → Task β) (p : Progress) :
    (m >>= f).run p = match m.run p with
      | (.ok a, p') => (f a).run p'
      | (.error e, p') => (.error e, p') := by
  unfold ExceptT.run
  simp only [bind, ExceptT.bind, ExceptT.mk, StateT.bind, ExceptT.bindCont]
  rcases m p with ⟨e | a, p'⟩ <;> rfl

theorem run_modify (f : Progress → Progress) (p : Progress) :
    (modify f : Task PUnit).run p = (.ok (), f p) := rfl

theorem run_get (p : Progress) : (get : Task Progress).run p = (.ok p, p) := rfl

theorem run_set (q p : Progress) : (set q : Task PUnit).run p = (.ok (), q) := rfl

end Task

/-! ### Stages -/

namespace Progress

/-- Building an example is announced. -/
def building (p : Progress) (job : Job) : Progress := p.say s!"Building '{job.name}'...\n"

/-- The build tool has run, for a project in a directory. -/
def built (p : Progress) (home : Path) (job : Job) (run : BuildRun) : Progress :=
  (p.building job).afterBuild home job run

/-- Running an example is announced. -/
def emulating (p : Progress) : Progress := p.say "Running in QEMU...\n"

/-- The build tool and the emulator have run. -/
def ran (p : Progress) (home : Path) (job : Job) (run : BuildRun) : Progress :=
  (p.built home job run).emulating.afterEmulation job

@[simp] theorem tree_say (p : Progress) (text : String) : (p.say text).tree = p.tree := rfl

@[simp] theorem calls_say (p : Progress) (text : String) : (p.say text).calls = p.calls := rfl

@[simp] theorem calls_building (p : Progress) (job : Job) : (p.building job).calls = p.calls := rfl

@[simp] theorem calls_afterBuild (p : Progress) (home : Path) (job : Job) (run : BuildRun) :
    (p.afterBuild home job run).calls = p.calls ++ [.build job] := rfl

@[simp] theorem calls_built (p : Progress) (home : Path) (job : Job) (run : BuildRun) :
    (p.built home job run).calls = p.calls ++ [.build job] := rfl

@[simp] theorem tree_emulating (p : Progress) : p.emulating.tree = p.tree := rfl

@[simp] theorem calls_emulating (p : Progress) : p.emulating.calls = p.calls := rfl

@[simp] theorem tree_afterEmulation (p : Progress) (job : Job) :
    (p.afterEmulation job).tree = p.tree := rfl

@[simp] theorem calls_ran (p : Progress) (home : Path) (job : Job) (run : BuildRun) :
    (p.ran home job run).calls = p.calls ++ [.build job, .emulate job] := by
  show p.calls ++ [Call.build job] ++ [Call.emulate job] = _
  rw [List.append_assoc, List.singleton_append]

end Progress

variable {workspace : Workspace} {tools : Toolchain} {job : Job} {p p' : Progress}

theorem run_build (htestsuite : p.tree.entry? testsuite = some .directory) :
    (build workspace tools job).run p = match tools.build p.calls job with
      | .error cause => (.error (.buildNotStarted cause), p)
      | .ok run =>
        (if run.exit = some 0 then .ok () else .error (.buildFailed job.name),
          p.afterBuild (tools.home workspace) job run) := by
  obtain ⟨names, hlist⟩ := Tree.exists_list_iff.2 htestsuite
  unfold build
  rw [Task.run_bind, Task.run_get]
  dsimp only
  rw [hlist]
  show (match tools.build p.calls job with | .error cause => _ | .ok run => _ : Task Unit).run p = _
  cases tools.build p.calls job with
  | error cause => rfl
  | ok run =>
    dsimp only
    rw [Task.run_bind, Task.run_set]
    dsimp only
    split <;> rfl

theorem run_emulate : (emulate tools job).run p = match tools.makeConsole p.calls job with
      | .error cause => (.error (.consoleNotMade cause), p)
      | .ok () =>
        match tools.emulate p.calls job with
        | .error cause => (.error (.emulatorNotStarted cause), p)
        | .ok run =>
          (if run.exit = some 0 then .ok run
            else .error (.emulatorFailed run.exit (Text.decodeLossy run.errors)),
            p.afterEmulation job) := by
  unfold emulate
  rw [Task.run_bind, Task.run_get]
  dsimp only
  cases tools.makeConsole p.calls job with
  | error cause => rfl
  | ok u =>
    dsimp only
    cases tools.emulate p.calls job with
    | error cause => rfl
    | ok run =>
      dsimp only
      rw [Task.run_bind, Task.run_set]
      dsimp only
      split <;> rfl

/-- The ways in which building an example, running it and decoding its log can end. -/
inductive Captures (workspace : Workspace) (tools : Toolchain) (job : Job) (p : Progress) :
    Except Failure Capture → Progress → Prop where
  /-- There is no build tool. -/
  | buildNotStarted {cause : FileError} : tools.build p.calls job = .error cause →
      Captures workspace tools job p (.error (.buildNotStarted cause)) (p.building job)
  /-- The build fails. -/
  | buildFailed {run : BuildRun} : tools.build p.calls job = .ok run → run.exit ≠ some 0 →
      Captures workspace tools job p (.error (.buildFailed job.name))
        (p.built (tools.home workspace) job run)
  /-- There can be no file for the console. -/
  | consoleNotMade {run : BuildRun} {cause : String} :
      tools.build p.calls job = .ok run → run.exit = some 0 →
      tools.makeConsole (p.calls ++ [.build job]) job = .error cause →
      Captures workspace tools job p (.error (.consoleNotMade cause))
        (p.built (tools.home workspace) job run).emulating
  /-- There is no emulator. -/
  | emulatorNotStarted {run : BuildRun} {cause : FileError} :
      tools.build p.calls job = .ok run → run.exit = some 0 →
      tools.makeConsole (p.calls ++ [.build job]) job = .ok () →
      tools.emulate (p.calls ++ [.build job]) job = .error cause →
      Captures workspace tools job p (.error (.emulatorNotStarted cause))
        (p.built (tools.home workspace) job run).emulating
  /-- The emulator fails. -/
  | emulatorFailed {run : BuildRun} {shown : EmulatorRun} :
      tools.build p.calls job = .ok run → run.exit = some 0 →
      tools.makeConsole (p.calls ++ [.build job]) job = .ok () →
      tools.emulate (p.calls ++ [.build job]) job = .ok shown → shown.exit ≠ some 0 →
      Captures workspace tools job p
        (.error (.emulatorFailed shown.exit (Text.decodeLossy shown.errors)))
        (p.ran (tools.home workspace) job run)
  /-- The log cannot be decoded. -/
  | undecoded {run : BuildRun} {shown : EmulatorRun} {failure : Failure} :
      tools.build p.calls job = .ok run → run.exit = some 0 →
      tools.makeConsole (p.calls ++ [.build job]) job = .ok () →
      tools.emulate (p.calls ++ [.build job]) job = .ok shown → shown.exit = some 0 →
      decodeLog workspace tools (p.ran (tools.home workspace) job run) job shown.log =
        .error failure →
      Captures workspace tools job p (.error failure) (p.ran (tools.home workspace) job run)
  /-- Everything goes well. -/
  | captured {run : BuildRun} {shown : EmulatorRun} {log : List Log.Line} :
      tools.build p.calls job = .ok run → run.exit = some 0 →
      tools.makeConsole (p.calls ++ [.build job]) job = .ok () →
      tools.emulate (p.calls ++ [.build job]) job = .ok shown → shown.exit = some 0 →
      decodeLog workspace tools (p.ran (tools.home workspace) job run) job shown.log =
        .ok log →
      Captures workspace tools job p (.ok ⟨shown.console.getD [], log⟩)
        (p.ran (tools.home workspace) job run)

theorem run_capture : (capture workspace tools job).run p =
    match (build workspace tools job).run (p.building job) with
    | (.error e, p₁) => (.error e, p₁)
    | (.ok (), p₁) =>
      match (emulate tools job).run p₁.emulating with
      | (.error e, p₂) => (.error e, p₂)
      | (.ok shown, p₂) =>
        match decodeLog workspace tools p₂ job shown.log with
        | .error e => (.error e, p₂)
        | .ok log => (.ok ⟨shown.console.getD [], log⟩, p₂) := by
  unfold capture Progress.building Progress.emulating
  rw [Task.run_bind, Task.run_modify]
  dsimp only
  rw [Task.run_bind]
  rcases (build workspace tools job).run _ with ⟨e | u, p₁⟩
  · rfl
  dsimp only
  rw [Task.run_bind, Task.run_modify]
  dsimp only
  rw [Task.run_bind]
  rcases (emulate tools job).run _ with ⟨e | shown, p₂⟩
  · rfl
  dsimp only
  rw [Task.run_bind, Task.run_get]
  dsimp only
  cases decodeLog workspace tools p₂ job shown.log <;> rfl

section CapturesIff

variable (htestsuite : p.tree.entry? testsuite = some .directory)

include htestsuite

theorem captures_run : Captures workspace tools job p ((capture workspace tools job).run p).1
    ((capture workspace tools job).run p).2 := by
  have hbuild : (build workspace tools job).run (p.building job) = _ := run_build htestsuite
  rw [run_capture, hbuild, Progress.calls_building]
  cases hrun : tools.build p.calls job with
  | error cause => exact .buildNotStarted hrun
  | ok run =>
    dsimp only
    by_cases hexit : run.exit = some 0
    · rw [if_pos hexit]
      dsimp only
      rw [run_emulate, Progress.calls_emulating, Progress.calls_afterBuild,
        Progress.calls_building]
      cases hconsole : tools.makeConsole (p.calls ++ [.build job]) job with
      | error cause => exact .consoleNotMade hrun hexit hconsole
      | ok made =>
        cases hshown : tools.emulate (p.calls ++ [.build job]) job with
        | error cause => exact .emulatorNotStarted hrun hexit hconsole hshown
        | ok shown =>
          dsimp only
          by_cases hend : shown.exit = some 0
          · rw [if_pos hend]
            dsimp only
            split
            · exact .undecoded hrun hexit hconsole hshown hend ‹_›
            · exact .captured hrun hexit hconsole hshown hend ‹_›
          · rw [if_neg hend]
            exact .emulatorFailed hrun hexit hconsole hshown hend
    · rw [if_neg hexit]
      exact .buildFailed hrun hexit

theorem Captures.run_eq {r : Except Failure Capture} (h : Captures workspace tools job p r p') :
    (capture workspace tools job).run p = (r, p') := by
  have hbuild : (build workspace tools job).run (p.building job) = _ := run_build htestsuite
  rw [run_capture, hbuild, Progress.calls_building]
  cases h with
  | buildNotStarted hrun => rw [hrun]
  | buildFailed hrun hexit => simp [hrun, hexit, Progress.built]
  | consoleNotMade hrun hexit hconsole =>
    simp [hrun, hexit, hconsole, run_emulate, Progress.built]
  | emulatorNotStarted hrun hexit hconsole hshown =>
    simp [hrun, hexit, hconsole, hshown, run_emulate, Progress.built]
  | emulatorFailed hrun hexit hconsole hshown hend =>
    simp [hrun, hexit, hconsole, hshown, hend, run_emulate, Progress.ran, Progress.built]
  | undecoded hrun hexit hconsole hshown hend hlog =>
    simp only [Progress.ran, Progress.built] at hlog
    simp [hrun, hexit, hconsole, hshown, hend, hlog, run_emulate, Progress.ran, Progress.built]
  | captured hrun hexit hconsole hshown hend hlog =>
    simp only [Progress.ran, Progress.built] at hlog
    simp [hrun, hexit, hconsole, hshown, hend, hlog, run_emulate, Progress.ran, Progress.built]

/-- **What a run of an example shows**, or why it shows nothing. -/
theorem captures_iff {r : Except Failure Capture} :
    (capture workspace tools job).run p = (r, p') ↔ Captures workspace tools job p r p' := by
  refine ⟨fun h => ?_, Captures.run_eq htestsuite⟩
  have hcaptures : Captures workspace tools job p _ _ := captures_run htestsuite
  rwa [h] at hcaptures

end CapturesIff

theorem Progress.tree_built (p : Progress) (home : Path) (job : Job) (run : BuildRun) :
    (p.built home job run).tree = p.tree ∨
      ∃ image, run.image = some image ∧
        (p.built home job run).tree =
          install home p.tree (builtImage job.buildArguments) image := by
  unfold built afterBuild
  cases himage : run.image with
  | none => exact .inl rfl
  | some image => exact .inr ⟨image, rfl, rfl⟩

/-- Building, running and decoding change the tree by the image that is built, if at all. -/
theorem Captures.tree_cases {r : Except Failure Capture} (h : Captures workspace tools job p r p') :
    p'.tree = p.tree ∨
      ∃ run image, tools.build p.calls job = .ok run ∧ run.image = some image ∧
        p'.tree =
          install (tools.home workspace) p.tree (builtImage job.buildArguments) image := by
  have hbuilt : ∀ {run}, tools.build p.calls job = .ok run →
      (p.built (tools.home workspace) job run).tree = p.tree ∨
        ∃ run' image, tools.build p.calls job = .ok run' ∧ run'.image = some image ∧
          (p.built (tools.home workspace) job run).tree =
            install (tools.home workspace) p.tree (builtImage job.buildArguments) image :=
    fun {run} hrun => (p.tree_built _ job run).imp_right fun ⟨image, himage, htree⟩ =>
      ⟨run, image, hrun, himage, htree⟩
  cases h with
  | buildNotStarted => exact .inl rfl
  | buildFailed hrun | consoleNotMade hrun | emulatorNotStarted hrun | emulatorFailed hrun
  | undecoded hrun | captured hrun => exact hbuilt hrun

/-! ### Verdicts -/

/-- The verdict on an example, and the tree after it. -/
def verdict (blessing : Bool) (tree : Tree) (name console : String) :
    Except FileError Verdict × Tree :=
  if blessing then
    ((bless tree name console).1.map .blessed, (bless tree name console).2)
  else (judge tree name console, tree)

theorem run_settle (blessing : Bool) (name console : String) (p : Progress) :
    (settle blessing name console).run p =
      ((verdict blessing p.tree name console).1.mapError .expectedFile,
        { p with tree := (verdict blessing p.tree name console).2 }) := by
  unfold settle verdict
  rw [Task.run_bind, Task.run_get]
  dsimp only
  cases blessing with
  | true =>
    rw [if_pos rfl, if_pos rfl]
    rcases bless p.tree name console with ⟨e | change, tree⟩ <;> rfl
  | false =>
    rw [if_neg Bool.false_ne_true, if_neg Bool.false_ne_true]
    cases judge p.tree name console <;> rfl

/-- The ways in which an example of a test can end. -/
inductive Visits (workspace : Workspace) (tools : Toolchain) (blessing : Bool) (name : String)
    (p : Progress) : Result → Progress → Prop where
  /-- There is nothing to judge. -/
  | failed {failure : Failure} {p₁ : Progress} :
      Captures workspace tools ⟨name, false⟩ p (.error failure) p₁ →
      Visits workspace tools blessing name p (.error failure) p₁
  /-- The expected file cannot be used. -/
  | unsettled {capture : Capture} {p₁ : Progress} {cause : FileError} {tree : Tree} :
      Captures workspace tools ⟨name, false⟩ p (.ok capture) p₁ →
      verdict blessing p₁.tree name capture.text = (.error cause, tree) →
      Visits workspace tools blessing name p (.error (.expectedFile cause)) { p₁ with tree := tree }
  /-- There is a verdict. -/
  | settled {capture : Capture} {p₁ : Progress} {v : Verdict} {tree : Tree} :
      Captures workspace tools ⟨name, false⟩ p (.ok capture) p₁ →
      verdict blessing p₁.tree name capture.text = (.ok v, tree) →
      Visits workspace tools blessing name p (.ok v)
        (Progress.say { p₁ with tree := tree } (v.show name capture))

theorem run_runExample (blessing : Bool) (name : String) :
    (runExample workspace tools blessing name).run p =
      match (capture workspace tools ⟨name, false⟩).run p with
      | (.error e, p₁) => (.error e, p₁)
      | (.ok capture, p₁) =>
        match verdict blessing p₁.tree name capture.text with
        | (.error cause, tree) => (.error (.expectedFile cause), { p₁ with tree := tree })
        | (.ok v, tree) =>
          (.ok v, Progress.say { p₁ with tree := tree } (v.show name capture)) := by
  unfold runExample
  rw [Task.run_bind]
  rcases (capture workspace tools ⟨name, false⟩).run p with ⟨e | capture, p₁⟩
  · rfl
  dsimp only
  rw [Task.run_bind, run_settle]
  rcases verdict blessing p₁.tree name capture.text with ⟨cause | v, tree⟩ <;> rfl

/-- **What becomes of an example.** -/
theorem visits_iff (htestsuite : p.tree.entry? testsuite = some .directory) {blessing : Bool}
    {name : String} {r : Result} :
    (runExample workspace tools blessing name).run p = (r, p') ↔
      Visits workspace tools blessing name p r p' := by
  rw [run_runExample]
  constructor
  · intro h
    rcases hrun : (capture workspace tools ⟨name, false⟩).run p with ⟨e | capture, p₁⟩
    · rw [hrun] at h
      obtain ⟨rfl, rfl⟩ := Prod.mk.inj h
      exact .failed ((captures_iff htestsuite).1 hrun)
    · rw [hrun] at h
      dsimp only at h
      have hcaptured := (captures_iff htestsuite).1 hrun
      rcases hverdict : verdict blessing p₁.tree name capture.text with ⟨cause | v, tree⟩
      · rw [hverdict] at h
        obtain ⟨rfl, rfl⟩ := Prod.mk.inj h
        exact .unsettled hcaptured hverdict
      · rw [hverdict] at h
        obtain ⟨rfl, rfl⟩ := Prod.mk.inj h
        exact .settled hcaptured hverdict
  · intro h
    cases h with
    | failed hcaptured => rw [(captures_iff htestsuite).2 hcaptured]
    | unsettled hcaptured hverdict =>
      rw [(captures_iff htestsuite).2 hcaptured]
      dsimp only
      rw [hverdict]
    | settled hcaptured hverdict =>
      rw [(captures_iff htestsuite).2 hcaptured]
      dsimp only
      rw [hverdict]

end PolledUart.Tasks

import PolledUart.Proofs.ExampleFiles

/-!
# Examples do not disturb each other

A run of an example on a project in which other examples have been run before goes as it does on
the project as it was: it does, prints and changes the same, as far as its tools do.

* `Captures.grows`, `Visits.grows` — what a run changes.
* `Captures.beside`, `Visits.beside` — a run beside another.
-/

namespace PolledUart.Tasks

/-! ### A run beside another -/

/-- Tools as they are after some calls. -/
def Toolchain.after (tools : Toolchain) (earlier : List Call) : Toolchain where
  build before job := tools.build (earlier ++ before) job
  makeConsole before job := tools.makeConsole (earlier ++ before) job
  emulate before job := tools.emulate (earlier ++ before) job
  readTable := tools.readTable
  current := tools.current
  elsewhere before := tools.elsewhere (earlier ++ before)

/-- After some calls, the second tools do for an example what the first ones do. -/
structure Toolchain.Follow (name : String) (earlier : List Call) (tools tools' : Toolchain) :
    Prop where
  build : ∀ before, tools'.build (earlier ++ before) ⟨name, false⟩ =
    tools.build before ⟨name, false⟩
  makeConsole : ∀ before, tools'.makeConsole (earlier ++ before) ⟨name, false⟩ =
    tools.makeConsole before ⟨name, false⟩
  emulate : ∀ before, tools'.emulate (earlier ++ before) ⟨name, false⟩ =
    tools.emulate before ⟨name, false⟩
  readTable : tools'.readTable = tools.readTable
  current : tools'.current = tools.current

theorem Toolchain.follow_after (name : String) (earlier : List Call) (tools : Toolchain) :
    Toolchain.Follow name earlier (tools.after earlier) tools :=
  ⟨fun _ => rfl, fun _ => rfl, fun _ => rfl, rfl, rfl⟩

theorem Toolchain.Follow.home_eq {name : String} {earlier : List Call} {tools tools' : Toolchain}
    (h : Toolchain.Follow name earlier tools tools') (workspace : Workspace) :
    tools'.home workspace = tools.home workspace :=
  congrArg workspace.home h.current

/-- Two outcomes that are the same, but for the cause why an image cannot be read. That is the
only cause which shows whether directories have been made, and it is not told for an example. -/
def Alike {α : Type} (r r' : Except Failure α) : Prop :=
  r' = r ∨ ∃ cause cause', r = .error (.unreadableImage cause) ∧
    r' = .error (.unreadableImage cause')

theorem Alike.eq_of_ok {α : Type} {a : α} {r : Except Failure α} (h : Alike (.ok a) r) :
    r = .ok a :=
  h.resolve_right (by rintro ⟨_, _, hcause, -⟩; cases hcause)

/-- The second progress is the first one after a part that the example has nothing to do with. -/
structure Beside (name : String) (earlier : List Call) (output errors : List UInt8)
    (p q : Progress) : Prop where
  tree : Tree.SameFor name p.tree q.tree
  calls : q.calls = earlier ++ p.calls
  output : q.output = output ++ p.output
  errors : q.errors = errors ++ p.errors

section Beside

variable {workspace : Workspace} {tools tools' : Toolchain} {name : String} {earlier : List Call}
  {output errors : List UInt8} {p p' q : Progress}

namespace Beside

theorem say (h : Beside name earlier output errors p q) (text : String) :
    Beside name earlier output errors (p.say text) (q.say text) where
  tree := h.tree
  calls := h.calls
  output := by
    show q.output ++ _ = output ++ (p.output ++ _)
    rw [h.output, List.append_assoc]
  errors := h.errors

theorem afterBuild (h : Beside name earlier output errors p q) (hslash : '/' ∉ name.toList)
    (home : Path) (run : BuildRun) :
    Beside name earlier output errors (p.afterBuild home ⟨name, false⟩ run)
      (q.afterBuild home ⟨name, false⟩ run) where
  tree := by
    unfold Progress.afterBuild
    split
    · exact h.tree.install home (by rwa [text_builtImage]) (owns_builtImage ⟨name, false⟩)
    · exact h.tree
  calls := by
    show q.calls ++ _ = earlier ++ (p.calls ++ _)
    rw [h.calls, List.append_assoc]
  output := by
    show q.output ++ _ = output ++ (p.output ++ _)
    rw [h.output, List.append_assoc]
  errors := by
    show q.errors ++ _ = errors ++ (p.errors ++ _)
    rw [h.errors, List.append_assoc]

theorem built (h : Beside name earlier output errors p q) (hslash : '/' ∉ name.toList)
    (home : Path) (run : BuildRun) :
    Beside name earlier output errors (p.built home ⟨name, false⟩ run)
      (q.built home ⟨name, false⟩ run) :=
  (h.say _).afterBuild hslash home run

theorem ran (h : Beside name earlier output errors p q) (hslash : '/' ∉ name.toList) (home : Path)
    (run : BuildRun) : Beside name earlier output errors (p.ran home ⟨name, false⟩ run)
      (q.ran home ⟨name, false⟩ run) where
  tree := (h.built hslash home run).tree
  calls := by
    show (q.built home ⟨name, false⟩ run).calls ++ _
      = _ ++ ((p.built home ⟨name, false⟩ run).calls ++ _)
    rw [(h.built hslash home run).calls, List.append_assoc]
  output := ((h.built hslash home run).say _).output
  errors := (h.built hslash home run).errors

theorem withTree (h : Beside name earlier output errors p q) {t t' : Tree}
    (ht : Tree.SameFor name t t') :
    Beside name earlier output errors { p with tree := t } { q with tree := t' } :=
  ⟨ht, h.calls, h.output, h.errors⟩

end Beside

/-- A log is decoded by what the image's place leads to. -/
theorem decodeLog_alike (hslash : '/' ∉ name.toList) (hdecoder : tools'.readTable = tools.readTable)
    (himage : q.tree.entry? (Job.image ⟨name, false⟩).path =
      p.tree.entry? (Job.image ⟨name, false⟩).path) (log : List UInt8) :
    Alike (decodeLog workspace tools p ⟨name, false⟩ log)
      (decodeLog workspace tools' q ⟨name, false⟩ log) := by
  have hread : ∀ {around around'} contents,
      q.tree.readRoute around' (Job.image ⟨name, false⟩) = .ok contents ↔
        p.tree.readRoute around (Job.image ⟨name, false⟩) = .ok contents := by
    intro around around' contents
    rw [Tree.readRoute_eq_ok_iff hslash, Tree.readRoute_eq_ok_iff hslash, himage]
  unfold decodeLog
  rw [hdecoder]
  rcases hleft : p.tree.readRoute (tools.surroundings workspace p.calls)
    (Job.image ⟨name, false⟩) with cause | contents
  · rcases hright : q.tree.readRoute (tools'.surroundings workspace q.calls)
      (Job.image ⟨name, false⟩) with cause' | contents
    · exact .inr ⟨cause, cause', rfl, rfl⟩
    · cases hleft.symm.trans ((hread contents).1 hright)
  · rw [(hread contents).2 hleft]
    exact .inl rfl

theorem Captures.grows (hslash : '/' ∉ name.toList) {r : Except Failure Capture}
    (h : Captures workspace tools ⟨name, false⟩ p r p') : Tree.GrownBy [name] p.tree p'.tree := by
  rcases h.tree_cases with hsame | ⟨run, image, -, -, hinstalled⟩
  · rw [hsame]
    exact .refl _ _
  · rw [hinstalled]
    exact Tree.grownBy_install _ (by rwa [text_builtImage]) (owns_builtImage ⟨name, false⟩)

/-- **A captured run beside another**: it does and prints the same, and leaves the files of its
example the same. -/
theorem Captures.beside (hslash : '/' ∉ name.toList) {r : Except Failure Capture}
    (hfollow : Toolchain.Follow name earlier tools tools')
    (hb : Beside name earlier output errors p q)
    (h : Captures workspace tools ⟨name, false⟩ p r p') :
    ∃ r' q', Captures workspace tools' ⟨name, false⟩ q r' q' ∧ Alike r r' ∧
      Beside name earlier output errors p' q' := by
  have hbuild : tools'.build q.calls ⟨name, false⟩ = tools.build p.calls ⟨name, false⟩ := by
    rw [hb.calls, hfollow.build]
  have hconsole : tools'.makeConsole (q.calls ++ [.build ⟨name, false⟩]) ⟨name, false⟩ =
      tools.makeConsole (p.calls ++ [.build ⟨name, false⟩]) ⟨name, false⟩ := by
    rw [hb.calls, List.append_assoc, hfollow.makeConsole]
  have hemulate : tools'.emulate (q.calls ++ [.build ⟨name, false⟩]) ⟨name, false⟩ =
      tools.emulate (p.calls ++ [.build ⟨name, false⟩]) ⟨name, false⟩ := by
    rw [hb.calls, List.append_assoc, hfollow.emulate]
  have hbuilt : ∀ run, Beside name earlier output errors
      (p.built (tools.home workspace) ⟨name, false⟩ run)
      (q.built (tools'.home workspace) ⟨name, false⟩ run) := by
    intro run
    rw [hfollow.home_eq]
    exact hb.built hslash _ run
  have hran : ∀ run, Beside name earlier output errors
      (p.ran (tools.home workspace) ⟨name, false⟩ run)
      (q.ran (tools'.home workspace) ⟨name, false⟩ run) := by
    intro run
    rw [hfollow.home_eq]
    exact hb.ran hslash _ run
  have hdecode : ∀ run log, Alike
      (decodeLog workspace tools (p.ran (tools.home workspace) ⟨name, false⟩ run) ⟨name, false⟩ log)
      (decodeLog workspace tools' (q.ran (tools'.home workspace) ⟨name, false⟩ run) ⟨name, false⟩
        log) := fun run =>
    decodeLog_alike hslash hfollow.readTable ((hran run).tree.owned _ (owns_image ⟨name, false⟩))
  cases h with
  | buildNotStarted hrun =>
    exact ⟨_, _, .buildNotStarted (hbuild.trans hrun), .inl rfl, hb.say _⟩
  | buildFailed hrun hexit =>
    exact ⟨_, _, .buildFailed (hbuild.trans hrun) hexit, .inl rfl, hbuilt _⟩
  | consoleNotMade hrun hexit hmade =>
    exact ⟨_, _, .consoleNotMade (hbuild.trans hrun) hexit (hconsole.trans hmade), .inl rfl,
      (hbuilt _).say _⟩
  | emulatorNotStarted hrun hexit hmade hshown =>
    exact ⟨_, _, .emulatorNotStarted (hbuild.trans hrun) hexit (hconsole.trans hmade)
      (hemulate.trans hshown), .inl rfl, (hbuilt _).say _⟩
  | emulatorFailed hrun hexit hmade hshown hend =>
    exact ⟨_, _, .emulatorFailed (hbuild.trans hrun) hexit (hconsole.trans hmade)
      (hemulate.trans hshown) hend, .inl rfl, hran _⟩
  | @undecoded run shown failure hrun hexit hmade hshown hend hlog =>
    have halike := hdecode run shown.log
    rw [hlog] at halike
    rcases halike with heq | ⟨cause, cause', hcause, heq⟩
    · exact ⟨_, _, .undecoded (hbuild.trans hrun) hexit (hconsole.trans hmade)
        (hemulate.trans hshown) hend heq, .inl rfl, hran _⟩
    · obtain rfl := Except.error.inj hcause
      exact ⟨_, _, .undecoded (hbuild.trans hrun) hexit (hconsole.trans hmade)
        (hemulate.trans hshown) hend heq, .inr ⟨cause, cause', rfl, rfl⟩, hran _⟩
  | @captured run shown log hrun hexit hmade hshown hend hlog =>
    have halike := hdecode run shown.log
    rw [hlog] at halike
    exact ⟨_, _, .captured (hbuild.trans hrun) hexit (hconsole.trans hmade)
      (hemulate.trans hshown) hend halike.eq_of_ok, .inl rfl, hran _⟩

theorem Visits.grows (hslash : '/' ∉ name.toList) {blessing : Bool} {r : Result}
    (h : Visits workspace tools blessing name p r p') : Tree.GrownBy [name] p.tree p'.tree := by
  cases h with
  | failed hcaptured => exact hcaptured.grows hslash
  | @unsettled capture p₁ _ _ hcaptured hverdict =>
    have hgrown := Tree.grownBy_verdict (t := p₁.tree) blessing name capture.text
    rw [hverdict] at hgrown
    exact (hcaptured.grows hslash).trans hgrown
  | @settled capture p₁ _ _ hcaptured hverdict =>
    have hgrown := Tree.grownBy_verdict (t := p₁.tree) blessing name capture.text
    rw [hverdict] at hgrown
    exact (hcaptured.grows hslash).trans hgrown

/-- **An example beside others**: it ends the same, does and prints the same, and leaves its files
the same. -/
theorem Visits.beside (hslash : '/' ∉ name.toList) {blessing : Bool} {r : Result}
    (hfollow : Toolchain.Follow name earlier tools tools')
    (hb : Beside name earlier output errors p q)
    (h : Visits workspace tools blessing name p r p') :
    ∃ r' q', Visits workspace tools' blessing name q r' q' ∧ Alike r r' ∧
      Beside name earlier output errors p' q' := by
  cases h with
  | failed hcaptured =>
    obtain ⟨r', q', hcaptured', halike, hb'⟩ := hcaptured.beside hslash hfollow hb
    rcases halike with rfl | ⟨cause, cause', hr, rfl⟩
    · exact ⟨_, q', .failed hcaptured', .inl rfl, hb'⟩
    · obtain rfl := Except.error.inj hr
      exact ⟨_, q', .failed hcaptured', .inr ⟨cause, cause', rfl, rfl⟩, hb'⟩
  | @unsettled capture p₁ cause tree hcaptured hverdict =>
    obtain ⟨r', q', hcaptured', halike, hb'⟩ := hcaptured.beside hslash hfollow hb
    obtain rfl := halike.eq_of_ok
    obtain ⟨hsame, htree⟩ := hb'.tree.verdict_eq blessing capture.text
    rcases hverdict' : verdict blessing q'.tree name capture.text with ⟨outcome, tree'⟩
    rw [hverdict, hverdict'] at hsame htree
    obtain rfl : outcome = .error cause := hsame
    exact ⟨_, _, .unsettled hcaptured' hverdict', .inl rfl, hb'.withTree htree⟩
  | @settled capture p₁ v tree hcaptured hverdict =>
    obtain ⟨r', q', hcaptured', halike, hb'⟩ := hcaptured.beside hslash hfollow hb
    obtain rfl := halike.eq_of_ok
    obtain ⟨hsame, htree⟩ := hb'.tree.verdict_eq blessing capture.text
    rcases hverdict' : verdict blessing q'.tree name capture.text with ⟨outcome, tree'⟩
    rw [hverdict, hverdict'] at hsame htree
    obtain rfl : outcome = .ok v := hsame
    exact ⟨_, _, .settled hcaptured' hverdict', .inl rfl, (hb'.withTree htree).say _⟩

end Beside

end PolledUart.Tasks

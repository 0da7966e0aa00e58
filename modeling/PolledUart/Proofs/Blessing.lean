import PolledUart.Proofs.Verdicts

/-!
# After blessing

What is blessed is expected from then on. A test that blesses leaves a project on which all the
examples pass if their tools do the same again, and on which blessing finds nothing to change.

* `install_again`, `Captures.again` — a run that is made again leaves the tree as it is.
* `Visits.again` — an example that has been blessed passes, and stays as it is when it is blessed.
* `test_after_blessing` — a test of a blessed project.
-/

namespace PolledUart.Tasks

/-! ### Blessing an example -/

section Bless

variable {name first console : String} {rest : Path} {t u : Tree} {change c : Change}

/-- Blessing a file that holds a text. -/
theorem bless_of_text {text : String} (h : t.Holds (expectedPath name) (Text.encode text)) :
    bless t name console = if text = console then (.ok .unchanged, t)
      else writeExpected t name console .updated := by
  rw [bless, if_pos (contains_of_holds h), Tree.readText_eq_ok_iff.2 h]

theorem holds_of_writeExpected (h : writeExpected t name console change = (.ok c, u)) :
    u.Holds (expectedPath name) (Text.encode console) := by
  unfold writeExpected at h
  split at h
  · rename_i written hwrite
    obtain rfl := (Prod.mk.inj h).2
    exact ⟨.ofText console, by rw [Tree.entry?_write hwrite, if_pos rfl], rfl⟩
  · cases h

/-- **A blessed console** is what the expected file holds. -/
theorem holds_of_bless (h : bless t name console = (.ok c, u)) :
    u.Holds (expectedPath name) (Text.encode console) := by
  unfold bless at h
  split at h
  · split at h
    · cases h
    · rename_i old hread
      split at h
      · rename_i hsame
        obtain rfl := (Prod.mk.inj h).2
        exact Tree.readText_eq_ok_iff.1 (hsame ▸ hread)
      · exact holds_of_writeExpected h
  · split at h
    · cases h
    · exact holds_of_writeExpected h

theorem entry?_writeExpected (hfirst : first ≠ "testsuite") :
    Tree.entry? (writeExpected t name console change).2 (first :: rest) =
      t.entry? (first :: rest) := by
  unfold writeExpected
  split
  · rename_i hwrite
    rw [Tree.entry?_write hwrite, if_neg]
    exact fun heq => hfirst (List.cons.inj heq).1
  · rfl

/-- Blessing changes nothing outside of the test suite. -/
theorem entry?_bless (hfirst : first ≠ "testsuite") :
    Tree.entry? (bless t name console).2 (first :: rest) = t.entry? (first :: rest) := by
  unfold bless
  split
  · split
    · rfl
    · split
      · rfl
      · exact entry?_writeExpected hfirst
  · split
    · rfl
    · rename_i hmade
      rw [entry?_writeExpected hfirst, Tree.entry?_makeDirectories hmade, if_neg]
      exact fun hway => hfirst (List.cons_prefix_cons.1 hway).1

/-- The verdict on an example whose expected file holds its console. -/
def Verdict.standing (blessing : Bool) : Verdict :=
  if blessing then .blessed .unchanged else .passed

theorem accepted_standing (blessing : Bool) : (Verdict.standing blessing).accepted = true := by
  cases blessing <;> rfl

theorem verdict_of_holds (blessing : Bool) (h : t.Holds (expectedPath name) (Text.encode console)) :
    verdict blessing t name console = (.ok (.standing blessing), t) := by
  cases blessing with
  | false =>
    rw [verdict, if_neg Bool.false_ne_true, judge_of_holds h]
    rfl
  | true =>
    rw [verdict, if_pos rfl, bless_of_text h, if_pos rfl]
    rfl

end Bless

/-! ### Running an example again -/

section Again

variable {workspace : Workspace} {tools : Toolchain} {name : String} {t u : Tree}
  {p p' q : Progress}

theorem Toolchain.Steady.after (h : tools.Steady) (earlier : List Call) :
    (tools.after earlier).Steady :=
  fun _ _ job => h _ _ job

theorem Toolchain.Steady.follow (h : tools.Steady) (name : String) (earlier later : List Call) :
    Toolchain.Follow name [] (tools.after earlier) (tools.after later) where
  build _ := (h _ _ _).1
  makeConsole _ := (h _ _ _).2.1
  emulate _ := (h _ _ _).2.2
  readTable := rfl
  current := rfl

/-- **An image that is put in its place again** changes nothing. -/
theorem install_again (home : Path) (t : Tree) {route : Route} {image : File}
    (hslash : '/' ∉ route.text.toList)
    (hsame : ∀ q, q <+: route.path → u.entry? q = Tree.entry? (install home t route image) q)
    (q : Path) : Tree.entry? (install home u route image) q = u.entry? q := by
  by_cases hf : t.Fits route
  · have hplace : u.entry? route.path = some (.file image) := by
      rw [hsame _ (List.prefix_refl _), Tree.entry?_install home hslash hf, if_pos rfl]
    have hway : ∀ q, q <+: route.start → u.entry? q = some .directory := by
      intro q hq
      have hne : q ≠ route.path := fun heq => by
        have hlength := hq.length_le
        rw [heq, Route.path, List.length_append] at hlength
        exact absurd hlength (Nat.not_succ_le_self _)
      rw [hsame q (hq.trans (List.prefix_append _ _)), Tree.entry?_install home hslash hf,
        if_neg hne, if_pos hq]
    have hf' : u.Fits route :=
      ⟨hf.plain, hf.short, fun q hq contents => by simp [hway q hq], by simp [hplace]⟩
    rw [Tree.entry?_install home hslash hf']
    split
    · rename_i heq
      rw [heq, hplace]
    · split
      · rename_i hq
        rw [hway q hq]
      · rfl
  · rw [Tree.install_of_not_fits home hslash hf] at hsame
    rw [Tree.install_of_not_fits home hslash fun hf' => hf ⟨hf'.plain, hf'.short,
      fun q hq contents => hsame q (hq.trans (List.prefix_append _ _)) ▸ hf'.clear q hq contents,
      hsame _ (List.prefix_refl _) ▸ hf'.free⟩]

/-- **A run that is made again** shows the same and changes nothing. -/
theorem Captures.again {shown : Capture} (hsteady : tools.Steady) (hslash : '/' ∉ name.toList)
    (h : Captures workspace tools ⟨name, false⟩ p (.ok shown) p')
    (hroot : q.tree.entry? [] = p'.tree.entry? [])
    (htarget : ∀ rest, q.tree.entry? ("target" :: rest) = p'.tree.entry? ("target" :: rest)) :
    ∃ q', Captures workspace tools ⟨name, false⟩ q (.ok shown) q' ∧
      ∀ path, q'.tree.entry? path = q.tree.entry? path := by
  cases h with
  | @captured run shown log hrun hexit hconsole hshown hend hlog =>
    have hran : ∀ path, Tree.entry? (q.ran (tools.home workspace) ⟨name, false⟩ run).tree path =
        q.tree.entry? path := by
      intro path
      unfold Progress.ran Progress.built Progress.afterBuild at htarget hroot ⊢
      dsimp only [Progress.tree_emulating, Progress.tree_afterEmulation] at htarget hroot ⊢
      split
      · rename_i image himage
        rw [himage] at htarget hroot
        refine install_again _ p.tree (by rwa [text_builtImage]) (fun path' hway => ?_) path
        cases path' with
        | nil => exact hroot
        | cons first rest =>
          obtain rfl : first = "target" := (List.cons_prefix_cons.1 hway).1
          exact htarget rest
      · rfl
    have halike : Alike (decodeLog workspace tools _ ⟨name, false⟩ shown.log) _ :=
      decodeLog_alike hslash rfl ((hran _).trans (htarget _)) shown.log
    rw [hlog] at halike
    exact ⟨_, .captured ((hsteady _ _ _).1.trans hrun) hexit ((hsteady _ _ _).2.1.trans hconsole)
      ((hsteady _ _ _).2.2.trans hshown) hend halike.eq_of_ok, hran⟩

/-- **An example that has been blessed** passes, and blessing it leaves it as it is. -/
theorem Visits.again {v : Verdict} (hsteady : tools.Steady) (hslash : '/' ∉ name.toList)
    (htestsuite : p.tree.entry? testsuite = some .directory)
    (h : Visits workspace tools true name p (.ok v) p') (blessing : Bool) (hq : q.tree = p'.tree) :
    ∃ q' contents, Visits workspace tools blessing name q (.ok (.standing blessing)) q' ∧
      (∀ path, q'.tree.entry? path = q.tree.entry? path) ∧
      q.tree.entry? (expectedPath name) = some (.file contents) ∧
      ∃ shown, Text.encode ((Verdict.standing blessing).show name shown) <:+ q'.output := by
  cases h with
  | @settled shown p₁ _ blessed hcaptured hverdict =>
    obtain rfl : q.tree = blessed := hq
    rw [verdict, if_pos rfl] at hverdict
    obtain ⟨hchange, htree⟩ := Prod.mk.inj hverdict
    cases hbless : (bless p₁.tree name shown.text).1 with
    | error cause =>
      rw [hbless] at hchange
      cases hchange
    | ok change =>
      have hholds : q.tree.Holds (expectedPath name) (Text.encode shown.text) :=
        holds_of_bless (Prod.ext hbless htree)
      have htarget : ∀ rest, q.tree.entry? ("target" :: rest) =
          p₁.tree.entry? ("target" :: rest) := by
        intro rest
        rw [← htree]
        exact entry?_bless (by decide)
      -- The project is a directory before and after.
      have hbefore : p₁.tree.entry? testsuite = some .directory :=
        (hcaptured.entry?_eq hslash (by decide)).trans htestsuite
      have hafter : q.tree.entry? testsuite = some .directory :=
        htree ▸ Tree.grownBy_bless.directory not_owns_testsuite hbefore
      have hroot : q.tree.entry? [] = p₁.tree.entry? [] :=
        (Tree.directory_above hafter List.nil_prefix (by decide)).trans
          (Tree.directory_above hbefore List.nil_prefix (by decide)).symm
      obtain ⟨q₁, hcaptured', hsame⟩ := hcaptured.again hsteady hslash hroot htarget
      obtain ⟨contents, hentry, hbytes⟩ := hholds
      have hholds' : q₁.tree.Holds (expectedPath name) (Text.encode shown.text) :=
        ⟨contents, (hsame _).trans hentry, hbytes⟩
      exact ⟨_, contents, .settled hcaptured' (verdict_of_holds blessing hholds'), hsame, hentry,
        shown, List.suffix_append _ _⟩

/-- What an example does on a project on which it has been blessed: its expected file is there and
stays, and the verdict on it is a good one. -/
structure Stands (blessing : Bool) (blessed : Tree) (run : Visit) : Prop where
  result : run.result = .ok (.standing blessing)
  expected : ∃ contents, blessed.entry? (expectedPath run.name) = some (.file contents) ∧
    run.progress.tree.entry? (expectedPath run.name) = some (.file contents)
  reported : ∃ shown,
    Text.encode ((Verdict.standing blessing).show run.name shown) <:+ run.progress.output

/-- On a project on which other examples have been blessed as well, it is the same. -/
theorem stands_of_blessed {v : Verdict} {earlier : List Call} {blessed : Tree}
    (hsteady : tools.Steady) (hslash : '/' ∉ name.toList)
    (htestsuite : t.entry? testsuite = some .directory)
    (h : (runAlone workspace tools true t earlier name).result = .ok v)
    (hblessed :
      Tree.SameFor name (runAlone workspace tools true t earlier name).progress.tree blessed)
    (blessing : Bool) (later : List Call) :
    Stands blessing blessed (runAlone workspace tools blessing blessed later name) := by
  have hfirst : Visits workspace (tools.after earlier) true name ⟨t, [], [], []⟩ _ _ :=
    runAlone_visits htestsuite
  rw [h] at hfirst
  generalize (runAlone workspace tools true t earlier name).progress = done at hfirst hblessed
  obtain ⟨p', contents, hagain, hsame, hentry, shown, hreported⟩ :=
    hfirst.again (q := ⟨done.tree, [], [], []⟩) (hsteady.after earlier) hslash htestsuite blessing
      rfl
  have hbeside : Beside name [] [] [] ⟨done.tree, [], [], []⟩ ⟨blessed, [], [], []⟩ :=
    ⟨hblessed, rfl, rfl, rfl⟩
  obtain ⟨r, q', hvisit, halike, hb⟩ :=
    hagain.beside hslash (hsteady.follow name earlier later) hbeside
  obtain rfl := halike.eq_of_ok
  have hrun := (visits_iff hblessed.testsuite_right).2 hvisit
  have hname := owns_expectedPath name
  refine ⟨congrArg Prod.fst hrun, ⟨contents, (hblessed.owned _ hname).trans hentry, ?_⟩, shown, ?_⟩
  · show Tree.entry? ((runExample workspace (tools.after later) blessing name).run
      ⟨blessed, [], [], []⟩).2.tree (expectedPath name) = _
    rw [hrun]
    exact (hb.tree.owned _ hname).trans ((hsame _).trans hentry)
  · show _ <:+
      ((runExample workspace (tools.after later) blessing name).run ⟨blessed, [], [], []⟩).2.output
    rw [hrun]
    exact hb.output ▸ hreported

end Again

/-! ### Testing a blessed project -/

section Repeated

variable {names files : List String} {filter : Option String} {t u : Tree}

/-- Runs of examples leave their sources alone. -/
theorem not_way_of_source (rest : Path) (name : String) (p : Path) (h : Owns name p) :
    ¬ "testsuite" :: "examples" :: rest <+: p := by
  rintro ⟨more, hway⟩
  rcases h with rfl | ⟨a, b, rfl⟩ <;> simp [expectedPath, expectedDirectory, testsuite] at hway

/-- After runs of some examples, the same ones are selected. -/
theorem list_of_grown (filter : Option String) (h : Tree.GrownBy names t u)
    (hlist : t.list (testsuite ++ ["examples"]) = .ok files) :
    ∃ files', u.list (testsuite ++ ["examples"]) = .ok files' ∧
      (∀ file, file ∈ files' ↔ file ∈ files) ∧
      selecting filter (stems files') = selecting filter (stems files) := by
  have hdir : u.entry? (testsuite ++ ["examples"]) = some .directory :=
    (h.same (not_way_of_source [])).trans (Tree.exists_list_iff.1 ⟨files, hlist⟩)
  obtain ⟨files', hlist'⟩ := Tree.exists_list_iff.2 hdir
  have hsame : ∀ file, file ∈ files' ↔ file ∈ files := by
    intro file
    have hentry : u.entry? (testsuite ++ ["examples"] ++ [file]) = _ :=
      h.same (not_way_of_source [file])
    rw [Tree.mem_list_iff hlist', Tree.mem_list_iff hlist, Tree.contains, Tree.contains, hentry]
  exact ⟨files', hlist', hsame,
    selecting_congr filter (Tree.nodup_of_list hlist') (Tree.nodup_of_list hlist) hsame⟩

/-- **A test of a blessed project** ends well, with the same verdict on each example, prints a line
about it, and leaves what is expected as it is. -/
structure Repeats (blessed : Tree) (names : List String) (verdict : Verdict)
    (line : String → String) (outcome : Outcome) : Prop where
  exitCode : outcome.exitCode = 0
  results : outcome.results = names.map fun name => (name, .ok verdict)
  reported : ∀ name ∈ names, Text.encode (line name) <:+: outcome.progress.output
  expected : ∀ path, expectedDirectory <+: path →
    outcome.progress.tree.entry? path = blessed.entry? path

/-- Below the directory of the expected files there is only the one of an example. -/
theorem eq_of_owns_below {name : String} {p q : Path} (howns : Owns name p)
    (hq : expectedDirectory <+: q) (hway : q <+: p) :
    q = expectedDirectory ∨ q = expectedPath name := by
  have hp : p = expectedPath name := by
    rcases howns with h | ⟨a, b, rfl⟩
    · exact h
    · obtain ⟨more, hmore⟩ := hq.trans hway
      simp [expectedDirectory, testsuite] at hmore
  subst hp
  obtain ⟨more, rfl⟩ := hq
  have hmore : more <+: [name ++ ".expected"] := (List.prefix_append_right_inj _).1 hway
  rcases List.prefix_cons_iff.1 hmore with rfl | ⟨more', rfl, hmore'⟩
  · exact .inl (List.append_nil _)
  · obtain rfl := List.prefix_nil.1 hmore'
    exact .inr rfl

theorem repeats_of_stands (workspace : Workspace) (tools : Toolchain) {blessed : Tree}
    {blessing : Bool} (line : String → String)
    (hlist : blessed.list (testsuite ++ ["examples"]) = .ok files)
    (hslash : ∀ file ∈ files, '/' ∉ file.toList) (hnames : selecting filter (stems files) ≠ [])
    (hline : ∀ name shown, (Verdict.standing blessing).show name shown = line name)
    (hstands : ∀ name ∈ selecting filter (stems files), ∀ earlier,
      Stands blessing blessed (runAlone workspace tools blessing blessed earlier name)) :
    Repeats blessed (selecting filter (stems files)) (.standing blessing) line
      (perform workspace tools blessed (.test filter blessing)) := by
  have hselected := selected_eq filter hlist
  obtain ⟨hruns, hgrown⟩ := runTests_selected workspace tools blessing filter hlist hslash
  have hresults := results_perform_test workspace tools blessing hselected
  obtain ⟨text, hprogress⟩ := progress_perform_test workspace tools blessing hselected
  have hexit := exitCode_perform_test workspace tools blessing hselected
  generalize selecting filter (stems files) = names at *
  have hgood :
      ∀ run ∈ visits workspace tools blessing blessed [] names, Stands blessing blessed run := by
    intro run hrun
    obtain ⟨earlier, name, hname, rfl⟩ := mem_visits hrun
    exact hstands name hname earlier
  have hall : (visits workspace tools blessing blessed [] names).map Visit.name = names :=
    names_visits_of_accepted fun run hrun => (hgood run hrun).result ▸ accepted_standing blessing
  have hrun :
      ∀ name ∈ names, ∃ run ∈ visits workspace tools blessing blessed [] names, run.name = name :=
    fun name hname => List.mem_map.1 (hall.symm ▸ hname)
  generalize visits workspace tools blessing blessed [] names = runs at *
  generalize (runTests workspace tools blessing names).run ⟨blessed, [], [], []⟩ = r at *
  obtain ⟨results, p'⟩ := r
  dsimp only at hruns hgrown hresults hprogress hexit
  have hentry : ∀ name ∈ names, p'.tree.entry? (expectedPath name) =
      blessed.entry? (expectedPath name) := by
    intro name hname
    obtain ⟨run, hmem, rfl⟩ := hrun name hname
    obtain ⟨contents, hbefore, hafter⟩ := (hgood run hmem).expected
    exact ((hruns.trees run hmem).owned _ (owns_expectedPath _)).trans (hafter.trans hbefore.symm)
  exact {
    exitCode := by
      refine hexit.2 ⟨hnames, (forall_results hruns.results).2 fun run hmem => ?_⟩
      exact (hgood run hmem).result ▸ accepted_standing blessing
    results := by
      have heach := ((List.forall₂_and_left _ _).2 ⟨hgood, hruns.results⟩).imp
        fun run r (h : Stands blessing blessed run ∧ r.1 = run.name ∧ Alike run.result r.2) =>
          show (run.name, .ok (.standing blessing)) = r from
            Prod.ext h.2.1.symm (h.1.result ▸ h.2.2).eq_of_ok.symm
      have hmap : runs.map (fun run => (run.name, .ok (.standing blessing))) = results :=
        List.forall₂_eq_eq_eq ▸ List.forall₂_map_left_iff.2 heach
      rw [hresults, ← hmap, ← hall, List.map_map]
      rfl
    reported := by
      intro name hname
      obtain ⟨run, hmem, rfl⟩ := hrun name hname
      obtain ⟨shown, hreported⟩ := (hgood run hmem).reported
      rw [hline] at hreported
      have hprinted := hreported.isInfix.trans (Visit.infix_output workspace hmem)
      rw [hprogress]
      show _ <:+: p'.output ++ _
      rw [hruns.output]
      exact hprinted.trans (List.prefix_append _ _).isInfix
    expected := by
      intro path hpath
      rw [hprogress]
      show p'.tree.entry? path = _
      rcases hgrown path with ⟨name, hname, howns⟩ | hsame | ⟨hnone, -, name, hname, p, howns, hway⟩
      · rcases eq_of_owns_below howns hpath (List.prefix_refl _) with rfl | rfl
        · exact absurd howns.length (by decide)
        · exact hentry name hname
      · exact hsame
      · rcases eq_of_owns_below howns hpath hway with rfl | rfl
        · -- There is an expected file, so its directory has been there all along.
          obtain ⟨run, hmem, rfl⟩ := hrun name hname
          obtain ⟨contents, hbefore, -⟩ := (hgood run hmem).expected
          have hdir := Tree.directory_above hbefore (Tree.expectedDirectory_above _)
            (by simp [expectedPath])
          cases hnone.symm.trans hdir
        · exact hentry name hname }

theorem show_unchanged (name : String) {shown : Capture} :
    (Verdict.blessed .unchanged).show name shown = s!"  {name}.expected: No change\n" := by
  show "  " ++ name ++ ".expected: " ++ "No change" ++ "\n" =
    "  " ++ name ++ ".expected: No change\n"
  have hwords : ".expected: " ++ ("No change" ++ "\n") = ".expected: No change\n" := rfl
  rw [String.append_assoc, String.append_assoc, hwords]

/-- A test that ends well has found its examples. -/
theorem list_of_success {workspace : Workspace} {tools : Toolchain} {blessing : Bool}
    (h : (perform workspace tools t (.test filter blessing)).exitCode = 0) :
    ∃ files, t.list (testsuite ++ ["examples"]) = .ok files := by
  cases hlist : t.list (testsuite ++ ["examples"]) with
  | ok files => exact ⟨files, rfl⟩
  | error cause =>
    have hselected : selected t filter = .error (.unreadableExamples cause) := by
      rw [selected, hlist]
      rfl
    unfold perform performTest at h
    dsimp only at h
    rw [hselected] at h
    cases h

/-- After a test that blesses and ends well, all of its examples stand. -/
theorem stands_after_blessing {workspace : Workspace} {tools : Toolchain} (hsteady : tools.Steady)
    (hlist : t.list (testsuite ++ ["examples"]) = .ok files)
    (hslash : ∀ file ∈ files, '/' ∉ file.toList)
    (hblessed : (perform workspace tools t (.test filter true)).exitCode = 0) (blessing : Bool)
    {name : String} (hname : name ∈ selecting filter (stems files)) (later : List Call) :
    Stands blessing (perform workspace tools t (.test filter true)).progress.tree
      (runAlone workspace tools blessing (perform workspace tools t (.test filter true)).progress.tree
        later name) := by
  have hselected := selected_eq filter hlist
  have hruns := (runTests_selected workspace tools true filter hlist hslash).1
  obtain ⟨text, hprogress⟩ := progress_perform_test workspace tools true hselected
  have hgood := (forall_results hruns.results).1
    ((exitCode_perform_test workspace tools true hselected).1 hblessed).2
  obtain ⟨run, hrun, rfl⟩ := List.mem_map.1 ((names_visits_of_accepted hgood).symm ▸ hname)
  have hkept := hruns.trees run hrun
  have hok := hgood run hrun
  obtain ⟨earlier, name, -, rfl⟩ := mem_visits hrun
  rw [hprogress]
  cases hresult : (runAlone workspace tools true t earlier name).result with
  | error failure =>
    rw [hresult] at hok
    cases hok
  | ok v =>
    exact stands_of_blessed hsteady (slashless_of_selected hslash name hname)
      (testsuite_of_list hlist) hresult hkept blessing later

/-- **After blessing, a test passes, and blessing again changes nothing.** The tools do the same
each time; what they show need not be text. -/
theorem test_after_blessing (workspace : Workspace) (tools : Toolchain) (tree : Tree)
    (filter : Option String) (hsteady : tools.Steady)
    (hslash : ∀ files, tree.list (testsuite ++ ["examples"]) = .ok files →
      ∀ file ∈ files, '/' ∉ file.toList)
    (hblessed : (perform workspace tools tree (.test filter true)).exitCode = 0) :
    let blessed := (perform workspace tools tree (.test filter true)).progress.tree
    ∃ names, selected tree filter = .ok names ∧ selected blessed filter = .ok names ∧ names ≠ [] ∧
      Repeats blessed names .passed (fun _ => "  PASS\n")
        (perform workspace tools blessed (.test filter false)) ∧
      Repeats blessed names (.blessed .unchanged) (fun name => s!"  {name}.expected: No change\n")
        (perform workspace tools blessed (.test filter true)) := by
  intro blessed
  obtain ⟨files, hlist⟩ := list_of_success hblessed
  have hfiles := hslash files hlist
  have hselected := selected_eq filter hlist
  have hnames := ((exitCode_perform_test workspace tools true hselected).1 hblessed).1
  have hgrown : Tree.GrownBy (selecting filter (stems files)) tree blessed := by
    obtain ⟨text, hprogress⟩ := progress_perform_test workspace tools true hselected
    rw [show blessed = _ from congrArg Progress.tree hprogress]
    exact (runTests_selected workspace tools true filter hlist hfiles).2
  obtain ⟨files', hlist', hsame, hagain⟩ := list_of_grown filter hgrown hlist
  have hfiles' : ∀ file ∈ files', '/' ∉ file.toList := fun file hfile =>
    hfiles file ((hsame file).1 hfile)
  have hstands : ∀ blessing, ∀ name ∈ selecting filter (stems files'), ∀ later,
      Stands blessing blessed (runAlone workspace tools blessing blessed later name) :=
    fun blessing name hname => stands_after_blessing hsteady hlist hfiles hblessed blessing
      (hagain ▸ hname)
  have hpassed := repeats_of_stands workspace tools (fun _ => "  PASS\n") hlist' hfiles'
    (hagain ▸ hnames) (fun _ _ => rfl) (hstands false)
  have hunchanged := repeats_of_stands workspace tools
    (fun name => s!"  {name}.expected: No change\n") hlist' hfiles' (hagain ▸ hnames)
    (fun name _ => show_unchanged name) (hstands true)
  have hselected' := selected_eq filter hlist'
  rw [hagain] at hselected' hpassed hunchanged
  exact ⟨_, hselected, hselected', hnames, hpassed, hunchanged⟩

/-- The first example sends a byte that is no text, and the second one sends nothing. -/
def noisyTools : Script where
  scenes := [("one", loggingScene "ok" [1, 0] [0x68, 0xff]), ("two", loggingScene "ok" [1, 0] [])]

theorem test_after_blessing_noise :
    noisyTools.tools.Steady ∧
      (∀ files, twoExamples.list (testsuite ++ ["examples"]) = .ok files →
        ∀ file ∈ files, '/' ∉ file.toList) ∧
      (perform ⟨"", ""⟩ noisyTools.tools twoExamples (.test none true)).exitCode = 0 ∧
      let blessed :=
        (perform ⟨"", ""⟩ noisyTools.tools twoExamples (.test none true)).progress.tree
      ∃ names, selected twoExamples none = .ok names ∧ selected blessed none = .ok names ∧
        names ≠ [] ∧
        Repeats blessed names .passed (fun _ => "  PASS\n")
          (perform ⟨"", ""⟩ noisyTools.tools blessed (.test none false)) ∧
        Repeats blessed names (.blessed .unchanged)
          (fun name => s!"  {name}.expected: No change\n")
          (perform ⟨"", ""⟩ noisyTools.tools blessed (.test none true)) := by
  have hslash : ∀ files, twoExamples.list (testsuite ++ ["examples"]) = .ok files →
      ∀ file ∈ files, '/' ∉ file.toList := by
    intro files hlist
    have hfiles : ["one.rs", "two.rs"] = files := Except.ok.inj hlist
    rw [← hfiles]
    decide
  have hblessed :
      (perform ⟨"", ""⟩ noisyTools.tools twoExamples (.test none true)).exitCode = 0 := by
    rw [perform_test _ _ _ selected_twoExamples (by decide)]
    decide +kernel
  exact ⟨noisyTools.steady_tools, hslash, hblessed,
    test_after_blessing _ _ _ none noisyTools.steady_tools hslash hblessed⟩

end Repeated

end PolledUart.Tasks

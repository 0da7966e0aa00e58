import PolledUart.Proofs.ExampleRuns

/-!
# The files of an example

What a run of an example writes belongs to that example: its image and its expected file, besides
the directories on the way there. What it reads belongs to it as well. `Tree.GrownBy` says what
runs of some examples can have changed, and `Tree.SameFor` that two trees make no difference for
an example.

* `Tree.GrownBy.sameFor` — runs of other examples make no difference.
* `Tree.SameFor.install`, `Tree.SameFor.verdict_eq` — installing, judging and blessing on two trees
  that make no difference.
-/

namespace PolledUart.Tasks

/-! ### What belongs to an example -/

/-- The files that belong to an example: its expected file, and the images of its name. -/
def Owns (name : String) (path : Path) : Prop :=
  path = expectedPath name ∨ ∃ a b, path = ["target", a, b, "examples", name]

section Owns

variable {name name' : String} {p q : Path}

theorem owns_expectedPath (name : String) : Owns name (expectedPath name) := .inl rfl

theorem owns_image (job : Job) : Owns job.name job.image.path := .inr ⟨_, _, rfl⟩

theorem text_builtImage (job : Job) : (builtImage job.buildArguments).text = job.name := by
  simp [builtImage, Job.buildArguments, optionValue?]

theorem owns_builtImage (job : Job) : Owns job.name (builtImage job.buildArguments).path := by
  refine .inr ⟨(optionValue? "--target" job.buildArguments).getD "",
    profile (decide ("--release" ∈ job.buildArguments)), ?_⟩
  rw [Route.path, text_builtImage]
  rfl

/-- No file belongs to two examples. -/
theorem Owns.unique (h : Owns name p) (h' : Owns name' p) : name = name' := by
  rcases h with rfl | ⟨a, b, rfl⟩ <;> rcases h' with h' | ⟨a', b', h'⟩
  · simpa [expectedPath, expectedDirectory] using h'
  · simp [expectedPath, expectedDirectory, testsuite] at h'
  · simp [expectedPath, expectedDirectory, testsuite] at h'
  · simp only [List.cons.injEq, true_and, and_true] at h'
    exact h'.2.2

theorem Owns.length (h : Owns name p) : p.length = 3 ∨ p.length = 5 := by
  rcases h with rfl | ⟨a, b, rfl⟩
  · exact .inl rfl
  · exact .inr rfl

/-- What is above a file of an example belongs to none. -/
theorem Owns.above (h : Owns name p) (hq : q <+: p) (hne : q ≠ p) : ¬ Owns name' q := by
  intro h'
  have hlength : q.length < p.length :=
    Nat.lt_of_le_of_ne hq.length_le fun heq => hne (hq.eq_of_length heq)
  rcases h with rfl | ⟨a, b, rfl⟩ <;> rcases h' with rfl | ⟨a', b', rfl⟩
  · exact absurd hlength (Nat.lt_irrefl _)
  · exact absurd hlength (by simp [expectedPath, expectedDirectory, testsuite])
  · simp [expectedPath, expectedDirectory, testsuite] at hq
  · exact absurd hlength (Nat.lt_irrefl _)

theorem not_owns_testsuite (name : String) : ¬ Owns name testsuite := by
  intro h
  rcases h.length with h | h <;> cases h

end Owns

/-! ### What runs of examples can have changed -/

namespace Tree

variable {names names' : List String} {name : String} {t t' u u' : Tree} {p q : Path}

/-- The tree has changed in the files of some examples only, and by directories on the way to
them. -/
def GrownBy (names : List String) (t t' : Tree) : Prop :=
  ∀ q, (∃ name ∈ names, Owns name q) ∨ t'.entry? q = t.entry? q ∨
    (t.entry? q = none ∧ t'.entry? q = some .directory ∧
      ∃ name ∈ names, ∃ p, Owns name p ∧ q <+: p)

theorem GrownBy.refl (names : List String) (t : Tree) : GrownBy names t t :=
  fun _ => .inr (.inl rfl)

theorem GrownBy.mono (h : GrownBy names t t') (hsub : ∀ name ∈ names, name ∈ names') :
    GrownBy names' t t' := by
  intro q
  rcases h q with ⟨name, hname, howns⟩ | hsame | ⟨hnone, hdir, name, hname, hway⟩
  · exact .inl ⟨name, hsub name hname, howns⟩
  · exact .inr (.inl hsame)
  · exact .inr (.inr ⟨hnone, hdir, name, hsub name hname, hway⟩)

theorem GrownBy.trans (h : GrownBy names t t') (h' : GrownBy names t' u) : GrownBy names t u := by
  intro q
  rcases h q with howns | hsame | ⟨hnone, hdir, hway⟩
  · exact .inl howns
  · rw [← hsame]
    exact h' q
  · rcases h' q with howns | hsame | ⟨hnone', -⟩
    · exact .inl howns
    · exact .inr (.inr ⟨hnone, hsame.trans hdir, hway⟩)
    · cases hdir.symm.trans hnone'

/-- What is on the way to none of the files is the same. -/
theorem GrownBy.same (h : GrownBy names t t') (hq : ∀ name p, Owns name p → ¬ q <+: p) :
    t'.entry? q = t.entry? q := by
  rcases h q with ⟨name, -, howns⟩ | hsame | ⟨-, -, name, -, p, hp, hway⟩
  · exact absurd (List.prefix_refl q) (hq name q howns)
  · exact hsame
  · exact absurd hway (hq name p hp)

/-- A directory that is none of the files stays one. -/
theorem GrownBy.directory (h : GrownBy names t t') (hq : ∀ name, ¬ Owns name q)
    (hdir : t.entry? q = some .directory) : t'.entry? q = some .directory := by
  rcases h q with ⟨name, -, howns⟩ | hsame | ⟨-, hdir', -⟩
  · exact absurd howns (hq name)
  · exact hsame.trans hdir
  · exact hdir'

/-- For an example, nothing is different but that there may be more directories above its files. -/
structure SameFor (name : String) (t t' : Tree) : Prop where
  testsuite : t.entry? testsuite = some .directory
  owned : ∀ q, Owns name q → t'.entry? q = t.entry? q
  above : ∀ p q, Owns name p → q <+: p → q ≠ p →
    t'.entry? q = t.entry? q ∨ t.entry? q = none ∧ t'.entry? q = some .directory

/-- Runs of other examples make no difference. -/
theorem GrownBy.sameFor (h : GrownBy names t t') (hname : name ∉ names)
    (htestsuite : t.entry? Tasks.testsuite = some .directory) : SameFor name t t' where
  testsuite := htestsuite
  owned := by
    intro q hq
    rcases h q with ⟨other, hother, howns⟩ | hsame | ⟨-, -, other, hother, p, hp, hway⟩
    · exact absurd (howns.unique hq ▸ hother) hname
    · exact hsame
    · by_cases heq : q = p
      · exact absurd ((heq ▸ hp).unique hq ▸ hother) hname
      · exact absurd hq (hp.above hway heq)
  above := by
    intro p q hp hway hne
    rcases h q with ⟨other, -, howns⟩ | hsame | ⟨hnone, hdir, -⟩
    · exact absurd howns (hp.above hway hne)
    · exact .inl hsame
    · exact .inr ⟨hnone, hdir⟩

namespace SameFor

variable (h : SameFor name t t')

include h

theorem testsuite_right : t'.entry? Tasks.testsuite = some .directory := by
  have hway : Tasks.testsuite <+: expectedPath name := ⟨["expected", name ++ ".expected"], rfl⟩
  have hne : Tasks.testsuite ≠ expectedPath name := nofun
  rcases h.above _ _ (owns_expectedPath name) hway hne with hsame | ⟨hnone, -⟩
  · exact hsame.trans h.testsuite
  · cases h.testsuite.symm.trans hnone

/-- The two trees stay the same for the example, if what changes changes in both. -/
theorem of_same (htestsuite : u.entry? Tasks.testsuite = some .directory)
    (hsame : ∀ q, u'.entry? q = u.entry? q ∨ u.entry? q = t.entry? q ∧ u'.entry? q = t'.entry? q) :
    SameFor name u u' where
  testsuite := htestsuite
  owned := by
    intro q hq
    rcases hsame q with hsame | ⟨hu, hu'⟩
    · exact hsame
    · rw [hu, hu', h.owned q hq]
  above := by
    intro p q hp hway hne
    rcases hsame q with hsame | ⟨hu, hu'⟩
    · exact .inl hsame
    · rw [hu, hu']
      exact h.above p q hp hway hne

theorem trans (h' : SameFor name t' u) : SameFor name t u where
  testsuite := h.testsuite
  owned := fun q hq => (h'.owned q hq).trans (h.owned q hq)
  above := by
    intro p q hp hway hne
    rcases h'.above p q hp hway hne with hsame | ⟨hnone, hdir⟩
    · rw [hsame]
      exact h.above p q hp hway hne
    · rcases h.above p q hp hway hne with hsame | ⟨-, hdir'⟩
      · exact .inr ⟨hsame ▸ hnone, hdir⟩
      · cases hdir'.symm.trans hnone

theorem file_iff (hp : Owns name p) (hway : q <+: p) {contents : File} :
    t'.entry? q = some (.file contents) ↔ t.entry? q = some (.file contents) := by
  by_cases heq : q = p
  · rw [h.owned q (heq ▸ hp)]
  · rcases h.above p q hp hway heq with hsame | ⟨hnone, hdir⟩
    · rw [hsame]
    · simp [hnone, hdir]

theorem clear_iff (hp : Owns name p) (hway : q <+: p) : t'.Clear q ↔ t.Clear q :=
  forall₂_congr fun r hr => forall_congr' fun contents => by
    rw [ne_eq, ne_eq, h.file_iff hp (hr.trans hway)]

theorem fits_iff {route : Route} (hroute : Owns name route.path) :
    t'.Fits route ↔ t.Fits route := by
  have hclear := h.clear_iff hroute (List.prefix_append route.start [route.text])
  have hentry := h.owned _ hroute
  constructor
  · exact fun hf => ⟨hf.plain, hf.short, hclear.1 hf.clear, hentry ▸ hf.free⟩
  · exact fun hf => ⟨hf.plain, hf.short, hclear.2 hf.clear, hentry ▸ hf.free⟩

end SameFor

/-! ### What changes the tree -/

/-- A file of the example is written, in directories that are made if need be. -/
theorem grownBy_of_entry {start : Path} (hp : Owns name p) (hway : start <+: p)
    (hclear : t.Clear start)
    (hu : ∀ q, q ≠ p → u.entry? q = if q <+: start then some .directory else t.entry? q) :
    GrownBy [name] t u := by
  intro q
  by_cases hq : q = p
  · exact .inl ⟨name, List.mem_singleton_self _, hq ▸ hp⟩
  · rw [hu q hq]
    split
    · rename_i hstart
      rcases hentry : t.entry? q with _ | ⟨contents | _⟩
      · exact .inr (.inr ⟨rfl, rfl, name, List.mem_singleton_self _, p, hp, hstart.trans hway⟩)
      · exact absurd hentry (hclear q hstart contents)
      · exact .inr (.inl rfl)
    · exact .inr (.inl rfl)

section Install

variable (home : Path) {route : Route} {image : File} (hslash : '/' ∉ route.text.toList)
  (hroute : Owns name route.path)

include hslash hroute

theorem grownBy_install : GrownBy [name] t (install home t route image) := by
  by_cases hf : t.Fits route
  · refine grownBy_of_entry hroute (List.prefix_append _ _) hf.clear fun q hq => ?_
    rw [entry?_install home hslash hf, if_neg hq]
  · rw [install_of_not_fits home hslash hf]
    exact .refl _ _

theorem SameFor.install (h : SameFor name t t') :
    SameFor name (install home t route image) (install home t' route image) := by
  have hgrown : GrownBy [name] t (Tasks.install home t route image) :=
    grownBy_install home hslash hroute
  have htestsuite := hgrown.directory not_owns_testsuite h.testsuite
  refine h.of_same htestsuite fun q => ?_
  by_cases hf : t.Fits route
  · rw [entry?_install home hslash hf, entry?_install home hslash ((h.fits_iff hroute).2 hf)]
    split
    · exact .inl rfl
    · split
      · exact .inl rfl
      · exact .inr ⟨rfl, rfl⟩
  · rw [install_of_not_fits home hslash hf,
      install_of_not_fits home hslash fun hf' => hf ((h.fits_iff hroute).1 hf')]
    exact .inr ⟨rfl, rfl⟩

end Install

theorem expectedDirectory_above (name : String) : expectedDirectory <+: expectedPath name :=
  List.prefix_append _ _

theorem grownBy_write {contents : File} (h : t.write (expectedPath name) contents = .ok u) :
    GrownBy [name] t u := by
  intro q
  by_cases hq : q = expectedPath name
  · exact .inl ⟨name, List.mem_singleton_self _, .inl hq⟩
  · exact .inr (.inl (by rw [entry?_write h, if_neg hq]))

theorem SameFor.write {contents : File} (h : SameFor name t t')
    (hu : t.write (expectedPath name) contents = .ok u)
    (hu' : t'.write (expectedPath name) contents = .ok u') : SameFor name u u' := by
  refine h.of_same ((grownBy_write hu).directory not_owns_testsuite h.testsuite) fun q => ?_
  rw [entry?_write hu, entry?_write hu']
  split
  · exact .inl rfl
  · exact .inr ⟨rfl, rfl⟩

theorem grownBy_makeDirectories (name : String) (h : t.makeDirectories expectedDirectory = .ok u) :
    GrownBy [name] t u :=
  grownBy_of_entry (owns_expectedPath name) (expectedDirectory_above name)
    (exists_makeDirectories_iff.1 ⟨u, h⟩) fun q _ => entry?_makeDirectories h q

theorem SameFor.makeDirectories (h : SameFor name t t')
    (hu : t.makeDirectories expectedDirectory = .ok u)
    (hu' : t'.makeDirectories expectedDirectory = .ok u') : SameFor name u u' := by
  refine h.of_same ((grownBy_makeDirectories name hu).directory not_owns_testsuite h.testsuite)
    fun q => ?_
  rw [entry?_makeDirectories hu, entry?_makeDirectories hu']
  split
  · exact .inl rfl
  · exact .inr ⟨rfl, rfl⟩

/-! ### Verdicts on two trees -/

section Verdict

variable {console : String}

/-- The directory of the expected files can be made unless there is a file of its name. -/
theorem clear_expectedDirectory_iff (htestsuite : t.entry? Tasks.testsuite = some .directory) :
    t.Clear expectedDirectory ↔
      ∀ contents, t.entry? expectedDirectory ≠ some (.file contents) := by
  refine ⟨fun hclear => hclear _ (List.prefix_refl _), fun hfree q hq contents hentry => ?_⟩
  by_cases heq : q = expectedDirectory
  · exact hfree contents (heq ▸ hentry)
  · -- What is above is the directory of the test suite, or above that.
    have hway : q <+: Tasks.testsuite := by
      obtain ⟨rest, hrest⟩ := hq
      rcases List.eq_nil_or_concat rest with rfl | ⟨front, last, rfl⟩
      · exact absurd (by simpa using hrest) heq
      · rw [List.concat_eq_append, ← List.append_assoc] at hrest
        exact ⟨front, (List.append_inj' hrest rfl).1⟩
    by_cases hsame : q = Tasks.testsuite
    · cases htestsuite.symm.trans (hsame ▸ hentry)
    · cases (directory_above htestsuite hway hsame).symm.trans hentry

theorem error_of_makeDirectories {e : FileError}
    (htestsuite : t.entry? Tasks.testsuite = some .directory)
    (h : t.makeDirectories expectedDirectory = .error e) : e = .alreadyExists := by
  have hblocked : ¬ t.Clear expectedDirectory := fun hclear => by
    obtain ⟨made, hmade⟩ := exists_makeDirectories_iff.2 hclear
    cases h.symm.trans hmade
  rw [clear_expectedDirectory_iff htestsuite] at hblocked
  obtain ⟨contents, hfile⟩ := Classical.not_forall_not.1 hblocked
  have hstands : t.makeDirectories (Tasks.testsuite ++ ["expected"]) = .error .alreadyExists :=
    makeDirectories_of_file hfile
  cases h.symm.trans hstands
  rfl

/-- Making the directory leaves the files in it alone. -/
theorem entry?_expectedPath_of_made (h : t.makeDirectories expectedDirectory = .ok u) :
    u.entry? (expectedPath name) = t.entry? (expectedPath name) := by
  rw [entry?_makeDirectories h, if_neg]
  exact fun hway => absurd hway.length_le (by simp [expectedPath])

theorem SameFor.writeExpected_eq (h : SameFor name t t')
    (hdir : t.entry? expectedDirectory = some .directory)
    (hfree : t.entry? (expectedPath name) ≠ some .directory) (change : Change) :
    (writeExpected t' name console change).1 = (writeExpected t name console change).1 ∧
      SameFor name (writeExpected t name console change).2
        (writeExpected t' name console change).2 := by
  have hentry := h.owned _ (owns_expectedPath name)
  have hdir' : t'.entry? expectedDirectory = some .directory := by
    rcases h.above _ _ (owns_expectedPath name) (expectedDirectory_above name)
      (by simp [expectedPath]) with hsame | ⟨-, hdir'⟩
    · exact hsame.trans hdir
    · exact hdir'
  have hfree' : t'.entry? (expectedPath name) ≠ some .directory := hentry ▸ hfree
  unfold writeExpected
  by_cases hshort : Short (expectedPath name)
  · obtain ⟨u, hu⟩ := exists_write (.ofText console) hdir hfree hshort
    obtain ⟨u', hu'⟩ := exists_write (.ofText console) hdir' hfree' hshort
    have hwrite : t.write (expectedPath name) (.ofText console) = .ok u := hu
    have hwrite' : t'.write (expectedPath name) (.ofText console) = .ok u' := hu'
    rw [hwrite, hwrite']
    exact ⟨rfl, h.write hwrite hwrite'⟩
  · have hlong : t.write (expectedPath name) (.ofText console) = .error .nameTooLong :=
      write_of_too_long hdir hfree hshort
    have hlong' : t'.write (expectedPath name) (.ofText console) = .error .nameTooLong :=
      write_of_too_long hdir' hfree' hshort
    rw [hlong, hlong']
    exact ⟨rfl, h⟩

theorem grownBy_writeExpected (change : Change) :
    GrownBy [name] t (writeExpected t name console change).2 := by
  unfold writeExpected
  split
  · rename_i hwrite
    exact grownBy_write hwrite
  · exact .refl _ _

theorem grownBy_bless : GrownBy [name] t (bless t name console).2 := by
  unfold bless
  split
  · split
    · exact .refl _ _
    · split
      · exact .refl _ _
      · exact grownBy_writeExpected _
  · split
    · exact .refl _ _
    · rename_i hmade
      exact (grownBy_makeDirectories name hmade).trans (grownBy_writeExpected _)

theorem SameFor.contains_eq (h : SameFor name t t') :
    t'.contains (expectedPath name) = t.contains (expectedPath name) := by
  rw [contains, contains, h.owned _ (owns_expectedPath name)]

theorem SameFor.readText_eq (h : SameFor name t t')
    (hcontains : t.contains (expectedPath name) = true) :
    t'.readText (expectedPath name) = t.readText (expectedPath name) := by
  obtain ⟨e, he⟩ := Option.isSome_iff_exists.1 hcontains
  exact readText_congr he ((h.owned _ (owns_expectedPath name)).trans he)

theorem SameFor.judge_eq (h : SameFor name t t') :
    judge t' name console = judge t name console := by
  unfold judge
  rw [h.contains_eq]
  split
  · rename_i hcontains
    rw [h.readText_eq hcontains]
  · rfl

theorem SameFor.bless_eq (h : SameFor name t t') (console : String) :
    (bless t' name console).1 = (bless t name console).1 ∧
      SameFor name (bless t name console).2 (bless t' name console).2 := by
  unfold bless
  rw [h.contains_eq]
  split
  · rename_i hcontains
    rw [h.readText_eq hcontains]
    cases hread : t.readText (expectedPath name) with
    | error e => exact ⟨rfl, h⟩
    | ok old =>
      dsimp only
      split
      · exact ⟨rfl, h⟩
      · obtain ⟨contents, hentry, -⟩ := readText_eq_ok_iff.1 hread
        have hdir : t.entry? expectedDirectory = some .directory :=
          directory_above hentry (expectedDirectory_above name) (by simp [expectedPath])
        exact h.writeExpected_eq hdir (by rw [hentry]; simp) _
  · rename_i hcontains
    have hnone : t.entry? (expectedPath name) = none := by
      simpa [contains] using hcontains
    cases hmade : t.makeDirectories expectedDirectory with
    | error e =>
      obtain rfl := error_of_makeDirectories h.testsuite hmade
      cases hmade' : t'.makeDirectories expectedDirectory with
      | error e' =>
        obtain rfl := error_of_makeDirectories h.testsuite_right hmade'
        exact ⟨rfl, h⟩
      | ok made' =>
        have hclear := (h.clear_iff (owns_expectedPath name) (expectedDirectory_above name)).1
          (exists_makeDirectories_iff.1 ⟨made', hmade'⟩)
        obtain ⟨made, hok⟩ := exists_makeDirectories_iff.2 hclear
        cases hmade.symm.trans hok
    | ok made =>
      have hclear := (h.clear_iff (owns_expectedPath name) (expectedDirectory_above name)).2
        (exists_makeDirectories_iff.1 ⟨made, hmade⟩)
      obtain ⟨made', hmade'⟩ := exists_makeDirectories_iff.2 hclear
      rw [hmade']
      have hfree : made.entry? (expectedPath name) ≠ some .directory := by
        rw [entry?_expectedPath_of_made hmade, hnone]
        simp
      have hdir : made.entry? expectedDirectory = some .directory := by
        rw [entry?_makeDirectories hmade, if_pos (List.prefix_refl _)]
      exact (h.makeDirectories hmade hmade').writeExpected_eq hdir hfree _

theorem grownBy_verdict (blessing : Bool) (name console : String) :
    GrownBy [name] t (verdict blessing t name console).2 := by
  unfold verdict
  split
  · exact grownBy_bless
  · exact .refl _ _

theorem SameFor.verdict_eq (h : SameFor name t t') (blessing : Bool) (console : String) :
    (verdict blessing t' name console).1 = (verdict blessing t name console).1 ∧
      SameFor name (verdict blessing t name console).2 (verdict blessing t' name console).2 := by
  obtain ⟨hsame, hrest⟩ := h.bless_eq console
  cases blessing with
  | true => exact ⟨congrArg (Except.map Verdict.blessed) hsame, hrest⟩
  | false => exact ⟨h.judge_eq, h⟩

end Verdict

end Tree

end PolledUart.Tasks

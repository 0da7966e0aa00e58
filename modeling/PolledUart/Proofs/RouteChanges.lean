import PolledUart.Proofs.TreeChanges

/-!
# What writing along a route changes

A route may go up and down before it comes to its file, and it may leave the project on its way and
come back. Whatever its steps, writing a file where it leads changes one path, that of the file;
besides, directories are made where there was nothing, on the way (`Tree.Laid`). Nothing changes
unless the path from the top comes to the project's directory.

* `Tree.makeWay_lays` — making the way.
* `Tree.entry?_writeRoute` — writing the file.
* `Tree.entry?_install_cases` — putting an image in its place, if there is one.
-/

namespace PolledUart.Tasks

namespace Route

/-- The path from the top of all files to where a route comes after some of its steps, for a
project in a directory. -/
def pathAfter (home : Path) (route : Route) (steps : List String) : Path :=
  steps.foldl advance (route.origin home)

/-- The path from the top of all files to where a route leads. -/
def destination (home : Path) (route : Route) : Path := route.pathAfter home route.steps

/-- A path of the project that a route goes through, or what is above it: the steps of the route
lead there before they have all been made. -/
def Passes (home : Path) (route : Route) (q : Path) : Prop :=
  ∃ before p, before <+: route.steps ∧ route.pathAfter home before = home ++ p ∧ q <+: p

/-- What writing a file where a route leads does to a path: the file stands there from then on, or a
directory on the way is there, which was not. -/
inductive WrittenAs (home : Path) (route : Route) (contents : File) (path : Path)
    (before : Option Entry) : Option Entry → Prop where
  /-- The file is written. -/
  | file : route.destination home = home ++ path →
      WrittenAs home route contents path before (some (.file contents))
  /-- The directory is made. -/
  | directory : route.Passes home path → before = none →
      WrittenAs home route contents path before (some .directory)

/-- The last step of a route goes down to the place where it leads. -/
theorem append_eq_destination {home : Path} {route : Route} {name : String}
    (hlast : route.steps.getLast? = some name) (hdown : ¬ (stays name = true ∨ name = "..")) :
    route.pathAfter home route.steps.dropLast ++ [name] = route.destination home := by
  obtain ⟨hstays, hup⟩ := not_or.1 hdown
  obtain ⟨front, hfront⟩ := List.getLast?_eq_some_iff.1 hlast
  rw [destination, hfront, List.dropLast_concat, pathAfter, pathAfter, List.foldl_append,
    List.foldl_cons, List.foldl_nil, advance, if_neg hstays, if_neg hup]

end Route

namespace Tree

variable {t t' u : Tree} {P P' : Path → Prop} {q : Path}

/-- The second tree is the first with some directories more, on paths of `P`. -/
def Laid (P : Path → Prop) (t t' : Tree) : Prop :=
  ∀ q, t'.entry? q = t.entry? q ∨
    t.entry? q = none ∧ t'.entry? q = some .directory ∧ P q

theorem Laid.refl (P : Path → Prop) (t : Tree) : Laid P t t := fun _ => .inl rfl

theorem Laid.mono (h : Laid P t t') (hP : ∀ q, P q → P' q) : Laid P' t t' :=
  fun q => (h q).imp_right fun ⟨hnone, hdir, hq⟩ => ⟨hnone, hdir, hP q hq⟩

theorem Laid.trans (h : Laid P t t') (h' : Laid P t' u) : Laid P t u := by
  intro q
  rcases h q with hsame | ⟨hnone, hdir, hq⟩
  · rw [← hsame]
    exact h' q
  · rcases h' q with hsame | ⟨hnone', -⟩
    · exact .inr ⟨hnone, hsame.trans hdir, hq⟩
    · cases hdir.symm.trans hnone'

theorem laid_of_makeDirectories {path : Path} (h : t.makeDirectories path = .ok t') :
    Laid (· <+: path) t t' := by
  intro q
  have hclear : t.Clear path := exists_makeDirectories_iff.1 ⟨t', h⟩
  rw [entry?_makeDirectories h]
  split
  · rename_i hq
    rcases hentry : t.entry? q with _ | ⟨contents | _⟩
    · exact .inr ⟨rfl, rfl, hq⟩
    · exact absurd hentry (hclear q hq contents)
    · exact .inl rfl
  · exact .inl rfl

theorem laid_of_makeAt {home here : Path} (h : t.makeAt home here = .ok t') :
    Laid (fun q => ∃ p, here = home ++ p ∧ q <+: p) t t' := by
  unfold makeAt at h
  split at h
  · rename_i below hplace
    exact (laid_of_makeDirectories h).mono fun q hq =>
      ⟨below, Place.ofPath_eq_inside_iff.1 hplace, hq⟩
  · obtain rfl := Except.ok.inj h
    exact .refl _ _

/-- **Making a way** lays directories at its places, and above them. -/
theorem makeWay_lays {home here there : Path} {steps : List String}
    (h : t.makeWay home here steps = .ok (t', there)) :
    there = steps.foldl advance here ∧
      Laid (fun q => ∃ before p, before <+: steps ∧
        before.foldl advance here = home ++ p ∧ q <+: p) t t' := by
  induction steps generalizing t here with
  | nil =>
    rw [makeWay] at h
    cases hmade : t.makeAt home here with
    | error e => simp [hmade, bind, Except.bind] at h
    | ok made =>
      simp only [hmade, bind, Except.bind, pure, Except.pure, Except.ok.injEq,
        Prod.mk.injEq] at h
      obtain ⟨rfl, rfl⟩ := h
      refine ⟨rfl, (laid_of_makeAt hmade).mono ?_⟩
      rintro q ⟨p, hp, hq⟩
      exact ⟨[], p, List.nil_prefix, hp, hq⟩
  | cons step rest ih =>
    rw [makeWay] at h
    cases hmade : t.makeAt home here with
    | error e => simp [hmade, bind, Except.bind] at h
    | ok made =>
      have hrest : made.makeWay home (advance here step) rest = .ok (t', there) := by
        simpa [hmade, bind, Except.bind] using h
      obtain ⟨hthere, hlaid⟩ := ih hrest
      refine ⟨hthere, ((laid_of_makeAt hmade).mono ?_).trans (hlaid.mono ?_)⟩
      · rintro q ⟨p, hp, hq⟩
        exact ⟨[], p, List.nil_prefix, hp, hq⟩
      · rintro q ⟨before, p, hbefore, hp, hq⟩
        exact ⟨step :: before, p, (List.prefix_cons_inj step).2 hbefore, hp, hq⟩

/-- **A file that is written where a route leads** stands there. Elsewhere there may be directories
on the way to it that were not there before, and nothing else has changed. -/
theorem entry?_writeRoute {home : Path} {route : Route} {contents : File}
    (h : t.writeRoute home route contents = .ok t') (q : Path) :
    t'.entry? q = t.entry? q ∨ route.WrittenAs home contents q (t.entry? q) (t'.entry? q) := by
  unfold writeRoute at h
  by_cases hlong : route.isTooLong = true
  · simp [hlong, bind, Except.bind, throw, throwThe, MonadExceptOf.throw] at h
  cases hway : t.makeWay home (route.origin home) route.steps.dropLast with
  | error e => simp [hlong, hway, bind, Except.bind] at h
  | ok r =>
    obtain ⟨made, here⟩ := r
    obtain ⟨rfl, hlaid⟩ := makeWay_lays hway
    have hlaid' : Laid (route.Passes home) t made :=
      hlaid.mono fun q ⟨before, p, hbefore, hp, hq⟩ =>
        ⟨before, p, hbefore.trans (List.dropLast_prefix _), hp, hq⟩
    have hmade : made.entry? q = t.entry? q ∨
        route.WrittenAs home contents q (t.entry? q) (made.entry? q) :=
      (hlaid' q).imp_right fun ⟨hnone, hdir, hpasses⟩ => hdir ▸ .directory hpasses hnone
    cases hlast : route.steps.getLast? with
    | none =>
      simp [hlong, hway, hlast, bind, Except.bind, throw, throwThe, MonadExceptOf.throw] at h
    | some name =>
      by_cases hup : stays name = true ∨ name = ".."
      · simp [hlong, hway, hlast, hup, bind, Except.bind, throw, throwThe,
          MonadExceptOf.throw] at h
      have hwrite : made.writePlace home
          (route.pathAfter home route.steps.dropLast ++ [name]) contents = .ok t' := by
        simpa [hlong, hway, hlast, hup, Route.pathAfter, bind, Except.bind] using h
      rw [Route.append_eq_destination hlast hup, writePlace] at hwrite
      cases hplace : Place.ofPath home (route.destination home) with
      | inside p =>
        rw [hplace] at hwrite
        have hwritten : t'.entry? q = if q = p then some (.file contents) else made.entry? q :=
          entry?_write hwrite q
        rw [hwritten]
        split
        · rename_i hq
          exact .inr (.file (hq ▸ Place.ofPath_eq_inside_iff.1 hplace))
        · exact hmade
      | outside p =>
        rw [hplace] at hwrite
        obtain rfl := Except.ok.inj hwrite
        exact hmade

/-- **Putting an image in its place** changes nothing, or writes it where its route leads and makes
directories on the way. -/
theorem entry?_install_cases (home : Path) (t : Tree) (route : Route) (image : File) (q : Path) :
    Tree.entry? (install home t route image) q = t.entry? q ∨
      route.WrittenAs home image q (t.entry? q)
        (Tree.entry? (install home t route image) q) := by
  unfold install
  split
  · rename_i hwritten
    exact entry?_writeRoute hwritten q
  · exact .inl rfl

/-- Out of the project and into it again, by steps up or from the top. -/
example : ∀ text ∈ ["../../project/note", "/work/project/note"],
    entry? (install ["work", "project"] (.directory []) ⟨["target"], text⟩ (.ofText "hi")) ["note"]
      = some (.file (.ofText "hi")) := by
  decide +kernel

end Tree

end PolledUart.Tasks

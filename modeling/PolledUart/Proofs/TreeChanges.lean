import PolledUart.Tasks.Expected
import PolledUart.Tasks.Toolchain
import PolledUart.Tasks.Capture

/-!
# When the tree can be changed

A tree is seen through `Tree.entry?`, and whether something can be done to it is read off that
view, too: a directory can be made unless a file is in its way, and a file can be written where a
directory is there to hold it.

* `exists_makeDirectories_iff` — making directories.
* `exists_write`, `write_of_too_long` — writing a file.
* `readRoute_eq_ok_iff` — reading the file that a single name leads to.
* `entry?_install` — putting an image where a single name leads to, if it fits there.
-/

namespace PolledUart.Tasks

namespace Tree

variable {tree tree' : Tree} {path p q : Path} {name : String} {contents : File} {e : Entry}

/-! ### Above a path -/

theorem entryAt_of_append {slot : Option Tree} (h : entryAt (p ++ q) slot = some e) (hq : q ≠ []) :
    entryAt p slot = some .directory := by
  induction p generalizing slot with
  | nil =>
    cases q with
    | nil => exact absurd rfl hq
    | cons name q =>
      rcases slot with _ | ⟨contents | entries⟩
      · cases h
      · cases h
      · rfl
  | cons name p ih =>
    rcases slot with _ | ⟨contents | entries⟩
    · cases h
    · cases h
    · exact ih h

/-- What is above an entry is a directory. -/
theorem directory_above (h : tree.entry? path = some e) (hq : q <+: path) (hne : q ≠ path) :
    tree.entry? q = some .directory := by
  obtain ⟨rest, rfl⟩ := hq
  refine entryAt_of_append h ?_
  rintro rfl
  exact hne (List.append_nil q).symm

/-- A directory is what can be listed. -/
theorem exists_list_iff :
    (∃ names, tree.list path = .ok names) ↔ tree.entry? path = some .directory := by
  rw [entry?_eq, list]
  rcases tree.locate path with e | ⟨contents | entries⟩ <;> simp [bind, Except.bind, pure,
    Except.pure, throw, throwThe, MonadExceptOf.throw]

/-- A directory lists what there is in it. -/
theorem mem_list_iff {names : List String} (h : tree.list path = .ok names) :
    name ∈ names ↔ tree.contains (path ++ [name]) = true := by
  induction path generalizing tree with
  | nil =>
    cases tree with
    | file contents => cases h
    | directory entries =>
      obtain rfl : Tree.names entries = names := Except.ok.inj h
      rw [mem_names, contains, entry?, List.nil_append, entryAt_cons_directory]
      cases hl : entries.lookup name with
      | none =>
        have hnone := List.lookup_eq_none_iff.1 hl
        simpa using fun child hmem => by simpa using hnone _ hmem
      | some child =>
        obtain ⟨l₁, l₂, rfl, -⟩ := List.lookup_eq_some_iff.1 hl
        cases child <;> simp [entryAt]
  | cons first path ih =>
    cases tree with
    | file contents => cases h
    | directory entries =>
      rw [contains, entry?, List.cons_append, entryAt_cons_directory]
      rw [list, locate] at h
      cases hl : entries.lookup first with
      | none => simp [hl, bind, Except.bind] at h
      | some child =>
        rw [hl] at h
        exact ih h

theorem readFile_of_directory (h : tree.entry? path = some .directory) :
    tree.readFile path = .error .isADirectory := by
  rw [entry?_eq] at h
  rw [readFile]
  cases hl : tree.locate path with
  | error e => simp [hl] at h
  | ok found =>
    cases found with
    | file contents => simp [hl] at h
    | directory entries => rfl

/-- What is read hangs on the entry alone, if there is one. -/
theorem readText_congr (h : tree.entry? path = some e) (h' : tree'.entry? path = some e) :
    tree'.readText path = tree.readText path := by
  cases e with
  | file contents =>
    rw [readText, readText, readFile_eq_ok_iff.2 h, readFile_eq_ok_iff.2 h']
  | directory =>
    rw [readText, readText, readFile_of_directory h, readFile_of_directory h']

/-! ### Making directories -/

/-- Nothing that should become a directory is a file. -/
def Clear (tree : Tree) (path : Path) : Prop :=
  ∀ q, q <+: path → ∀ contents, tree.entry? q ≠ some (.file contents)

theorem exists_makeDirectoriesAt (slot : Option Tree)
    (h : ∀ q, q <+: path → ∀ contents, entryAt q slot ≠ some (.file contents)) :
    ∃ made, makeDirectoriesAt path slot = .ok made := by
  induction path generalizing slot with
  | nil =>
    rcases slot with _ | ⟨contents | entries⟩
    · exact ⟨_, rfl⟩
    · exact absurd rfl (h [] List.nil_prefix contents)
    · exact ⟨_, rfl⟩
  | cons name path ih =>
    rcases slot with _ | ⟨contents | entries⟩
    · obtain ⟨made, hmade⟩ := ih none fun q _ contents => by simp
      exact ⟨.directory [(name, made)], by
        simp [makeDirectoriesAt, hmade, bind, Except.bind, pure, Except.pure]⟩
    · exact absurd rfl (h [] List.nil_prefix contents)
    · obtain ⟨made, hmade⟩ := ih (entries.lookup name) fun q hq contents =>
        h (name :: q) ((List.prefix_cons_inj name).2 hq) contents
      exact ⟨.directory (assign name made entries), by
        simp [makeDirectoriesAt, hmade, bind, Except.bind, pure, Except.pure]⟩

theorem clear_of_makeDirectoriesAt {slot : Option Tree} {made : Tree}
    (h : makeDirectoriesAt path slot = .ok made) (hq : q <+: path) :
    entryAt q slot ≠ some (.file contents) := by
  induction path generalizing slot made q with
  | nil =>
    obtain rfl := List.prefix_nil.1 hq
    rcases slot with _ | ⟨contents | entries⟩
    · simp
    · cases h
    · simp [entryAt]
  | cons name path ih =>
    rcases slot with _ | ⟨contents | entries⟩
    · simp
    · cases h
    · cases q with
      | nil => simp [entryAt]
      | cons first rest =>
        obtain ⟨rfl, hrest⟩ := List.cons_prefix_cons.1 hq
        simp only [makeDirectoriesAt] at h
        cases hc : makeDirectoriesAt path (entries.lookup first) with
        | error e => simp [hc, bind, Except.bind] at h
        | ok child =>
          show entryAt rest (entries.lookup first) ≠ _
          exact ih hc hrest

/-- **A directory can be made** unless a file is in its way. -/
theorem exists_makeDirectories_iff :
    (∃ made, tree.makeDirectories path = .ok made) ↔ tree.Clear path :=
  ⟨fun ⟨_, hmade⟩ _ hq _ => clear_of_makeDirectoriesAt hmade hq,
    exists_makeDirectoriesAt (some tree)⟩

theorem makeDirectoriesAt_of_file {slot : Option Tree}
    (h : entryAt (path ++ [name]) slot = some (.file contents)) :
    makeDirectoriesAt (path ++ [name]) slot = .error .alreadyExists := by
  induction path generalizing slot with
  | nil =>
    rcases slot with _ | ⟨contents | entries⟩
    · cases h
    · cases h
    · have hchild : entryAt [] (entries.lookup name) = some (.file contents) := h
      rcases hl : entries.lookup name with _ | ⟨contents | entries⟩
      · simp [hl] at hchild
      · simp [makeDirectoriesAt, hl, bind, Except.bind]
      · simp [hl, entryAt] at hchild
  | cons first path ih =>
    rcases slot with _ | ⟨contents | entries⟩
    · cases h
    · cases h
    · have hchild : makeDirectoriesAt (path ++ [name]) (entries.lookup first) = _ := ih h
      simp [makeDirectoriesAt, hchild, bind, Except.bind]

/-- Where a directory holds a file, no directory of that name is made. -/
theorem makeDirectories_of_file (h : tree.entry? (path ++ [name]) = some (.file contents)) :
    tree.makeDirectories (path ++ [name]) = .error .alreadyExists :=
  makeDirectoriesAt_of_file h

/-! ### Writing a file -/

/-- Names as long as names can be, or shorter. -/
def Short (path : Path) : Prop := ∀ name ∈ path, name.utf8ByteSize ≤ maxNameSize

theorem writeAt_of_directory {slot : Option Tree} (hd : entryAt path slot = some .directory)
    (hn : entryAt (path ++ [name]) slot ≠ some .directory) :
    (Short (path ++ [name]) → ∃ written, writeAt contents (path ++ [name]) slot = .ok written) ∧
      (¬ Short (path ++ [name]) →
        writeAt contents (path ++ [name]) slot = .error .nameTooLong) := by
  induction path generalizing slot with
  | nil =>
    rcases slot with _ | ⟨contents' | entries⟩
    · cases hd
    · cases hd
    · have hchild : ∃ child, writeAt contents [] (entries.lookup name) = .ok child := by
        rcases hl : entries.lookup name with _ | ⟨contents' | entries'⟩
        · exact ⟨_, rfl⟩
        · exact ⟨_, rfl⟩
        · exact absurd (by simp [hl, entryAt]) hn
      obtain ⟨child, hchild⟩ := hchild
      by_cases hsize : name.utf8ByteSize ≤ maxNameSize
      · simp [writeAt, Short, hsize, Nat.not_lt.2 hsize, hchild, bind, Except.bind, pure,
          Except.pure]
      · simp [writeAt, Short, hsize, Nat.not_le.1 hsize]
  | cons first path ih =>
    rcases slot with _ | ⟨contents' | entries⟩
    · cases hd
    · cases hd
    · have hchild : (Short (path ++ [name]) → ∃ written,
            writeAt contents (path ++ [name]) (entries.lookup first) = .ok written) ∧ _ := ih hd hn
      obtain ⟨hok, herror⟩ := hchild
      have hshort : Short (first :: (path ++ [name])) ↔
          first.utf8ByteSize ≤ maxNameSize ∧ Short (path ++ [name]) := List.forall_mem_cons
      rw [List.cons_append, hshort, writeAt]
      by_cases hsize : first.utf8ByteSize ≤ maxNameSize
      · rw [if_neg (Nat.not_lt.2 hsize)]
        constructor
        · rintro ⟨-, hrest⟩
          obtain ⟨child, hchild⟩ := hok hrest
          simp [hchild, bind, Except.bind, pure, Except.pure]
        · intro h
          rw [herror fun hrest => h ⟨hsize, hrest⟩]
          rfl
      · rw [if_pos (Nat.not_le.1 hsize)]
        exact ⟨fun h => absurd h.1 hsize, fun _ => rfl⟩

/-- **A file can be written** where a directory is to hold it, if its names are no longer than
names can be. -/
theorem exists_write (contents : File) (hd : tree.entry? path = some .directory)
    (hn : tree.entry? (path ++ [name]) ≠ some .directory) (h : Short (path ++ [name])) :
    ∃ written, tree.write (path ++ [name]) contents = .ok written :=
  (writeAt_of_directory hd hn).1 h

theorem write_of_too_long (hd : tree.entry? path = some .directory)
    (hn : tree.entry? (path ++ [name]) ≠ some .directory) (h : ¬ Short (path ++ [name])) :
    tree.write (path ++ [name]) contents = .error .nameTooLong :=
  (writeAt_of_directory hd hn).2 h

theorem writeAt_directory {slot : Option Tree} (h : entryAt path slot = some .directory) :
    ∃ e, writeAt contents path slot = .error e := by
  induction path generalizing slot with
  | nil =>
    rcases slot with _ | ⟨contents' | entries⟩
    · cases h
    · cases h
    · exact ⟨_, rfl⟩
  | cons name path ih =>
    rcases slot with _ | ⟨contents' | entries⟩
    · cases h
    · cases h
    · obtain ⟨e, hchild⟩ : ∃ e, writeAt contents path (entries.lookup name) = .error e := ih h
      rw [writeAt]
      split
      · exact ⟨_, rfl⟩
      · exact ⟨e, by simp [hchild, bind, Except.bind]⟩

/-- No file is written over a directory. -/
theorem write_of_directory (h : tree.entry? path = some .directory) (contents : File) :
    ∃ e, tree.write path contents = .error e :=
  writeAt_directory h

end Tree

/-! ### Routes of one name -/

namespace Route

variable {route : Route}

/-- Where the name of a route leads from its start. -/
def path (route : Route) : Path := route.start ++ [route.text]

end Route

namespace Tree

variable {tree tree' : Tree} {around : Surroundings} {route : Route} {image contents : File}
  {path q : Path}

/-- What the project is in is a directory, and so is the project. -/
theorem readAt_above (hroot : tree.entry? [] = some .directory) (h : path <+: around.home) :
    tree.readAt around path = .error .isADirectory := by
  unfold readAt
  cases hplace : Place.ofPath around.home path with
  | inside below =>
    obtain rfl := Place.ofPath_eq_inside_iff.1 hplace
    have hbelow : below = [] := List.eq_nil_of_length_eq_zero <| by
      have hlength := h.length_le
      rw [List.length_append] at hlength
      omega
    rw [hbelow]
    exact readFile_of_directory hroot
  | outside p =>
    obtain rfl := Place.ofPath_of_outside hplace
    exact if_pos h

/-- Without a name, a route leads to a directory. -/
theorem readRoute_of_not_plain (h : '/' ∉ route.text.toList) (hp : ¬ route.Plain) :
    tree.readRoute around route ≠ .ok contents := by
  intro hread
  unfold readRoute at hread
  rw [Route.origin_of_slashless h, Route.steps_of_slashless h] at hread
  by_cases hlong : route.isTooLong = true
  · simp [hlong, bind, Except.bind, throw, throwThe, MonadExceptOf.throw] at hread
  cases hlist : tree.list route.start with
  | error e => simp [hlong, follow, enter, hlist, bind, Except.bind, Except.map] at hread
  | ok names =>
    have hdir := exists_list_iff.1 ⟨names, hlist⟩
    have hplace : tree.readAt around (advance (around.home ++ route.start) route.text) =
        .ok contents := by
      simpa [hlong, follow, enter, hlist, bind, Except.bind, Except.map, pure, Except.pure]
        using hread
    unfold advance at hplace
    split at hplace
    · rw [readAt, Place.ofPath_append] at hplace
      cases (readFile_of_directory hdir).symm.trans hplace
    · rename_i hstays
      split at hplace
      · -- Above a directory there is another one, and above the project as well.
        cases hs : route.start with
        | nil =>
          rw [hs] at hplace hdir
          rw [List.append_nil, readAt_above hdir (List.dropLast_prefix _)] at hplace
          cases hplace
        | cons first rest =>
          rw [hs] at hplace hdir
          have hup : tree.entry? (first :: rest).dropLast = some .directory :=
            directory_above hdir (List.dropLast_prefix _) fun heq => by
              have hlength := congrArg List.length heq
              simp at hlength
          rw [List.dropLast_append_of_ne_nil (List.cons_ne_nil _ _), readAt,
            Place.ofPath_append] at hplace
          cases (readFile_of_directory hup).symm.trans hplace
      · rename_i hup
        exact hp ⟨h, by simpa using hstays, hup, by simpa using hlong⟩

/-- **The file that a single name leads to** is the file of that name, whatever is around the
project. -/
theorem readRoute_eq_ok_iff (h : '/' ∉ route.text.toList) :
    tree.readRoute around route = .ok contents ↔
      route.Plain ∧ tree.entry? route.path = some (.file contents) := by
  by_cases hp : route.Plain
  · constructor
    · intro hread
      cases hlist : tree.list route.start with
      | error e =>
        rw [readRoute, Route.origin_of_slashless h, Route.steps_of_slashless h] at hread
        simp [hp.2.2.2, follow, enter, hlist, bind, Except.bind, Except.map] at hread
      | ok names =>
        rw [readRoute_eq_readFile around hp hlist] at hread
        exact ⟨hp, readFile_eq_ok_iff.1 hread⟩
    · rintro ⟨-, hentry⟩
      have hdir : tree.entry? route.start = some .directory :=
        directory_above hentry (List.prefix_append _ _) (by simp [Route.path])
      obtain ⟨names, hlist⟩ := exists_list_iff.2 hdir
      rw [readRoute_eq_readFile around hp hlist]
      exact readFile_eq_ok_iff.2 hentry
  · exact ⟨fun hread => absurd hread (readRoute_of_not_plain h hp), fun hread => absurd hread.1 hp⟩

/-! ### Putting an image in its place -/

/-- There is a place for a file where a route of one name leads. -/
structure Fits (tree : Tree) (route : Route) : Prop where
  plain : route.Plain
  short : Short route.path
  clear : tree.Clear route.start
  free : tree.entry? route.path ≠ some .directory

theorem writeRoute_of_not_plain (tree : Tree) (home : Path) (image : File)
    (h : '/' ∉ route.text.toList) (hp : ¬ route.Plain) :
    ∃ e, tree.writeRoute home route image = .error e := by
  unfold writeRoute
  rw [Route.origin_of_slashless h, Route.steps_of_slashless h]
  by_cases hlong : route.isTooLong = true
  · exact ⟨.nameTooLong, by simp [hlong, bind, Except.bind, throw, throwThe, MonadExceptOf.throw]⟩
  have hname : stays route.text = true ∨ route.text = ".." := by
    refine Classical.byContradiction fun hn =>
      hp ⟨h, ?_, fun hup => hn (.inr hup), by simpa using hlong⟩
    exact Bool.not_eq_true _ ▸ fun hstays => hn (.inl hstays)
  cases hmade : tree.makeDirectories route.start with
  | error e =>
    exact ⟨e, by simp [hlong, makeWay, makeAt, hmade, bind, Except.bind]⟩
  | ok made =>
    exact ⟨.isADirectory, by
      simp [hlong, makeWay, makeAt, hmade, hname, bind, Except.bind, pure, Except.pure, throw,
        throwThe, MonadExceptOf.throw]⟩

/-- Made directories hold what the path below them leads to. -/
theorem entry?_of_made {made : Tree} (hmade : tree.makeDirectories route.start = .ok made) :
    made.entry? route.start = some .directory ∧
      made.entry? route.path = tree.entry? route.path := by
  rw [entry?_makeDirectories hmade, entry?_makeDirectories hmade, if_pos (List.prefix_refl _),
    if_neg]
  · exact ⟨rfl, rfl⟩
  · intro hprefix
    have hlength := hprefix.length_le
    rw [Route.path, List.length_append] at hlength
    exact Nat.not_succ_le_self _ hlength

/-- A file is written where it fits, and nowhere else. -/
theorem exists_writeRoute_iff (home : Path) (image : File) (h : '/' ∉ route.text.toList) :
    (∃ written, tree.writeRoute home route image = .ok written) ↔ tree.Fits route := by
  by_cases hp : route.Plain
  · rw [writeRoute_eq_write home hp]
    constructor
    · rintro ⟨written, hwritten⟩
      cases hmade : tree.makeDirectories route.start with
      | error e => simp [hmade, bind, Except.bind] at hwritten
      | ok made =>
        have hwrite : made.write (route.start ++ [route.text]) image = .ok written := by
          simpa [hmade, bind, Except.bind] using hwritten
        obtain ⟨hdir, hsame⟩ := entry?_of_made hmade
        have hfree : made.entry? route.path ≠ some .directory := fun hd => by
          obtain ⟨e, he⟩ := write_of_directory hd image
          cases hwrite.symm.trans he
        refine ⟨hp, ?_, exists_makeDirectories_iff.1 ⟨made, hmade⟩, hsame ▸ hfree⟩
        refine Classical.byContradiction fun hlong => ?_
        cases hwrite.symm.trans (write_of_too_long hdir hfree hlong)
    · intro hfits
      obtain ⟨made, hmade⟩ := exists_makeDirectories_iff.2 hfits.clear
      obtain ⟨hdir, hsame⟩ := entry?_of_made hmade
      obtain ⟨written, hwritten⟩ :=
        exists_write image hdir (hsame ▸ hfits.free) hfits.short
      exact ⟨written, by simpa [hmade, bind, Except.bind] using hwritten⟩
  · constructor
    · rintro ⟨written, hwritten⟩
      obtain ⟨e, he⟩ := writeRoute_of_not_plain tree home image h hp
      cases hwritten.symm.trans he
    · exact fun hfits => absurd hfits.plain hp

theorem install_of_not_fits (home : Path) (h : '/' ∉ route.text.toList) (hf : ¬ tree.Fits route) :
    install home tree route image = tree := by
  unfold install
  split
  · rename_i hwritten
    exact absurd ((exists_writeRoute_iff home image h).1 ⟨_, hwritten⟩) hf
  · rfl

/-- **An image that fits** stands in its place, in directories that are there or are made, and all
other paths stay as they were. -/
theorem entry?_install (home : Path) (h : '/' ∉ route.text.toList) (hf : tree.Fits route)
    (other : Path) :
    Tree.entry? (install home tree route image) other =
      if other = route.path then some (.file image)
      else if other <+: route.start then some .directory else tree.entry? other := by
  obtain ⟨written, hwritten⟩ := (exists_writeRoute_iff home image h).2 hf
  rw [install, hwritten]
  rw [writeRoute_eq_write home hf.plain] at hwritten
  cases hmade : tree.makeDirectories route.start with
  | error e => simp [hmade, bind, Except.bind] at hwritten
  | ok made =>
    have hwrite : made.write (route.start ++ [route.text]) image = .ok written := by
      simpa [hmade, bind, Except.bind] using hwritten
    show written.entry? other = _
    rw [entry?_write hwrite, entry?_makeDirectories hmade]
    rfl

end Tree

end PolledUart.Tasks

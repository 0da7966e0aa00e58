import PolledUart.Log.Image
import PolledUart.Text.Utf8

/-!
# The tree of the project's files

A tree is a file or a directory of named trees, in the order in which the directory lists
them. `Tree.entry?` says what a path leads to, and each operation is stated by what it does
to that view:

* `readText_eq_ok_iff` — a text can be read exactly where a file holds it.
* `entry?_write` — a written file stands at its path, and all other paths stay as they were.
* `entry?_makeDirectories` — a made directory stands at its path and so do those above it,
  and all other paths stay as they were.
-/

namespace PolledUart.Tasks

/-- A path below the root of the project, by its names from the top. -/
abbrev Path := List String

/-- Why a path cannot be used as asked. -/
inductive FileError where
  /-- The path leads nowhere. -/
  | notFound
  /-- Something in the path that should be a directory is a file. -/
  | notADirectory
  /-- What should be a file is a directory. -/
  | isADirectory
  /-- What should become a directory is a file. -/
  | alreadyExists
  /-- A name is longer than names can be. -/
  | nameTooLong
  /-- What should be a text is none. -/
  | notText
deriving Repr, DecidableEq

/-- The wording of a file error. -/
def FileError.message : FileError → String
  | .notFound => "No such file or directory (os error 2)"
  | .notADirectory => "Not a directory (os error 20)"
  | .isADirectory => "Is a directory (os error 21)"
  | .alreadyExists => "File exists (os error 17)"
  | .nameTooLong => "File name too long (os error 36)"
  | .notText => "stream did not contain valid UTF-8"

/-- A file. -/
structure File where
  /-- The content. -/
  bytes : List UInt8
  /-- What the content is made of, where a script gives an image by its parts. -/
  parts : Option Log.Image := none
deriving Repr, DecidableEq

/-- The file that holds a text. -/
def File.ofText (text : String) : File :=
  ⟨Text.encode text, none⟩

/-- A file or a directory with its entries. -/
inductive Tree where
  /-- A file. -/
  | file (contents : File)
  /-- A directory. Of two entries with one name the first counts. -/
  | directory (entries : List (String × Tree))

/-- What a path can lead to. -/
inductive Entry where
  /-- A file. -/
  | file (contents : File)
  /-- A directory. -/
  | directory
deriving Repr, DecidableEq

namespace Tree

/-! ### Looking -/

/-- What a path below a tree leads to; there may be no tree to start from. -/
def entryAt : Path → Option Tree → Option Entry
  | _, none => none
  | [], some (.file contents) => some (.file contents)
  | [], some (.directory _) => some .directory
  | _ :: _, some (.file _) => none
  | name :: path, some (.directory entries) => entryAt path (entries.lookup name)

/-- What a path leads to. -/
def entry? (tree : Tree) (path : Path) : Option Entry :=
  entryAt path (some tree)

/-- Whether a path leads anywhere. -/
def contains (tree : Tree) (path : Path) : Bool :=
  (tree.entry? path).isSome

/-- The greatest number of bytes in a name. -/
def maxNameSize : Nat := 255

/-- Why there is nothing of a name in a directory. -/
def absence (name : String) : FileError :=
  if name.utf8ByteSize ≤ maxNameSize then .notFound else .nameTooLong

/-- The tree at a path. -/
def locate : Path → Tree → Except FileError Tree
  | [], tree => .ok tree
  | _ :: _, .file _ => .error .notADirectory
  | name :: path, .directory entries =>
    match entries.lookup name with
    | some child => locate path child
    | none => .error (absence name)

/-- The file at a path. -/
def readFile (tree : Tree) (path : Path) : Except FileError File := do
  match ← tree.locate path with
  | .file contents => return contents
  | .directory _ => throw .isADirectory

/-- The text of the file at a path. -/
def readText (tree : Tree) (path : Path) : Except FileError String := do
  match Text.decode? (← tree.readFile path).bytes with
  | some text => return text
  | none => throw .notText

/-- The names of a directory's entries, each once. -/
def names : List (String × Tree) → List String
  | [] => []
  | (name, _) :: entries => name :: (names entries).filter (· ≠ name)

/-- The names in the directory at a path, in the order in which it lists them. -/
def list (tree : Tree) (path : Path) : Except FileError (List String) := do
  match ← tree.locate path with
  | .directory entries => return names entries
  | .file _ => throw .notADirectory

/-- Everything in a tree, each with the path to it. -/
def flatten : Tree → List (Path × Entry)
  | .file contents => [([], .file contents)]
  | .directory entries =>
    ([], .directory) :: entries.attach.flatMap fun ⟨(name, child), _⟩ =>
      (flatten child).map fun (path, entry) => (name :: path, entry)
termination_by tree => sizeOf tree
decreasing_by
  rename_i h
  have := List.sizeOf_lt_of_mem h
  simp_all
  omega

/-! ### Changing -/

/-- The entries of a directory with one of them set; a new one is listed last. -/
def assign (name : String) (child : Tree) : List (String × Tree) → List (String × Tree)
  | [] => [(name, child)]
  | (other, old) :: entries =>
    if name = other then (name, child) :: entries else (other, old) :: assign name child entries

/-- Writes a file at a path below a tree. -/
def writeAt (contents : File) : Path → Option Tree → Except FileError Tree
  | [], some (.directory _) => .error .isADirectory
  | [], _ => .ok (.file contents)
  | _ :: _, none => .error .notFound
  | _ :: _, some (.file _) => .error .notADirectory
  | name :: path, some (.directory entries) =>
    if maxNameSize < name.utf8ByteSize then .error .nameTooLong
    else do
      return .directory (assign name (← writeAt contents path (entries.lookup name)) entries)

/-- Writes a file, new or in place of the one at its path. -/
def write (tree : Tree) (path : Path) (contents : File) : Except FileError Tree :=
  writeAt contents path (some tree)

/-- Makes the directories of a path below a tree. -/
def makeDirectoriesAt : Path → Option Tree → Except FileError Tree
  | [], none => .ok (.directory [])
  | [], some (.directory entries) => .ok (.directory entries)
  | [], some (.file _) => .error .alreadyExists
  | name :: path, none => do
    return .directory [(name, ← makeDirectoriesAt path none)]
  | _ :: _, some (.file _) => .error .notADirectory
  | name :: path, some (.directory entries) => do
    return .directory (assign name (← makeDirectoriesAt path (entries.lookup name)) entries)

/-- Makes a directory and those above it, as far as they are missing. -/
def makeDirectories (tree : Tree) (path : Path) : Except FileError Tree :=
  makeDirectoriesAt path (some tree)

/-! ### The view -/

@[simp] theorem entryAt_none (path : Path) : entryAt path none = none := by
  cases path <;> rfl

@[simp] theorem entryAt_cons_directory (name : String) (path : Path)
    (entries : List (String × Tree)) :
    entryAt (name :: path) (some (.directory entries)) = entryAt path (entries.lookup name) := rfl

theorem lookup_assign (name other : String) (child : Tree) (entries : List (String × Tree)) :
    (assign name child entries).lookup other
      = if other = name then some child else entries.lookup other := by
  induction entries with
  | nil => by_cases h : other = name <;> simp [assign, List.lookup_cons, h, beq_false_of_ne]
  | cons entry entries ih =>
    obtain ⟨key, old⟩ := entry
    by_cases hk : name = key
    · subst hk
      by_cases ho : other = name <;> simp [assign, List.lookup_cons, ho, beq_false_of_ne]
    · rw [assign, if_neg hk]
      by_cases ho : other = key
      · subst ho
        simp [Ne.symm hk]
      · simp [List.lookup_cons, ih, beq_false_of_ne ho]

/-- The tree at a path, where there is one, gives the entry that the view shows. -/
theorem entry?_eq (tree : Tree) (path : Path) :
    tree.entry? path = match tree.locate path with
      | .ok (.file contents) => some (.file contents)
      | .ok (.directory _) => some .directory
      | .error _ => none := by
  unfold entry?
  induction path generalizing tree with
  | nil => cases tree <;> rfl
  | cons name path ih =>
    cases tree with
    | file contents => rfl
    | directory entries =>
      rw [entryAt_cons_directory, locate]
      cases entries.lookup name with
      | none => simp
      | some child => exact ih child

theorem readFile_eq_ok_iff {tree : Tree} {path : Path} {contents : File} :
    tree.readFile path = .ok contents ↔ tree.entry? path = some (.file contents) := by
  rw [entry?_eq, readFile]
  rcases tree.locate path with e | ⟨contents | entries⟩ <;> simp [bind, Except.bind, pure,
    Except.pure, throw, throwThe, MonadExceptOf.throw]

/-- A text can be read exactly where a file holds what the text is written as. -/
theorem readText_eq_ok_iff {tree : Tree} {path : Path} {text : String} :
    tree.readText path = .ok text ↔
      ∃ contents, tree.entry? path = some (.file contents) ∧ contents.bytes = Text.encode text := by
  constructor
  · intro h
    cases hf : tree.readFile path with
    | error e => simp [readText, hf, bind, Except.bind] at h
    | ok contents =>
      refine ⟨contents, readFile_eq_ok_iff.1 hf, ?_⟩
      cases hd : Text.decode? contents.bytes with
      | none => simp [readText, hf, hd, bind, Except.bind, throw, throwThe, MonadExceptOf.throw] at h
      | some t =>
        simp [readText, hf, hd, bind, Except.bind, pure, Except.pure] at h
        subst h
        exact Text.decode?_eq_some_iff.1 hd
  · rintro ⟨contents, he, hb⟩
    have hd : Text.decode? contents.bytes = some text := Text.decode?_eq_some_iff.2 hb
    simp [readText, readFile_eq_ok_iff.2 he, hd, bind, Except.bind, pure, Except.pure]

theorem entryAt_writeAt {contents : File} {path : Path} {slot : Option Tree} {tree : Tree}
    (h : writeAt contents path slot = .ok tree) (other : Path) :
    entryAt other (some tree)
      = if other = path then some (.file contents) else entryAt other slot := by
  induction path generalizing slot tree other with
  | nil =>
    rcases slot with _ | ⟨old | entries⟩ <;> simp only [writeAt, Except.ok.injEq, reduceCtorEq] at h
      <;> subst h <;> cases other <;> simp [entryAt]
  | cons name path ih =>
    rcases slot with _ | ⟨old | entries⟩
    · simp [writeAt] at h
    · simp [writeAt] at h
    · simp only [writeAt] at h
      split at h
      · cases h
      cases hc : writeAt contents path (entries.lookup name) with
      | error e => simp [hc, bind, Except.bind] at h
      | ok child =>
        simp only [hc, bind, Except.bind, pure, Except.pure, Except.ok.injEq] at h
        subst h
        cases other with
        | nil => simp [entryAt]
        | cons first rest =>
          rw [entryAt_cons_directory, entryAt_cons_directory, lookup_assign]
          by_cases hf : first = name
          · subst hf; simp [ih hc]
          · simp [hf]

/-- A written file stands at its path, and all other paths stay as they were. -/
theorem entry?_write {tree tree' : Tree} {path : Path} {contents : File}
    (h : tree.write path contents = .ok tree') (other : Path) :
    tree'.entry? other = if other = path then some (.file contents) else tree.entry? other :=
  entryAt_writeAt h other

theorem entryAt_makeDirectoriesAt {path : Path} {slot : Option Tree} {tree : Tree}
    (h : makeDirectoriesAt path slot = .ok tree) (other : Path) :
    entryAt other (some tree)
      = if other <+: path then some .directory else entryAt other slot := by
  induction path generalizing slot tree other with
  | nil =>
    rcases slot with _ | ⟨old | entries⟩ <;>
      simp only [makeDirectoriesAt, Except.ok.injEq, reduceCtorEq] at h <;> subst h <;>
      cases other <;> simp [entryAt]
  | cons name path ih =>
    rcases slot with _ | ⟨old | entries⟩
    · simp only [makeDirectoriesAt] at h
      cases hc : makeDirectoriesAt path none with
      | error e => simp [hc, bind, Except.bind] at h
      | ok child =>
        simp only [hc, bind, Except.bind, pure, Except.pure, Except.ok.injEq] at h
        subst h
        cases other with
        | nil => simp [entryAt]
        | cons first rest =>
          rw [entryAt_cons_directory]
          by_cases hf : first = name
          · subst hf; simp [ih hc]
          · simp [hf, List.lookup_cons, beq_false_of_ne hf]
    · simp [makeDirectoriesAt] at h
    · simp only [makeDirectoriesAt] at h
      cases hc : makeDirectoriesAt path (entries.lookup name) with
      | error e => simp [hc, bind, Except.bind] at h
      | ok child =>
        simp only [hc, bind, Except.bind, pure, Except.pure, Except.ok.injEq] at h
        subst h
        cases other with
        | nil => simp [entryAt]
        | cons first rest =>
          rw [entryAt_cons_directory, entryAt_cons_directory, lookup_assign]
          by_cases hf : first = name
          · subst hf; simp [ih hc]
          · simp [hf]

/-- A made directory stands at its path and so do those above it, and all other paths stay
as they were. -/
theorem entry?_makeDirectories {tree tree' : Tree} {path : Path}
    (h : tree.makeDirectories path = .ok tree') (other : Path) :
    tree'.entry? other = if other <+: path then some .directory else tree.entry? other :=
  entryAt_makeDirectoriesAt h other

/-! ### Listings -/

theorem mem_names {entries : List (String × Tree)} {name : String} :
    name ∈ names entries ↔ name ∈ entries.map Prod.fst := by
  induction entries with
  | nil => simp [names]
  | cons entry entries ih =>
    obtain ⟨key, child⟩ := entry
    by_cases h : name = key <;> simp_all [names]

theorem nodup_names (entries : List (String × Tree)) : (names entries).Nodup := by
  induction entries with
  | nil => simp [names]
  | cons entry entries ih =>
    obtain ⟨key, child⟩ := entry
    exact List.nodup_cons.2 ⟨by simp, List.Pairwise.filter _ ih⟩

end Tree

end PolledUart.Tasks

import PolledUart.Tasks.Tree

/-!
# Routes

A route leads to a file in steps from a directory of the project, or from the top of all files.
An empty step or a dot stays, two dots go up, and a name goes down; whatever the step, it starts
from a directory that is there. Steps may lead out of the project, and into it again: a place
belongs to the project exactly if its path from the top goes through the project's directory.

* `Place.ofPath_eq_inside_iff` — which places belong to the project.
* `readRoute_eq_readFile` — in a directory that is there, a plain name leads to the file of
  that name.
* `writeRoute_eq_write` — where a plain name leads, the file of that name is written, in a
  directory that is made if need be.
-/

namespace PolledUart.Tasks

/-! ### Places -/

/-- What is around the files of a project. -/
structure Surroundings where
  /-- The directory of the project, from the top of all files. -/
  home : Path
  /-- The files elsewhere. -/
  elsewhere : Tree

/-- Where a path from the top of all files leads. -/
inductive Place where
  /-- To the project, and on by a path below its directory. -/
  | inside (path : Path)
  /-- Elsewhere. -/
  | outside (path : Path)
deriving Repr, DecidableEq

namespace Place

variable {home path p : Path}

/-- Where a path from the top of all files leads, for a project in a directory. -/
def ofPath (home path : Path) : Place :=
  if home <+: path then .inside (path.drop home.length) else .outside path

@[simp] theorem ofPath_append (home path : Path) : ofPath home (home ++ path) = .inside path := by
  simp [ofPath]

/-- **A place belongs to the project** exactly if the path to it goes through its directory. -/
theorem ofPath_eq_inside_iff : ofPath home path = .inside p ↔ path = home ++ p := by
  constructor
  · intro h
    unfold ofPath at h
    split at h
    · rename_i hprefix
      obtain ⟨rest, rfl⟩ := hprefix
      rw [List.drop_left, Place.inside.injEq] at h
      rw [h]
    · cases h
  · rintro rfl
    exact ofPath_append home p

theorem ofPath_of_outside (h : ofPath home path = .outside p) : path = p := by
  unfold ofPath at h
  split at h
  · cases h
  · exact Place.outside.inj h

end Place

/-! ### Steps -/

/-- The steps that a text goes, each behind a slash but the first. -/
def stepsOf (text : String) : List String :=
  (text.toList.splitOn '/').map String.ofList

/-- Whether a text starts at the top of all files. -/
def startsAtTop (text : String) : Bool :=
  text.toList.head? = some '/'

/-- Whether a step stays where it is. -/
def stays (step : String) : Bool :=
  step = "" || step = "."

/-- Where a step leads from a directory. Nothing is above the top of all files. -/
def advance (here : Path) (step : String) : Path :=
  if stays step then here
  else if step = ".." then here.dropLast
  else here ++ [step]

/-- A way to a file. -/
structure Route where
  /-- The directory of the project where it starts, unless it starts at the top. -/
  start : Path
  /-- The text of its steps. -/
  text : String
deriving Repr, DecidableEq

namespace Route

/-- The steps of a route. -/
def steps (route : Route) : List String := stepsOf route.text

/-- Whether a route starts at the top of all files instead. -/
def isAbsolute (route : Route) : Bool := startsAtTop route.text

/-- The path to where a route starts, for a project in a directory. -/
def origin (home : Path) (route : Route) : Path :=
  if route.isAbsolute then [] else home ++ route.start

/-- The route as it is written below the directory of the project, or from the top. -/
def written (route : Route) : String :=
  if route.isAbsolute then route.text else "/".intercalate (route.start ++ [route.text])

/-- The greatest number of bytes in a route. -/
def maxSize : Nat := 4095

/-- Whether a route is too long to be followed at all. -/
def isTooLong (route : Route) : Bool :=
  maxSize < route.written.utf8ByteSize

/-- Whether a route is no more than the name of a file in its directory. -/
def Plain (route : Route) : Prop :=
  '/' ∉ route.text.toList ∧ stays route.text = false ∧ route.text ≠ ".."
    ∧ route.isTooLong = false

section Slashless

variable {route : Route} (h : '/' ∉ route.text.toList)

include h

theorem steps_of_slashless : route.steps = [route.text] := by
  simp [steps, stepsOf, List.splitOn_eq_singleton h]

theorem isAbsolute_of_slashless : route.isAbsolute = false := by
  cases hc : route.text.toList with
  | nil => simp [isAbsolute, startsAtTop, hc]
  | cons c rest =>
    have hs : c ≠ '/' := fun e => h (by simp [hc, e])
    simp [isAbsolute, startsAtTop, hc, hs]

theorem origin_of_slashless (home : Path) : route.origin home = home ++ route.start := by
  simp [origin, isAbsolute_of_slashless h]

end Slashless

theorem advance_of_plain {route : Route} (h : route.Plain) (home path : Path) :
    advance (home ++ path) route.text = home ++ (path ++ [route.text]) := by
  simp [advance, h.2.1, h.2.2.1]

/-- The name that a route ends in, as it is written. -/
def lastName? (route : Route) : Option String :=
  (route.start ++ route.steps.filter (!stays ·)).getLast?

end Route

/-! ### Following routes -/

namespace Tree

/-- Enters a directory, of the project or elsewhere. Those above the project are there. -/
def enter (tree : Tree) (around : Surroundings) (path : Path) : Except FileError Unit :=
  match Place.ofPath around.home path with
  | .inside below => (tree.list below).map fun _ => ()
  | .outside path =>
    if path <+: around.home then .ok () else (around.elsewhere.list path).map fun _ => ()

/-- The file of a path from the top of all files. -/
def readAt (tree : Tree) (around : Surroundings) (path : Path) : Except FileError File :=
  match Place.ofPath around.home path with
  | .inside below => tree.readFile below
  | .outside path =>
    if path <+: around.home then .error .isADirectory else around.elsewhere.readFile path

/-- Where steps lead from a directory. -/
def follow (tree : Tree) (around : Surroundings) :
    (here : Path) → List String → Except FileError Path
  | here, [] => .ok here
  | here, step :: rest => do
    tree.enter around here
    follow tree around (advance here step) rest

/-- The file that a route leads to. -/
def readRoute (tree : Tree) (around : Surroundings) (route : Route) : Except FileError File := do
  if route.isTooLong then throw .nameTooLong
  tree.readAt around (← tree.follow around (route.origin around.home) route.steps)

/-- Makes a directory of the project; elsewhere none is made. -/
def makeAt (tree : Tree) (home path : Path) : Except FileError Tree :=
  match Place.ofPath home path with
  | .inside below => tree.makeDirectories below
  | .outside _ => .ok tree

/-- Writes a file of the project; elsewhere none is written. -/
def writePlace (tree : Tree) (home path : Path) (contents : File) : Except FileError Tree :=
  match Place.ofPath home path with
  | .inside below => tree.write below contents
  | .outside _ => .ok tree

/-- Makes the directories that steps from a directory lead through. -/
def makeWay (tree : Tree) (home : Path) :
    (here : Path) → List String → Except FileError (Tree × Path)
  | here, [] => return (← tree.makeAt home here, here)
  | here, step :: rest => do
    makeWay (← tree.makeAt home here) home (advance here step) rest

/-- Writes a file where a route leads and makes the directories on its way, as far as they
belong to the project. -/
def writeRoute (tree : Tree) (home : Path) (route : Route) (contents : File) :
    Except FileError Tree := do
  if route.isTooLong then throw .nameTooLong
  let (tree, here) ← tree.makeWay home (route.origin home) route.steps.dropLast
  match route.steps.getLast? with
  | none => throw .isADirectory
  | some name =>
    if stays name ∨ name = ".." then throw .isADirectory
    else tree.writePlace home (here ++ [name]) contents

/-- A plain name leads to the file of that name, if its directory is there. -/
theorem readRoute_eq_readFile {tree : Tree} {route : Route} {entries : List String}
    (around : Surroundings) (h : route.Plain) (hd : tree.list route.start = .ok entries) :
    tree.readRoute around route = tree.readFile (route.start ++ [route.text]) := by
  simp [readRoute, h.2.2.2, Route.origin_of_slashless h.1, Route.steps_of_slashless h.1, follow,
    enter, hd, Route.advance_of_plain h, readAt, bind, Except.bind, Except.map]

/-- Where a plain name leads, the file of that name is written. -/
theorem writeRoute_eq_write {tree : Tree} {route : Route} (home : Path) (h : route.Plain)
    (contents : File) :
    tree.writeRoute home route contents
      = (tree.makeDirectories route.start >>=
        (·.write (route.start ++ [route.text]) contents)) := by
  cases hm : tree.makeDirectories route.start <;>
    simp [writeRoute, h.2.2.2, Route.origin_of_slashless h.1, Route.steps_of_slashless h.1, makeWay,
      makeAt, hm, h.2.1, h.2.2.1, writePlace, bind, Except.bind, pure, Except.pure]

end Tree

end PolledUart.Tasks

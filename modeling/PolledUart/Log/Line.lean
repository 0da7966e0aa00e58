import PolledUart.Log.Fault

/-!
# Log lines

A decoder reads a log frame by frame and tells of each the level and the number of its statement,
and its text. A line is what is shown of a frame: the file and line of its statement, if they are
known, its severity in five columns, and its message.
-/

namespace PolledUart.Log

/-! ### Frames -/

/-- The level of a log statement. -/
inductive Level where
  | trace
  | debug
  | info
  | warn
  | error
deriving Repr, DecidableEq

/-- Where a statement stands in the source. -/
structure Location where
  /-- The path of the source file. -/
  path : String
  /-- The line in it. -/
  line : Nat
deriving Repr, DecidableEq

/-- One frame of a log. -/
structure Frame where
  /-- The level of its statement, if that has one. -/
  level : Option Level
  /-- The number of its statement. -/
  index : Nat
  /-- Its text, with the holes filled. -/
  message : String
deriving Repr, DecidableEq

/-- What is read from a log. -/
structure Reading where
  /-- The frames, in order. -/
  frames : List Frame
  /-- Why there is no further one. -/
  ending : Fault
deriving Repr, DecidableEq

/-! ### Severities -/

/-- How grave a log line is; a printed line carries no level and is below all others. -/
inductive Severity where
  | print
  | trace
  | debug
  | info
  | warn
  | error
deriving Repr, DecidableEq

/-- The place of a severity in the order from least to most grave. -/
def Severity.rank : Severity → Nat
  | .print => 0
  | .trace => 1
  | .debug => 2
  | .info => 3
  | .warn => 4
  | .error => 5

instance : LE Severity := ⟨fun a b => a.rank ≤ b.rank⟩

instance (a b : Severity) : Decidable (a ≤ b) := inferInstanceAs (Decidable (a.rank ≤ b.rank))

/-- The severity of a level. -/
def Severity.ofLevel : Option Level → Severity
  | some .trace => .trace
  | some .debug => .debug
  | some .info => .info
  | some .warn => .warn
  | some .error => .error
  | none => .print

/-- The name of a severity. -/
def Severity.label : Severity → String
  | .print => "PRINT"
  | .trace => "TRACE"
  | .debug => "DEBUG"
  | .info => "INFO"
  | .warn => "WARN"
  | .error => "ERROR"

/-! ### Lines -/

/-- One line of a decoded log. -/
structure Line where
  /-- How grave it is. -/
  severity : Severity
  /-- Where its statement stands in the source. -/
  location : Option Location
  /-- Its text, with the holes filled. -/
  message : String
deriving Repr, DecidableEq

/-- The names of a path, without the empty ones and those that stay in place. -/
def pathNames (path : String) : List String :=
  ((path.toList.splitOn '/').map String.ofList).filter fun name => name ≠ "" ∧ name ≠ "."

/-- The file at the end of a path, unless the path ends by going up. -/
def fileName? (path : String) : Option String :=
  match (pathNames path).getLast? with
  | some ".." => none
  | name => name

/-- Where a statement stands: the name of its file, or the whole path if it has none, and
the line. -/
def Location.render (location : Location) : String :=
  (fileName? location.path).getD location.path ++ ":" ++ toString location.line

/-- The name of a severity, filled up to five columns. -/
def Severity.column (severity : Severity) : String :=
  String.ofList (severity.label.toList.rightpad 5 ' ')

/-- A line as it is shown. -/
def Line.render (line : Line) : String :=
  let place := match line.location with
    | some location => location.render ++ ": "
    | none => ""
  place ++ "[" ++ line.severity.column ++ "] " ++ line.message

/-- The lines of at least the given severity. -/
def select (least : Severity) (lines : List Line) : List Line :=
  lines.filter (least ≤ ·.severity)

end PolledUart.Log

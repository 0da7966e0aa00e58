/-!
# Flags

A number may stand for a set of flags, each of which is some of its bits. The image names the
flags, group by group.
-/

namespace PolledUart.Log

/-- What tells a group of flags from all others. -/
structure FlagGroup where
  /-- The name of the group. -/
  name : String
  /-- The package in which it is. -/
  package : String
  /-- What tells it from others of the same name in the package. -/
  disambiguator : String
  /-- The library in which it is, if that is told. -/
  library : Option String
deriving Repr, DecidableEq

/-- A flag: its name and its bits. -/
structure Flag where
  name : String
  bits : Nat
deriving Repr, DecidableEq

/-- The flags of an image, by their groups. -/
abbrev Flags := List (FlagGroup × List Flag)

/-- Whether a number has all bits of a flag. The flag without bits is in zero only. -/
def Flag.isIn (flag : Flag) (n : Nat) : Bool :=
  if flag.bits = 0 then n = 0 else n &&& flag.bits = flag.bits

/-- The names of the flags in a number. -/
def showFlags (flags : List Flag) (n : Nat) : String :=
  match (flags.filter (·.isIn n)).map (·.name) with
  | [] => "(empty)"
  | names => " | ".intercalate names

end PolledUart.Log

import PolledUart.Text.Utf8

/-!
# Contents of an object file

Whatever the format of an object file, it comes down to sections and to symbols that stand for
places in them.
-/

namespace PolledUart.Log

/-- A section. -/
structure ObjectSection where
  /-- The number by which symbols refer to it. -/
  index : Nat
  /-- The names by which it can be found. -/
  names : List (List UInt8)
  /-- Its bytes, if they lie within the file. -/
  bytes : Option (List UInt8)
deriving Repr, DecidableEq

/-- A symbol. -/
structure ObjectSymbol where
  /-- Its name. -/
  name : String
  /-- The number of its section, if it is in one. -/
  home : Option Nat
  /-- Its address. -/
  address : Nat
  /-- The number of bytes that it takes. -/
  size : Nat
deriving Repr, DecidableEq

/-- The symbol of a name that may be no text, or that may not be there at all; then there is no
symbol. -/
def ObjectSymbol.ofName? (name : Option (List UInt8)) (home : Option Nat)
    (address size : Nat) : Option ObjectSymbol :=
  (name >>= Text.decode?).map (⟨·, home, address, size⟩)

/-- What an object file holds. -/
structure ObjectFile where
  sections : List ObjectSection
  symbols : List ObjectSymbol
deriving Repr, DecidableEq

/-- The first section of a name. -/
def ObjectFile.find? (file : ObjectFile) (name : String) : Option ObjectSection :=
  file.sections.find? (·.names.contains (Text.encode name))

end PolledUart.Log

import PolledUart.Poll
import PolledUart.Register

/-!
# A register block

A `Block` is one UART_DM register block: a base address and a layout. Its
programs name registers; the address of a register is computed before each
access, and once before a wait. A base too high for the layout has no such
address, and the machine stops there.
-/

namespace PolledUart

/-- One register block. -/
structure Block where
  /-- Address of the block. -/
  base : Address
  /-- Where its registers are. -/
  map : RegisterMap
  deriving DecidableEq, Repr

namespace Block

/-- The address of a register, if the address space reaches that far. -/
def address? (b : Block) (r : Register) : Option Address :=
  Address.plus? b.base (b.map.offset r)

/-- Every register of the block has an address. -/
def Addressable (b : Block) : Prop :=
  ∀ r, (b.address? r).isSome

/-- The address of a register. -/
def address (b : Block) (r : Register) : Program Address :=
  Program.require (b.address? r)

/-- Reads a register. -/
def read (b : Block) (r : Register) : Program UInt32 :=
  (b.address r).bind Program.get

/-- Writes a register. -/
def write (b : Block) (r : Register) (value : UInt32) : Program Unit :=
  (b.address r).bind fun a => Program.perform (.write a value)

/-- Issues a command. -/
def command (b : Block) (code : UInt32) : Program Unit :=
  b.write .cr code

/-- Waits until a bit of `mask` is set in a register. -/
def waitFor (b : Block) (policy : PollPolicy) (fuel : Nat) (r : Register) (mask : UInt32) :
    Program (Except IoError Unit) :=
  (b.address r).bind fun a => policy.wait fuel a mask

section Lemmas

variable {b : Block} {r : Register} {a : Address}

theorem address_of_address? (h : b.address? r = some a) : b.address r = .done a := by
  simp [address, h, Program.require]

theorem address_of_address?_none (h : b.address? r = none) : b.address r = .fault := by
  simp [address, h, Program.require]

theorem read_of_address? (h : b.address? r = some a) : b.read r = .read a .done := by
  simp [read, address_of_address? h, Program.get]

theorem write_of_address? (h : b.address? r = some a) (value : UInt32) :
    b.write r value = .act (.write a value) (.done ()) := by
  simp [write, address_of_address? h, Program.perform]

end Lemmas

end Block

end PolledUart

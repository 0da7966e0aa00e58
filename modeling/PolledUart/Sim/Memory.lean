import PolledUart.Sim.AddressTable
import PolledUart.Sim.Hardware

/-!
# Registers in memory

A bus that is nothing but memory: a read gives the value last written. Register
accesses go straight to the memory and cannot be seen from outside; delays can,
and barriers if the bus was given one of its own.
-/

namespace PolledUart.Sim

/-- Memory words; a word that is not listed is zero. -/
structure Memory where
  words : AddressTable UInt32

namespace Memory

/-- The word at an address. -/
def read (m : Memory) (address : Address) : UInt32 :=
  (m.words.find? address).getD 0

/-- The memory with another word at an address. -/
def write (m : Memory) (address : Address) (value : UInt32) : Memory :=
  ⟨m.words.insert address value⟩

/-- The memory with the given words. -/
def ofList (words : List (Address × UInt32)) : Memory := ⟨.ofList words⟩

/-- The words that are not zero, by ascending address. -/
def nonzero (m : Memory) : List (Address × UInt32) :=
  m.words.entries.filter (·.2 != 0)

/-- Sets one word from outside. -/
structure Control where
  address : Address
  value : UInt32

/-- Memory as a device, with or without a barrier of its own. -/
def hardware (ownBarrier : Bool) : Hardware Memory Control where
  bus :=
    { read := fun address m => .ok (m.read address) m
      write := fun address value m => .ok () (m.write address value)
      delay := fun _ m => .ok () m
      barrier := id }
  control k m := some (m.write k.address k.value)
  seesRegisters := false
  seesBarriers := ownBarrier

end Memory

end PolledUart.Sim

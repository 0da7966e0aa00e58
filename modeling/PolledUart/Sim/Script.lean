import PolledUart.Sim.AddressTable
import PolledUart.Sim.Hardware

/-!
# Scripted answers

A bus that answers reads from prepared lists, one per address. The answers of
an address are given in turn, and the last one for ever after; an address
without answers reads as zero. Writes change nothing.
-/

namespace PolledUart.Sim

/-- The prepared answers of each address. -/
structure Script where
  answers : AddressTable (List UInt32)

namespace Script

/-- The answers of one address. -/
def answersAt (s : Script) (address : Address) : List UInt32 :=
  (s.answers.find? address).getD []

/-- The script with other answers at one address. -/
def set (s : Script) (address : Address) (values : List UInt32) : Script :=
  ⟨s.answers.insert address values⟩

/-- The script with the given answers. -/
def ofList (entries : List (Address × List UInt32)) : Script := ⟨.ofList entries⟩

/-- The next answer at an address. -/
def read (s : Script) (address : Address) : UInt32 × Script :=
  match s.answersAt address with
  | [] => (0, s)
  | [value] => (value, s)
  | value :: rest => (value, s.set address rest)

/-- The number of answers left at each address, by ascending address. -/
def left (s : Script) : List (Address × Nat) :=
  s.answers.entries.map fun entry => (entry.1, entry.2.length)

/-- Replaces the answers of one address. -/
structure Control where
  address : Address
  values : List UInt32

/-- The scripted bus as a device. -/
def hardware : Hardware Script Control where
  bus :=
    { read := fun address s => let (value, s) := s.read address; .ok value s
      write := fun _ _ s => .ok () s
      delay := fun _ s => .ok () s
      barrier := id }
  control k s := some (s.set k.address k.values)
  seesRegisters := true
  seesBarriers := true

end Script

end PolledUart.Sim

import PolledUart.Address

/-!
# Tables by address

A table from addresses to values, kept by ascending address, so that listing it
gives the addresses in order.
-/

namespace PolledUart.Sim

/-- Values by ascending address. -/
structure AddressTable (β : Type) where
  entries : List (Address × β)

namespace AddressTable

variable {β : Type}

/-- The value at an address. -/
def find? (t : AddressTable β) (address : Address) : Option β :=
  (t.entries.find? (·.1 == address)).map (·.2)

private def place (address : Address) (value : β) : List (Address × β) → List (Address × β)
  | [] => [(address, value)]
  | entry :: rest =>
    if address < entry.1 then (address, value) :: entry :: rest
    else if address = entry.1 then (address, value) :: rest
    else entry :: place address value rest

/-- The table with a value placed at an address, in the stead of any other there. -/
def insert (t : AddressTable β) (address : Address) (value : β) : AddressTable β :=
  ⟨place address value t.entries⟩

/-- The table of some entries; of two at one address the later one counts. -/
def ofList (entries : List (Address × β)) : AddressTable β :=
  entries.foldl (fun t entry => t.insert entry.1 entry.2) ⟨[]⟩

theorem find?_insert_self (t : AddressTable β) (address : Address) (value : β) :
    (t.insert address value).find? address = some value := by
  obtain ⟨entries⟩ := t
  simp only [find?, insert]
  induction entries with
  | nil => simp [place]
  | cons entry rest ih =>
    unfold place
    split
    · simp
    · split
      · simp
      · rename_i h
        have : (entry.1 == address) = false := by simpa using fun e => h e.symm
        simpa [List.find?_cons, this] using ih

end AddressTable

end PolledUart.Sim

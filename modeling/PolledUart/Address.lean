/-!
# Addresses

A register lives at a 64-bit bus address, reached as a block base plus a
register offset. The address space does not wrap around: a sum that leaves it
has no address, and `Address.plus?` says so instead of computing one.

* `Address.plus?_eq_some_iff` — a sum is an address exactly when it fits in 64
  bits, and then it is the sum of the two numbers.
-/

namespace PolledUart

/-- An absolute bus address. -/
abbrev Address := UInt64

namespace Address

/-- The address `offset` bytes above `base`, if the address space reaches that far. -/
def plus? (base offset : Address) : Option Address :=
  if base.toNat + offset.toNat < 0x10000000000000000 then some (base + offset) else none

theorem plus?_eq_some_iff {base offset a : Address} :
    plus? base offset = some a ↔ a.toNat = base.toNat + offset.toNat := by
  have ha := a.toNat_lt
  unfold plus?
  split
  case isTrue h =>
    constructor
    · intro e
      obtain rfl := Option.some.inj e
      rw [UInt64.toNat_add, Nat.mod_eq_of_lt h]
    · intro e
      congr 1
      apply UInt64.toNat_inj.1
      rw [UInt64.toNat_add, Nat.mod_eq_of_lt h, e]
  case isFalse h =>
    constructor
    · intro e; simp at e
    · intro e; omega

theorem eq_add_of_plus? {base offset a : Address} (h : plus? base offset = some a) :
    a = base + offset := by
  unfold plus? at h
  split at h
  · exact (Option.some.inj h).symm
  · cases h

theorem plus?_eq_none_iff {base offset : Address} :
    plus? base offset = none ↔ 0x10000000000000000 ≤ base.toNat + offset.toNat := by
  unfold plus?
  split <;> simp_all

end Address

end PolledUart

import PolledUart.Address
import PolledUart.Error

/-!
# The port registry

An append-only table of initialized ports. A port is known by its position in
the table, a `PortId` of eight bits; the table holds the base address of its
register block. How many ports a table can hold is part of its type, and so is
the fact that it never holds more.

* `Registry.resolve_register` — a registered port resolves to its base, and
  registering a port changes no other.
* `Registry.register_isOk_iff` — registration succeeds while a slot and an id
  are free.
-/

namespace PolledUart

/-- The handle of a registered port, given out in the order of initialization. -/
structure PortId where
  val : UInt8
  deriving DecidableEq, Repr

namespace PortId

/-- The position of the port in the tables of the driver. -/
def index (id : PortId) : Nat := id.val.toNat

/-- Number of ports that can be told apart. -/
def limit : Nat := 256

end PortId

/-- The base addresses of the registered ports, at most `slots` of them. -/
structure Registry (slots : Nat) where
  /-- The bases, in the order of registration. -/
  bases : List Address
  /-- The table does not overflow. -/
  length_le : bases.length ≤ slots

/-- Number of ports of a driver, unless something else is asked for. -/
def defaultSlots : Nat := 4

namespace Registry

variable {slots : Nat}

/-- No ports. -/
def empty : Registry slots := ⟨[], Nat.zero_le _⟩

instance : Inhabited (Registry slots) := ⟨empty⟩

/-- Number of registered ports. -/
def size (r : Registry slots) : Nat := r.bases.length

/-- No port is registered. -/
def isEmpty (r : Registry slots) : Bool := r.size == 0

/-- No further port can be registered. -/
def isFull (r : Registry slots) : Bool := r.size == slots

/-- Number of ports the table can hold. -/
def capacity (_ : Registry slots) : Nat := slots

/-- The id of the next port and the table with that port, if a slot and an id are free. -/
def register (r : Registry slots) (base : Address) :
    Except InitError (PortId × Registry slots) :=
  if h : r.bases.length < slots then
    if r.size < PortId.limit then
      .ok (⟨UInt8.ofNat r.size⟩, ⟨r.bases ++ [base], by rw [List.length_append]; exact h⟩)
    else .error .registryFull
  else .error .registryFull

/-- The base address of a port, if it is registered. -/
def resolve (r : Registry slots) (id : PortId) : Option Address :=
  r.bases[id.index]?

/-- The registered ports with their bases, in the order of registration. -/
def toList (r : Registry slots) : List (PortId × Address) :=
  r.bases.mapIdx fun i base => (⟨UInt8.ofNat i⟩, base)

theorem size_le (r : Registry slots) : r.size ≤ slots := r.length_le

theorem isFull_iff {r : Registry slots} : r.isFull = true ↔ r.size = slots := by
  simp [isFull]

theorem register_isOk_iff {r : Registry slots} {base : Address} :
    (∃ p, r.register base = .ok p) ↔ r.size < slots ∧ r.size < PortId.limit := by
  unfold register
  split
  · rename_i hs
    split
    · rename_i hl
      exact ⟨fun _ => ⟨hs, hl⟩, fun _ => ⟨_, rfl⟩⟩
    · rename_i hl
      exact ⟨fun ⟨_, h⟩ => (nomatch h), fun h => absurd h.2 hl⟩
  · rename_i hs
    exact ⟨fun ⟨_, h⟩ => (nomatch h), fun h => absurd h.1 hs⟩

/-- The new port has the next id, and the table has grown by its base. -/
theorem register_eq_ok {r r' : Registry slots} {base : Address} {id : PortId}
    (h : r.register base = .ok (id, r')) :
    id.index = r.size ∧ r'.bases = r.bases ++ [base] := by
  unfold register at h
  split at h
  · split at h
    · rename_i hl
      simp only [Except.ok.injEq, Prod.mk.injEq] at h
      obtain ⟨rfl, rfl⟩ := h
      refine ⟨?_, rfl⟩
      simpa [PortId.index, PortId.limit] using hl
    · simp at h
  · simp at h

theorem resolve_register {r r' : Registry slots} {base : Address} {id : PortId}
    (h : r.register base = .ok (id, r')) (q : PortId) :
    r'.resolve q = if q = id then some base else r.resolve q := by
  obtain ⟨hi, hb⟩ := register_eq_ok h
  unfold resolve
  rw [hb]
  by_cases hq : q = id
  · subst hq
    simp [hi, size]
  · have hne : q.index ≠ r.bases.length := by
      intro e
      apply hq
      cases q; cases id
      simp only [PortId.index, PortId.mk.injEq] at *
      exact UInt8.toNat_inj.1 (by rw [e, hi]; rfl)
    simp only [hq, ↓reduceIte, List.getElem?_append]
    split
    · rfl
    · rename_i hge
      have : r.bases.length < q.index := by omega
      rw [List.getElem?_eq_none (by simp only [List.length_singleton]; omega),
        List.getElem?_eq_none (by omega)]

end Registry

end PolledUart

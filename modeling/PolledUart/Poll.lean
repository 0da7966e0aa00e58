import PolledUart.Bus
import PolledUart.Error

/-!
# Polling a status bit

The driver has no interrupts: it waits for a status bit by reading the register
again and again, one microsecond apart. A `PollPolicy` says how long. Misses
are counted in 32 bits; `PollPolicy.miss` faults rather than wrap, and a budget
ends the wait before the counter can get that far.

* `PollPolicy.miss_budget_ne_fault` — under a budget the counter never
  overflows from a count below the budget.
-/

namespace PolledUart

/-- How long the driver waits for a status bit. -/
inductive PollPolicy where
  /-- Until the bit is set. -/
  | forever
  /-- Until this many polls in a row have failed. -/
  | budget (polls : UInt32)
  deriving DecidableEq, Repr

namespace PollPolicy

/-- The number of polls before a wait gives up, unless something else is asked for: about a
second. -/
def defaultBudget : UInt32 := 1000000

instance : Inhabited PollPolicy := ⟨.budget defaultBudget⟩

/-- What follows a failed poll. -/
inductive AfterMiss where
  /-- Poll again, with this many misses so far. -/
  | again (misses : UInt32)
  /-- Stop waiting. -/
  | giveUp
  /-- The count of misses does not fit in its 32 bits. -/
  | fault
  deriving DecidableEq, Repr

/-- The policy after one more miss. Without a budget misses are not counted. -/
def miss (policy : PollPolicy) (misses : UInt32) : AfterMiss :=
  match policy with
  | .forever => .again misses
  | .budget polls =>
    if misses.toNat + 1 < 0x100000000 then
      if polls ≤ misses + 1 then .giveUp else .again (misses + 1)
    else .fault

theorem miss_budget_ne_fault {polls misses : UInt32} (h : misses = 0 ∨ misses < polls) :
    miss (.budget polls) misses ≠ .fault := by
  have hp := polls.toNat_lt
  have : misses.toNat + 1 < 0x100000000 := by
    rcases h with rfl | h
    · decide
    · have := UInt32.lt_iff_toNat_lt.1 h
      omega
  simp only [miss, this, ↓reduceIte]
  split <;> simp

/-- How often a wait is unrolled: as often as a budget can need, or else as often as asked
for. -/
def turns (policy : PollPolicy) (fuel : Nat) : Nat :=
  match policy with
  | .forever => fuel
  | .budget polls => polls.toNat

/-- Polls until a bit of `mask` is set in the register at `address`, after `misses` failed
polls, with at most one poll more than the given number of turns. -/
def waitFrom (policy : PollPolicy) (address : Address) (mask : UInt32) :
    Nat → UInt32 → Program (Except IoError Unit)
  | turns, misses => .read address fun value =>
    if value &&& mask ≠ 0 then .done (.ok ())
    else
      match policy.miss misses with
      | .giveUp => .done (.error .timeout)
      | .fault => .fault
      | .again misses =>
        match turns with
        | 0 => .limit
        | turns + 1 => .act (.delay 1) (waitFrom policy address mask turns misses)

/-- Waits until a bit of `mask` is set in the register at `address`. A wait without a budget is
unrolled `fuel` times. -/
def wait (policy : PollPolicy) (fuel : Nat) (address : Address) (mask : UInt32) :
    Program (Except IoError Unit) :=
  policy.waitFrom address mask (policy.turns fuel) 0

end PollPolicy

end PolledUart

import PolledUart.Bus

/-!
# Simulated hardware and its schedule

A `Hardware` is a bus together with the controls of whoever operates the device
from the other side: characters arriving, a transmitter that gets stuck, a
register changed behind the driver's back.

Controls may come between calls, and also in the middle of one. A `Schedule`
places controls right before the n-th read or the n-th delay of a whole session
and limits how many accesses the session may make. `Rig` is the hardware with
the counters that this takes, and `Hardware.rigged` the bus that keeps to a
schedule.
-/

namespace PolledUart.Sim

/-- A simulated device with states in `σ` and controls in `κ`. -/
structure Hardware (σ κ : Type) where
  bus : Bus σ
  /-- What a control does to the device; `none` when it stops the machine. -/
  control : κ → σ → Option σ
  /-- Register accesses can be seen from outside: they are counted, and a schedule can refer to
  them. Delays always can. -/
  seesRegisters : Bool
  /-- Barriers can be seen from outside. -/
  seesBarriers : Bool

/-- The event can be seen from outside the device. -/
def Hardware.sees {σ κ : Type} (hw : Hardware σ κ) (e : Event) : Bool :=
  match e with
  | .read _ _ => hw.seesRegisters
  | .act (.write _ _) => hw.seesRegisters
  | .act .barrier => hw.seesBarriers
  | .act _ => true

/-- A moment within a session, counted from one. -/
inductive Moment where
  /-- Right before the n-th read. -/
  | read (n : Nat)
  /-- Right before the n-th delay. -/
  | delay (n : Nat)
  deriving DecidableEq, Repr

/-- Controls with their moments, and the number of accesses after which the bus takes no
more. -/
structure Schedule (κ : Type) where
  controls : List (Moment × κ)
  limit : Nat

/-- A device and the number of reads, delays and accesses so far. -/
structure Rig (σ : Type) where
  device : σ
  reads : Nat
  delays : Nat
  accesses : Nat

namespace Rig

variable {σ : Type}

/-- A device before the first access. -/
def start (device : σ) : Rig σ := ⟨device, 0, 0, 0⟩

/-- The rig with another state of its device. -/
def withDevice (r : Rig σ) (device : σ) : Rig σ := { r with device }

end Rig

namespace Hardware

variable {σ κ α : Type}

/-- Carries out the controls of a moment, in the order of the schedule. -/
def advance (hw : Hardware σ κ) (schedule : Schedule κ) (m : Moment) (device : σ) : Option σ :=
  schedule.controls.foldlM
    (fun d entry => if entry.1 = m then hw.control entry.2 d else some d) device

/-- The rig after a step of its device. -/
def keep (r : Rig σ) : Outcome σ α → Outcome (Rig σ) α
  | .ok a device => .ok a (r.withDevice device)
  | .fault => .fault
  | .halt => .halt
  | .limit => .limit

/-- The bus of a device that keeps to a schedule. Controls come before the access, so one that
stops the machine leaves no access behind. -/
def rigged (hw : Hardware σ κ) (schedule : Schedule κ) : Bus (Rig σ) where
  read address r :=
    if hw.seesRegisters then
      if r.accesses < schedule.limit then
        let r := { r with reads := r.reads + 1, accesses := r.accesses + 1 }
        match hw.advance schedule (.read r.reads) r.device with
        | some device => keep r (hw.bus.read address device)
        | none => .halt
      else .limit
    else keep r (hw.bus.read address r.device)
  write address value r :=
    if hw.seesRegisters then
      if r.accesses < schedule.limit then
        keep { r with accesses := r.accesses + 1 } (hw.bus.write address value r.device)
      else .limit
    else keep r (hw.bus.write address value r.device)
  delay us r :=
    if r.accesses < schedule.limit then
      let r := { r with delays := r.delays + 1, accesses := r.accesses + 1 }
      match hw.advance schedule (.delay r.delays) r.device with
      | some device => keep r (hw.bus.delay us device)
      | none => .halt
    else .limit
  barrier r := r.withDevice (hw.bus.barrier r.device)

/-- A control between two calls; `none` when it stops the machine. -/
def operate (hw : Hardware σ κ) (k : κ) (r : Rig σ) : Option (Rig σ) :=
  (hw.control k r.device).map r.withDevice

end Hardware

end PolledUart.Sim

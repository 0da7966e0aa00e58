import PolledUart.Program

/-!
# Buses, and running a program on one

A `Bus` is a deterministic state machine that answers reads and takes writes,
delays and barriers. Its state is arbitrary, so a bus may be a real device seen
from outside, a simulated block, or a list of prepared answers. Critical
sections and board hooks are seen in the trace but do not reach the bus.

`Bus.run` is the meaning of a program on a bus: how it ends, and its trace, the
list of the events it caused. A read is an event once it has been answered; an
action is an event as soon as it is put on the bus, so a trace that ends in a
fault shows the action that the bus faulted on. A bus that halts does so before
the action.

* `Bus.run_bind` — a sequence runs as one program after the other, and its
  trace is the one trace after the other.
* `Bus.runFrom_eq` — the loop that collects the trace from the end computes the
  same run.
-/

namespace PolledUart

/-- How a step or a run ends, with a value and the state of the bus after it, or without. -/
inductive Outcome (σ α : Type) where
  /-- It completed. -/
  | ok (value : α) (state : σ)
  /-- The machine stopped. -/
  | fault
  /-- The machine stopped before the step had begun. -/
  | halt
  /-- It was cut off: a loop reached its unrolling, or the bus takes no more accesses. -/
  | limit
  deriving Repr

/-- A deterministic bus with states in `σ`. -/
structure Bus (σ : Type) where
  /-- The answer to a read, and the state after it. -/
  read : Address → σ → Outcome σ UInt32
  /-- The state after a write. -/
  write : Address → UInt32 → σ → Outcome σ Unit
  /-- The state after a delay. -/
  delay : UInt32 → σ → Outcome σ Unit
  /-- The state after a barrier. -/
  barrier : σ → σ

/-- Something that happened on or beside the bus. -/
inductive Event where
  /-- A read and its answer. -/
  | read (address : Address) (value : UInt32)
  /-- An action. -/
  | act (action : Action)
  deriving DecidableEq, Repr

namespace Event

/-- A register was read. -/
def isRead : Event → Bool
  | .read _ _ => true
  | .act _ => false

/-- A register was written. -/
def isWrite : Event → Bool
  | .act (.write _ _) => true
  | _ => false

/-- A delay passed. -/
def isDelay : Event → Bool
  | .act (.delay _) => true
  | _ => false

end Event

/-- The end of a run and what happened during it. -/
structure Run (σ α : Type) where
  outcome : Outcome σ α
  trace : List Event
  deriving Repr

/-- What follows a run: the next program from where it ended, or nothing if it did not end
with a value. -/
def Run.andThen {σ α β : Type} (r : Run σ α) (next : α → σ → Run σ β) : Run σ β :=
  match r.outcome with
  | .ok a s => ⟨(next a s).outcome, r.trace ++ (next a s).trace⟩
  | .fault => ⟨.fault, r.trace⟩
  | .halt => ⟨.halt, r.trace⟩
  | .limit => ⟨.limit, r.trace⟩

namespace Bus

variable {σ α β : Type}

/-- The effect of an action on the state of the bus. -/
def act (bus : Bus σ) : Action → σ → Outcome σ Unit
  | .write a v, s => bus.write a v s
  | .delay us, s => bus.delay us s
  | .barrier, s => .ok () (bus.barrier s)
  | .enter, s => .ok () s
  | .leave, s => .ok () s
  | .clock _, s => .ok () s
  | .pads _, s => .ok () s

/-- Runs a program on a bus. -/
def run (bus : Bus σ) : Program α → σ → Run σ α
  | .done a, s => ⟨.ok a s, []⟩
  | .fault, _ => ⟨.fault, []⟩
  | .limit, _ => ⟨.limit, []⟩
  | .read a next, s =>
    match bus.read a s with
    | .ok v s' =>
      let r := bus.run (next v) s'
      ⟨r.outcome, .read a v :: r.trace⟩
    | .fault => ⟨.fault, []⟩
    | .halt => ⟨.halt, []⟩
    | .limit => ⟨.limit, []⟩
  | .act c next, s =>
    match bus.act c s with
    | .ok () s' =>
      let r := bus.run next s'
      ⟨r.outcome, .act c :: r.trace⟩
    | .fault => ⟨.fault, [.act c]⟩
    | .halt => ⟨.halt, []⟩
    | .limit => ⟨.limit, []⟩

/-- Runs a program on a bus, with the events so far, latest first, given and returned. This is
a loop, whatever the length of the run. -/
def runFrom (bus : Bus σ) : Program α → σ → List Event → Outcome σ α × List Event
  | .done a, s, past => (.ok a s, past)
  | .fault, _, past => (.fault, past)
  | .limit, _, past => (.limit, past)
  | .read a next, s, past =>
    match bus.read a s with
    | .ok v s' => bus.runFrom (next v) s' (.read a v :: past)
    | .fault => (.fault, past)
    | .halt => (.halt, past)
    | .limit => (.limit, past)
  | .act c next, s, past =>
    match bus.act c s with
    | .ok () s' => bus.runFrom next s' (.act c :: past)
    | .fault => (.fault, .act c :: past)
    | .halt => (.halt, past)
    | .limit => (.limit, past)

theorem runFrom_eq (bus : Bus σ) (p : Program α) (s : σ) (past : List Event) :
    bus.runFrom p s past = ((bus.run p s).outcome, (bus.run p s).trace.reverse ++ past) := by
  induction p generalizing s past with
  | done a => rfl
  | fault => rfl
  | limit => rfl
  | read a next ih =>
    simp only [runFrom, run]
    split <;> simp [ih]
  | act c next ih =>
    simp only [runFrom, run]
    split <;> simp [ih]

/-- The run of a program, computed by the loop. -/
def execute (bus : Bus σ) (p : Program α) (s : σ) : Run σ α :=
  let r := bus.runFrom p s []
  ⟨r.1, r.2.reverse⟩

theorem execute_eq_run (bus : Bus σ) (p : Program α) (s : σ) : bus.execute p s = bus.run p s := by
  simp [execute, runFrom_eq]

@[simp] theorem run_done (bus : Bus σ) (a : α) (s : σ) :
    bus.run (.done a) s = ⟨.ok a s, []⟩ := rfl

theorem run_bind (bus : Bus σ) (p : Program α) (f : α → Program β) (s : σ) :
    bus.run (p.bind f) s = (bus.run p s).andThen fun a s' => bus.run (f a) s' := by
  induction p generalizing s with
  | done a => simp [Run.andThen]
  | fault => rfl
  | limit => rfl
  | read a next ih =>
    simp only [Program.read_bind, run]
    split
    · rename_i v s' _
      rw [ih v s']
      simp only [Run.andThen]
      split <;> simp
    · rfl
    · rfl
    · rfl
  | act c next ih =>
    simp only [Program.act_bind, run]
    split
    · rename_i s' _
      rw [ih s']
      simp only [Run.andThen]
      split <;> simp
    · rfl
    · rfl
    · rfl

end Bus

end PolledUart

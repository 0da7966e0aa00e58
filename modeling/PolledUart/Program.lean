import PolledUart.Address

/-!
# Programs of bus requests

What the driver does is described before anything runs it: a `Program` is a
tree whose nodes are requests to the outside. A read branches on the answer;
every other request is an `Action` with one continuation. The same program can
then be run on any bus, and what two runs have in common is proved by induction
on the tree.

A tree is finite along every path. A loop without a bound of its own, such as
the wait of a blocking read, is unrolled as often as its caller asks for and
ends in `Program.limit`; a larger unrolling agrees with a smaller one wherever
the smaller one does not end there.
-/

namespace PolledUart

/-- A request that has no answer. -/
inductive Action where
  /-- Write a value to a register. -/
  | write (address : Address) (value : UInt32)
  /-- Wait for about this many microseconds. -/
  | delay (us : UInt32)
  /-- Complete all earlier writes before any later access. -/
  | barrier
  /-- Enter a critical section. -/
  | enter
  /-- Leave the critical section. -/
  | leave
  /-- Enable the clocks of a hardware block. -/
  | clock (block : UInt8)
  /-- Route the pads of a hardware block to the serial function. -/
  | pads (block : UInt8)
  deriving DecidableEq, Repr

/-- A program that makes requests and ends with a value. -/
inductive Program (α : Type) where
  /-- The end, with a value. -/
  | done (value : α)
  /-- A computation without a result stops the machine: an address outside the address space,
  a counter that overflows, an index outside its table. -/
  | fault
  /-- An unbounded loop has been unrolled as often as asked for. -/
  | limit
  /-- Read a register and go on with its value. -/
  | read (address : Address) (next : UInt32 → Program α)
  /-- Perform an action and go on. -/
  | act (action : Action) (next : Program α)

namespace Program

/-- Goes on with `f` where `p` ends with a value. -/
def bind {α β : Type} (p : Program α) (f : α → Program β) : Program β :=
  match p with
  | .done a => f a
  | .fault => .fault
  | .limit => .limit
  | .read a next => .read a fun v => (next v).bind f
  | .act c next => .act c (next.bind f)

instance : Monad Program where
  pure := .done
  bind := bind

/-- A single read. -/
def get (address : Address) : Program UInt32 := .read address .done

/-- A single action. -/
def perform (action : Action) : Program Unit := .act action (.done ())

/-- The value of an option, which must be there for the machine to go on. -/
def require {α : Type} : Option α → Program α
  | some a => .done a
  | none => .fault

section Lemmas

variable {α β γ : Type}

@[simp] theorem pure_eq (a : α) : (pure a : Program α) = .done a := rfl

@[simp] theorem bind_eq (p : Program α) (f : α → Program β) : p >>= f = p.bind f := rfl

@[simp] theorem done_bind (a : α) (f : α → Program β) : (done a).bind f = f a := rfl

@[simp] theorem fault_bind (f : α → Program β) : (fault : Program α).bind f = .fault := rfl

@[simp] theorem limit_bind (f : α → Program β) : (limit : Program α).bind f = .limit := rfl

@[simp] theorem read_bind (a : Address) (next : UInt32 → Program α) (f : α → Program β) :
    (read a next).bind f = .read a fun v => (next v).bind f := rfl

@[simp] theorem act_bind (c : Action) (next : Program α) (f : α → Program β) :
    (act c next).bind f = .act c (next.bind f) := rfl

@[simp] theorem get_bind (a : Address) (f : UInt32 → Program β) : (get a).bind f = .read a f := rfl

@[simp] theorem perform_bind (c : Action) (f : Unit → Program β) :
    (perform c).bind f = .act c (f ()) := rfl

@[simp] theorem bind_done (p : Program α) : p.bind .done = p := by
  induction p with
  | done a => rfl
  | fault => rfl
  | limit => rfl
  | read a next ih => simp [ih]
  | act c next ih => simp [ih]

theorem bind_assoc (p : Program α) (f : α → Program β) (g : β → Program γ) :
    (p.bind f).bind g = p.bind fun a => (f a).bind g := by
  induction p with
  | done a => rfl
  | fault => rfl
  | limit => rfl
  | read a next ih => simp [ih]
  | act c next ih => simp [ih]

instance : LawfulMonad Program :=
  LawfulMonad.mk' Program
    (fun p => by
      show p.bind (fun a => .done (id a)) = p
      exact bind_done p)
    (fun _ _ => rfl)
    (fun p f g => bind_assoc p f g)

end Lemmas

end Program

end PolledUart

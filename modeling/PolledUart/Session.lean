import PolledUart.Stream

/-!
# Sessions

A session is a driver together with the bus it drives. `Call` lists everything
that can be asked of it and `Reply` what it can answer, so a history of a driver
is a list of calls, and a statement about all histories is an induction on one.

`Session.perform` runs one call. A call that faults or is cut off ends the
session: the run has no session to go on with.
-/

namespace PolledUart

/-- A call on the driver. -/
inductive Call where
  /-- Bring up a port. -/
  | init (board : Board) (number : UInt8) (wrapper : Option Address) (base : Address)
  /-- Send one character. -/
  | putChar (port : PortId) (byte : UInt8)
  /-- Send a text. -/
  | write (port : PortId) (data : List UInt8)
  /-- Wait until everything has been sent. -/
  | flush (port : PortId)
  /-- Read one character. -/
  | getChar (port : PortId) (wait : Bool)
  /-- Read without waiting, up to a number of characters. -/
  | drain (port : PortId) (max : Nat)
  /-- Borrow a port as a stream. -/
  | borrow (port : PortId)
  /-- Send a buffer through the stream. -/
  | writeBytes (port : PortId) (data : List UInt8)
  /-- Send a whole buffer through the stream. -/
  | writeAll (port : PortId) (data : List UInt8)
  /-- Read into a buffer through the stream. -/
  | readBytes (port : PortId) (room : Nat)
  /-- Fill a buffer through the stream. -/
  | readExact (port : PortId) (room : Nat)
  /-- Send one piece of text. -/
  | writeText (port : PortId) (text : List UInt8)
  /-- Send the pieces of a formatted text. -/
  | writePieces (port : PortId) (pieces : List (List UInt8))
  deriving DecidableEq, Repr

/-- The answer to a call. -/
inductive Reply where
  | port (result : Except InitError PortId)
  | done (result : Except IoError Unit)
  | byte (result : Except IoError UInt8)
  | drained (bytes : List UInt8) (stop : Option IoError)
  | count (result : Except IoError Nat)
  | buffer (bytes : List UInt8) (result : Except IoError Nat)
  | filled (bytes : List UInt8) (result : Except FillError Unit)
  | text (result : Except FormatError Unit)

namespace Call

variable {slots : Nat}

/-- The program of a call: what it answers and the driver it leaves. -/
def program (call : Call) (fuel : Nat) (d : Driver slots) : Program (Reply × Driver slots) :=
  match call with
  | .init board number wrapper base => do
    let (result, d) ← d.init fuel board number wrapper base
    return (.port result, d)
  | .putChar port byte => return (.done (← d.putChar fuel port byte), d)
  | .write port data => return (.done (← d.write fuel port data), d)
  | .flush port => return (.done (← d.flush fuel port), d)
  | .getChar port wait => do
    let (result, d) ← d.getChar fuel port wait
    return (.byte result, d)
  | .drain port max => do
    let ((bytes, stop), d) ← d.drain fuel port max
    return (.drained bytes stop, d)
  | .borrow port => return (.done (← d.onPort port fun _ => return .ok ()), d)
  | .writeBytes port data => return (.count (← d.writeBytes fuel port data), d)
  | .writeAll port data => return (.done (← d.writeAll fuel port data), d)
  | .readBytes port room => do
    let (filled, d) ← d.readBytes fuel port room
    return (.buffer filled.bytes filled.result, d)
  | .readExact port room => do
    let (filled, d) ← d.readExact fuel port room
    return (.filled filled.bytes filled.result, d)
  | .writeText port text => return (.text (← d.writeText fuel port text), d)
  | .writePieces port pieces => return (.text (← d.writePieces fuel port pieces), d)

end Call

/-- A driver and the state of its bus. -/
structure Session (σ : Type) (slots : Nat) where
  driver : Driver slots
  bus : σ

namespace Session

variable {σ : Type} {slots : Nat}

/-- Runs one call: its answer, the session after it, and what happened on the bus. -/
def perform (bus : Bus σ) (fuel : Nat) (call : Call) (s : Session σ slots) :
    Run (Session σ slots) Reply :=
  let r := bus.execute (call.program fuel s.driver) s.bus
  match r.outcome with
  | .ok (reply, driver) state => ⟨.ok reply ⟨driver, state⟩, r.trace⟩
  | .fault => ⟨.fault, r.trace⟩
  | .halt => ⟨.halt, r.trace⟩
  | .limit => ⟨.limit, r.trace⟩

/-- Makes the same call a number of times and answers as the last one did; the answer to no call
at all is `reply`. -/
def repeated (bus : Bus σ) (fuel : Nat) (call : Call) :
    Nat → Reply → Session σ slots → Run (Session σ slots) Reply
  | 0, reply, s => ⟨.ok reply s, []⟩
  | n + 1, _, s => (perform bus fuel call s).andThen fun reply s => repeated bus fuel call n reply s

end Session

end PolledUart

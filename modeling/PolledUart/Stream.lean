import PolledUart.Driver

/-!
# Byte streams over a port

A registered port as a stream of bytes and as a sink of text, for code that is
generic over both. Here an empty buffer is no error: nothing is sent and nothing
is read. A failure of formatted output has no cause, only the fact.
-/

namespace PolledUart.Driver

variable {slots : Nat}

/-! ### Bytes out -/

/-- Sends a buffer and answers with how much of it was taken, which is all of it. -/
def writeBytes (d : Driver slots) (fuel : Nat) (port : PortId) (data : List UInt8) :
    Program (Except IoError Nat) :=
  if data.isEmpty then return .ok 0
  else do
    match ← d.write fuel port data with
    | .error e => return .error e
    | .ok () => return .ok data.length

/-- Sends a whole buffer. -/
def writeAll (d : Driver slots) (fuel : Nat) (port : PortId) (data : List UInt8) :
    Program (Except IoError Unit) :=
  if data.isEmpty then return .ok ()
  else do
    match ← d.writeBytes fuel port data with
    | .error e => return .error e
    | .ok _ => return .ok ()

/-! ### Bytes in -/

/-- What a read did to its buffer, and how it ended. -/
structure Filled (ε α : Type) where
  /-- The characters put at the front of the buffer. -/
  bytes : List UInt8
  result : Except ε α

/-- The characters that have already arrived, at most `room` of them. Only the failure that
nothing has arrived is an end; any other is passed on. -/
def takeReady (d : Driver slots) (fuel : Nat) (port : PortId) :
    Nat → Program (Filled IoError Unit × Driver slots)
  | 0 => return (⟨[], .ok ()⟩, d)
  | room + 1 => do
    match ← d.getChar fuel port false with
    | (.error .rxNotReady, d) => return (⟨[], .ok ()⟩, d)
    | (.error e, d) => return (⟨[], .error e⟩, d)
    | (.ok byte, d) =>
      let (rest, d) ← takeReady d fuel port room
      return (⟨byte :: rest.bytes, rest.result⟩, d)

/-- Waits for the first character, then takes what else has already arrived, up to the room in
the buffer. Answers with the number of characters. -/
def readBytes (d : Driver slots) (fuel : Nat) (port : PortId) (room : Nat) :
    Program (Filled IoError Nat × Driver slots) :=
  match room with
  | 0 => return (⟨[], .ok 0⟩, d)
  | room + 1 => do
    match ← d.getChar fuel port true with
    | (.error e, d) => return (⟨[], .error e⟩, d)
    | (.ok first, d) =>
      let (rest, d) ← d.takeReady fuel port room
      return (⟨first :: rest.bytes, rest.result.map fun () => rest.bytes.length + 1⟩, d)

/-- Reads until the room is used up, with at most the given number of reads. A read into a
buffer with room answers with at least one character, so `room` reads are enough. -/
def fillFrom (d : Driver slots) (fuel : Nat) (port : PortId) :
    Nat → Nat → Program (Filled FillError Unit × Driver slots)
  | _, 0 => return (⟨[], .ok ()⟩, d)
  | 0, _ + 1 => return (⟨[], .error .endOfStream⟩, d)
  | reads + 1, room + 1 => do
    match ← d.readBytes fuel port (room + 1) with
    | (⟨bytes, .error e⟩, d) => return (⟨bytes, .error (.io e)⟩, d)
    | (⟨_, .ok 0⟩, d) => return (⟨[], .error .endOfStream⟩, d)
    | (⟨bytes, .ok n⟩, d) =>
      let (rest, d) ← fillFrom d fuel port reads (room + 1 - n)
      return (⟨bytes ++ rest.bytes, rest.result⟩, d)

/-- Reads exactly `room` characters. -/
def readExact (d : Driver slots) (fuel : Nat) (port : PortId) (room : Nat) :
    Program (Filled FillError Unit × Driver slots) :=
  d.fillFrom fuel port room room

/-! ### Text out -/

/-- Sends one piece of text. -/
def writeText (d : Driver slots) (fuel : Nat) (port : PortId) (text : List UInt8) :
    Program (Except FormatError Unit) :=
  if text.isEmpty then return .ok ()
  else do
    match ← d.write fuel port text with
    | .error _ => return .error .failed
    | .ok () => return .ok ()

/-- Sends the pieces of a formatted text one after the other, up to the first failure. -/
def writePieces (d : Driver slots) (fuel : Nat) (port : PortId) :
    List (List UInt8) → Program (Except FormatError Unit)
  | [] => return .ok ()
  | piece :: rest => do
    match ← d.writeText fuel port piece with
    | .error e => return .error e
    | .ok () => writePieces d fuel port rest

end PolledUart.Driver

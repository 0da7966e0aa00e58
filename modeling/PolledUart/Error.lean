/-!
# Causes of failure

What can go wrong when a character is sent or received (`IoError`) and when a
port is brought up (`InitError`), with the code, the wording and the general
kind of each cause.
-/

namespace PolledUart

/-- Why a character operation failed. -/
inductive IoError where
  /-- The data are empty, or more characters than the count register can announce. -/
  | invalidArgument
  /-- The port id belongs to no initialized port. -/
  | uninitialized
  /-- Nothing has been received. -/
  | rxNotReady
  /-- A status bit stayed clear for the whole poll budget. -/
  | timeout
  deriving DecidableEq, Repr

namespace IoError

/-- The integer code of a cause in the console interface of the boot environment. -/
def code : IoError → Int
  | .timeout => 2
  | .invalidArgument => 3
  | .rxNotReady => 5
  | .uninitialized => -1

/-- The wording of a cause. -/
def message : IoError → String
  | .invalidArgument => "invalid argument"
  | .uninitialized => "port not initialized"
  | .rxNotReady => "no character received"
  | .timeout => "timed out waiting for the UART"

/-- No two causes share a code. -/
theorem code_injective {a b : IoError} (h : a.code = b.code) : a = b := by
  cases a <;> cases b <;> simp_all [code]

end IoError

/-- The kinds of failure that generic byte-stream code tells apart. -/
inductive ErrorKind where
  /-- A parameter was not valid. -/
  | invalidInput
  /-- The stream is not connected. -/
  | notConnected
  /-- The operation ran out of time. -/
  | timedOut
  /-- Anything else. -/
  | other
  deriving DecidableEq, Repr

/-- The kind under which a byte stream reports a cause. -/
def IoError.kind : IoError → ErrorKind
  | .invalidArgument => .invalidInput
  | .uninitialized => .notConnected
  | .rxNotReady => .other
  | .timeout => .timedOut

/-- Why a port could not be brought up. -/
inductive InitError where
  /-- The base address is null. -/
  | invalidBase
  /-- Every slot of the port registry is taken. -/
  | registryFull
  /-- The banner could not be sent. -/
  | transmit (cause : IoError)
  deriving DecidableEq, Repr

/-- The wording of a cause. -/
def InitError.message : InitError → String
  | .invalidBase => "null UART_DM base address"
  | .registryFull => "port registry is full"
  | .transmit cause => "init banner failed: " ++ cause.message

/-- The failure of formatted output, which carries no cause. -/
inductive FormatError where
  /-- A piece of the text could not be sent. -/
  | failed
  deriving DecidableEq, Repr

/-- Why a buffer could not be filled completely. -/
inductive FillError where
  /-- The stream ended first. -/
  | endOfStream
  /-- A read failed. -/
  | io (cause : IoError)
  deriving DecidableEq, Repr

end PolledUart

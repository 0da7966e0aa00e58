import PolledUart.Config
import PolledUart.Receive
import PolledUart.Registry
import PolledUart.Transmit

/-!
# The driver

A `Driver` holds what outlives a call: the configuration, the port registry and
one receive cache per slot. Each operation is a program of bus requests that
ends with its result and, where it can change, the new driver. That sending and
flushing leave the driver as it is can be read off their types.

The registry capacity and the base address are checked before an initialization
touches the hardware; the port itself is registered last, so a port whose
banner could not be sent is not registered.
-/

namespace PolledUart

/-- The state of a driver with room for `slots` ports. -/
structure Driver (slots : Nat) where
  config : Config
  ports : Registry slots
  /-- The receive cache of each slot. -/
  caches : Vector RxCache slots

/-- What a board must do before a block can be programmed. -/
inductive Board where
  /-- An earlier stage has set up clocks and pads. -/
  | ready
  /-- The board has hooks for both. -/
  | hooks
  deriving DecidableEq, Repr

namespace Board

/-- Enables the clocks of a block. -/
def configureClock (board : Board) (block : UInt8) : Program Unit :=
  match board with
  | .ready => return ()
  | .hooks => Program.perform (.clock block)

/-- Routes the pads of a block. -/
def configurePads (board : Board) (block : UInt8) : Program Unit :=
  match board with
  | .ready => return ()
  | .hooks => Program.perform (.pads block)

end Board

namespace Driver

variable {slots : Nat}

/-- A driver without ports. -/
def new (config : Config) : Driver slots where
  config := config
  ports := .empty
  caches := .replicate slots .empty

/-- The register block at a base address. -/
def block (d : Driver slots) (base : Address) : Block := ⟨base, d.config.registers⟩

/-- The driver with one receive cache replaced. The slot must exist. -/
def setCache (d : Driver slots) (slot : Nat) (cache : RxCache) : Program (Driver slots) :=
  if h : slot < slots then
    return { d with caches := d.caches.set slot cache }
  else .fault

/-- The receive cache of a slot, which must exist. -/
def cache (d : Driver slots) (slot : Nat) : Program RxCache :=
  if h : slot < slots then return d.caches[slot] else .fault

/-! ### Bringing up a port -/

/-- Switches a GSBI wrapper to its UART protocol. -/
def selectProtocol (wrapper : Address) : Program Unit := do
  let address ← Program.require (Address.plus? wrapper Gsbi.control)
  Program.perform (.write address (Gsbi.i2cAndUart <<< Gsbi.protocolShift))
  Program.perform .barrier

/-- Programs bit rate, mode and flow control, and resets both directions. -/
def programBlock (config : Config) (b : Block) : Program Unit := do
  b.write .csr config.clockSelect
  Program.perform .barrier
  b.write .mr1 config.flowControlBits
  b.write .mr2 eightBitsNoParityOneStop
  b.command Command.resetRx
  b.command Command.resetTx
  b.write .dmen dataMoverOff

/-- Sends the banner, if there is one. -/
def sendBanner (config : Config) (fuel : Nat) (b : Block) : Program (Except IoError Unit) :=
  match config.banner with
  | none => return .ok ()
  | some text => Transmit.transmit b config.poll fuel text

/-- Registers a port and empties its receive cache. -/
def addPort (d : Driver slots) (base : Address) :
    Program (Except InitError PortId × Driver slots) :=
  match d.ports.register base with
  | .error e => return (.error e, d)
  | .ok (id, ports) => do
    let d ← setCache { d with ports } id.index .empty
    return (.ok id, d)

/-- Brings up the block at `base` and registers it as a port. `number` is the hardware instance
number for the board, `wrapper` the GSBI wrapper to be switched, if there is one. -/
def init (d : Driver slots) (fuel : Nat) (board : Board) (number : UInt8)
    (wrapper : Option Address) (base : Address) :
    Program (Except InitError PortId × Driver slots) :=
  if base = 0 then return (.error .invalidBase, d)
  else if d.ports.isFull then return (.error .registryFull, d)
  else do
    board.configureClock number
    Program.perform .barrier
    board.configurePads number
    Program.perform .barrier
    if let some address := wrapper then
      selectProtocol address
    programBlock d.config (d.block base)
    match ← sendBanner d.config fuel (d.block base) with
    | .error e => return (.error (.transmit e), d)
    | .ok () => d.addPort base

/-! ### Sending -/

/-- Runs an operation on the block of a port, which must be registered. -/
def onPort {α : Type} (d : Driver slots) (port : PortId)
    (operation : Block → Program (Except IoError α)) : Program (Except IoError α) :=
  match d.ports.resolve port with
  | none => return .error .uninitialized
  | some base => operation (d.block base)

/-- Sends a text with newline expansion. -/
def write (d : Driver slots) (fuel : Nat) (port : PortId) (data : List UInt8) :
    Program (Except IoError Unit) :=
  d.onPort port fun b => Transmit.transmit b d.config.poll fuel data

/-- Sends one character with newline expansion. -/
def putChar (d : Driver slots) (fuel : Nat) (port : PortId) (byte : UInt8) :
    Program (Except IoError Unit) :=
  d.write fuel port [byte]

/-- Waits until everything sent on a port has left the transmitter. -/
def flush (d : Driver slots) (fuel : Nat) (port : PortId) : Program (Except IoError Unit) :=
  d.onPort port fun b => Transmit.drain b d.config.poll fuel

/-! ### Receiving -/

/-- A word for an empty cache. With `wait` the receiver is asked until one has arrived. -/
def fetchWord (fuel : Nat) (wait : Bool) (b : Block) : Program (Option Received) :=
  if wait then do
    return some (← Receive.fetchWaiting b fuel)
  else Receive.fetch b

/-- Hands out the next character of a cache. -/
def takeFrom (d : Driver slots) (slot : Nat) (cache : RxCache) :
    Program (Except IoError UInt8 × Driver slots) :=
  match cache.pop? with
  | none => return (.error .rxNotReady, d)
  | some (byte, rest) => do
    let d ← d.setCache slot rest
    return (.ok byte, d)

/-- The next received character. It comes from the cache of the port; the FIFO is read only when
the cache is used up, and the cache stays as it is when nothing has arrived. -/
def getChar (d : Driver slots) (fuel : Nat) (port : PortId) (wait : Bool) :
    Program (Except IoError UInt8 × Driver slots) :=
  match d.ports.resolve port with
  | none => return (.error .uninitialized, d)
  | some base => do
    let cache ← d.cache port.index
    if cache.isEmpty then
      match ← fetchWord fuel wait (d.block base) with
      | none => return (.error .rxNotReady, d)
      | some received => d.takeFrom port.index (.ofReceived received)
    else d.takeFrom port.index cache

/-- Up to `max` characters by reads that do not wait, and the failure that ended them early, if
one did. -/
def drain (d : Driver slots) (fuel : Nat) (port : PortId) :
    Nat → Program ((List UInt8 × Option IoError) × Driver slots)
  | 0 => return (([], none), d)
  | max + 1 => do
    match ← d.getChar fuel port false with
    | (.error e, d) => return (([], some e), d)
    | (.ok byte, d) =>
      let ((bytes, stop), d) ← drain d fuel port max
      return ((byte :: bytes, stop), d)

end Driver

end PolledUart

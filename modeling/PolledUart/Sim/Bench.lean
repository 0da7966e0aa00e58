import PolledUart.Register
import PolledUart.Sim.Hardware
import PolledUart.Word

/-!
# The bench block

A simulated UART_DM block that keeps a record of what the driver did to it:
commands, transfers with their words, last values of plain registers, writes
that missed the block. From the other side characters can arrive, an overrun can
be raised, and the transmitter can be busy for a while, stall in the middle of a
transfer, or be stuck for good.

`Bench.txBytes` is what reached the wire: of each transfer as many characters as
its count announced.
-/

namespace PolledUart.Sim

/-- A transfer as the block saw it. -/
structure Transfer where
  /-- The announced number of characters. -/
  chars : UInt32
  /-- The words written since. -/
  words : Array FifoWord

/-- The characters of a transfer that reached the wire. -/
def Transfer.bytes (t : Transfer) : List UInt8 :=
  (t.words.toList.flatMap FifoWord.lanes).take t.chars.toNat

/-- State of a bench block. -/
structure Bench where
  base : Address
  map : RegisterMap
  /-- Number of accesses to the block since its record was last cleared. -/
  logged : Nat
  /-- Commands since the record was last cleared, latest first. -/
  commandsBack : List UInt32
  /-- Values written to plain registers, with their offsets, latest first. -/
  plainBack : List (UInt64 × UInt32)
  /-- Writes that missed the block, latest first. -/
  outsideBack : List (Address × UInt32)
  /-- Transfers, latest first. -/
  transfersBack : List Transfer
  /-- Received characters that have not been read, oldest first. -/
  rx : List UInt8
  /-- The packing buffer has been pushed out. -/
  stale : Bool
  /-- A character was lost. -/
  overrun : Bool
  /-- Reads of the interrupt status for which the transmitter still reports busy. -/
  txBusyPolls : Nat
  /-- The transmitter never becomes ready. -/
  txStuck : Bool
  /-- Reads of the status for which the transmitter still reports busy. -/
  srBusyPolls : Nat
  /-- Number of data writes, since the start, at which the transmitter stalls until it is
  reset. -/
  stallAt : Option Nat
  /-- Number of data writes since the start. -/
  dataWrites : Nat
  /-- Microseconds waited since the start. -/
  waited : UInt32

namespace Bench

/-- Size of the address window of the block. -/
def window : UInt64 := 0x200

/-- An idle block with empty FIFOs. -/
def new (base : Address) (map : RegisterMap) : Bench where
  base := base
  map := map
  logged := 0
  commandsBack := []
  plainBack := []
  outsideBack := []
  transfersBack := []
  rx := []
  stale := false
  overrun := false
  txBusyPolls := 0
  txStuck := false
  srBusyPolls := 0
  stallAt := none
  dataWrites := 0
  waited := 0

/-! ### What the record shows -/

/-- The commands, in order. -/
def commands (b : Bench) : List UInt32 := b.commandsBack.reverse

/-- The writes that missed the block, in order. -/
def outside (b : Bench) : List (Address × UInt32) := b.outsideBack.reverse

/-- The transfers, in order. -/
def transfers (b : Bench) : List Transfer := b.transfersBack.reverse

/-- The last value written to the plain register at an offset. -/
def plain? (b : Bench) (offset : UInt64) : Option UInt32 :=
  (b.plainBack.find? (·.1 == offset)).map (·.2)

/-- The announced counts, in order. -/
def txCounts (b : Bench) : List UInt32 := b.transfers.map (·.chars)

/-- The words written to the data register, in order. -/
def txWords (b : Bench) : List FifoWord := b.transfers.flatMap (·.words.toList)

/-- The characters that reached the wire. -/
def txBytes (b : Bench) : List UInt8 := b.transfers.flatMap Transfer.bytes

/-! ### The device -/

/-- The transmitter has stalled. -/
def stalled (b : Bench) : Bool :=
  match b.stallAt with
  | none => false
  | some n => decide (n ≤ b.dataWrites)

/-- The transmitter takes words. -/
def takesWords (b : Bench) : Bool := !b.txStuck && !b.stalled

/-- The transmitter has nothing left to send. -/
def idle (b : Bench) : Bool := b.takesWords && b.txBusyPolls == 0

private def flag (on : Bool) (bit : UInt32) : UInt32 := if on then bit else 0

/-- The status register, when the transmitter does not pretend to be busy. -/
def status (b : Bench) : UInt32 :=
  flag (decide (4 ≤ b.rx.length)) Status.rxReady ||| flag b.takesWords Status.txReady |||
    flag b.idle Status.txEmpty ||| flag b.overrun Status.overrun

/-- Reads the status register. -/
def readStatus (b : Bench) : UInt32 × Bench :=
  match b.srBusyPolls with
  | 0 => (b.status, b)
  | n + 1 =>
    (b.status &&& ~~~(Status.txReady ||| Status.txEmpty), { b with srBusyPolls := n })

/-- Reads the interrupt status register. -/
def readInterruptStatus (b : Bench) : UInt32 × Bench :=
  if b.takesWords then
    match b.txBusyPolls with
    | 0 => (InterruptStatus.txReady, b)
    | n + 1 => (0, { b with txBusyPolls := n })
  else (0, b)

/-- Takes a word of up to four characters from the receive queue. -/
def popWord (b : Bench) : UInt32 × Bench :=
  ((FifoWord.ofBytes (b.rx.take 4)).raw, { b with rx := b.rx.drop 4 })

/-- Reads the receive data register. -/
def readData (b : Bench) : UInt32 × Bench :=
  if b.stale then popWord { b with stale := false }
  else if 4 ≤ b.rx.length then b.popWord
  else (0, b)

/-- The receive FIFO state register. -/
def receiveState (b : Bench) : UInt32 := UInt32.ofNat (b.rx.length % 4) <<< 7

/-- Reads the register at an offset. The readable registers come first; any other offset holds
the value last written to it. -/
def readAt (b : Bench) (offset : UInt64) : UInt32 × Bench :=
  if offset = b.map.sr then b.readStatus
  else if offset = b.map.isr then b.readInterruptStatus
  else if offset = b.map.rxfs then (b.receiveState, b)
  else if offset = b.map.rf then b.readData
  else ((b.plain? offset).getD 0, b)

/-- Takes a word for the latest transfer. -/
def takeWord (b : Bench) (w : FifoWord) : Bench :=
  let b := { b with dataWrites := b.dataWrites + 1 }
  match b.transfersBack with
  | [] => { b with transfersBack := [⟨0, #[w]⟩] }
  | t :: rest => { b with transfersBack := { t with words := t.words.push w } :: rest }

/-- Carries out a command. -/
def obey (b : Bench) (code : UInt32) : Bench :=
  let b := { b with commandsBack := code :: b.commandsBack }
  if code = Command.resetErrorStatus then { b with overrun := false }
  else if code = Command.forceStale then { b with stale := true }
  else if code = Command.resetRx then { b with rx := [] }
  else if code = Command.resetTx then { b with stallAt := none }
  else b

/-- Stores a value in a plain register; a count opens a transfer. -/
def store (b : Bench) (offset : UInt64) (value : UInt32) : Bench :=
  let b :=
    if offset = b.map.noCharsForTx then
      { b with transfersBack := ⟨value, #[]⟩ :: b.transfersBack }
    else b
  { b with plainBack := (offset, value) :: b.plainBack }

/-- Writes the register at an offset. -/
def writeAt (b : Bench) (offset : UInt64) (value : UInt32) : Bench :=
  if offset = b.map.tf then b.takeWord ⟨value⟩
  else if offset = b.map.cr then b.obey value
  else b.store offset value

/-- Reads an address. Nothing is attached outside the window of the block. -/
def read (b : Bench) (address : Address) : UInt32 × Bench :=
  let offset := address - b.base
  if offset < window then
    let (value, b) := b.readAt offset
    (value, { b with logged := b.logged + 1 })
  else (0, b)

/-- Writes an address. -/
def write (b : Bench) (address : Address) (value : UInt32) : Bench :=
  let offset := address - b.base
  if offset < window then writeAt { b with logged := b.logged + 1 } offset value
  else { b with outsideBack := (address, value) :: b.outsideBack }

/-- Waits. The total must fit in 32 bits. -/
def wait (b : Bench) (us : UInt32) : Outcome Bench Unit :=
  if b.waited.toNat + us.toNat < 0x100000000 then .ok () { b with waited := b.waited + us }
  else .fault

/-- What can be done to the block from the other side. -/
inductive Control where
  /-- Characters arrive. -/
  | receive (bytes : List UInt8)
  /-- The overrun flag is set or cleared. -/
  | overrun (on : Bool)
  /-- The transmitter gets stuck or comes free. -/
  | stuck (on : Bool)
  /-- The next reads of the interrupt status find the transmitter busy. -/
  | busyInterruptPolls (n : Nat)
  /-- The next reads of the status find the transmitter busy. -/
  | busyStatusPolls (n : Nat)
  /-- The transmitter stalls after some more words, until it is reset. -/
  | stallAfter (words : Nat)
  /-- The record of accesses and commands is cleared. -/
  | clearRecord
  deriving DecidableEq, Repr

/-- The block after a control. The number of data writes at which the transmitter stalls must
fit in 64 bits. -/
def control (k : Control) (b : Bench) : Option Bench :=
  match k with
  | .receive bytes => some { b with rx := b.rx ++ bytes }
  | .overrun on => some { b with overrun := on }
  | .stuck on => some { b with txStuck := on }
  | .busyInterruptPolls n => some { b with txBusyPolls := n }
  | .busyStatusPolls n => some { b with srBusyPolls := n }
  | .stallAfter words =>
    if b.dataWrites + words < 0x10000000000000000 then
      some { b with stallAt := some (b.dataWrites + words) }
    else none
  | .clearRecord => some { b with logged := 0, commandsBack := [] }

/-- The bench block as a bus. -/
def bus : Bus Bench where
  read address b := let (value, b) := b.read address; .ok value b
  write address value b := .ok () (b.write address value)
  delay us b := b.wait us
  barrier := id

/-- The bench block as a device. -/
def hardware : Hardware Bench Control where
  bus := bus
  control := control
  seesRegisters := true
  seesBarriers := true

end Bench

end PolledUart.Sim

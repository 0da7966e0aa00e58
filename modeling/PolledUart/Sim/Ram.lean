import PolledUart.Register
import PolledUart.Sim.Hardware
import PolledUart.Word

/-!
# The RAM block

A UART_DM block emulated in RAM at a fixed base address. Words written to its
data register are cut to the announced count and go to a console; received
characters wait in a ring of 64 bytes. An access below the block or beyond its
register file faults.

* `Ram.queue` — the view of the ring: the waiting characters, oldest first.
-/

namespace PolledUart.Sim

/-- State of a RAM block. -/
structure Ram where
  map : RegisterMap
  /-- The register file. -/
  registers : Vector UInt32 0x60
  /-- Announced characters that have not been sent. -/
  txRemaining : UInt32
  /-- The cells of the receive ring. -/
  ring : Vector UInt8 64
  /-- Position of the oldest waiting character. -/
  head : Nat
  /-- Number of waiting characters. -/
  waiting : Nat
  /-- The packing buffer has been pushed out. -/
  stale : Bool
  /-- The transmitter never reports ready. -/
  stuck : Bool
  /-- The characters sent to the console, latest first. -/
  consoleBack : List UInt8

namespace Ram

/-- Address of the block. -/
def base : Address := 0x78000000

/-- Number of characters that can wait. -/
def capacity : Nat := 64

/-- A block with empty FIFOs, whose transmitter works or never reports ready. -/
def new (map : RegisterMap) (stuck : Bool) : Ram where
  map := map
  registers := .replicate _ 0
  txRemaining := 0
  ring := .replicate _ 0
  head := 0
  waiting := 0
  stale := false
  stuck := stuck
  consoleBack := []

/-- The characters sent to the console, in order. -/
def console (r : Ram) : List UInt8 := r.consoleBack.reverse

/-- The waiting characters, oldest first. -/
def queue (r : Ram) : List UInt8 :=
  (List.range r.waiting).map fun i =>
    r.ring.get ⟨(r.head + i) % 64, Nat.mod_lt _ (by decide)⟩

/-- One character arrives; it is lost if the ring is full. -/
def arrive (r : Ram) (byte : UInt8) : Ram :=
  if r.waiting = capacity then r
  else
    { r with
      ring := r.ring.set ((r.head + r.waiting) % 64) byte (Nat.mod_lt _ (by decide))
      waiting := r.waiting + 1 }

/-- Characters arrive; those beyond the capacity of the ring are lost. -/
def receive (r : Ram) (bytes : List UInt8) : Ram := bytes.foldl arrive r

/-- Takes up to `n` of the waiting characters, oldest first. Nothing, if the ring is read outside
its cells. -/
def takeChars : Nat → Ram → Option (List UInt8 × Ram)
  | 0, r => some ([], r)
  | n + 1, r =>
    if r.waiting = 0 then some ([], r)
    else if h : r.head < 64 then
      (takeChars n { r with head := (r.head + 1) % 64, waiting := r.waiting - 1 }).map
        fun (bytes, r') => (r.ring[r.head] :: bytes, r')
    else none

/-- Takes a word of up to four characters. -/
def popWord (r : Ram) : Option (UInt32 × Ram) :=
  (takeChars 4 r).map fun (bytes, r) => ((FifoWord.ofBytes bytes).raw, r)

/-- The status register. -/
def status (r : Ram) : UInt32 :=
  (if r.stuck then 0 else Status.txReady ||| Status.txEmpty) |||
    (if 4 ≤ r.waiting then Status.rxReady else 0)

/-- The receive FIFO state register. -/
def receiveState (r : Ram) : UInt32 := UInt32.ofNat (r.waiting % 4) <<< 7

/-- Reads the receive data register. -/
def readData (r : Ram) : Option (UInt32 × Ram) :=
  if r.stale || decide (4 ≤ r.waiting) then popWord { r with stale := false }
  else some (0, r)

/-- Reads the register at an offset. The readable registers come first; any other offset is in
the register file, if that reaches so far. -/
def readAt (r : Ram) (offset : UInt64) : Option (UInt32 × Ram) :=
  if offset = r.map.sr then some (r.status, r)
  else if offset = r.map.isr then some (if r.stuck then 0 else InterruptStatus.txReady, r)
  else if offset = r.map.rxfs then some (r.receiveState, r)
  else if offset = r.map.rf then r.readData
  else (r.registers[(offset / 4).toNat]?).map fun value => (value, r)

/-- Sends the announced part of a word to the console. -/
def send (r : Ram) (w : FifoWord) : Ram :=
  let count := min r.txRemaining 4
  { r with
    consoleBack := (w.lanes.take count.toNat).reverse ++ r.consoleBack
    txRemaining := r.txRemaining - count }

/-- Carries out a command. -/
def obey (r : Ram) (code : UInt32) : Ram :=
  if code = Command.forceStale then { r with stale := true }
  else if code = Command.resetRx then { r with waiting := 0 }
  else r

/-- Stores a value in the register file; a count announces that many characters. -/
def store (r : Ram) (offset : UInt64) (value : UInt32) : Option Ram :=
  let r := if offset = r.map.noCharsForTx then { r with txRemaining := value } else r
  if h : (offset / 4).toNat < 0x60 then
    some { r with registers := r.registers.set (offset / 4).toNat value }
  else none

/-- Writes the register at an offset. -/
def writeAt (r : Ram) (offset : UInt64) (value : UInt32) : Option Ram :=
  if offset = r.map.tf then some (r.send ⟨value⟩)
  else if offset = r.map.cr then some (r.obey value)
  else r.store offset value

/-- The offset of an address, if it is not below the block. -/
def offset? (address : Address) : Option UInt64 :=
  if base ≤ address then some (address - base) else none

/-- The RAM block as a bus. -/
def bus : Bus Ram where
  read address r :=
    match (offset? address).bind r.readAt with
    | some (value, r) => .ok value r
    | none => .fault
  write address value r :=
    match (offset? address).bind fun offset => r.writeAt offset value with
    | some r => .ok () r
    | none => .fault
  delay _ r := .ok () r
  barrier := id

/-- The RAM block as a device; the only control is the arrival of characters. -/
def hardware : Hardware Ram (List UInt8) where
  bus := bus
  control bytes r := some (r.receive bytes)
  seesRegisters := true
  seesBarriers := true

end Ram

end PolledUart.Sim

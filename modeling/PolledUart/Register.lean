/-!
# Registers of a UART_DM block

The registers the driver touches, where the two known layouts put them, and the
bits and command codes it reads and writes.

Two registers of one layout may share an offset: the GSBI layout has a
write-only clock select where the read-only status is, and one data offset for
both FIFOs. A layout is therefore a plain assignment of offsets, with no
promise that they differ.
-/

namespace PolledUart

/-- The registers of a block that the driver reads or writes. -/
inductive Register where
  /-- Mode register 1: flow control. -/
  | mr1
  /-- Mode register 2: character format. -/
  | mr2
  /-- Clock select, written only. -/
  | csr
  /-- Status, read only. -/
  | sr
  /-- Command, written only. -/
  | cr
  /-- Interrupt status, read only. -/
  | isr
  /-- Receive transfer length. -/
  | dmrx
  /-- Data mover enable. -/
  | dmen
  /-- Number of characters of the next transmit transfer. -/
  | noCharsForTx
  /-- Receive FIFO state. -/
  | rxfs
  /-- Transmit FIFO data. -/
  | tf
  /-- Receive FIFO data. -/
  | rf
  deriving DecidableEq, Repr

namespace Register

/-- Every register, in the order in which a layout lists them. -/
def all : List Register :=
  [.mr1, .mr2, .csr, .sr, .cr, .isr, .dmrx, .dmen, .noCharsForTx, .rxfs, .tf, .rf]

theorem mem_all (r : Register) : r ∈ all := by
  cases r <;> decide

end Register

/-- A register layout: the offset of each register from the base of its block. -/
structure RegisterMap where
  mr1 : UInt64
  mr2 : UInt64
  csr : UInt64
  sr : UInt64
  cr : UInt64
  isr : UInt64
  dmrx : UInt64
  dmen : UInt64
  noCharsForTx : UInt64
  rxfs : UInt64
  tf : UInt64
  rf : UInt64
  deriving DecidableEq, Repr

namespace RegisterMap

/-- The offset of a register. -/
def offset (m : RegisterMap) : Register → UInt64
  | .mr1 => m.mr1
  | .mr2 => m.mr2
  | .csr => m.csr
  | .sr => m.sr
  | .cr => m.cr
  | .isr => m.isr
  | .dmrx => m.dmrx
  | .dmen => m.dmen
  | .noCharsForTx => m.noCharsForTx
  | .rxfs => m.rxfs
  | .tf => m.tf
  | .rf => m.rf

/-- The layout with register `r` moved to offset `o`. -/
def move (m : RegisterMap) (r : Register) (o : UInt64) : RegisterMap :=
  match r with
  | .mr1 => { m with mr1 := o }
  | .mr2 => { m with mr2 := o }
  | .csr => { m with csr := o }
  | .sr => { m with sr := o }
  | .cr => { m with cr := o }
  | .isr => { m with isr := o }
  | .dmrx => { m with dmrx := o }
  | .dmen => { m with dmen := o }
  | .noCharsForTx => { m with noCharsForTx := o }
  | .rxfs => { m with rxfs := o }
  | .tf => { m with tf := o }
  | .rf => { m with rf := o }

/-- Moving a register changes its offset and no other. -/
theorem offset_move (m : RegisterMap) (r q : Register) (o : UInt64) :
    (m.move r o).offset q = if q = r then o else m.offset q := by
  cases r <;> cases q <;> rfl

/-- Layout of the blocks behind a BLSP wrapper. -/
def blsp : RegisterMap where
  mr1 := 0x00
  mr2 := 0x04
  dmrx := 0x34
  dmen := 0x3c
  noCharsForTx := 0x40
  rxfs := 0x50
  csr := 0xa0
  sr := 0xa4
  cr := 0xa8
  isr := 0xb4
  tf := 0x100
  rf := 0x140

/-- Layout of the blocks behind a GSBI wrapper, where `csr` shares an offset with `sr`
and `tf` with `rf`. -/
def gsbi : RegisterMap where
  mr1 := 0x00
  mr2 := 0x04
  csr := 0x08
  sr := 0x08
  cr := 0x10
  isr := 0x14
  dmrx := 0x34
  dmen := 0x3c
  noCharsForTx := 0x40
  rxfs := 0x50
  tf := 0x70
  rf := 0x70

instance : Inhabited RegisterMap := ⟨blsp⟩

end RegisterMap

/-! ### Bits of the status registers -/

namespace Status

/-- The receive FIFO holds at least one full word. -/
def rxReady : UInt32 := 0x01

/-- The transmit FIFO can take a word. -/
def txReady : UInt32 := 0x04

/-- The transmit FIFO and the shift register are empty. -/
def txEmpty : UInt32 := 0x08

/-- A received character was lost. -/
def overrun : UInt32 := 0x10

end Status

namespace InterruptStatus

/-- The FIFO has taken the previous transmit transfer. -/
def txReady : UInt32 := 0x80

end InterruptStatus

namespace ReceiveState

/-- Number of characters in the packing buffer, bits 7 to 9 of the receive FIFO state. -/
def bufferCount (rxfs : UInt32) : UInt32 := (rxfs >>> 7) &&& 0x7

/-- The field is three bits wide. -/
theorem bufferCount_lt (rxfs : UInt32) : (bufferCount rxfs).toNat < 8 := by
  have h : (7 : UInt32).toNat < 2 ^ 3 := by decide
  simpa [bufferCount] using Nat.and_lt_two_pow (rxfs >>> 7).toNat h

end ReceiveState

/-! ### Command codes -/

namespace Command

/-- Reset the receiver. -/
def resetRx : UInt32 := 0x10

/-- Reset the transmitter. -/
def resetTx : UInt32 := 0x20

/-- Clear the error bits of the status register. -/
def resetErrorStatus : UInt32 := 0x30

/-- Clear the stale interrupt. -/
def resetStaleInterrupt : UInt32 := 0x80

/-- Clear the transmit-ready interrupt. -/
def resetTxReady : UInt32 := 0x300

/-- Push the receive packing buffer into the FIFO. -/
def forceStale : UInt32 := 0x400

end Command

/-! ### Values the driver programs -/

/-- Receive-ready hardware flow control, for `mr1`. -/
def rxReadyControl : UInt32 := 0x80

/-- Eight data bits, no parity, one stop bit, for `mr2`. -/
def eightBitsNoParityOneStop : UInt32 := 0x34

/-- Neither data mover nor single-character mode, for `dmen`. -/
def dataMoverOff : UInt32 := 0

/-- 115200 baud in both directions, for `csr`. -/
def clock115200 : UInt32 := 0xff

/-- Re-arms single-word receive transfers, for `dmrx`. -/
def receiveOneWord : UInt32 := 0x7

namespace Gsbi

/-- Offset of the control register of a GSBI wrapper. -/
def control : UInt64 := 0x00

/-- Protocol code for I2C on two ports and a UART on the other two. -/
def i2cAndUart : UInt32 := 0x6

/-- Position of the protocol code in the control register. -/
def protocolShift : UInt32 := 4

end Gsbi

end PolledUart

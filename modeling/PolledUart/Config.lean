import PolledUart.Poll
import PolledUart.Register

/-!
# Configuration

What all ports of one driver share: the register layout, the bit rate, flow
control, the banner printed on every new port, and how long to wait for the
transmitter.
-/

namespace PolledUart

/-- Driver configuration. -/
structure Config where
  /-- Layout of the register blocks. -/
  registers : RegisterMap
  /-- Value of the clock select register, which sets the bit rates. -/
  clockSelect : UInt32
  /-- Receive-ready hardware flow control, for boards wired to an RS-232 connector. -/
  rxFlowControl : Bool
  /-- Sent once after a port is set up, if there is one. -/
  banner : Option (List UInt8)
  /-- How long to wait for the transmitter. -/
  poll : PollPolicy
  deriving DecidableEq, Repr

namespace Config

/-- The banner, unless something else is asked for. -/
def defaultBanner : List UInt8 :=
  "Android Bootloader - UART_DM Initialized!!!\n".toUTF8.data.toList

/-- BLSP layout, 115200 8-N-1 with flow control, the usual banner and a bounded wait. -/
def standard : Config where
  registers := .blsp
  clockSelect := clock115200
  rxFlowControl := true
  banner := some defaultBanner
  poll := .budget PollPolicy.defaultBudget

instance : Inhabited Config := ⟨standard⟩

/-- The value of mode register 1. -/
def flowControlBits (c : Config) : UInt32 :=
  if c.rxFlowControl then rxReadyControl else 0

end Config

end PolledUart

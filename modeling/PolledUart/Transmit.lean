import PolledUart.Block
import PolledUart.Newline
import PolledUart.Word

/-!
# The transmit path

A transfer is announced by programming the count register with the number of
physical characters; then the characters go to the FIFO four at a time. Another
transfer on the same block must not come between the count and the words, so
all of a transfer's writes are made inside one critical section.

The count is computed from the text (`Transmit.count?`) and the words from the
expanded stream (`Transmit.words`); nothing but arithmetic ties the two.
-/

namespace PolledUart.Transmit

/-- The number of physical characters of a text as the count register takes it, if it fits. -/
def count? (data : List UInt8) : Option UInt32 :=
  if Newline.physicalLength data < 0x100000000 then
    some (UInt32.ofNat (Newline.physicalLength data))
  else none

/-- The words that carry a text: its expansion, packed until the stream has ended. -/
def words (data : List UInt8) : List FifoWord :=
  let stream := Newline.Stream.ofBytes data
  (FifoWord.packUpTo Newline.Stream.next (stream.remaining + 1) stream).map (·.word)

/-- Puts words into the FIFO, each as soon as the FIFO can take one. If it cannot for the whole
poll budget, the transmitter is reset: the announced transfer is abandoned, so that the next one
starts from an idle transmitter. -/
def sendWords (b : Block) (policy : PollPolicy) (fuel : Nat) :
    List FifoWord → Program (Except IoError Unit)
  | [] => .done (.ok ())
  | w :: rest => do
    match ← b.waitFor policy fuel .sr Status.txReady with
    | .error e =>
      b.command Command.resetTx
      return .error e
    | .ok () =>
      b.write .tf w.raw
      sendWords b policy fuel rest

/-- Waits until the previous transfer has left the FIFO. -/
def awaitIdle (b : Block) (policy : PollPolicy) (fuel : Nat) : Program (Except IoError Unit) := do
  if (← b.read .sr) &&& Status.txEmpty = 0 then
    b.waitFor policy fuel .isr InterruptStatus.txReady
  else
    return .ok ()

/-- Announces `count` characters and sends the words that carry them, inside one critical
section. -/
def transfer (b : Block) (policy : PollPolicy) (fuel : Nat) (count : UInt32)
    (words : List FifoWord) : Program (Except IoError Unit) := do
  Program.perform .enter
  b.write .noCharsForTx count
  b.command Command.resetTxReady
  let result ← sendWords b policy fuel words
  Program.perform .leave
  return result

/-- Sends a text with newline expansion. An empty text, and one too long to be announced, is
refused before the hardware is touched. -/
def transmit (b : Block) (policy : PollPolicy) (fuel : Nat) (data : List UInt8) :
    Program (Except IoError Unit) :=
  if data.isEmpty then return .error .invalidArgument
  else
    match count? data with
    | none => return .error .invalidArgument
    | some count => do
      match ← awaitIdle b policy fuel with
      | .error e => return .error e
      | .ok () => transfer b policy fuel count (words data)

/-- Waits until the transmitter has shifted out everything it was given. -/
def drain (b : Block) (policy : PollPolicy) (fuel : Nat) : Program (Except IoError Unit) :=
  b.waitFor policy fuel .sr Status.txEmpty

end PolledUart.Transmit

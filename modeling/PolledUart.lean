import PolledUart.Address
import PolledUart.Register
import PolledUart.Error
import PolledUart.Word
import PolledUart.Newline
import PolledUart.Program
import PolledUart.Bus
import PolledUart.Poll
import PolledUart.Block
import PolledUart.Transmit
import PolledUart.Receive
import PolledUart.Registry
import PolledUart.Config
import PolledUart.Driver
import PolledUart.Stream
import PolledUart.Session
import PolledUart.Sim.Hardware
import PolledUart.Sim.AddressTable
import PolledUart.Sim.Script
import PolledUart.Sim.Memory
import PolledUart.Sim.Bench
import PolledUart.Sim.Ram
import PolledUart.Text.Utf8
import PolledUart.Text.Ranges
import PolledUart.Text.ShortestDecimal
import PolledUart.Text.Printable
import PolledUart.Text.GraphemeExtend
import PolledUart.Text.Json
import PolledUart.Text.Escape
import PolledUart.Log.Clock
import PolledUart.Log.Hint
import PolledUart.Log.Format
import PolledUart.Log.Argument
import PolledUart.Log.LittleEndian
import PolledUart.Log.Cbor
import PolledUart.Log.Fault
import PolledUart.Log.Flags
import PolledUart.Log.Floating
import PolledUart.Log.Image
import PolledUart.Log.Object.Coff
import PolledUart.Log.Object.Contents
import PolledUart.Log.Object.Elf
import PolledUart.Log.Object.Field
import PolledUart.Log.Object.Kind
import PolledUart.Log.Object.MachO
import PolledUart.Log.Object.Xcoff
import PolledUart.Log.Symbol
import PolledUart.Log.Table
import PolledUart.Log.Frame
import PolledUart.Log.Line
import PolledUart.Tasks.Tree
import PolledUart.Tasks.Route
import PolledUart.Tasks.Toolchain
import PolledUart.Tasks.Failure
import PolledUart.Tasks.Expected
import PolledUart.Tasks.Capture
import PolledUart.Tasks.Examples
import PolledUart.Tasks.Runner
import PolledUart.Tasks.CommandLine
import PolledUart.Tasks.Scripted
import PolledUart.Main
import PolledUart.Proofs.Completion
import PolledUart.Proofs.Sources
import PolledUart.Proofs.Packing
import PolledUart.Proofs.TransmitTrace
import PolledUart.Proofs.TransmitWrites
import PolledUart.Proofs.Handshake
import PolledUart.Proofs.Requests
import PolledUart.Proofs.Meets
import PolledUart.Proofs.BenchSteps
import PolledUart.Proofs.History
import PolledUart.Proofs.BenchTransfers
import PolledUart.Proofs.Attempts
import PolledUart.Proofs.WireContents
import PolledUart.Proofs.ReceiveTrace
import PolledUart.Proofs.ReceiveQueue
import PolledUart.Proofs.Punctual
import PolledUart.Proofs.ReceiveConservation
import PolledUart.Proofs.Refusals
import PolledUart.Proofs.FetchedWords
import PolledUart.Proofs.CallEffects
import PolledUart.Proofs.DriverState
import PolledUart.Proofs.ReceiveAccount
import PolledUart.Proofs.ReceiveRing
import PolledUart.Proofs.Simulation
import PolledUart.Proofs.Clock
import PolledUart.Proofs.BlocksAgree
import PolledUart.Proofs.Answers
import PolledUart.Proofs.Mirroring
import PolledUart.Proofs.CallMirroring
import PolledUart.Proofs.PollBudget
import PolledUart.Proofs.RunMirroring
import PolledUart.Proofs.Layouts
import PolledUart.Proofs.PortIsolation
import PolledUart.Proofs.Responsive
import PolledUart.Proofs.StallRecovery
import PolledUart.Proofs.HeededBits
import PolledUart.Proofs.BenchDirections
import PolledUart.Proofs.Directions
import PolledUart.Proofs.Selection
import PolledUart.Proofs.TreeChanges
import PolledUart.Proofs.ExampleRuns
import PolledUart.Proofs.ExampleFiles
import PolledUart.Proofs.ExampleIsolation
import PolledUart.Proofs.TestRuns
import PolledUart.Proofs.Verdicts
import PolledUart.Proofs.Blessing
import PolledUart.Proofs.Initialization
import PolledUart.Proofs.ResponsiveHardware
import PolledUart.Proofs.FaultFree
import PolledUart.Proofs.RouteChanges
import PolledUart.Proofs.ExpectedFiles
import PolledUart.Proofs.ExactWait
import PolledUart.Proofs.WaitingReads
import PolledUart.Proofs.AvailableCharacters
import PolledUart.Proofs.Repairs
import PolledUart.Proofs.BoundedQueue
import PolledUart.Proofs.NewlineTranscoding
import PolledUart.Proofs.ArgumentErrors
import PolledUart.Proofs.Effort
import PolledUart.Proofs.BoundedCalls
import PolledUart.Proofs.PackedSources
import PolledUart.Proofs.CachedWords
import PolledUart.Proofs.StreamLength

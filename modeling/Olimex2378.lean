import Olimex2378.Basis.Account
import Olimex2378.Basis.Binary
import Olimex2378.Basis.Bytes
import Olimex2378.Basis.CInt
import Olimex2378.Basis.CString
import Olimex2378.Basis.Fairness
import Olimex2378.Basis.Fifo
import Olimex2378.Basis.Framing
import Olimex2378.Basis.Log2
import Olimex2378.Basis.Loop
import Olimex2378.Basis.Masks
import Olimex2378.Basis.Mirror
import Olimex2378.Basis.Numerals
import Olimex2378.Basis.Part
import Olimex2378.Basis.Run
import Olimex2378.Basis.Scan
import Olimex2378.Basis.Simulation
import Olimex2378.Basis.Variant
import Olimex2378.Firmware.BulkInEndpoint
import Olimex2378.Firmware.BulkOutEndpoint
import Olimex2378.Firmware.ClassRequest
import Olimex2378.Firmware.Events
import Olimex2378.Firmware.IsocSample
import Olimex2378.Firmware.Led
import Olimex2378.Firmware.PollWait
import Olimex2378.Firmware.Putword
import Olimex2378.Firmware.Receiver
import Olimex2378.Firmware.Rounds
import Olimex2378.Firmware.Sampler
import Olimex2378.Firmware.Scp1000
import Olimex2378.Firmware.SerialTest
import Olimex2378.Firmware.StreamTask
import Olimex2378.Firmware.Vcom
import Olimex2378.Host.DatapathHost
import Olimex2378.Host.DatapathTask
import Olimex2378.Host.Helpers
import Olimex2378.Host.HostProgram
import Olimex2378.Host.IsocParseArgs
import Olimex2378.Host.IsocTask
import Olimex2378.Host.ParseArgs
import Olimex2378.Host.SerialPort
import Olimex2378.Bench.Datapath
import Olimex2378.Verif.Alignment
import Olimex2378.Verif.BinaryPrint
import Olimex2378.Verif.BitLength
import Olimex2378.Verif.BothCopies
import Olimex2378.Verif.Chains
import Olimex2378.Verif.CommandLine
import Olimex2378.Verif.Commands
import Olimex2378.Verif.Conversation
import Olimex2378.Verif.Counting
import Olimex2378.Verif.Delivery
import Olimex2378.Verif.Drain
import Olimex2378.Verif.Echo
import Olimex2378.Verif.Fetching
import Olimex2378.Verif.Flash
import Olimex2378.Verif.Gaps
import Olimex2378.Verif.GivenBack
import Olimex2378.Verif.HostWords
import Olimex2378.Verif.Independence
import Olimex2378.Verif.IsocFrames
import Olimex2378.Verif.KeyFlow
import Olimex2378.Verif.LineCoding
import Olimex2378.Verif.LogFile
import Olimex2378.Verif.Outcomes
import Olimex2378.Verif.OwnBuffers
import Olimex2378.Verif.Progress
import Olimex2378.Verif.Rate
import Olimex2378.Verif.Readings
import Olimex2378.Verif.Receive
import Olimex2378.Verif.Reversal
import Olimex2378.Verif.SampleFlow
import Olimex2378.Verif.Samples
import Olimex2378.Verif.Stream
import Olimex2378.Verif.Transmit
import Olimex2378.Verif.Transmitter
import Olimex2378.Verif.Waits
import Olimex2378.Verif.Wakeup
import Olimex2378.Verif.Words

import Olimex2378.Firmware.Events

/-!
# The bulk OUT endpoint

The receive side together with the hardware that feeds it. The endpoint holds received
packets in a number of buffers and refuses the host while all are taken; for each packet it
receives it calls `BulkOut` once, and a packet leaves it only when `USBHwEPRead` takes it.
-/

namespace Olimex2378.Firmware

variable {P : Platform}

/-- A device and what its bulk OUT endpoint holds for it. -/
structure Port (P : Platform) where
  /-- The transport. -/
  device : Device P
  /-- Packets received and not read, oldest first. -/
  waiting : List Packet
  /-- Calls of `BulkOut` that are still due. -/
  due : Nat

/-- The steps of the receive side and the host. -/
inductive PortEvent
  /-- A packet arrives. -/
  | arrive (packet : Packet)
  /-- A due call of `BulkOut` is made. -/
  | bulkOut
  /-- The main loop calls `VCOM_getchar`. -/
  | getchar

/-- One step. `BulkOut` reads the oldest packet, or declines and leaves it. -/
def Port.step (port : Port P) : PortEvent → Port P × List Effect
  | .arrive packet => ({ port with waiting := port.waiting ++ [packet], due := port.due + 1 }, [])
  | .bulkOut =>
    let (device, out) := Firmware.bulkOut port.device bulkOutEp port.waiting.head?
    ({ device, waiting := port.waiting.drop (packets out).length, due := port.due - 1 }, out)
  | .getchar =>
    let (device, c) := vcomGetchar port.device
    ({ port with device }, [.getchar c])

/-- The receive side after `VCOM_init`, with an empty endpoint. -/
def Port.start (d : Device P) : Port P := { device := vcomInit d, waiting := [], due := 0 }

/-- The host is refused while all buffers are taken, and `BulkOut` is called only when a
call is due. -/
def Port.Admits (buffers : Nat) (port : Port P) : PortEvent → Prop
  | .arrive _ => port.waiting.length < buffers
  | .bulkOut => 0 < port.due
  | .getchar => True

/-- The condition can be evaluated. -/
instance Port.Admits.decidable (buffers : Nat) (port : Port P) :
    ∀ event, Decidable (port.Admits buffers event)
  | .arrive _ => inferInstanceAs (Decidable (port.waiting.length < buffers))
  | .bulkOut => inferInstanceAs (Decidable (0 < port.due))
  | .getchar => isTrue trivial

/-- A call of `BulkOut` finds room for a packet in `rxfifo`. -/
def Port.Roomy (port : Port P) : PortEvent → Prop
  | .bulkOut => maxPacketSize ≤ P.fifo.free port.device.rxfifo
  | _ => True

/-- The condition can be evaluated. -/
instance Port.Roomy.decidable (port : Port P) : ∀ event, Decidable (port.Roomy event)
  | .arrive _ => isTrue trivial
  | .bulkOut => inferInstanceAs (Decidable (maxPacketSize ≤ P.fifo.free port.device.rxfifo))
  | .getchar => isTrue trivial

/-- A packet waits in the endpoint, `rxfifo` has room for it, and no call of `BulkOut` is
due that would read it. -/
def Port.Stranded (port : Port P) : Prop :=
  port.due = 0 ∧ port.waiting ≠ [] ∧ maxPacketSize ≤ P.fifo.free port.device.rxfifo

end Olimex2378.Firmware

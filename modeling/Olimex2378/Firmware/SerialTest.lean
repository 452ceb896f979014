import Olimex2378.Firmware.Events

/-!
# The echo program

`serial-test.c` has the transport of `Vcom` and a main loop that fetches a byte and puts it
back. The two calls are separate steps, for an interrupt may fall between them. The loop
does not look at what `VCOM_putchar` returns. What it prints on the debug port is left out.
-/

namespace Olimex2378.Firmware

variable {P : Platform}

/-- The running program: the transport, and the byte that the main loop holds between its
two calls. -/
structure SerialTest (P : Platform) where
  /-- The transport. -/
  device : Device P
  /-- `c`, when it is not `EOF` and has not been put. -/
  held : Option CInt

/-- The steps of the program. -/
inductive SerialTestEvent
  /-- The next call of the main loop. -/
  | main
  /-- An interrupt. -/
  | irq (source : Interrupt)

/-- One step. -/
def SerialTest.step (s : SerialTest P) : SerialTestEvent → SerialTest P × List Effect
  | .main =>
    match s.held with
    | none =>
      let (device, c) := vcomGetchar s.device
      ({ device, held := if c ≠ eof then some c else none }, [.getchar c])
    | some c =>
      let (device, _) := vcomPutchar s.device c
      ({ device, held := none }, [.txPut (toByte c) (putTx s.device c).2])
  | .irq source =>
    let (device, out) := isr s.device source
    ({ s with device }, out)

/-- The program when it enters its main loop. -/
def SerialTest.start (d : Device P) : SerialTest P := { device := vcomInit d, held := none }

/-- The bytes on their way through the program, from the next one to leave it to the last
one to enter it. -/
def SerialTest.inside (s : SerialTest P) : List UInt8 :=
  P.fifo.items s.device.txfifo ++ s.held.toList.map toByte ++ P.fifo.items s.device.rxfifo

/-- When the main loop puts a byte, `txfifo` has room for it. -/
def SerialTest.Roomy (s : SerialTest P) : SerialTestEvent → Prop
  | .main => s.held ≠ none → (P.fifo.items s.device.txfifo).length < P.fifo.capacity
  | .irq _ => True

/-- The condition can be evaluated. -/
instance SerialTest.Roomy.decidable (s : SerialTest P) : ∀ event, Decidable (s.Roomy event)
  | .main => inferInstanceAs
      (Decidable (s.held ≠ none → (P.fifo.items s.device.txfifo).length < P.fifo.capacity))
  | .irq _ => isTrue trivial

end Olimex2378.Firmware

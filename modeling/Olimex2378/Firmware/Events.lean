import Olimex2378.Firmware.Putword
import Olimex2378.Basis.Run

/-!
# The port as an event system

The calls that reach the transport from outside: the interrupt service routine, which runs
one registered handler to its end, and the port functions of a main loop. `VCOM_putword` is
four puts between which an interrupt may fall, so each of its puts is an event of its own.
A run of events is a run of `step`; what its environment saw is read off the effects.
-/

namespace Olimex2378.Firmware

open Run

variable {P : Platform}

/-- The registered handlers, each with what the hardware tells it. -/
inductive Interrupt
  /-- A packet for the bulk OUT endpoint, with what its read will find. -/
  | bulkOut (read : Option Packet)
  /-- A frame tick. -/
  | frame
  /-- The bulk IN endpoint has finished a packet. -/
  | bulkIn
  /-- A device status. -/
  | devInt (bDevStatus : UInt8)

/-- `USBHwISR` runs the handler that `main` registered. -/
def isr (d : Device P) : Interrupt → Device P × List Effect
  | .bulkOut read => bulkOut d bulkOutEp read
  | .frame => usbFrameHandler d
  | .bulkIn => bulkIn d bulkInEp
  | .devInt bDevStatus => (usbDevIntHandler d bDevStatus, [])

/-- The calls that reach the transport. -/
inductive Event
  /-- `VCOM_putchar(c)`. -/
  | putchar (c : CInt)
  /-- One `fifo_put` of `VCOM_putword(c)`. -/
  | putwordByte (c : CInt) (place : Fin 4)
  /-- `VCOM_getchar()`. -/
  | getchar
  /-- One interrupt. -/
  | irq (source : Interrupt)

/-- A platform to evaluate on: queues kept as lists, and the reset bit of the device status
register. -/
def Platform.ofList (capacity : Nat) : Platform where
  fifo := Fifo.ofList UInt8 capacity
  devStatusReset := 0x10

/-- The static variables before `main` has run. -/
def Device.blank (capacity : Nat) : Device (Platform.ofList capacity) where
  abBulkBuf := Vector.replicate 64 0
  fBulkInBusy := false
  fChainDone := false
  txfifo := Fifo.empty UInt8 capacity
  rxfifo := Fifo.empty UInt8 capacity

/-- What one call does. -/
def step (d : Device P) : Event → Device P × List Effect
  | .putchar c => ((vcomPutchar d c).1, [.txPut (toByte c) (putTx d c).2])
  | .putwordByte c place =>
    ((putTx d (putwordArg c place)).1,
      [.txPut (toByte (putwordArg c place)) (putTx d (putwordArg c place)).2])
  | .getchar => ((vcomGetchar d).1, [.getchar (vcomGetchar d).2])
  | .irq source => isr d source

/-- The payload of a write. -/
def Effect.payload : Effect → Option (List UInt8)
  | .epWrite _ payload => some payload
  | _ => none

/-- The byte that a put added to `txfifo`. -/
def Effect.accepted : Effect → Option UInt8
  | .txPut byte true => some byte
  | _ => none

/-- A put into `txfifo` that returned `FALSE`. -/
def Effect.refused : Effect → Bool
  | .txPut _ false => true
  | _ => false

/-- The packet that `BulkOut` read. -/
def Effect.packet : Effect → Option (List UInt8)
  | .epRead _ read => some (readBytes read)
  | _ => none

/-- The byte that `VCOM_getchar` returned. -/
def Effect.fetched : Effect → Option UInt8
  | .getchar c => if c = eof then none else some (toByte c)
  | _ => none

/-- The word that `VCOM_putword` was called with. -/
def Effect.word : Effect → Option CInt
  | .putword c => some c
  | _ => none

/-- The payloads handed to `USBHwEPWrite`, in order. -/
def payloads (out : List Effect) : List (List UInt8) := out.filterMap Effect.payload

/-- The bytes added to `txfifo`, in order. -/
def accepted (out : List Effect) : List UInt8 := out.filterMap Effect.accepted

/-- The packets that `BulkOut` read, in order. -/
def packets (out : List Effect) : List (List UInt8) := out.filterMap Effect.packet

/-- The bytes that `VCOM_getchar` returned, in order. -/
def fetched (out : List Effect) : List UInt8 := out.filterMap Effect.fetched

/-- The words that `VCOM_putword` was called with, in order. -/
def passed (out : List Effect) : List CInt := out.filterMap Effect.word

section Single

variable (bEP : UInt8) (payload : List UInt8) (read : Option Packet) (byte : UInt8)
  (taken : Bool) (c : CInt)

/-- No effect shows nothing. -/
@[simp] theorem shows_nil :
    payloads [] = [] ∧ accepted [] = [] ∧ packets [] = [] ∧ fetched [] = [] ∧ passed [] = [] :=
  ⟨rfl, rfl, rfl, rfl, rfl⟩

/-- A write shows its payload. -/
@[simp] theorem shows_write :
    payloads [.epWrite bEP payload] = [payload] ∧ accepted [.epWrite bEP payload] = [] ∧
      packets [.epWrite bEP payload] = [] ∧ fetched [.epWrite bEP payload] = [] ∧
      passed [.epWrite bEP payload] = [] := ⟨rfl, rfl, rfl, rfl, rfl⟩

/-- A read shows its packet. -/
@[simp] theorem shows_read :
    payloads [.epRead bEP read] = [] ∧ accepted [.epRead bEP read] = [] ∧
      packets [.epRead bEP read] = [readBytes read] ∧ fetched [.epRead bEP read] = [] ∧
      passed [.epRead bEP read] = [] := ⟨rfl, rfl, rfl, rfl, rfl⟩

/-- A put shows its byte when it is taken. -/
@[simp] theorem shows_put :
    payloads [.txPut byte taken] = [] ∧
      accepted [.txPut byte taken] = (if taken then [byte] else []) ∧
      packets [.txPut byte taken] = [] ∧ fetched [.txPut byte taken] = [] ∧
      passed [.txPut byte taken] = [] := by
  cases taken <;> exact ⟨rfl, rfl, rfl, rfl, rfl⟩

/-- A value of `VCOM_getchar` shows at most a byte fetched. -/
@[simp] theorem shows_getchar :
    payloads [.getchar c] = [] ∧ accepted [.getchar c] = [] ∧ packets [.getchar c] = [] ∧
      passed [.getchar c] = [] := ⟨rfl, rfl, rfl, rfl⟩

/-- `EOF` is no byte. -/
@[simp] theorem fetched_eof : fetched [.getchar eof] = [] := rfl

/-- A byte that `VCOM_getchar` returns is fetched. -/
@[simp] theorem fetched_byte : fetched [.getchar (ofByte byte)] = [byte] := by
  simp [fetched, Effect.fetched, ofByte_ne_eof]

/-- A call of `VCOM_putword` shows its word, and no byte yet. -/
@[simp] theorem shows_word :
    payloads [.putword c] = [] ∧ accepted [.putword c] = [] ∧ packets [.putword c] = [] ∧
      fetched [.putword c] = [] ∧ passed [.putword c] = [c] := ⟨rfl, rfl, rfl, rfl, rfl⟩

end Single

section Readings

variable (first second : List Effect)

/-- Payloads of two lists of effects are taken in order. -/
@[simp] theorem payloads_append :
    payloads (first ++ second) = payloads first ++ payloads second := by simp [payloads]

/-- Accepted bytes of two lists of effects are taken in order. -/
@[simp] theorem accepted_append :
    accepted (first ++ second) = accepted first ++ accepted second := by simp [accepted]

/-- Packets of two lists of effects are taken in order. -/
@[simp] theorem packets_append :
    packets (first ++ second) = packets first ++ packets second := by simp [packets]

/-- Fetched bytes of two lists of effects are taken in order. -/
@[simp] theorem fetched_append :
    fetched (first ++ second) = fetched first ++ fetched second := by simp [fetched]

/-- Words of two lists of effects are taken in order. -/
@[simp] theorem passed_append :
    passed (first ++ second) = passed first ++ passed second := by simp [passed]

end Readings

/-- A frame tick starts a chain when the transmitter is idle and has bytes to send. -/
theorem usbFrameHandler_sends {d : Device P} (idle : d.fBulkInBusy = false)
    (waiting : P.fifo.avail d.txfifo ≠ 0) :
    ∃ next, usbFrameHandler d =
        (next, [.epWrite bulkInEp ((P.fifo.items d.txfifo).take maxPacketSize)]) ∧
      Sent d next := by
  have first : true = true ∨ d.fChainDone = false := Or.inl rfl
  simpa [usbFrameHandler, idle, waiting] using sendNextBulkIn_sends bulkInEp first

/-- A frame tick does nothing while a packet is on its way or no byte waits. -/
theorem usbFrameHandler_waits {d : Device P}
    (holds : d.fBulkInBusy = true ∨ P.fifo.avail d.txfifo = 0) :
    usbFrameHandler d = (d, []) := by
  rcases holds with busy | empty
  · simp [usbFrameHandler, busy]
  · simp [usbFrameHandler, empty]

/-- A completion in an open chain sends the next packet. -/
theorem bulkIn_sends {d : Device P} (bEP : UInt8) (chain : d.fChainDone = false) :
    ∃ next, bulkIn d bEP =
        (next, [.epWrite bEP ((P.fifo.items d.txfifo).take maxPacketSize)]) ∧ Sent d next :=
  sendNextBulkIn_sends bEP (Or.inr chain)

/-- A completion after the closing packet of a chain leaves the transmitter idle. -/
theorem bulkIn_ends {d : Device P} (bEP : UInt8) (done : d.fChainDone = true) :
    bulkIn d bEP = ({ d with fBulkInBusy := false }, []) := sendNextBulkIn_ends bEP done

/-- What an interrupt does: it sends one packet of the oldest bytes, from a frame tick or in
an open chain; it makes the transmitter idle; it receives; or it does nothing. -/
inductive IsrOutcome (d : Device P) (source : Interrupt) : Device P × List Effect → Prop
  /-- A frame tick starts a chain. -/
  | starts (next : Device P) (idle : d.fBulkInBusy = false)
      (waiting : P.fifo.avail d.txfifo ≠ 0) (isFrame : source = .frame) (sent : Sent d next) :
      IsrOutcome d source
        (next, [.epWrite bulkInEp ((P.fifo.items d.txfifo).take maxPacketSize)])
  /-- A completion continues a chain. -/
  | continues (next : Device P) (chain : d.fChainDone = false) (isBulkIn : source = .bulkIn)
      (sent : Sent d next) :
      IsrOutcome d source
        (next, [.epWrite bulkInEp ((P.fifo.items d.txfifo).take maxPacketSize)])
  /-- A completion ends a chain, or a bus reset discards its packet. -/
  | idles (isEnd : (source = .bulkIn ∧ d.fChainDone = true) ∨
        ∃ bDevStatus, source = .devInt bDevStatus ∧ bDevStatus &&& P.devStatusReset ≠ 0) :
      IsrOutcome d source ({ d with fBulkInBusy := false }, [])
  /-- A packet is read or declined. -/
  | receives (read : Option Packet) (isBulkOut : source = .bulkOut read)
      (buffer : Vector UInt8 64) (queue : P.fifo.Queue) (out : List Effect)
      (calls : out = [] ∨ out = [.epRead bulkOutEp read] ∨
        out = [.epRead bulkOutEp read, .assertFailed]) :
      IsrOutcome d source ({ d with abBulkBuf := buffer, rxfifo := queue }, out)
  /-- There is nothing to do. -/
  | waits (other : source ≠ .bulkIn)
      (noReset : ∀ bDevStatus, source = .devInt bDevStatus →
        bDevStatus &&& P.devStatusReset = 0)
      (noStart : source = .frame → d.fBulkInBusy = true ∨ P.fifo.avail d.txfifo = 0) :
      IsrOutcome d source (d, [])

/-- Every interrupt has one of these outcomes. -/
theorem isr_outcome (d : Device P) (source : Interrupt) : IsrOutcome d source (isr d source) := by
  cases source with
  | bulkOut read =>
    obtain ⟨buffer, queue, device, calls⟩ := bulkOut_frame d bulkOutEp read
    have outcome : IsrOutcome d (.bulkOut read)
        ((bulkOut d bulkOutEp read).1, (bulkOut d bulkOutEp read).2) := by
      rw [device]
      exact IsrOutcome.receives read rfl buffer queue _ calls
    exact outcome
  | frame =>
    by_cases starts : d.fBulkInBusy = false ∧ P.fifo.avail d.txfifo ≠ 0
    · obtain ⟨next, result, sent⟩ := usbFrameHandler_sends starts.1 starts.2
      rw [isr, result]
      exact IsrOutcome.starts next starts.1 starts.2 rfl sent
    · have holds : d.fBulkInBusy = true ∨ P.fifo.avail d.txfifo = 0 := by
        cases busy : d.fBulkInBusy
        · exact Or.inr (by simpa [busy] using starts)
        · exact Or.inl rfl
      rw [isr, usbFrameHandler_waits holds]
      exact IsrOutcome.waits (by simp) (by simp) (fun _ => holds)
  | bulkIn =>
    cases chain : d.fChainDone with
    | false =>
      obtain ⟨next, result, sent⟩ := bulkIn_sends bulkInEp chain
      rw [isr, result]
      exact IsrOutcome.continues next chain rfl sent
    | true =>
      rw [isr, bulkIn_ends bulkInEp chain]
      exact IsrOutcome.idles (Or.inl ⟨rfl, chain⟩)
  | devInt bDevStatus =>
    by_cases reset : bDevStatus &&& P.devStatusReset ≠ 0
    · rw [isr, usbDevIntHandler, if_pos reset]
      exact IsrOutcome.idles (Or.inr ⟨bDevStatus, rfl, reset⟩)
    · rw [isr, usbDevIntHandler, if_neg reset]
      refine IsrOutcome.waits (by simp) ?_ (by simp)
      rintro status ⟨⟩
      exact not_not.mp reset

/-- The calls of `BulkOut` send nothing to the host and do nothing that a main loop does. -/
theorem calls_silent {read : Option Packet} {out : List Effect}
    (calls : out = [] ∨ out = [.epRead bulkOutEp read] ∨
      out = [.epRead bulkOutEp read, .assertFailed]) :
    payloads out = [] ∧ accepted out = [] ∧ passed out = [] ∧ fetched out = [] ∧
      ∀ effect ∈ out, effect.refused = false := by
  rcases calls with rfl | rfl | rfl
  · exact ⟨rfl, rfl, rfl, rfl, by simp⟩
  · exact ⟨rfl, rfl, rfl, rfl, by simp [Effect.refused]⟩
  · exact ⟨rfl, rfl, rfl, rfl, by simp [Effect.refused]⟩

/-- No handler does what a main loop does: it puts no byte for the host, sends no word and
fetches no byte received. -/
theorem isr_no_port (d : Device P) (source : Interrupt) :
    accepted (isr d source).2 = [] ∧ passed (isr d source).2 = [] ∧
      fetched (isr d source).2 = [] ∧ ∀ effect ∈ (isr d source).2, effect.refused = false := by
  have outcome := isr_outcome d source
  generalize isr d source = result at outcome ⊢
  cases outcome with
  | starts => exact ⟨rfl, rfl, rfl, by simp [Effect.refused]⟩
  | continues => exact ⟨rfl, rfl, rfl, by simp [Effect.refused]⟩
  | idles => exact ⟨rfl, rfl, rfl, by simp⟩
  | receives _ _ _ _ _ calls => exact (calls_silent calls).2
  | waits => exact ⟨rfl, rfl, rfl, by simp⟩

/-- Only the receive handler reads packets. -/
theorem isr_packets {d : Device P} {source : Interrupt} {byte : UInt8}
    (read : byte ∈ (packets (isr d source).2).flatten) :
    ∃ packet, source = .bulkOut packet ∧ byte ∈ readBytes packet := by
  have outcome := isr_outcome d source
  generalize isr d source = result at outcome read
  cases outcome with
  | starts => simp at read
  | continues => simp at read
  | idles => simp at read
  | receives packet isBulkOut _ _ _ calls =>
    refine ⟨packet, isBulkOut, ?_⟩
    rcases calls with rfl | rfl | rfl
    · simp at read
    · simpa using read
    · simpa [packets, Effect.packet] using read
  | waits => simp at read

end Olimex2378.Firmware

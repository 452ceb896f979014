import Olimex2378.Basis.Simulation
import Olimex2378.Firmware.Events

/-!
# The two directions

Both directions use the one packet buffer, and neither sees what the other left in it: a
handler reads only bytes of the buffer that it has written itself. The transmit side is the
transmit queue with the two flags, the receive side is the receive queue, and a call belongs
to one side. A run shows of each side what the calls of that side alone would show, so two
interleavings of the same calls differ at most in what remains in the buffer.
-/

namespace Olimex2378.Verif.Independence

open Firmware Run

variable {P : Platform}

/-- A call on the way to the host: a put, a frame tick, a completion or a device status. -/
def toHost : Event → Bool
  | .putchar _ => true
  | .putwordByte _ _ => true
  | .getchar => false
  | .irq (.bulkOut _) => false
  | .irq _ => true

/-- The variables of the transmit side. -/
structure TransmitSide (P : Platform) where
  /-- Bytes on their way to the host. -/
  txfifo : P.fifo.Queue
  /-- A packet has been handed to the bulk IN endpoint. -/
  fBulkInBusy : Bool
  /-- The chain of packets to the host is closed. -/
  fChainDone : Bool

/-- The transmit side of a device. -/
def transmitSide (d : Device P) : TransmitSide P where
  txfifo := d.txfifo
  fBulkInBusy := d.fBulkInBusy
  fChainDone := d.fChainDone

/-- Devices with the same queue and flags have the same transmit side. -/
theorem transmitSide_eq {d other : Device P} (queue : d.txfifo = other.txfifo)
    (busy : d.fBulkInBusy = other.fBulkInBusy) (done : d.fChainDone = other.fChainDone) :
    transmitSide d = transmitSide other := by
  unfold transmitSide
  rw [queue, busy, done]

/-- What the copy loop leaves in `txfifo` depends on `txfifo` alone. -/
theorem fillBulkBuf_queue {d other : Device P} (same : d.txfifo = other.txfifo)
    (iLen place left : Nat) :
    (fillBulkBuf d iLen left).1.txfifo = (fillBulkBuf other place left).1.txfifo := by
  induction left generalizing d other iLen place with
  | zero => exact same
  | succ left ih =>
    cases result : P.fifo.get d.txfifo with
    | none =>
      have refused : P.fifo.get other.txfifo = none := by rw [← same, result]
      simp only [fillBulkBuf, refused, same]
    | some taken =>
      have got : P.fifo.get other.txfifo = some taken := by rw [← same, result]
      simp only [fillBulkBuf, result, got]
      apply ih
      rfl

/-- A packet leaves in `txfifo` what the copy loop leaves there. -/
theorem sendNextBulkIn_txfifo {d : Device P} (bEP : UInt8) {fFirstPacket : Bool}
    (goesOn : fFirstPacket = true ∨ d.fChainDone = false) :
    (sendNextBulkIn d bEP fFirstPacket).1.txfifo = (fillBulkBuf d 0 maxPacketSize).1.txfifo := by
  simp only [sendNextBulkIn, chain_entry goesOn, Bool.false_eq_true, if_false]
  split
  all_goals
    apply fillBulkBuf_queue
    rfl

/-- What `SendNextBulkIn` makes of the transmit side, and the packet it writes, depend on the
transmit side alone. -/
theorem sendNextBulkIn_agrees {d other : Device P} (same : transmitSide d = transmitSide other)
    (bEP : UInt8) (fFirstPacket : Bool) :
    transmitSide (sendNextBulkIn d bEP fFirstPacket).1 =
        transmitSide (sendNextBulkIn other bEP fFirstPacket).1 ∧
      (sendNextBulkIn d bEP fFirstPacket).2 = (sendNextBulkIn other bEP fFirstPacket).2 := by
  have queue : d.txfifo = other.txfifo := congrArg TransmitSide.txfifo same
  have done : d.fChainDone = other.fChainDone := congrArg TransmitSide.fChainDone same
  by_cases goesOn : fFirstPacket = true ∨ d.fChainDone = false
  · have left := sendNextBulkIn_txfifo bEP goesOn
    have right : (sendNextBulkIn other bEP fFirstPacket).1.txfifo = _ :=
      sendNextBulkIn_txfifo bEP (by rw [← done]; exact goesOn)
    have rest := fillBulkBuf_queue queue 0 0 maxPacketSize
    cases sendNextBulkIn_sends bEP goesOn with
    | intro next result =>
      have goesOnThere : fFirstPacket = true ∨ other.fChainDone = false := by
        rw [← done]
        exact goesOn
      cases sendNextBulkIn_sends bEP goesOnThere with
      | intro nextThere there =>
        rw [← left, ← right, result.1, there.1] at rest
        rw [result.1, there.1]
        constructor
        · apply transmitSide_eq rest
          · rw [result.2.busy, there.2.busy]
          · rw [result.2.done, there.2.done, queue]
        · rw [queue]
  · have closed : d.fChainDone = true := by
      cases flag : d.fChainDone with
      | true => rfl
      | false => exact absurd (Or.inr flag) goesOn
    have later : fFirstPacket = false := by
      cases first : fFirstPacket with
      | false => rfl
      | true => exact absurd (Or.inl first) goesOn
    have closedThere : other.fChainDone = true := done.symm.trans closed
    rw [later, sendNextBulkIn_ends bEP closed, sendNextBulkIn_ends bEP closedThere]
    constructor
    · exact transmitSide_eq queue rfl done
    · rfl

/-- What a put makes of the transmit side, and its result, depend on the transmit side alone. -/
theorem putTx_agrees {d other : Device P} (same : transmitSide d = transmitSide other)
    (c : CInt) :
    transmitSide (putTx d c).1 = transmitSide (putTx other c).1 ∧
      (putTx d c).2 = (putTx other c).2 := by
  have queue : d.txfifo = other.txfifo := congrArg TransmitSide.txfifo same
  have busy : d.fBulkInBusy = other.fBulkInBusy := congrArg TransmitSide.fBulkInBusy same
  have done : d.fChainDone = other.fChainDone := congrArg TransmitSide.fChainDone same
  unfold putTx
  rw [← queue]
  cases P.fifo.put d.txfifo (toByte c) with
  | none => exact ⟨same, rfl⟩
  | some next => exact ⟨transmitSide_eq rfl busy done, rfl⟩

/-- What a call on the way to the host does depends on the transmit side alone. -/
theorem step_toHost {d other : Device P} {event : Event} (mine : toHost event = true)
    (same : transmitSide d = transmitSide other) :
    transmitSide (step d event).1 = transmitSide (step other event).1 ∧
      (step d event).2 = (step other event).2 := by
  have queue : d.txfifo = other.txfifo := congrArg TransmitSide.txfifo same
  have busy : d.fBulkInBusy = other.fBulkInBusy := congrArg TransmitSide.fBulkInBusy same
  have done : d.fChainDone = other.fChainDone := congrArg TransmitSide.fChainDone same
  cases event with
  | putchar c =>
    have put := putTx_agrees same c
    exact ⟨put.1, by simp only [step, put.2]⟩
  | putwordByte c place =>
    have put := putTx_agrees same (putwordArg c place)
    exact ⟨put.1, by simp only [step, put.2]⟩
  | getchar => contradiction
  | irq source =>
    cases source with
    | bulkOut read => contradiction
    | frame =>
      simp only [step, isr, usbFrameHandler, ← queue, ← busy]
      split
      · exact sendNextBulkIn_agrees same bulkInEp true
      · exact ⟨same, rfl⟩
    | bulkIn => exact sendNextBulkIn_agrees same bulkInEp false
    | devInt bDevStatus =>
      simp only [step, isr, usbDevIntHandler]
      split
      · exact ⟨transmitSide_eq queue rfl done, trivial⟩
      · exact ⟨same, trivial⟩

/-- A call of the receive side leaves the transmit side alone. -/
theorem step_toHost_frame (d : Device P) {event : Event} (other : toHost event = false) :
    transmitSide (step d event).1 = transmitSide d := by
  cases event with
  | putchar c => contradiction
  | putwordByte c place => contradiction
  | getchar =>
    cases vcomGetchar_frame d with
    | intro queue device =>
      change transmitSide (vcomGetchar d).1 = _
      rw [device]
      rfl
  | irq source =>
    cases source with
    | bulkOut read =>
      cases bulkOut_frame d bulkOutEp read with
      | intro buffer rest =>
        cases rest with
        | intro queue result =>
          change transmitSide (bulkOut d bulkOutEp read).1 = _
          rw [result.1]
          rfl
    | _ => contradiction

/-- The transmit side belongs to the calls on the way to the host. -/
theorem transmit_independent :
    Independent (step : Device P → Event → Device P × List Effect) toHost transmitSide where
  own := fun _ _ _ mine same => (step_toHost mine same).1
  output := fun _ _ _ mine same => (step_toHost mine same).2
  frame := fun state _ other => step_toHost_frame state other

/-- What the loop of `BulkOut` makes of `rxfifo` depends on `rxfifo` and on the bytes of the
buffer that it runs over. -/
theorem bulkOutLoop_agrees {d other : Device P} (i left : Nat) (inside : i + left ≤ 64)
    (same : d.rxfifo = other.rxfifo)
    (window : (d.abBulkBuf.toList.drop i).take left = (other.abBulkBuf.toList.drop i).take left) :
    (bulkOutLoop d i left).1.rxfifo = (bulkOutLoop other i left).1.rxfifo ∧
      (bulkOutLoop d i left).2 = (bulkOutLoop other i left).2 := by
  induction left generalizing d other i with
  | zero => exact ⟨same, rfl⟩
  | succ left ih =>
    have bound : i < 64 := by omega
    rw [drop_abBulkBuf _ bound, drop_abBulkBuf _ bound, List.take_succ_cons, List.take_succ_cons,
      List.cons.injEq] at window
    cases result : P.fifo.put d.rxfifo d.abBulkBuf[i]! with
    | none =>
      have refused : P.fifo.put other.rxfifo other.abBulkBuf[i]! = none := by
        rw [← same, ← window.1, result]
      simp only [bulkOutLoop, bulkOutStore, result, refused]
      exact ⟨same, trivial⟩
    | some next =>
      have stored : P.fifo.put other.rxfifo other.abBulkBuf[i]! = some next := by
        rw [← same, ← window.1, result]
      simp only [bulkOutLoop, bulkOutStore, result, stored]
      apply ih (i + 1)
      · omega
      · rfl
      · exact window.2

/-- What `BulkOut` makes of `rxfifo`, and whether it reads, depend on `rxfifo` alone: the
bytes that its loop runs over are those it has just read. -/
theorem bulkOut_agrees {d other : Device P} (same : d.rxfifo = other.rxfifo) (bEP : UInt8)
    (read : Option Packet) :
    (bulkOut d bEP read).1.rxfifo = (bulkOut other bEP read).1.rxfifo ∧
      (bulkOut d bEP read).2 = (bulkOut other bEP read).2 := by
  by_cases declined : P.fifo.free d.rxfifo < maxPacketSize
  · have declinedThere : P.fifo.free other.rxfifo < maxPacketSize := by
      rw [← same]
      exact declined
    rw [bulkOut_declines bEP read declined, bulkOut_declines bEP read declinedThere]
    exact ⟨same, rfl⟩
  · have declinedThere : ¬ P.fifo.free other.rxfifo < maxPacketSize := by
      rw [← same]
      exact declined
    have size : maxPacketSize = 64 := rfl
    have fits := readBytes_length read
    have length := usbHwEPRead_length d.abBulkBuf read
    have lengthThere := usbHwEPRead_length other.abBulkBuf read
    have front := usbHwEPRead_take d.abBulkBuf read
    have frontThere := usbHwEPRead_take other.abBulkBuf read
    have loop :
        (bulkOutLoop { d with abBulkBuf := (usbHwEPRead d.abBulkBuf read).1 } 0
            (readBytes read).length).1.rxfifo =
          (bulkOutLoop { other with abBulkBuf := (usbHwEPRead other.abBulkBuf read).1 } 0
            (readBytes read).length).1.rxfifo ∧
        (bulkOutLoop { d with abBulkBuf := (usbHwEPRead d.abBulkBuf read).1 } 0
            (readBytes read).length).2 =
          (bulkOutLoop { other with abBulkBuf := (usbHwEPRead other.abBulkBuf read).1 } 0
            (readBytes read).length).2 := by
      apply bulkOutLoop_agrees
      · omega
      · exact same
      · rw [List.drop_zero, List.drop_zero, front, frontThere]
    simp only [bulkOut, bulkOutRead, if_neg declined, if_neg declinedThere, length, lengthThere]
    exact ⟨loop.1, by rw [loop.2]⟩

/-- What a call of the receive side does depends on `rxfifo` alone. -/
theorem step_fromHost {d other : Device P} {event : Event} (mine : toHost event = false)
    (same : d.rxfifo = other.rxfifo) :
    (step d event).1.rxfifo = (step other event).1.rxfifo ∧
      (step d event).2 = (step other event).2 := by
  cases event with
  | putchar c => contradiction
  | putwordByte c place => contradiction
  | getchar =>
    simp only [step, vcomGetchar, ← same]
    cases P.fifo.get d.rxfifo with
    | none => exact ⟨same, rfl⟩
    | some taken => exact ⟨rfl, rfl⟩
  | irq source =>
    cases source with
    | bulkOut read => exact bulkOut_agrees same bulkOutEp read
    | _ => contradiction

/-- A call on the way to the host leaves `rxfifo` alone. -/
theorem step_fromHost_frame (d : Device P) {event : Event} (other : toHost event = true) :
    (step d event).1.rxfifo = d.rxfifo := by
  have put : ∀ c : CInt, (putTx d c).1.rxfifo = d.rxfifo := by
    intro c
    cases putTx_eq d c with
    | intro queue result => rw [result.1]
  cases event with
  | putchar c => exact put c
  | putwordByte c place => exact put (putwordArg c place)
  | getchar => contradiction
  | irq source =>
    have outcome := isr_outcome d source
    simp only [step]
    generalize isr d source = result at outcome ⊢
    cases outcome with
    | starts next _ _ _ sent => exact sent.rxfifo_eq
    | continues next _ _ sent => exact sent.rxfifo_eq
    | idles => rfl
    | receives read isBulkOut =>
      rw [isBulkOut] at other
      contradiction
    | waits => rfl

/-- The receive side belongs to the other calls. -/
theorem receive_independent :
    Independent (step : Device P → Event → Device P × List Effect)
      (fun event => !toHost event) Device.rxfifo where
  own := fun _ _ _ mine same => (step_fromHost (by simpa using mine) same).1
  output := fun _ _ _ mine same => (step_fromHost (by simpa using mine) same).2
  frame := fun state _ other => step_fromHost_frame state (by simpa using other)

/-- A device is its two sides and the buffer. -/
theorem device_eq {d other : Device P} (sides : transmitSide d = transmitSide other)
    (queues : d.rxfifo = other.rxfifo) : d = { other with abBulkBuf := d.abBulkBuf } := by
  cases d with
  | mk abBulkBuf fBulkInBusy fChainDone txfifo rxfifo =>
    cases other with
    | mk otherBuf otherBusy otherDone otherTx otherRx =>
      simp only [transmitSide, TransmitSide.mk.injEq] at sides
      simp only [Device.mk.injEq]
      exact ⟨trivial, sides.2.1, sides.2.2, sides.1, queues⟩

/-- The two directions do not influence each other. In every run from `VCOM_init` the calls
on the way to the host write, return and leave in `txfifo` and in the flags what they would if
the other calls were not made, and the calls of the receive side return, read or decline, and
leave in `rxfifo` what they would alone. So a run with the same calls of each side, in the same
order on each side and interleaved in any way, has the same effects call by call and ends with
the same device but for the buffer. -/
theorem directions_independent (d : Device P) (events : List Event) :
    ((trace step (vcomInit d) events).filter (fun entry => toHost entry.1) =
        trace step (vcomInit d) (events.filter toHost) ∧
      transmitSide (exec step (vcomInit d) events) =
        transmitSide (exec step (vcomInit d) (events.filter toHost))) ∧
    ((trace step (vcomInit d) events).filter (fun entry => !toHost entry.1) =
        trace step (vcomInit d) (events.filter fun event => !toHost event) ∧
      (exec step (vcomInit d) events).rxfifo =
        (exec step (vcomInit d) (events.filter fun event => !toHost event)).rxfifo) ∧
    ∀ others : List Event, others.filter toHost = events.filter toHost →
      (others.filter fun event => !toHost event) = (events.filter fun event => !toHost event) →
      (trace step (vcomInit d) others).filter (fun entry => toHost entry.1) =
          (trace step (vcomInit d) events).filter (fun entry => toHost entry.1) ∧
        (trace step (vcomInit d) others).filter (fun entry => !toHost entry.1) =
          (trace step (vcomInit d) events).filter (fun entry => !toHost entry.1) ∧
        ∃ buffer, exec step (vcomInit d) others =
          { exec step (vcomInit d) events with abBulkBuf := buffer } := by
  have transmit : Independent (step : Device P → Event → Device P × List Effect) toHost
    transmitSide := transmit_independent
  have receive : Independent (step : Device P → Event → Device P × List Effect)
    (fun event => !toHost event) Device.rxfifo := receive_independent
  have sent := transmit.trace (rfl : transmitSide (vcomInit d) = transmitSide (vcomInit d))
  have side := transmit.exec (rfl : transmitSide (vcomInit d) = transmitSide (vcomInit d))
  have got := receive.trace (rfl : (vcomInit d).rxfifo = (vcomInit d).rxfifo)
  have queue := receive.exec (rfl : (vcomInit d).rxfifo = (vcomInit d).rxfifo)
  constructor
  · exact ⟨sent events, side events⟩
  · constructor
    · exact ⟨got events, queue events⟩
    · intro others sameSent sameGot
      have sides : transmitSide (exec step (vcomInit d) others) =
          transmitSide (exec step (vcomInit d) events) := by
        rw [side others, side events, sameSent]
      have queues : (exec step (vcomInit d) others).rxfifo =
          (exec step (vcomInit d) events).rxfifo := by
        rw [queue others, queue events, sameGot]
      constructor
      · rw [sent others, sent events, sameSent]
      · constructor
        · rw [got others, got events, sameGot]
        · exact ⟨(exec step (vcomInit d) others).abBulkBuf, device_eq sides queues⟩

/-- A packet of three bytes from the host. -/
def threeBytes : Packet where
  bytes := [1, 2, 3]
  fits := by decide

/-- A packet to the host around one from the host, and the two one after the other. -/
theorem directions_independent_threeBytes :
    ∃ buffer,
      exec step (vcomInit (Device.blank 128))
          [.irq (.bulkOut (some threeBytes)), .getchar, .putchar 65, .irq .frame] =
        { exec step (vcomInit (Device.blank 128))
            [.putchar 65, .irq (.bulkOut (some threeBytes)), .irq .frame, .getchar] with
          abBulkBuf := buffer } :=
  ((directions_independent (Device.blank 128)
    [.putchar 65, .irq (.bulkOut (some threeBytes)), .irq .frame, .getchar]).2.2
    [.irq (.bulkOut (some threeBytes)), .getchar, .putchar 65, .irq .frame] rfl rfl).2.2

end Olimex2378.Verif.Independence

import Olimex2378.Basis.Simulation
import Olimex2378.Firmware.BulkInEndpoint

/-!
# What the transmitter is for

Bytes wait in order, and at most one packet is on its way. A frame tick sends the oldest
bytes when no packet is on its way; the completion of a full packet sends the next ones, and
the completion of a short packet ends the chain; a bus reset drops the packet on its way. The
transport does this under every run that the hardware allows. Its flag `fChainDone` belongs
to the packet on its way and means nothing without one, so a reset need not touch it.
-/

namespace Olimex2378.Verif.Transmitter

open Firmware Run

variable {P : Platform}

/-- The bytes that wait and the packet on its way. -/
structure Sender where
  /-- Bytes to send, oldest first. -/
  waiting : List UInt8
  /-- The packet on its way, if there is one. -/
  inFlight : Option (List UInt8)

/-- Send a packet of the oldest bytes. -/
def Sender.send (t : Sender) : Sender × List Effect :=
  ({ waiting := t.waiting.drop maxPacketSize
     inFlight := some (t.waiting.take maxPacketSize) },
    [.epWrite bulkInEp (t.waiting.take maxPacketSize)])

/-- Take a byte to send, when fewer than a capacity wait. -/
def Sender.put (capacity : Nat) (t : Sender) (byte : UInt8) :
    Sender × List Effect :=
  if t.waiting.length < capacity then
    ({ t with waiting := t.waiting ++ [byte] }, [.txPut byte true])
  else (t, [.txPut byte false])

/-- What an event is to the transmitter. -/
def Sender.step (P : Platform) (t : Sender) : Event → Sender × List Effect
  | .putchar c => t.put P.fifo.capacity (toByte c)
  | .putwordByte c place => t.put P.fifo.capacity (toByte (putwordArg c place))
  | .getchar => (t, [])
  | .irq (.bulkOut _) => (t, [])
  | .irq .frame =>
    match t.inFlight with
    | some _ => (t, [])
    | none => if t.waiting = [] then (t, []) else t.send
  | .irq .bulkIn =>
    match t.inFlight with
    | some packet =>
      if packet.length = maxPacketSize then t.send else ({ t with inFlight := none }, [])
    | none => (t, [])
  | .irq (.devInt bDevStatus) =>
    if bDevStatus &&& P.devStatusReset ≠ 0 then ({ t with inFlight := none }, []) else (t, [])

/-- A packet is completed only while it is on its way. -/
def Sender.Allows (t : Sender) : Event → Prop
  | .irq .bulkIn => t.inFlight ≠ none
  | _ => True

/-- An effect on the way to the host. -/
def transmits : Effect → Bool
  | .epWrite _ _ => true
  | .txPut _ _ => true
  | _ => false

/-- The writes and the results of the puts, in order. -/
def transmitted (out : List Effect) : List Effect := out.filter transmits

/-- The transport and its endpoint are in the state that the transmitter is in. -/
structure Represents (link : Link P) (t : Sender) : Prop where
  /-- The queue holds the bytes that wait. -/
  waiting : P.fifo.items link.device.txfifo = t.waiting
  /-- The endpoint has the packet on its way. -/
  outstanding : link.outstanding = t.inFlight.toList
  /-- The busy flag says whether there is one. -/
  busy : link.device.fBulkInBusy = t.inFlight.isSome
  /-- The chain goes on after a full packet. -/
  chain : ∀ packet, t.inFlight = some packet →
    (link.device.fChainDone = false ↔ packet.length = maxPacketSize)

/-- The payloads of a list of effects are among the effects on the way to the host. -/
theorem payloads_transmitted (out : List Effect) : payloads (transmitted out) = payloads out := by
  unfold payloads transmitted
  rw [List.filterMap_filter]
  congr 1
  funext effect
  cases effect <;> rfl

/-- The calls of `BulkOut` are not on the way to the host. -/
theorem transmitted_calls {read : Option Packet} {out : List Effect}
    (calls : out = [] ∨ out = [.epRead bulkOutEp read] ∨
      out = [.epRead bulkOutEp read, .assertFailed]) : transmitted out = [] := by
  cases calls with
  | inl none => rw [none]; rfl
  | inr some =>
    cases some with
    | inl fits => rw [fits]; rfl
    | inr refused => rw [refused]; rfl

/-- `VCOM_init` starts the transmitter with nothing waiting and nothing on its way. -/
theorem represents_start (d : Device P) :
    Represents (Link.start d) { waiting := [], inFlight := none } where
  waiting := vcomInit_txfifo d
  outstanding := rfl
  busy := rfl
  chain := by
    intro packet impossible
    contradiction

/-- With no packet on its way the flags are free of meaning but for the busy flag. -/
theorem represents_idle {d : Device P} {waiting : List UInt8}
    (items : P.fifo.items d.txfifo = waiting) (idle : d.fBulkInBusy = false) :
    Represents { device := d, outstanding := [] } { waiting, inFlight := none } where
  waiting := items
  outstanding := rfl
  busy := idle
  chain := by
    intro packet impossible
    contradiction

/-- A put is a put. -/
theorem represents_put {link : Link P} {t : Sender} (represents : Represents link t)
    (c : CInt) (outstanding : List (List UInt8)) (same : outstanding = link.outstanding) :
    Represents { device := (putTx link.device c).1, outstanding }
        (t.put P.fifo.capacity (toByte c)).1 ∧
      transmitted [.txPut (toByte c) (putTx link.device c).2] =
        (t.put P.fifo.capacity (toByte c)).2 := by
  have taken := putTx_taken link.device c
  have change := putTx_eq link.device c
  rw [represents.waiting] at taken change
  cases change with
  | intro queue result =>
    rw [result.1, same]
    unfold Sender.put
    by_cases room : t.waiting.length < P.fifo.capacity
    · rw [if_pos room]
      have accepted := taken.2 room
      have items := result.2
      rw [accepted] at items ⊢
      constructor
      · exact ⟨items, represents.outstanding, represents.busy, represents.chain⟩
      · rfl
    · rw [if_neg room]
      have refused : (putTx link.device c).2 = false := by
        cases decision : (putTx link.device c).2 with
        | false => rfl
        | true => exact absurd (taken.1 decision) room
      have items := result.2
      rw [refused] at items ⊢
      constructor
      · exact ⟨items.trans (List.append_nil _), represents.outstanding, represents.busy,
          represents.chain⟩
      · rfl

/-- A device that has sent a packet of the oldest bytes, with that packet outstanding, is a
transmitter that has sent it. -/
theorem represents_sent {d next : Device P} {t : Sender}
    (waiting : P.fifo.items d.txfifo = t.waiting) (sent : Sent d next) :
    Represents { device := next, outstanding := [t.waiting.take maxPacketSize] } t.send.1 where
  waiting := by rw [sent.txfifo_items, waiting]; rfl
  outstanding := rfl
  busy := sent.busy
  chain := by
    intro packet isPacket
    have same : t.waiting.take maxPacketSize = packet := Option.some.inj isPacket
    rw [← same, sent.done, waiting, decide_eq_false_iff_not, List.length_take]
    omega

/-- `VCOM_getchar` is nothing to the transmitter. -/
theorem represents_getchar {link : Link P} {t : Sender} (represents : Represents link t) :
    Represents (link.step .getchar).1 t ∧ transmitted (link.step .getchar).2 = [] := by
  cases vcomGetchar_frame link.device with
  | intro queue device =>
    have next : (link.step .getchar).1 =
        { device := { link.device with rxfifo := queue }, outstanding := link.outstanding } := by
      simp [Link.step, Firmware.step, Link.settled, resets, device]
    rw [next]
    constructor
    · exact ⟨represents.waiting, represents.outstanding, represents.busy, represents.chain⟩
    · rfl

/-- `BulkOut` is nothing to the transmitter. -/
theorem represents_bulkOut {link : Link P} {t : Sender} (represents : Represents link t)
    (read : Option Packet) :
    Represents (link.step (.irq (.bulkOut read))).1 t ∧
      transmitted (link.step (.irq (.bulkOut read))).2 = [] := by
  obtain ⟨buffer, queue, device, calls⟩ := bulkOut_frame link.device bulkOutEp read
  have silent := (calls_silent calls).1
  have next : (link.step (.irq (.bulkOut read))).1 =
      { device := { link.device with abBulkBuf := buffer, rxfifo := queue }
        outstanding := link.outstanding } := by
    simp [Link.step, Firmware.step, Link.settled, resets, isr, device, silent]
  rw [next]
  constructor
  · exact ⟨represents.waiting, represents.outstanding, represents.busy, represents.chain⟩
  · exact transmitted_calls calls

/-- `USBFrameHandler` is a frame tick. -/
theorem represents_frame (counted : P.fifo.Counted) {link : Link P} {t : Sender}
    (represents : Represents link t) :
    Represents (link.step (.irq .frame)).1 (t.step P (.irq .frame)).1 ∧
      transmitted (link.step (.irq .frame)).2 = (t.step P (.irq .frame)).2 := by
  have waiting := represents.waiting
  have outstanding := represents.outstanding
  have busy := represents.busy
  cases flight : t.inFlight with
  | some packet =>
    rw [flight] at busy
    have waits := usbFrameHandler_waits (Or.inl busy)
    simp [Link.step, Firmware.step, isr, Link.settled, resets, waits, Sender.step, flight,
      transmitted, represents]
  | none =>
    rw [flight] at busy outstanding
    by_cases empty : t.waiting = []
    · have none : P.fifo.avail link.device.txfifo = 0 := by
        rw [counted.avail_items, waiting, empty]
        rfl
      have waits := usbFrameHandler_waits (Or.inr none)
      simp [Link.step, Firmware.step, isr, Link.settled, resets, waits, Sender.step, flight,
        empty, transmitted, represents]
    · have some : P.fifo.avail link.device.txfifo ≠ 0 := by
        rw [counted.avail_ne_zero, waiting]
        exact empty
      cases usbFrameHandler_sends busy some with
      | intro next result =>
        have sent := represents_sent waiting result.2
        simpa [Link.step, Firmware.step, isr, Link.settled, resets, result.1, Sender.step,
          flight, empty, outstanding, waiting, Sender.send, transmitted, transmits] using sent

/-- `BulkIn` is the completion of the packet on its way. -/
theorem represents_bulkIn {link : Link P} {t : Sender} (represents : Represents link t)
    {packet : List UInt8} (flight : t.inFlight = some packet) :
    Represents (link.step (.irq .bulkIn)).1 (t.step P (.irq .bulkIn)).1 ∧
      transmitted (link.step (.irq .bulkIn)).2 = (t.step P (.irq .bulkIn)).2 := by
  have waiting := represents.waiting
  have outstanding := represents.outstanding
  rw [flight] at outstanding
  have chain := represents.chain packet flight
  by_cases full : packet.length = maxPacketSize
  · cases bulkIn_sends bulkInEp (chain.2 full) with
    | intro next result =>
      have sent := represents_sent waiting result.2
      simpa [Link.step, Firmware.step, isr, Link.settled, result.1, Sender.step, flight, full,
        outstanding, waiting, Sender.send, transmitted, transmits] using sent
  · have done : link.device.fChainDone = true := by
      cases flag : link.device.fChainDone with
      | true => rfl
      | false => exact absurd (chain.1 flag) full
    have ends := bulkIn_ends bulkInEp done
    have idle : Represents
        { device := { link.device with fBulkInBusy := false }, outstanding := [] }
        { waiting := t.waiting, inFlight := none } := represents_idle waiting rfl
    simpa [Link.step, Firmware.step, isr, Link.settled, ends, Sender.step, flight, full,
      outstanding, transmitted] using idle

/-- `USBDevIntHandler` is a bus reset, or nothing. -/
theorem represents_devInt {link : Link P} {t : Sender} (represents : Represents link t)
    (bDevStatus : UInt8) :
    Represents (link.step (.irq (.devInt bDevStatus))).1
        (t.step P (.irq (.devInt bDevStatus))).1 ∧
      transmitted (link.step (.irq (.devInt bDevStatus))).2 =
        (t.step P (.irq (.devInt bDevStatus))).2 := by
  by_cases reset : bDevStatus &&& P.devStatusReset ≠ 0
  · have idle : Represents
        { device := { link.device with fBulkInBusy := false }, outstanding := [] }
        { waiting := t.waiting, inFlight := none } := represents_idle represents.waiting rfl
    simpa [Link.step, Firmware.step, isr, usbDevIntHandler, Link.settled, resets, reset,
      Sender.step, transmitted] using idle
  · simp [Link.step, Firmware.step, isr, usbDevIntHandler, Link.settled, resets, reset,
      Sender.step, transmitted, represents]

/-- One call is one event of the transmitter. -/
theorem represents_step (counted : P.fifo.Counted) {link : Link P} {t : Sender}
    {event : Event} (represents : Represents link t) (admitted : Completes link event) :
    Represents (link.step event).1 (t.step P event).1 ∧
      transmitted (link.step event).2 = (t.step P event).2 := by
  cases event with
  | putchar c => exact represents_put represents c _ (List.append_nil _)
  | putwordByte c place =>
    exact represents_put represents (putwordArg c place) _ (List.append_nil _)
  | getchar => exact represents_getchar represents
  | irq source =>
    cases source with
    | bulkOut read => exact represents_bulkOut represents read
    | frame => exact represents_frame counted represents
    | bulkIn =>
      cases flight : t.inFlight with
      | none =>
        have outstanding := represents.outstanding
        rw [flight] at outstanding
        exact absurd outstanding admitted
      | some packet => exact represents_bulkIn represents flight
    | devInt bDevStatus => exact represents_devInt represents bDevStatus

/-- A call is admitted by the endpoint when the transmitter allows it. -/
theorem completes_iff {link : Link P} {t : Sender} (represents : Represents link t)
    (event : Event) : Completes link event ↔ t.Allows event := by
  cases event with
  | irq source =>
    cases source with
    | bulkIn =>
      change link.outstanding ≠ [] ↔ t.inFlight ≠ none
      rw [represents.outstanding]
      cases t.inFlight with
      | none => simp
      | some packet => simp
    | _ => exact Iff.rfl
  | _ => exact Iff.rfl

/-- The transport with its endpoint simulates the transmitter. -/
theorem simulates (counted : P.fifo.Counted) :
    Simulates (Link.step : Link P → Event → Link P × List Effect) (Sender.step P) transmitted
      Completes Sender.Allows Represents where
  keeps := fun _ _ _ represents admitted => (represents_step counted represents admitted).1
  shows := fun _ _ _ represents admitted => (represents_step counted represents admitted).2
  admitted := fun _ _ event represents => completes_iff represents event

/-- A bus reset makes the busy flag false and touches nothing else. -/
theorem usbDevIntHandler_resets (d : Device P) {bDevStatus : UInt8}
    (reset : bDevStatus &&& P.devStatusReset ≠ 0) :
    usbDevIntHandler d bDevStatus = { d with fBulkInBusy := false } := by
  rw [usbDevIntHandler, if_pos reset]

/-- A bus reset really resets the transmitter. Take any device, and a device that has the same
bytes in `txfifo` and the two flags as `VCOM_init` sets them. Whatever calls follow, as long
as `BulkIn` is called only for a packet written after the last reset and not completed, the
first device behaves after the reset as the second does from the start: the same calls are
admitted, and each of them writes the same payload or has the same put result. -/
theorem reset_resets (counted : P.fifo.Counted) (d other : Device P) (bDevStatus : UInt8)
    (reset : bDevStatus &&& P.devStatusReset ≠ 0)
    (content : P.fifo.items other.txfifo = P.fifo.items d.txfifo) (events : List Event)
    (admitted : Along Link.step Completes
      { device := usbDevIntHandler d bDevStatus, outstanding := [] } events) :
    Along Link.step Completes
        { device := { other with fBulkInBusy := false, fChainDone := true }, outstanding := [] }
        events ∧
      (trace Link.step { device := usbDevIntHandler d bDevStatus, outstanding := [] }
          events).map (fun entry => (entry.1, transmitted entry.2)) =
        (trace Link.step
          { device := { other with fBulkInBusy := false, fChainDone := true }, outstanding := [] }
          events).map (fun entry => (entry.1, transmitted entry.2)) := by
  rw [usbDevIntHandler_resets d reset] at admitted ⊢
  have stale : Represents
      { device := { d with fBulkInBusy := false }, outstanding := [] }
      { waiting := P.fifo.items d.txfifo, inFlight := none } := represents_idle rfl rfl
  have fresh : Represents
      { device := { other with fBulkInBusy := false, fChainDone := true }, outstanding := [] }
      { waiting := P.fifo.items d.txfifo, inFlight := none } := represents_idle content rfl
  exact (simulates counted).alike stale fresh admitted

/-- A device in the middle of a chain: 70 bytes were put and the full packet is on its way. -/
def midChain : Device (Platform.ofList 128) :=
  exec Firmware.step (vcomInit (Device.blank 128))
    (List.replicate 70 (.putchar 65) ++ [.irq .frame])

/-- The bytes left are sent after the reset in a chain that a put falls into. -/
def afterReset : List Event := [.irq .frame, .putchar 66, .irq .bulkIn, .irq .frame]

/-- A reset in the middle of a chain, with the flag `fChainDone` stale after it. -/
theorem reset_resets_midChain :
    midChain.fChainDone = false ∧
      Along Link.step Completes
        { device := { midChain with fBulkInBusy := false, fChainDone := true }, outstanding := [] }
        afterReset ∧
      (trace Link.step { device := usbDevIntHandler midChain 0x10, outstanding := [] }
          afterReset).map (fun entry => (entry.1, transmitted entry.2)) =
        (trace Link.step { device := { midChain with fBulkInBusy := false, fChainDone := true },
                           outstanding := [] }
          afterReset).map (fun entry => (entry.1, transmitted entry.2)) :=
  ⟨by decide +kernel, reset_resets (Fifo.ofList_counted UInt8 128) midChain midChain 0x10
    (by decide) rfl afterReset (by decide +kernel)⟩

end Olimex2378.Verif.Transmitter

import Olimex2378.Basis.Fifo
import Olimex2378.Basis.Bytes
import Olimex2378.Basis.CInt

/-!
# The virtual serial port

The transport that `datapath-test.c` and `serial-test.c` share word for word: two queues, one
static packet buffer that both directions use, and the two flags of the transmitter. The
queue type and the device status bits come from libraries outside the repository and are
parameters here, and so is what each `USBHwEPRead` finds; a handler returns the device it
leaves and the library calls it made. Endpoint status and frame number are not read.
-/

namespace Olimex2378.Firmware

open Bytes

/-- `MAX_PACKET_SIZE`. -/
def maxPacketSize : Nat := 64

/-- `BULK_OUT_EP`. -/
def bulkOutEp : UInt8 := 0x05

/-- `BULK_IN_EP`. -/
def bulkInEp : UInt8 := 0x82

/-- What the firmware takes from the libraries it is built on. -/
structure Platform where
  /-- `serial-fifo.h`. -/
  fifo : Fifo UInt8
  /-- `DEV_STATUS_RESET` of `usbapi.h`. -/
  devStatusReset : UInt8

/-- A bulk packet. -/
structure Packet where
  /-- Data of the packet, in order. -/
  bytes : List UInt8
  /-- No packet is longer than the endpoint allows. -/
  fits : bytes.length ≤ maxPacketSize

/-- The data that one `USBHwEPRead` found. -/
def readBytes : Option Packet → List UInt8
  | none => []
  | some packet => packet.bytes

/-- One read finds no more than a packet. -/
theorem readBytes_length (read : Option Packet) : (readBytes read).length ≤ maxPacketSize := by
  cases read with
  | none => exact Nat.zero_le _
  | some packet => exact packet.fits

/-- The static variables of the transport. -/
structure Device (P : Platform) where
  /-- Intermediate buffer of both directions. -/
  abBulkBuf : Vector UInt8 64
  /-- A packet has been handed to the bulk IN endpoint. -/
  fBulkInBusy : Bool
  /-- The chain of packets to the host is closed. -/
  fChainDone : Bool
  /-- Bytes on their way to the host. -/
  txfifo : P.fifo.Queue
  /-- Bytes received from the host. -/
  rxfifo : P.fifo.Queue

/-- What the transport does that its environment can see. -/
inductive Effect
  /-- `USBHwEPWrite` hands over a payload. -/
  | epWrite (bEP : UInt8) (payload : List UInt8)
  /-- `USBHwEPRead` takes a packet, or reports that there is none. -/
  | epRead (bEP : UInt8) (read : Option Packet)
  /-- `fifo_put` of one byte into `txfifo`, and whether it returned `TRUE`. -/
  | txPut (byte : UInt8) (taken : Bool)
  /-- The value that `VCOM_getchar` returned. -/
  | getchar (c : CInt)
  /-- `ASSERT(FALSE)`. -/
  | assertFailed
  /-- `VCOM_putword` is called. -/
  | putword (c : CInt)

variable {P : Platform}

/-- `VCOM_init`. -/
def vcomInit (d : Device P) : Device P :=
  { d with
    txfifo := P.fifo.init d.txfifo
    rxfifo := P.fifo.init d.rxfifo
    fBulkInBusy := false
    fChainDone := true }

/-- `fifo_put(&txfifo, c)`. -/
def putTx (d : Device P) (c : CInt) : Device P × Bool :=
  match P.fifo.put d.txfifo (toByte c) with
  | none => (d, false)
  | some next => ({ d with txfifo := next }, true)

/-- `VCOM_putchar`. -/
def vcomPutchar (d : Device P) (c : CInt) : Device P × CInt :=
  let (d, taken) := putTx d c
  (d, if taken then c else eof)

/-- `VCOM_getchar`. -/
def vcomGetchar (d : Device P) : Device P × CInt :=
  match P.fifo.get d.rxfifo with
  | none => (d, eof)
  | some (c, next) => ({ d with rxfifo := next }, ofByte c)

/-- `USBHwEPRead(bEP, abBulkBuf, sizeof(abBulkBuf))`: the buffer and the value returned. -/
def usbHwEPRead (buffer : Vector UInt8 64) : Option Packet → Vector UInt8 64 × Int
  | none => (buffer, -1)
  | some packet => (overwrite buffer packet.bytes, packet.bytes.length)

/-- `BulkOut` up to its loop: the room check and the read. The number is how many bytes the
loop has to store; there is none when the packet was declined. -/
def bulkOutRead (d : Device P) (bEP : UInt8) (read : Option Packet) :
    Device P × List Effect × Option Nat :=
  if P.fifo.free d.rxfifo < maxPacketSize then (d, [], none)
  else
    let (buffer, iLen) := usbHwEPRead d.abBulkBuf read
    ({ d with abBulkBuf := buffer }, [.epRead bEP read], some iLen.toNat)

/-- One pass of the loop of `BulkOut`: store the byte at an index, or give up. -/
def bulkOutStore (d : Device P) (i : Nat) : Device P × Bool :=
  match P.fifo.put d.rxfifo d.abBulkBuf[i]! with
  | none => (d, false)
  | some next => ({ d with rxfifo := next }, true)

/-- The loop of `BulkOut` from an index, with the number of passes left. -/
def bulkOutLoop (d : Device P) (i : Nat) : Nat → Device P × List Effect
  | 0 => (d, [])
  | left + 1 =>
    match bulkOutStore d i with
    | (d, true) => bulkOutLoop d (i + 1) left
    | (d, false) => (d, [.assertFailed])

/-- `BulkOut`. -/
def bulkOut (d : Device P) (bEP : UInt8) (read : Option Packet) : Device P × List Effect :=
  match bulkOutRead d bEP read with
  | (d, out, none) => (d, out)
  | (d, out, some iLen) =>
    let (d, later) := bulkOutLoop d 0 iLen
    (d, out ++ later)

/-- The copy loop of `SendNextBulkIn` from a packet length, with the number of passes left. -/
def fillBulkBuf (d : Device P) (iLen : Nat) : Nat → Device P × Nat
  | 0 => (d, iLen)
  | left + 1 =>
    match P.fifo.get d.txfifo with
    | none => (d, iLen)
    | some (byte, next) =>
      fillBulkBuf
        { d with txfifo := next, abBulkBuf := d.abBulkBuf.setIfInBounds iLen byte } (iLen + 1) left

/-- `SendNextBulkIn`. -/
def sendNextBulkIn (d : Device P) (bEP : UInt8) (fFirstPacket : Bool) :
    Device P × List Effect :=
  let d := { d with fBulkInBusy := false }
  let d := if fFirstPacket then { d with fChainDone := false } else d
  if d.fChainDone then (d, [])
  else
    let (d, iLen) := fillBulkBuf d 0 maxPacketSize
    let out := [Effect.epWrite bEP (d.abBulkBuf.toList.take iLen)]
    let d := { d with fBulkInBusy := true }
    (if iLen < maxPacketSize then { d with fChainDone := true } else d, out)

/-- `BulkIn`. -/
def bulkIn (d : Device P) (bEP : UInt8) : Device P × List Effect := sendNextBulkIn d bEP false

/-- `USBFrameHandler`. -/
def usbFrameHandler (d : Device P) : Device P × List Effect :=
  if !d.fBulkInBusy && P.fifo.avail d.txfifo != 0 then sendNextBulkIn d bulkInEp true
  else (d, [])

/-- `USBDevIntHandler`. -/
def usbDevIntHandler (d : Device P) (bDevStatus : UInt8) : Device P :=
  if bDevStatus &&& P.devStatusReset ≠ 0 then { d with fBulkInBusy := false } else d

/-- `VCOM_init` empties the transmit queue. -/
@[simp] theorem vcomInit_txfifo (d : Device P) : P.fifo.items (vcomInit d).txfifo = [] :=
  P.fifo.items_init d.txfifo

/-- `VCOM_init` empties the receive queue. -/
@[simp] theorem vcomInit_rxfifo (d : Device P) : P.fifo.items (vcomInit d).rxfifo = [] :=
  P.fifo.items_init d.rxfifo

/-- `fifo_put` into `txfifo` adds the byte when it is taken and changes nothing else. -/
theorem putTx_eq (d : Device P) (c : CInt) :
    ∃ queue, (putTx d c).1 = { d with txfifo := queue } ∧
      P.fifo.items queue =
        P.fifo.items d.txfifo ++ (if (putTx d c).2 then [toByte c] else []) := by
  unfold putTx
  cases result : P.fifo.put d.txfifo (toByte c) with
  | none => exact ⟨d.txfifo, rfl, by simp⟩
  | some next => exact ⟨next, rfl, by simpa using P.fifo.put_items _ _ _ result⟩

/-- A byte put into `txfifo` is taken exactly when there is room for it. -/
theorem putTx_taken (d : Device P) (c : CInt) :
    (putTx d c).2 = true ↔ (P.fifo.items d.txfifo).length < P.fifo.capacity := by
  rw [← P.fifo.put_isSome d.txfifo (toByte c)]
  unfold putTx
  cases P.fifo.put d.txfifo (toByte c) <;> simp

/-- `VCOM_getchar` touches `rxfifo` only. -/
theorem vcomGetchar_frame (d : Device P) :
    ∃ queue, (vcomGetchar d).1 = { d with rxfifo := queue } := by
  unfold vcomGetchar
  cases P.fifo.get d.rxfifo with
  | none => exact ⟨d.rxfifo, rfl⟩
  | some taken => exact ⟨taken.2, rfl⟩

/-- `VCOM_getchar` on an empty queue returns `EOF` and changes nothing. -/
theorem vcomGetchar_empty {d : Device P} (empty : P.fifo.items d.rxfifo = []) :
    vcomGetchar d = (d, eof) := by
  simp [vcomGetchar, (P.fifo.get_refuses d.rxfifo).mpr empty]

/-- `VCOM_getchar` returns the oldest byte received and removes only it. -/
theorem vcomGetchar_takes {d : Device P} {byte : UInt8} {rest : List UInt8}
    (held : P.fifo.items d.rxfifo = byte :: rest) :
    ∃ queue, vcomGetchar d = ({ d with rxfifo := queue }, ofByte byte) ∧
      P.fifo.items queue = rest := by
  cases result : P.fifo.get d.rxfifo with
  | none => simp [(P.fifo.get_refuses d.rxfifo).mp result] at held
  | some taken =>
    obtain ⟨first, next⟩ := taken
    have items := P.fifo.get_items _ _ _ result
    rw [held, List.cons.injEq] at items
    exact ⟨next, by simp [vcomGetchar, result, items.1], items.2.symm⟩

/-- The buffer after a read starts with the data read. -/
theorem usbHwEPRead_take (buffer : Vector UInt8 64) (read : Option Packet) :
    (usbHwEPRead buffer read).1.toList.take (readBytes read).length = readBytes read := by
  cases read with
  | none => rfl
  | some packet => exact overwrite_take buffer packet.fits

/-- The loop of `BulkOut` runs over the data read, and not at all when there is none. -/
theorem usbHwEPRead_length (buffer : Vector UInt8 64) (read : Option Packet) :
    (usbHwEPRead buffer read).2.toNat = (readBytes read).length := by
  cases read <;> simp [usbHwEPRead, readBytes]

/-- With room in `rxfifo` one pass of the loop stores its byte. -/
theorem bulkOutStore_stores (d : Device P) (i : Nat)
    (room : (P.fifo.items d.rxfifo).length < P.fifo.capacity) :
    ∃ queue, bulkOutStore d i = ({ d with rxfifo := queue }, true) ∧
      P.fifo.items queue = P.fifo.items d.rxfifo ++ [d.abBulkBuf[i]!] := by
  obtain ⟨next, stored, items⟩ := P.fifo.put_accepts d.abBulkBuf[i]! room
  exact ⟨next, by simp [bulkOutStore, stored], items⟩

/-- Reading a cell of the buffer is taking one more item from its front. -/
theorem drop_abBulkBuf (buffer : Vector UInt8 64) {i : Nat} (inside : i < 64) :
    buffer.toList.drop i = buffer[i]! :: buffer.toList.drop (i + 1) := by
  have bound : i < buffer.toList.length := by simpa using inside
  rw [List.drop_eq_getElem_cons bound]
  simp [inside]

/-- With room for all of them, the loop of `BulkOut` stores the bytes it runs over. -/
theorem bulkOutLoop_stores (d : Device P) (i left : Nat) (inside : i + left ≤ 64)
    (room : (P.fifo.items d.rxfifo).length + left ≤ P.fifo.capacity) :
    ∃ queue, bulkOutLoop d i left = ({ d with rxfifo := queue }, []) ∧
      P.fifo.items queue =
        P.fifo.items d.rxfifo ++ (d.abBulkBuf.toList.drop i).take left := by
  induction left generalizing d i with
  | zero => exact ⟨d.rxfifo, rfl, by simp⟩
  | succ left ih =>
    obtain ⟨next, pass, items⟩ := bulkOutStore_stores d i (by omega)
    have space : (P.fifo.items next).length + left ≤ P.fifo.capacity := by
      rw [items, List.length_append, List.length_singleton]
      omega
    obtain ⟨queue, result, final⟩ := ih { d with rxfifo := next } (i + 1) (by omega) space
    refine ⟨queue, by simpa only [bulkOutLoop, pass] using result, ?_⟩
    rw [final, items, drop_abBulkBuf _ (show i < 64 by omega), List.take_succ_cons,
      List.append_assoc, List.singleton_append]

/-- The loop of `BulkOut` touches `rxfifo` only, and makes no call but the assertion. -/
theorem bulkOutLoop_frame (d : Device P) (i left : Nat) :
    ∃ queue, (bulkOutLoop d i left).1 = { d with rxfifo := queue } ∧
      ((bulkOutLoop d i left).2 = [] ∨ (bulkOutLoop d i left).2 = [.assertFailed]) := by
  induction left generalizing d i with
  | zero => exact ⟨d.rxfifo, rfl, Or.inl rfl⟩
  | succ left ih =>
    cases result : P.fifo.put d.rxfifo d.abBulkBuf[i]! with
    | none => exact ⟨d.rxfifo, by simp [bulkOutLoop, bulkOutStore, result]⟩
    | some next =>
      obtain ⟨queue, device, out⟩ := ih { d with rxfifo := next } (i + 1)
      exact ⟨queue, by simp [bulkOutLoop, bulkOutStore, result, device, out]⟩

/-- `BulkOut` touches the buffer and `rxfifo` only, whatever the library counts as room. -/
theorem bulkOut_frame (d : Device P) (bEP : UInt8) (read : Option Packet) :
    ∃ buffer queue,
      (bulkOut d bEP read).1 = { d with abBulkBuf := buffer, rxfifo := queue } ∧
      ((bulkOut d bEP read).2 = [] ∨ (bulkOut d bEP read).2 = [.epRead bEP read] ∨
        (bulkOut d bEP read).2 = [.epRead bEP read, .assertFailed]) := by
  by_cases declined : P.fifo.free d.rxfifo < maxPacketSize
  · exact ⟨d.abBulkBuf, d.rxfifo, by simp [bulkOut, bulkOutRead, declined]⟩
  · obtain ⟨queue, device, out⟩ :=
      bulkOutLoop_frame { d with abBulkBuf := (usbHwEPRead d.abBulkBuf read).1 } 0
        (usbHwEPRead d.abBulkBuf read).2.toNat
    refine ⟨(usbHwEPRead d.abBulkBuf read).1, queue, ?_, ?_⟩
    · simp [bulkOut, bulkOutRead, declined, device]
    · rcases out with out | out <;> simp [bulkOut, bulkOutRead, declined, out]

/-- Without a packet's room in `rxfifo`, `BulkOut` leaves the packet in the endpoint. -/
theorem bulkOut_declines {d : Device P} (bEP : UInt8) (read : Option Packet)
    (full : P.fifo.free d.rxfifo < maxPacketSize) : bulkOut d bEP read = (d, []) := by
  simp [bulkOut, bulkOutRead, full]

/-- With a packet's room in `rxfifo`, `BulkOut` stores all it reads. -/
theorem bulkOut_reads (counted : P.fifo.Counted) {d : Device P} (bEP : UInt8)
    (read : Option Packet) (room : maxPacketSize ≤ P.fifo.free d.rxfifo) :
    ∃ buffer queue,
      bulkOut d bEP read =
        ({ d with abBulkBuf := buffer, rxfifo := queue }, [.epRead bEP read]) ∧
      P.fifo.items queue = P.fifo.items d.rxfifo ++ readBytes read := by
  have fits := readBytes_length read
  have size : maxPacketSize = 64 := rfl
  have space := counted.free_items d.rxfifo
  have length := usbHwEPRead_length d.abBulkBuf read
  obtain ⟨queue, stored, items⟩ :=
    bulkOutLoop_stores { d with abBulkBuf := (usbHwEPRead d.abBulkBuf read).1 } 0
      (usbHwEPRead d.abBulkBuf read).2.toNat (by omega) (by
        show (P.fifo.items d.rxfifo).length + _ ≤ _
        omega)
  refine ⟨(usbHwEPRead d.abBulkBuf read).1, queue, ?_, ?_⟩
  · simp [bulkOut, bulkOutRead, Nat.not_lt.mpr room, stored]
  · rw [items, List.drop_zero, length, usbHwEPRead_take]

/-- The copy loop moves the oldest bytes of `txfifo` behind the front of the buffer. -/
theorem fillBulkBuf_moves (d : Device P) (iLen left : Nat) (inside : iLen + left ≤ 64) :
    ∃ queue buffer,
      fillBulkBuf d iLen left = ({ d with txfifo := queue, abBulkBuf := buffer },
        iLen + min left (P.fifo.items d.txfifo).length) ∧
      P.fifo.items queue = (P.fifo.items d.txfifo).drop left ∧
      buffer.toList.take (iLen + min left (P.fifo.items d.txfifo).length) =
        d.abBulkBuf.toList.take iLen ++ (P.fifo.items d.txfifo).take left := by
  induction left generalizing d iLen with
  | zero => exact ⟨d.txfifo, d.abBulkBuf, by simp [fillBulkBuf], by simp, by simp⟩
  | succ left ih =>
    cases result : P.fifo.get d.txfifo with
    | none =>
      have empty := (P.fifo.get_refuses d.txfifo).mp result
      exact ⟨d.txfifo, d.abBulkBuf, by simp [fillBulkBuf, result, empty], by simp [empty],
        by simp [empty]⟩
    | some taken =>
      obtain ⟨byte, next⟩ := taken
      have items := P.fifo.get_items _ _ _ result
      obtain ⟨queue, buffer, moved, rest, front⟩ :=
        ih { d with txfifo := next, abBulkBuf := d.abBulkBuf.setIfInBounds iLen byte } (iLen + 1)
          (by omega)
      have count : iLen + min (left + 1) (byte :: P.fifo.items next).length =
          iLen + 1 + min left (P.fifo.items next).length := by
        simp only [List.length_cons]
        omega
      rw [items, count]
      refine ⟨queue, buffer, by simpa only [fillBulkBuf, result] using moved,
        by simpa using rest, ?_⟩
      rw [front, take_succ_set _ _ _ (by omega)]
      simp

/-- What holds of the device after a packet has been sent from a device. -/
structure Sent (d next : Device P) : Prop where
  /-- The packet's bytes have left `txfifo`. -/
  txfifo_items : P.fifo.items next.txfifo = (P.fifo.items d.txfifo).drop maxPacketSize
  /-- The receive side is as it was. -/
  rxfifo_eq : next.rxfifo = d.rxfifo
  /-- The packet is on its way. -/
  busy : next.fBulkInBusy = true
  /-- A short packet closes the chain, a full one leaves it open. -/
  done : next.fChainDone = decide ((P.fifo.items d.txfifo).length < maxPacketSize)

/-- A chain that is open, or opened now, is entered with both flags false. -/
theorem chain_entry {d : Device P} {fFirstPacket : Bool}
    (goesOn : fFirstPacket = true ∨ d.fChainDone = false) :
    (if fFirstPacket then
      { d with fBulkInBusy := false, fChainDone := false } else { d with fBulkInBusy := false }) =
      ({ d with fBulkInBusy := false, fChainDone := false } : Device P) := by
  cases goesOn with
  | inl first => simp [first]
  | inr chain => simp [← chain]

/-- A chain that is open, or opened now, goes on with the oldest bytes of `txfifo`. -/
theorem sendNextBulkIn_sends {d : Device P} (bEP : UInt8) {fFirstPacket : Bool}
    (goesOn : fFirstPacket = true ∨ d.fChainDone = false) :
    ∃ next, sendNextBulkIn d bEP fFirstPacket =
        (next, [.epWrite bEP ((P.fifo.items d.txfifo).take maxPacketSize)]) ∧
      Sent d next := by
  obtain ⟨queue, buffer, moved, rest, front⟩ :=
    fillBulkBuf_moves { d with fBulkInBusy := false, fChainDone := false } 0 maxPacketSize
      (by decide)
  simp only [List.take_zero, List.nil_append, Nat.zero_add] at moved front
  have short : min maxPacketSize (P.fifo.items d.txfifo).length < maxPacketSize ↔
      (P.fifo.items d.txfifo).length < maxPacketSize := by omega
  simp only [sendNextBulkIn, chain_entry goesOn, Bool.false_eq_true, ↓reduceIte, moved, front,
    short]
  by_cases closes : (P.fifo.items d.txfifo).length < maxPacketSize
  · simp only [closes, ↓reduceIte]
    exact ⟨_, rfl, rest, rfl, rfl, by simp [closes]⟩
  · simp only [closes, ↓reduceIte]
    exact ⟨_, rfl, rest, rfl, rfl, by simp [closes]⟩

/-- A closed chain is not continued; the transmitter becomes idle. -/
theorem sendNextBulkIn_ends {d : Device P} (bEP : UInt8) (done : d.fChainDone = true) :
    sendNextBulkIn d bEP false = ({ d with fBulkInBusy := false }, []) := by
  simp [sendNextBulkIn, done]

end Olimex2378.Firmware

import Olimex2378.Basis.Bytes
import Olimex2378.Basis.CInt
import Olimex2378.Basis.Run

/-!
# The isochronous sample

The handlers of `isoc_io_sample.c` as they are compiled for the board. A frame tick counts until
the warm-up is over and from then on sends the counter and reads what the host has sent for the
lamp, but only while the device is connected; what a device status says is compared as a whole.
The status codes come from a library outside the repository, and so does what a read finds.
-/

namespace Olimex2378.Firmware.Isoc

open Bytes

/-- `ISOC_OUT_EP`. -/
def isocOutEp : UInt8 := 0x06

/-- `ISOC_IN_EP`. -/
def isocInEp : UInt8 := 0x83

/-- `BYTES_PER_ISOC_FRAME`. -/
def bytesPerIsocFrame : Nat := 4

/-- `ISOC_OUTPUT_DATA_BUFFER_SIZE`. -/
def isocOutputDataBufferSize : Nat := 1024

/-- The values of `usbapi.h` that the cases of one switch statement name. -/
structure StatusCodes where
  /-- `DEV_STATUS_CONNECT`. -/
  connect : UInt8
  /-- `DEV_STATUS_RESET`. -/
  reset : UInt8
  /-- `DEV_STATUS_SUSPEND`. -/
  suspend : UInt8
  /-- The first case is not the second. -/
  connect_ne_reset : connect ≠ reset
  /-- The first case is not the third. -/
  connect_ne_suspend : connect ≠ suspend

/-- A packet for the lamp. -/
structure OutPacket where
  /-- Data of the packet, in order. -/
  bytes : List UInt8
  /-- It fits into the buffer it is read into. -/
  fits : bytes.length ≤ isocOutputDataBufferSize

/-- The variables of the sample. -/
structure IsocSample where
  /-- `isConnectedFlag`. -/
  isConnectedFlag : CInt
  /-- `delay`. -/
  delay : CInt
  /-- The one word of `inputIsocDataBuffer`. -/
  inputIsocDataBuffer : BitVec 32
  /-- `outputIsocDataBuffer`. -/
  outputIsocDataBuffer : Vector UInt8 isocOutputDataBufferSize
  /-- `bDevStat`. -/
  bDevStat : UInt8

/-- The handlers that the sample registers. -/
inductive Event
  /-- A frame tick, with the packet that a read will find. -/
  | frame (read : Option OutPacket)
  /-- A device status. -/
  | devInt (bDevStatus : UInt8)

/-- What the handlers do to the outside. -/
inductive Effect
  /-- `USBHwEPWrite`. -/
  | epWrite (bEP : UInt8) (payload : List UInt8)
  /-- `USBHwISOCEPRead`. -/
  | isocEPRead (bEP : UInt8) (read : Option OutPacket)
  /-- `FIO1SET = (1<<19)`. -/
  | fio1Set
  /-- `FIO1CLR = (1<<19)`. -/
  | fio1Clr

/-- The variables when `main` has enabled interrupts. -/
def IsocSample.start : IsocSample where
  isConnectedFlag := 0
  delay := 0
  inputIsocDataBuffer := 0
  outputIsocDataBuffer := Vector.replicate isocOutputDataBufferSize 0
  bDevStat := 0

/-- `USBHwISOCEPRead` into `outputIsocDataBuffer`: the buffer and the value returned. -/
def usbHwISOCEPRead (buffer : Vector UInt8 isocOutputDataBufferSize) :
    Option OutPacket → Vector UInt8 isocOutputDataBufferSize × Int
  | none => (buffer, -1)
  | some packet => (overwrite buffer packet.bytes, packet.bytes.length)

/-- What is done with a packet read. -/
def lamp (outputIsocDataBuffer : Vector UInt8 isocOutputDataBufferSize) (iLen : Int) : List Effect :=
  if 0 < iLen then
    if outputIsocDataBuffer[0]! ≠ 0 then [.fio1Set] else [.fio1Clr]
  else []

/-- `USBFrameHandler`. -/
def usbFrameHandler (s : IsocSample) (read : Option OutPacket) : IsocSample × List Effect :=
  if s.isConnectedFlag ≠ 0 then
    if BitVec.slt s.delay 4000 then ({ s with delay := s.delay + 1 }, [])
    else
      let inputIsocDataBuffer := s.inputIsocDataBuffer + 1
      let (outputIsocDataBuffer, iLen) := usbHwISOCEPRead s.outputIsocDataBuffer read
      ({ s with inputIsocDataBuffer, outputIsocDataBuffer },
        .epWrite isocInEp (leBytes bytesPerIsocFrame inputIsocDataBuffer.toNat) ::
          .isocEPRead isocOutEp read :: lamp outputIsocDataBuffer iLen)
  else (s, [])

/-- `USBDevIntHandler`. -/
def usbDevIntHandler (codes : StatusCodes) (s : IsocSample) (bDevStatus : UInt8) : IsocSample :=
  let s := { s with bDevStat := bDevStatus }
  if bDevStatus = codes.connect then { s with isConnectedFlag := 1 }
  else if bDevStatus = codes.reset ∨ bDevStatus = codes.suspend then
    { s with isConnectedFlag := 0 }
  else s

/-- One call of a handler. -/
def step (codes : StatusCodes) (s : IsocSample) : Event → IsocSample × List Effect
  | .frame read => usbFrameHandler s read
  | .devInt bDevStatus => (usbDevIntHandler codes s bDevStatus, [])

end Olimex2378.Firmware.Isoc

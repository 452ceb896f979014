import Olimex2378.Basis.Bytes

/-!
# Class requests

The line coding of the virtual serial port and `HandleClassRequest` of `datapath-test.c`. The
USB library stores the data of a request at the front of the class request buffer, leaves the
rest of the buffer as it was, and passes a pointer to it; the handler may point to the line
coding instead. The debug line that the handler prints is left out.
-/

namespace Olimex2378.Firmware

open Bytes

/-- `SET_LINE_CODING`. -/
def setLineCoding : UInt8 := 0x20

/-- `GET_LINE_CODING`. -/
def getLineCoding : UInt8 := 0x21

/-- `SET_CONTROL_LINE_STATE`. -/
def setControlLineState : UInt8 := 0x22

/-- `TLineCoding`. -/
structure TLineCoding where
  /-- Bits per second. -/
  dwDTERate : BitVec 32
  /-- Stop bits. -/
  bCharFormat : UInt8
  /-- Parity. -/
  bParityType : UInt8
  /-- Data bits. -/
  bDataBits : UInt8

/-- The seven bytes of a line coding in memory. -/
def TLineCoding.bytes (coding : TLineCoding) : List UInt8 :=
  leBytes 4 coding.dwDTERate.toNat ++ [coding.bCharFormat, coding.bParityType, coding.bDataBits]

/-- The line coding after seven bytes have been copied over it. -/
def TLineCoding.ofBytes (bytes : List UInt8) : TLineCoding where
  dwDTERate := BitVec.ofNat 32 (leValue (bytes.take 4))
  bCharFormat := bytes.getD 4 0
  bParityType := bytes.getD 5 0
  bDataBits := bytes.getD 6 0

/-- The part of `TSetupPacket` that the handler reads. -/
structure TSetupPacket where
  /-- The request. -/
  bRequest : UInt8

/-- Where `*ppbData` points. -/
inductive DataPtr
  /-- To the class request buffer. -/
  | abClassReqData
  /-- To the line coding. -/
  | lineCoding

/-- The static variables of the class requests. -/
structure ClassPort where
  /-- `LineCoding`. -/
  lineCoding : TLineCoding
  /-- `abClassReqData`. -/
  abClassReqData : Vector UInt8 8

/-- The variables at the start, with some content of the buffer. -/
def ClassPort.start (abClassReqData : Vector UInt8 8) : ClassPort where
  lineCoding := { dwDTERate := 115200, bCharFormat := 0, bParityType := 0, bDataBits := 8 }
  abClassReqData

/-- The bytes that a pointer points to. -/
def ClassPort.at (port : ClassPort) : DataPtr → List UInt8
  | .abClassReqData => port.abClassReqData.toList
  | .lineCoding => port.lineCoding.bytes

/-- `HandleClassRequest`: what it leaves in the variables, in `*piLen` and in `*ppbData`, and
the value returned. -/
def handleClassRequest (port : ClassPort) (pSetup : TSetupPacket) (piLen : Int)
    (ppbData : DataPtr) : ClassPort × Int × DataPtr × Bool :=
  if pSetup.bRequest = setLineCoding then
    ({ port with lineCoding := TLineCoding.ofBytes ((port.at ppbData).take 7) }, 7, ppbData, true)
  else if pSetup.bRequest = getLineCoding then (port, 7, .lineCoding, true)
  else if pSetup.bRequest = setControlLineState then (port, piLen, ppbData, true)
  else (port, piLen, ppbData, false)

/-- A class request with the data that the host sent. -/
structure ClassRequest where
  /-- The setup packet. -/
  pSetup : TSetupPacket
  /-- Data bytes. -/
  data : List UInt8
  /-- The buffer holds them. -/
  fits : data.length ≤ 8

/-- What the library takes from the handler. -/
structure ClassReply where
  /-- The value returned. -/
  result : Bool
  /-- `*piLen`. -/
  iLen : Int
  /-- The bytes at `*ppbData`, as many as `*piLen` says. -/
  pbData : List UInt8
  deriving DecidableEq

/-- One request: the library stores its data, then the handler runs. -/
def ClassPort.step (port : ClassPort) (request : ClassRequest) : ClassPort × ClassReply :=
  let port := { port with abClassReqData := overwrite port.abClassReqData request.data }
  let (port, iLen, pbData, result) :=
    handleClassRequest port request.pSetup request.data.length .abClassReqData
  (port, { result, iLen, pbData := (port.at pbData).take iLen.toNat })

/-- A line coding is seven bytes. -/
@[simp] theorem TLineCoding.bytes_length (coding : TLineCoding) : coding.bytes.length = 7 := by
  simp [TLineCoding.bytes]

/-- Seven bytes copied over a line coding are its bytes. -/
theorem TLineCoding.bytes_ofBytes {bytes : List UInt8} (seven : bytes.length = 7) :
    (TLineCoding.ofBytes bytes).bytes = bytes := by
  have bound := leValue_lt (bytes.take 4)
  have four : (bytes.take 4).length = 4 := by
    rw [List.length_take, seven]
    rfl
  have rate := leBytes_leValue (bytes.take 4)
  rw [four] at bound rate
  have word : (BitVec.ofNat 32 (leValue (bytes.take 4))).toNat = leValue (bytes.take 4) := by
    rw [BitVec.toNat_ofNat]
    exact Nat.mod_eq_of_lt bound
  have rest : bytes.drop 4 = [bytes.getD 4 0, bytes.getD 5 0, bytes.getD 6 0] := by
    match bytes, seven with
    | [_, _, _, _, _, _, _], _ => rfl
  change leBytes 4 (BitVec.ofNat 32 (leValue (bytes.take 4))).toNat ++ _ = _
  rw [word, rate]
  change bytes.take 4 ++ [bytes.getD 4 0, bytes.getD 5 0, bytes.getD 6 0] = bytes
  rw [← rest, List.take_append_drop]

end Olimex2378.Firmware

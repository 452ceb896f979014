import Olimex2378.Firmware.Sampler
import Olimex2378.Host.DatapathTask

/-!
# The datapath test as a whole

`datapath-test.c` on the device, `datapath-host.c` on the host, and what lies between them: a
packet that the bulk IN endpoint holds is collected by the host, and the call of `BulkIn` that
reports it comes later; what the host program writes waits in the serial port until it is
transferred to the bulk OUT endpoint, which calls `BulkOut` once for each packet. The two
programs, the bus and the interrupts take their steps in any order. A bus reset discards what
the endpoints hold, and a flush what the serial port holds.
-/

namespace Olimex2378.Bench

open Firmware

variable {P : Platform}

/-- Both programs and what is on its way between them. -/
structure Datapath (P : Platform) where
  /-- The device. -/
  sampler : Sampler P
  /-- Packets that the bulk IN endpoint holds for the host, oldest first. -/
  outstanding : List (List UInt8)
  /-- Calls of `BulkIn` that are due for packets collected. -/
  finished : Nat
  /-- Bytes that the serial port holds for the host program. -/
  inbound : List UInt8
  /-- The host program. -/
  host : Host.DatapathTask
  /-- Bytes that the serial port holds for the device. -/
  outbound : List UInt8
  /-- Packets that the bulk OUT endpoint holds for the device, oldest first. -/
  waiting : List Packet
  /-- Calls of `BulkOut` that are due. -/
  due : Nat

/-- The steps of the whole. -/
inductive BenchEvent
  /-- The next call of the device's main loop. -/
  | main
  /-- A frame tick. -/
  | frame
  /-- The host collects the packet that the bulk IN endpoint holds. -/
  | collect
  /-- A due call of `BulkIn` is made. -/
  | bulkIn
  /-- Up to some number of bytes go to the bulk OUT endpoint as one packet. -/
  | transfer (count : Nat)
  /-- A due call of `BulkOut` is made. -/
  | bulkOut
  /-- A device status. -/
  | devInt (bDevStatus : UInt8)
  /-- An iteration of the host program; the port takes the byte that it writes, or does not. -/
  | host (poll : Host.Poll) (taken : Bool)

/-- What can be seen of a step. -/
inductive BenchEffect
  /-- The device does it. -/
  | device (effect : Firmware.Effect)
  /-- The host program does it. -/
  | host (effect : Host.Effect)
  /-- The serial port takes a byte from the host program. -/
  | sent (byte : UInt8)

/-- The device's effects. -/
def deviceEffects (out : List BenchEffect) : List Firmware.Effect :=
  out.filterMap fun effect => match effect with
    | .device effect => some effect
    | _ => none

/-- The host program's effects. -/
def hostEffects (out : List BenchEffect) : List Host.Effect :=
  out.filterMap fun effect => match effect with
    | .host effect => some effect
    | _ => none

/-- The bytes that the serial port took. -/
def sent (out : List BenchEffect) : List UInt8 :=
  out.filterMap fun effect => match effect with
    | .sent byte => some byte
    | _ => none

/-- The bytes that the host program writes. -/
def writes (out : List Host.Effect) : List UInt8 :=
  out.filterMap fun effect => match effect with
    | .write byte => some byte
    | _ => none

/-- The host program flushes the port. -/
def flushes (out : List Host.Effect) : Bool :=
  out.any fun effect => match effect with
    | .flushPort => true
    | _ => false

/-- A step of the device; what it hands to `USBHwEPWrite` is then held by the endpoint. -/
def Datapath.device (s : Datapath P) (event : SamplerEvent) : Datapath P × List BenchEffect :=
  let (sampler, out) := s.sampler.step event
  ({ s with sampler, outstanding := s.outstanding ++ payloads out }, out.map .device)

/-- The packet that holds the first bytes for the device. -/
def Datapath.nextPacket (s : Datapath P) (count : Nat) : Packet where
  bytes := s.outbound.take (min count maxPacketSize)
  fits := (List.length_take_le _ _).trans (Nat.min_le_right count maxPacketSize)

/-- What a device status leaves of the packets: a bus reset discards them and the calls due. -/
def Datapath.settle (s : Datapath P) (bDevStatus : UInt8) : Datapath P :=
  if bDevStatus &&& P.devStatusReset ≠ 0 then
    { s with outstanding := [], finished := 0, waiting := [], due := 0 }
  else s

/-- An iteration of the host program. -/
def Datapath.hostStep (quiet : CInt) (s : Datapath P) (poll : Host.Poll) (taken : Bool) :
    Datapath P × List BenchEffect :=
  let (host, out) := s.host.step quiet poll
  let bytes := if taken then writes out else []
  if flushes out then
    ({ s with host, inbound := [], outbound := bytes }, out.map .host ++ bytes.map .sent)
  else
    ({ s with
        host
        inbound := s.inbound.drop (Host.reads out).flatten.length
        outbound := s.outbound ++ bytes },
      out.map .host ++ bytes.map .sent)

/-- One step of the whole. -/
def Datapath.step (quiet : CInt) (s : Datapath P) : BenchEvent → Datapath P × List BenchEffect
  | .main => s.device .main
  | .frame => s.device (.irq .frame)
  | .collect =>
    match s.outstanding with
    | [] => (s, [])
    | packet :: rest =>
      ({ s with
          outstanding := rest
          inbound := s.inbound ++ packet
          finished := s.finished + 1 }, [])
  | .bulkIn => { s with finished := s.finished - 1 }.device (.irq .bulkIn)
  | .transfer count =>
    ({ s with
        outbound := s.outbound.drop (min count maxPacketSize)
        waiting := s.waiting ++ [s.nextPacket count]
        due := s.due + 1 }, [])
  | .bulkOut =>
    let (next, out) := { s with due := s.due - 1 }.device (.irq (.bulkOut s.waiting.head?))
    ({ next with waiting := s.waiting.drop (packets (deviceEffects out)).length }, out)
  | .devInt bDevStatus => (s.settle bDevStatus).device (.irq (.devInt bDevStatus))
  | .host poll taken => s.hostStep quiet poll taken

/-- Both programs when they enter their loops. -/
def Datapath.start (d : Device P) (beginTime : Int) : Datapath P where
  sampler := Sampler.start d
  outstanding := []
  finished := 0
  inbound := []
  host := Host.DatapathTask.start beginTime
  outbound := []
  waiting := []
  due := 0

/-- The hardware makes a call only when it is due and takes a packet only when it has a buffer
for it, and a read of the serial port returns the oldest bytes that the port holds. -/
def Datapath.Admits (quiet : CInt) (buffers : Nat) (s : Datapath P) : BenchEvent → Prop
  | .collect => s.outstanding ≠ []
  | .bulkIn => 0 < s.finished
  | .transfer _ => s.waiting.length < buffers
  | .bulkOut => 0 < s.due
  | .host poll _ => (Host.reads (s.host.step quiet poll).2).flatten <+: s.inbound
  | _ => True

/-- The condition can be evaluated. -/
instance Datapath.Admits.decidable (quiet : CInt) (buffers : Nat) (s : Datapath P) :
    ∀ event, Decidable (s.Admits quiet buffers event)
  | .main => isTrue trivial
  | .frame => isTrue trivial
  | .collect => inferInstanceAs (Decidable (s.outstanding ≠ []))
  | .bulkIn => inferInstanceAs (Decidable (0 < s.finished))
  | .transfer _ => inferInstanceAs (Decidable (s.waiting.length < buffers))
  | .bulkOut => inferInstanceAs (Decidable (0 < s.due))
  | .devInt _ => isTrue trivial
  | .host poll _ =>
    inferInstanceAs (Decidable ((Host.reads (s.host.step quiet poll).2).flatten <+: s.inbound))

/-- No byte on its way to the host is discarded. -/
def Datapath.KeepsSamples (quiet : CInt) (s : Datapath P) : BenchEvent → Prop
  | .devInt bDevStatus => bDevStatus &&& P.devStatusReset ≠ 0 → s.outstanding.flatten = []
  | .host poll _ => flushes (s.host.step quiet poll).2 = true → s.inbound = []
  | _ => True

/-- No byte on its way to the device is discarded. -/
def Datapath.KeepsCommands (quiet : CInt) (s : Datapath P) : BenchEvent → Prop
  | .devInt bDevStatus =>
    bDevStatus &&& P.devStatusReset ≠ 0 → s.waiting.flatMap Packet.bytes = []
  | .host poll _ => flushes (s.host.step quiet poll).2 = true → s.outbound = []
  | _ => True

section Readings

variable (first second : List BenchEffect) (out : List Firmware.Effect) (shown : List Host.Effect)
  (bytes : List UInt8)

/-- The device's effects of two lists are taken in order. -/
@[simp] theorem deviceEffects_append :
    deviceEffects (first ++ second) = deviceEffects first ++ deviceEffects second := by
  simp [deviceEffects]

/-- The host program's effects of two lists are taken in order. -/
@[simp] theorem hostEffects_append :
    hostEffects (first ++ second) = hostEffects first ++ hostEffects second := by
  simp [hostEffects]

/-- Bytes sent in two lists of effects are taken in order. -/
@[simp] theorem sent_append : sent (first ++ second) = sent first ++ sent second := by
  simp [sent]

/-- The device's effects are its own. -/
@[simp] theorem effects_device :
    deviceEffects (out.map .device) = out ∧ hostEffects (out.map .device) = [] ∧
      sent (out.map .device) = [] := by
  simp [deviceEffects, hostEffects, sent, List.filterMap_map]

/-- The host program's effects are its own. -/
@[simp] theorem effects_host :
    deviceEffects (shown.map .host) = [] ∧ hostEffects (shown.map .host) = shown ∧
      sent (shown.map .host) = [] := by
  simp [deviceEffects, hostEffects, sent, List.filterMap_map]

/-- The port's effects are its own. -/
@[simp] theorem effects_sent :
    deviceEffects (bytes.map .sent) = [] ∧ hostEffects (bytes.map .sent) = [] ∧
      sent (bytes.map .sent) = bytes := by
  simp [deviceEffects, hostEffects, sent, List.filterMap_map]

end Readings

end Olimex2378.Bench

import Olimex2378.Firmware.Events

/-!
# The bulk IN endpoint

The transmitter together with the hardware it serves. A packet is outstanding from the
`USBHwEPWrite` that hands it over until its completion, which calls `BulkIn`, or a bus reset,
which discards it. The hardware completes no packet that it does not have; a run that keeps
to this is one along which `Completes` holds.
-/

namespace Olimex2378.Firmware

variable {P : Platform}

/-- A device and the packets its bulk IN endpoint has not finished. -/
structure Link (P : Platform) where
  /-- The transport. -/
  device : Device P
  /-- Packets handed over, neither completed nor discarded, oldest first. -/
  outstanding : List (List UInt8)

/-- A call to `USBDevIntHandler` with the reset bit set. -/
def resets (P : Platform) : Event → Bool
  | .irq (.devInt bDevStatus) => bDevStatus &&& P.devStatusReset != 0
  | _ => false

/-- The packets still outstanding when the handler of an event runs. -/
def Link.settled (link : Link P) : Event → List (List UInt8)
  | .irq .bulkIn => link.outstanding.tail
  | event => if resets P event then [] else link.outstanding

/-- One call, and what it makes of the packets. -/
def Link.step (link : Link P) (event : Event) : Link P × List Effect :=
  let (device, out) := Firmware.step link.device event
  ({ device, outstanding := link.settled event ++ payloads out }, out)

/-- The link that `VCOM_init` starts. -/
def Link.start (d : Device P) : Link P := { device := vcomInit d, outstanding := [] }

/-- `BulkIn` is called only while a packet is outstanding. -/
def Completes (link : Link P) : Event → Prop
  | .irq .bulkIn => link.outstanding ≠ []
  | _ => True

/-- The condition can be evaluated. -/
instance Completes.decidable (link : Link P) : ∀ event, Decidable (Completes link event)
  | .irq .bulkIn => inferInstanceAs (Decidable (link.outstanding ≠ []))
  | .irq (.bulkOut _) => isTrue trivial
  | .irq .frame => isTrue trivial
  | .irq (.devInt _) => isTrue trivial
  | .putchar _ => isTrue trivial
  | .putwordByte _ _ => isTrue trivial
  | .getchar => isTrue trivial

/-- A call of the main loop neither writes a packet nor touches a flag. -/
theorem step_port (d : Device P) {event : Event} (port : ∀ source, event ≠ .irq source) :
    (step d event).1.fBulkInBusy = d.fBulkInBusy ∧
      (step d event).1.fChainDone = d.fChainDone ∧ payloads (step d event).2 = [] := by
  have put : ∀ c : CInt, (putTx d c).1.fBulkInBusy = d.fBulkInBusy ∧
      (putTx d c).1.fChainDone = d.fChainDone := by
    intro c
    obtain ⟨queue, device, _⟩ := putTx_eq d c
    simp [device]
  cases event with
  | putchar c => exact ⟨(put c).1, (put c).2, rfl⟩
  | putwordByte c place => exact ⟨(put _).1, (put _).2, rfl⟩
  | getchar =>
    obtain ⟨queue, device⟩ := vcomGetchar_frame d
    simp [step, device, payloads, Effect.payload]
  | irq source => exact absurd rfl (port source)

/-- A call of the main loop settles nothing. -/
theorem settled_port (link : Link P) {event : Event} (port : ∀ source, event ≠ .irq source) :
    link.settled event = link.outstanding := by
  cases event with
  | irq source => exact absurd rfl (port source)
  | _ => rfl

/-- An interrupt that is neither a completion nor a reset settles nothing. -/
theorem settled_other (link : Link P) {source : Interrupt} (other : source ≠ .bulkIn)
    (noReset : ∀ bDevStatus, source = .devInt bDevStatus →
      bDevStatus &&& P.devStatusReset = 0) :
    resets P (.irq source) = false ∧ link.settled (.irq source) = link.outstanding := by
  cases source with
  | bulkIn => exact absurd rfl other
  | devInt bDevStatus =>
    have clear : resets P (.irq (.devInt bDevStatus)) = false := by
      simp [resets, noReset bDevStatus rfl]
    exact ⟨clear, by simp [Link.settled, clear]⟩
  | bulkOut read => exact ⟨rfl, rfl⟩
  | frame => exact ⟨rfl, rfl⟩

/-- A bus reset discards every packet. -/
theorem settled_reset (link : Link P) {event : Event} (reset : resets P event = true) :
    link.settled event = [] := by
  unfold Link.settled
  split
  · contradiction
  · simp [reset]

end Olimex2378.Firmware

import Olimex2378.Firmware.Events

/-!
# The receive handler, put by put

`BulkOut` makes its room check once and then stores a packet byte by byte. Here it is a
state machine of these steps, so that a call of the main loop may fall between two of them;
another interrupt may not, for both would run in the one service routine. Without such calls
the steps are `bulkOut`.
-/

namespace Olimex2378.Firmware

open Run

variable {P : Platform}

/-- A device and the place in `BulkOut`, if it is running: the loop index and `iLen`. -/
structure Receiver (P : Platform) where
  /-- The transport. -/
  device : Device P
  /-- `i` and `iLen` of a loop that has not ended. -/
  storing : Option (Nat × Nat)

/-- The steps of the receive side. -/
inductive ReceiverEvent
  /-- `BulkOut` is called: its room check and its read. -/
  | enter (read : Option Packet)
  /-- `BulkOut` tests its loop index, and stores a byte or returns. -/
  | pass
  /-- A call from outside. -/
  | call (event : Event)

/-- One step of the receive side. -/
def Receiver.step (r : Receiver P) : ReceiverEvent → Receiver P × List Effect
  | .enter read =>
    match bulkOutRead r.device bulkOutEp read with
    | (device, out, none) => ({ device, storing := none }, out)
    | (device, out, some iLen) => ({ device, storing := some (0, iLen) }, out)
  | .pass =>
    match r.storing with
    | none => (r, [])
    | some (i, iLen) =>
      if i < iLen then
        match bulkOutStore r.device i with
        | (device, true) => ({ device, storing := some (i + 1, iLen) }, [])
        | (device, false) => ({ device, storing := none }, [.assertFailed])
      else ({ r with storing := none }, [])
  | .call event =>
    let (device, out) := Firmware.step r.device event
    ({ r with device }, out)

/-- The receive side after `VCOM_init`. -/
def Receiver.start (d : Device P) : Receiver P := { device := vcomInit d, storing := none }

/-- No handler is called while `BulkOut` is running. -/
def Receiver.Admits (r : Receiver P) : ReceiverEvent → Prop
  | .enter _ => r.storing = none
  | .call (.irq _) => r.storing = none
  | _ => True

/-- The condition can be evaluated. -/
instance Receiver.Admits.decidable (r : Receiver P) : ∀ event, Decidable (r.Admits event)
  | .enter _ => inferInstanceAs (Decidable (r.storing = none))
  | .pass => isTrue trivial
  | .call (.irq _) => inferInstanceAs (Decidable (r.storing = none))
  | .call (.putchar _) => isTrue trivial
  | .call (.putwordByte _ _) => isTrue trivial
  | .call .getchar => isTrue trivial

/-- Bytes of the packet in hand that are not stored yet. -/
def Receiver.remaining (r : Receiver P) : Nat :=
  match r.storing with
  | none => 0
  | some (i, iLen) => iLen - i

/-- Passes after the last one change nothing. -/
theorem passes_returned (d : Device P) (count : Nat) :
    exec Receiver.step ⟨d, none⟩ (List.replicate count .pass) = ⟨d, none⟩ ∧
      effects (trace Receiver.step ⟨d, none⟩ (List.replicate count .pass)) = [] := by
  induction count with
  | zero => exact ⟨rfl, rfl⟩
  | succ count ih => exact ih

/-- Enough passes are the loop of `BulkOut`. -/
theorem passes_loop (d : Device P) (i left count : Nat) (enough : left < count) :
    exec Receiver.step ⟨d, some (i, i + left)⟩ (List.replicate count .pass) =
        ⟨(bulkOutLoop d i left).1, none⟩ ∧
      effects (trace Receiver.step ⟨d, some (i, i + left)⟩ (List.replicate count .pass)) =
        (bulkOutLoop d i left).2 := by
  induction left generalizing d i count with
  | zero =>
    obtain ⟨count, rfl⟩ := Nat.exists_eq_add_of_lt enough
    rw [Nat.zero_add, List.replicate_succ, exec_cons, trace_cons, effects_cons]
    have ended : Receiver.step ⟨d, some (i, i + 0)⟩ .pass = (⟨d, none⟩, []) := by
      simp [Receiver.step]
    rw [ended]
    exact passes_returned d count
  | succ left ih =>
    obtain ⟨count, rfl⟩ : ∃ more, count = more + 1 := ⟨count - 1, by omega⟩
    rw [List.replicate_succ, exec_cons, trace_cons, effects_cons]
    have inside : i < i + (left + 1) := by omega
    rcases store : bulkOutStore d i with ⟨next, _ | _⟩
    · have failed : Receiver.step ⟨d, some (i, i + (left + 1))⟩ .pass =
          (⟨next, none⟩, [.assertFailed]) := by
        simp [Receiver.step, store]
      obtain ⟨device, out⟩ := passes_returned next count
      rw [failed, device, out]
      simp [bulkOutLoop, store]
    · have stored : Receiver.step ⟨d, some (i, i + (left + 1))⟩ .pass =
          (⟨next, some (i + 1, i + 1 + left)⟩, []) := by
        simp [Receiver.step, store, Nat.add_assoc, Nat.add_comm 1 left]
      obtain ⟨device, out⟩ := ih next (i + 1) count (by omega)
      rw [stored, device, out]
      simp [bulkOutLoop, store]

/-- `BulkOut` with nothing between its steps is the handler: the entry and at most 65 tests
of the loop index. -/
theorem bulkOut_eq_steps (d : Device P) (read : Option Packet) :
    exec Receiver.step ⟨d, none⟩ (.enter read :: List.replicate 65 .pass) =
        ⟨(bulkOut d bulkOutEp read).1, none⟩ ∧
      effects (trace Receiver.step ⟨d, none⟩ (.enter read :: List.replicate 65 .pass)) =
        (bulkOut d bulkOutEp read).2 := by
  rw [exec_cons, trace_cons, effects_cons]
  by_cases declined : P.fifo.free d.rxfifo < maxPacketSize
  · have entered : Receiver.step ⟨d, none⟩ (.enter read) = (⟨d, none⟩, []) := by
      simp [Receiver.step, bulkOutRead, declined]
    obtain ⟨device, out⟩ := passes_returned d 65
    rw [entered, device, out, bulkOut_declines _ _ declined]
    exact ⟨rfl, rfl⟩
  · have entered : Receiver.step ⟨d, none⟩ (.enter read) =
        (⟨{ d with abBulkBuf := (usbHwEPRead d.abBulkBuf read).1 },
          some (0, 0 + (usbHwEPRead d.abBulkBuf read).2.toNat)⟩, [.epRead bulkOutEp read]) := by
      simp [Receiver.step, bulkOutRead, declined]
    have short : (usbHwEPRead d.abBulkBuf read).2.toNat < 65 := by
      have fits := readBytes_length read
      rw [usbHwEPRead_length]
      exact Nat.lt_succ_of_le fits
    obtain ⟨device, out⟩ :=
      passes_loop { d with abBulkBuf := (usbHwEPRead d.abBulkBuf read).1 } 0 _ 65 short
    rw [entered, device, out]
    simp [bulkOut, bulkOutRead, declined]

end Olimex2378.Firmware

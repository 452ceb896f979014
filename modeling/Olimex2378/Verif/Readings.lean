import Olimex2378.Basis.Masks
import Olimex2378.Firmware.Scp1000

/-!
# What the readings depend on

The words that a register delivers have undefined bits above their data. The masks take them
out of every reading but that of the temperature: there the upper byte of the second word falls
on the high byte of the result. A bit of it is seen unless the high byte has that bit set.
-/

namespace Olimex2378.Verif.Readings

open Firmware.Scp1000 Masks

/-- `scp_read_data8` returns the data bits of its word. -/
theorem scpReadData8_value (board : Board) :
    (scpReadData8 board).1 = ((board.words 0).setWidth 3).setWidth 16 :=
  masked_eq (board.words 0) 3

/-- `scp_read_status` returns the data bits of its word. -/
theorem scpReadStatus_value (board : Board) :
    (scpReadStatus board).1 = ((board.words 0).setWidth 8).setWidth 16 :=
  masked_eq (board.words 0) 8

/-- Two words, shifted together and cut to 16 bits. -/
def joined (high low : BitVec 16) : BitVec 16 :=
  ((high.setWidth 32 <<< 8) ||| low.setWidth 32).setWidth 16

/-- What the joined words are: the upper byte of the lower word falls on the high byte. -/
theorem joined_row (high low : BitVec 16) :
    joined high low = (high.setWidth 8 ||| (low >>> 8).setWidth 8) ++ low.setWidth 8 := by
  have fits : 8 + 8 ≤ 32 := by decide
  exact joined_eq high low fits

/-- Masked words give their data bits in a row. -/
theorem joined_masked (high low : BitVec 16) :
    joined (high &&& 0xff) (low &&& 0xff) = high.setWidth 8 ++ low.setWidth 8 := by
  have highData : high &&& 0xff = (high.setWidth 8).setWidth 16 := masked_eq high 8
  have lowData : low &&& 0xff = (low.setWidth 8).setWidth 16 := masked_eq low 8
  have data : ∀ word : BitVec 16, ((word.setWidth 8).setWidth 16).setWidth 8 = word.setWidth 8 := by
    intro word
    rw [BitVec.setWidth_setWidth (by decide), BitVec.setWidth_eq]
  have clear : (((low.setWidth 8).setWidth 16) >>> 8).setWidth 8 = 0#8 :=
    extended_upper (low.setWidth 8) 16
  rw [highData, lowData, joined_row, clear, data, data, BitVec.or_zero]

/-- `scp_read_data16` returns the data bits of its words, the first one's above. -/
theorem scpReadData16_value (board : Board) :
    (scpReadData16 board).1 = (board.words 0).setWidth 8 ++ (board.words 1).setWidth 8 :=
  joined_masked (board.words 0) (board.words 1)

/-- `scp_read_temperature` returns its words joined as they are. -/
theorem scpReadTemperature_value (board : Board) :
    (scpReadTemperature board).1 = joined (board.words 0) (board.words 1) := rfl

/-- The pressure that `scp_task` assembles from the words of its readings. -/
theorem scpTask_pres (board : Board) :
    (scpTask board).1.pres =
      ((board.words 2).setWidth 3 ++
        ((board.words 3).setWidth 8 ++ (board.words 4).setWidth 8)).setWidth 32 := by
  have assembled : (scpTask board).1.pres =
      ((board.words 2 &&& 0x7).setWidth 32 <<< 16) |||
        (joined (board.words 3 &&& 0xff) (board.words 4 &&& 0xff)).setWidth 32 := rfl
  have msb : board.words 2 &&& 0x7 = ((board.words 2).setWidth 3).setWidth 16 :=
    masked_eq (board.words 2) 3
  rw [assembled, msb, joined_masked, BitVec.setWidth_setWidth (by decide)]
  exact BitVec.setWidth_append_eq_shiftLeft_setWidth_or.symm

/-- The temperature of `scp_task` is read from the last two words. -/
theorem scpTask_temp (board : Board) :
    (scpTask board).1.temp = joined (board.words 5) (board.words 6) := rfl

/-- The bits above the data of the lower word that fall on a zero of the high byte. -/
def stray (high low : BitVec 16) : BitVec 8 := (low >>> 8).setWidth 8 &&& ~~~high.setWidth 8

/-- Words with the same data are joined to the same value exactly when the same bits are
stray. -/
theorem joined_eq_iff {high low high' low' : BitVec 16}
    (highData : high.setWidth 8 = high'.setWidth 8) (lowData : low.setWidth 8 = low'.setWidth 8) :
    joined high low = joined high' low' ↔ stray high low = stray high' low' := by
  rw [joined_row, joined_row, ← lowData, ← highData, BitVec.append_left_inj, or_eq_or_iff, stray,
    stray, highData]

/-- Words are joined to their data in a row exactly when no bit is stray. -/
theorem joined_eq_row_iff (high low : BitVec 16) :
    joined high low = high.setWidth 8 ++ low.setWidth 8 ↔ stray high low = 0 := by
  have hidden : high.setWidth 8 ||| (low >>> 8).setWidth 8 = high.setWidth 8 ||| 0#8 ↔
      stray high low = 0#8 &&& ~~~high.setWidth 8 := or_eq_or_iff _ _ _
  rw [BitVec.or_zero, BitVec.zero_and] at hidden
  rw [joined_row, BitVec.append_left_inj]
  exact hidden

/-- The two readings of two words differ exactly when a bit is stray: the temperature is what
`scp_read_data16` would make of the same words as long as none is. -/
theorem temperature_eq_data16_iff (board : Board) :
    (scpReadTemperature board).1 = (scpReadData16 board).1 ↔
      stray (board.words 0) (board.words 1) = 0 := by
  rw [scpReadTemperature_value, scpReadData16_value, joined_eq_row_iff]

/-- The series to come of two boards have the same data, where the words to come have some
numbers of data bits. -/
def SameData (widths : List Nat) (left right : Board) : Prop :=
  ∀ place ∈ widths.zipIdx,
    (left.words place.2).setWidth place.1 = (right.words place.2).setWidth place.1

/-- The condition can be evaluated. -/
instance (widths : List Nat) (left right : Board) : Decidable (SameData widths left right) :=
  inferInstanceAs (Decidable (∀ place ∈ widths.zipIdx,
    (left.words place.2).setWidth place.1 = (right.words place.2).setWidth place.1))

/-- The data bits of the words of `scp_task`: the revision, the status, the pressure in three
words and the temperature in two. -/
def taskWidths : List Nat := [8, 8, 3, 8, 8, 8, 8]

/-- A pressure and a temperature are delivered high byte first in the data bits of the words of
`scp_task`. -/
structure Delivers (board : Board) (pressure : BitVec 19) (temperature : BitVec 16) : Prop where
  /-- The pressure. -/
  pressure : (board.words 2).setWidth 3 ++ ((board.words 3).setWidth 8 ++
    (board.words 4).setWidth 8) = pressure
  /-- The temperature. -/
  temperature : (board.words 5).setWidth 8 ++ (board.words 6).setWidth 8 = temperature

/-- What the readings depend on. For every two boards whose words have the same data bits:
`scp_read_data8`, `scp_read_data16` and `scp_read_status` return the same, and so does the
pressure of `scp_task`, while `scp_read_temperature` returns the same, and `scp_task` computes
the same temperature, exactly when the same bits of the upper byte of its second word are
stray. For every content that is delivered, the pressure is the content, and the temperature is
exactly when no bit is stray. -/
theorem readings_of_data (left right : Board) :
    (SameData [3] left right → (scpReadData8 left).1 = (scpReadData8 right).1) ∧
      (SameData [8, 8] left right → (scpReadData16 left).1 = (scpReadData16 right).1) ∧
      (SameData [8] left right → (scpReadStatus left).1 = (scpReadStatus right).1) ∧
      (SameData [8, 8] left right →
        ((scpReadTemperature left).1 = (scpReadTemperature right).1 ↔
          stray (left.words 0) (left.words 1) = stray (right.words 0) (right.words 1))) ∧
      (SameData taskWidths left right →
        (scpTask left).1.pres = (scpTask right).1.pres ∧
          ((scpTask left).1.temp = (scpTask right).1.temp ↔
            stray (left.words 5) (left.words 6) = stray (right.words 5) (right.words 6))) ∧
      (∀ temperature : BitVec 16,
        (left.words 0).setWidth 8 ++ (left.words 1).setWidth 8 = temperature →
        ((scpReadTemperature left).1 = temperature ↔
          stray (left.words 0) (left.words 1) = 0)) ∧
      ∀ pressure temperature, Delivers left pressure temperature →
        (scpTask left).1.pres = pressure.setWidth 32 ∧
          ((scpTask left).1.temp = temperature ↔ stray (left.words 5) (left.words 6) = 0) := by
  refine ⟨?_, ?_, ?_, ?_, ?_, ?_, ?_⟩
  · intro same
    rw [scpReadData8_value, scpReadData8_value, same (3, 0) (by decide)]
  · intro same
    rw [scpReadData16_value, scpReadData16_value, same (8, 0) (by decide), same (8, 1) (by decide)]
  · intro same
    rw [scpReadStatus_value, scpReadStatus_value, same (8, 0) (by decide)]
  · intro same
    rw [scpReadTemperature_value, scpReadTemperature_value]
    exact joined_eq_iff (same (8, 0) (by decide)) (same (8, 1) (by decide))
  · intro same
    constructor
    · rw [scpTask_pres, scpTask_pres, same (3, 2) (by decide), same (8, 3) (by decide),
        same (8, 4) (by decide)]
    · rw [scpTask_temp, scpTask_temp]
      exact joined_eq_iff (same (8, 5) (by decide)) (same (8, 6) (by decide))
  · intro temperature content
    rw [← content, scpReadTemperature_value]
    exact joined_eq_row_iff (left.words 0) (left.words 1)
  · intro pressure temperature content
    constructor
    · rw [scpTask_pres, content.pressure]
    · rw [← content.temperature, scpTask_temp]
      exact joined_eq_row_iff (left.words 5) (left.words 6)

/-- A content delivered with other bits set above its data, none of them stray. -/
theorem readings_of_data_delivered :
    let board : Board :=
      { words := fun i => [0, 0, 0xFFF9, 0xAB12, 0xCD34, 0x7F01, 0x012C].getD i 0, actions := [] }
    (scpTask board).1.pres = 0x11234 ∧ (scpTask board).1.temp = 0x012C := by
  intro board
  have readings := (readings_of_data board board).2.2.2.2.2.2 0x11234 0x012C
    ⟨by decide, by decide⟩
  exact ⟨readings.1, readings.2.2 (by decide)⟩

/-- Two series that differ in a bit above the data of the words read second. -/
theorem temperature_of_stray_bit :
    let left : Board := { words := fun _ => 0, actions := [] }
    let right : Board :=
      { words := fun i => if i = 1 ∨ i = 6 then 0x0100 else 0, actions := [] }
    SameData [8, 8] left right ∧
      (scpReadTemperature left).1 ≠ (scpReadTemperature right).1 ∧
      SameData taskWidths left right ∧ (scpTask left).1.temp ≠ (scpTask right).1.temp ∧
      (right.words 0).setWidth 8 ++ (right.words 1).setWidth 8 = (0 : BitVec 16) ∧
      (scpReadTemperature right).1 ≠ 0 := by
  decide

/-- The actions on the bus. -/
def onBus : Action → Bool
  | .sselLow | .sselHigh | .spiTransact _ | .spiWaitSpif | .readS0spdr => true
  | .putstring _ | .printf _ _ | .waitticks _ => false

/-- What a program does on the bus, whatever words it reads. -/
def Bus {α : Type} (program : StateM Board α) (actions : List Action) : Prop :=
  ∀ board, (program board).2.actions.filter onBus = board.actions.filter onBus ++ actions

/-- One program after another, the second one for every result of the first. -/
theorem Bus.bind {α β : Type} {first : StateM Board α} {second : α → StateM Board β}
    {early late : List Action} (before : Bus first early) (after : ∀ value, Bus (second value) late) :
    Bus (first >>= second) (early ++ late) := by
  intro board
  show (second (first board).1 (first board).2).2.actions.filter onBus = _
  rw [after, before, List.append_assoc]

/-- A result alone does nothing. -/
theorem Bus.pure {α : Type} (value : α) : Bus (Pure.pure value) [] := by
  intro board
  exact (List.append_nil _).symm

/-- One action. -/
theorem act_bus (action : Action) : Bus (act action) ([action].filter onBus) := by
  intro board
  show (board.actions ++ [action]).filter onBus = _
  rw [List.filter_append]

/-- One transaction. -/
theorem transaction_bus (data : CInt) :
    Bus (transaction data) [.spiTransact data, .spiWaitSpif, .readS0spdr] := by
  have read : Bus s0spdr [.readS0spdr] := by
    intro board
    show (board.actions ++ [Action.readS0spdr]).filter onBus = _
    rw [List.filter_append]
    rfl
  exact (act_bus _).bind fun _ => (act_bus _).bind fun _ => read

/-- A register of one word. -/
theorem readRegister_bus (data : CInt) (mask : BitVec 16) :
    Bus (readRegister data mask)
      [.sselLow, .spiTransact data, .spiWaitSpif, .readS0spdr, .sselHigh] :=
  (act_bus _).bind fun _ => (transaction_bus data).bind fun _ =>
    (act_bus _).bind fun _ => .pure _

/-- A register of two words. -/
def twoWords (data : CInt) : List Action :=
  [.sselLow, .spiTransact data, .spiWaitSpif, .readS0spdr, .spiTransact data, .spiWaitSpif,
    .readS0spdr, .sselHigh]

/-- What `scp_read_data16` does on the bus. -/
theorem scpReadData16_bus : Bus scpReadData16 (twoWords 0x8000) :=
  (act_bus _).bind fun _ => (transaction_bus 0x8000).bind fun _ =>
    (transaction_bus 0x8000).bind fun _ => (act_bus _).bind fun _ => .pure _

/-- What `scp_read_temperature` does on the bus. -/
theorem scpReadTemperature_bus : Bus scpReadTemperature (twoWords 0x8400) :=
  (act_bus _).bind fun _ => (transaction_bus 0x8400).bind fun _ =>
    (transaction_bus 0x8400).bind fun _ => (act_bus _).bind fun _ => .pure _

/-- What `scp_task` does on the bus is the same for every series of words: one selection for
each reading. -/
theorem scpTask_bus :
    Bus scpTask
      ([.sselLow, .spiTransact 0, .spiWaitSpif, .readS0spdr, .sselHigh] ++
        [.sselLow, .spiTransact 0x1C00, .spiWaitSpif, .readS0spdr, .sselHigh] ++
        [.sselLow, .spiTransact 0x7C00, .spiWaitSpif, .readS0spdr, .sselHigh] ++
        twoWords 0x8000 ++ twoWords 0x8400) :=
  (act_bus _).bind fun _ => (readRegister_bus 0 0xf).bind fun _ =>
    (act_bus _).bind fun _ => (readRegister_bus 0x1C00 0xff).bind fun _ =>
    (act_bus _).bind fun _ => (readRegister_bus 0x7C00 0x7).bind fun _ =>
    scpReadData16_bus.bind fun _ => (act_bus _).bind fun _ =>
    scpReadTemperature_bus.bind fun _ => (act_bus _).bind fun _ =>
    (act_bus _).bind fun _ => .pure _

end Olimex2378.Verif.Readings

/-!
# C integers and characters

The type `int` of the compilers that build both programs, and the conversions between an
`int` and a byte that C makes where one is used for the other.
-/

namespace Olimex2378

/-- C `int`, 32 bits in two's complement. -/
abbrev CInt := BitVec 32

/-- `EOF`. -/
def eof : CInt := -1

/-- A character constant. -/
def charConst (char : Char) : CInt := BitVec.ofNat 32 char.toNat

/-- An `int` passed for a `uint8_t` keeps its low eight bits. -/
def toByte (c : CInt) : UInt8 := ⟨c.setWidth 8⟩

/-- A `uint8_t` read as an `int`. -/
def ofByte (byte : UInt8) : CInt := byte.toBitVec.setWidth 32

/-- A byte survives its reading as an `int`. -/
@[simp] theorem toByte_ofByte (byte : UInt8) : toByte (ofByte byte) = byte := by
  simp [toByte, ofByte]

/-- A byte read as an `int` is the number that the byte is. -/
theorem ofByte_toNat (byte : UInt8) : (ofByte byte).toNat = byte.toNat := by
  have bound := byte.toNat_lt
  rw [ofByte, BitVec.toNat_setWidth, UInt8.toNat_toBitVec, Nat.mod_eq_of_lt (by omega)]

/-- No byte reads as `EOF`. -/
theorem ofByte_ne_eof (byte : UInt8) : ofByte byte ≠ eof := by
  intro same
  have values := congrArg BitVec.toNat same
  have large : eof.toNat = 4294967295 := rfl
  have small := byte.toNat_lt
  rw [ofByte_toNat] at values
  omega

/-- Bytes that read as the same `int` are the same. -/
theorem ofByte_inj {left right : UInt8} : ofByte left = ofByte right ↔ left = right := by
  constructor
  · intro same
    have bytes := congrArg toByte same
    simpa only [toByte_ofByte] using bytes
  · intro same
    rw [same]

/-- A byte read as an `int` is not negative. -/
theorem ofByte_toInt (byte : UInt8) : (ofByte byte).toInt = byte.toNat := by
  have bound := byte.toNat_lt
  rw [BitVec.toInt_eq_toNat_cond, ofByte_toNat, if_pos (by omega)]

end Olimex2378

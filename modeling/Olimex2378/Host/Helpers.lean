import Olimex2378.Basis.CInt
import Olimex2378.Basis.CString

/-!
# Helpers of the host

What `error` and `binaryprint` print, the helpers that take the length of a word in bits, and
the reversal of a string in place. `fast_log2` searches for the leading one in halves, widest
half first; `numbits_in_int` counts leading zeros and ends the program for zero. An
`unsigned long int` has 64 bits and an `unsigned int` has 32.
-/

namespace Olimex2378.Host

/-- `error`: what it prints on `stderr`. -/
def error (message : String) : List UInt8 := chars ("=> --ERROR-- " ++ message ++ "\n")

/-- The loop of `binaryprint` from a pass, with some passes left: the characters printed. -/
def binaryprintLoop (b mask : CInt) (i : Nat) : (left : Nat) → List Char
  | 0 => []
  | left + 1 =>
    let check := (b <<< i) &&& mask
    (if i % 4 = 0 then [' '] else []) ++ (if check = mask then ['1'] else ['0']) ++
      binaryprintLoop b mask (i + 1) left

/-- `binaryprint`, where `sizeof(int)*8` is 32. -/
def binaryprint (b : CInt) : List Char :=
  let shift := 32
  let mask : CInt := 0x1 <<< (shift - 1)
  binaryprintLoop b mask 0 shift

/-- The masks of `fast_log2`: bits 1, 2 to 3, 4 to 7 and so on. The last constant is read back
from a `long long int` with the same 64 bits. -/
def b : Vector (BitVec 64) 6 := #v[0x2, 0xC, 0xF0, 0xFF00, 0xFFFF0000, 0xFFFFFFFF00000000]

/-- The shifts of `fast_log2`, an `unsigned long int` each. -/
def S : Vector (BitVec 64) 6 := #v[1, 2, 4, 8, 16, 32]

/-- The loop of `fast_log2` with some passes left; the next pass uses the entry below that
number, so the first one uses entry 5. -/
def fastLog2Loop (x : BitVec 64) (r : BitVec 32) : (passes : Nat) → passes ≤ 6 → BitVec 32
  | 0, _ => r
  | i + 1, inside =>
    if x &&& b[i] ≠ 0 then
      fastLog2Loop (x >>> S[i]) ((r.setWidth 64 ||| S[i]).setWidth 32) i (Nat.le_of_lt inside)
    else fastLog2Loop x r i (Nat.le_of_lt inside)

/-- `fast_log2`. -/
def fastLog2 (x : BitVec 64) : BitVec 32 := fastLog2Loop x 0 6 (Nat.le_refl 6)

/-- `__builtin_clzll` for a word that is not zero. -/
def builtinClzll (x : BitVec 64) : BitVec 32 := x.clz.setWidth 32

/-- `numbits_in_int`: a number, or the error message with which the program exits. -/
def numbitsInInt (xl : BitVec 64) : Except String (BitVec 32) :=
  if xl = 0 then .error "ceil_log2(0) doesn't exist"
  else
    let xll := xl &&& 0xFFFFFFFFFFFFFFFF
    let firstbit := builtinClzll xll
    .ok (64 - firstbit)

/-- `util_strreverse` on the array that both pointers point into. -/
def utilStrreverse {size : Nat} (buffer : Vector UInt8 size) (beginPtr endPtr : Nat)
    (inside : beginPtr < size ∧ endPtr < size) : Vector UInt8 size :=
  if more : endPtr > beginPtr then
    let aux := buffer[endPtr]
    let buffer := buffer.set endPtr buffer[beginPtr]
    let buffer := buffer.set beginPtr aux
    utilStrreverse buffer (beginPtr + 1) (endPtr - 1) ⟨by omega, by omega⟩
  else buffer
termination_by endPtr - beginPtr

end Olimex2378.Host

import Mathlib.Data.Fintype.Basic
import Mathlib.Tactic.FinCases
import Mathlib.Tactic.IntervalCases
import Olimex2378.Firmware.Vcom

/-!
# Words on the wire

`VCOM_putword` of `datapath-test.c` sends an `int` as four bytes, low byte first. The masks
are `int` constants and the shift of a masked `int` is arithmetic, so the top byte of a
negative word reaches `fifo_put` with the sign extended over it; only its low eight bits are
kept. The four puts are separate calls: a queue that fills between them takes a part of the
word, and the function returns 0 in every case.
-/

namespace Olimex2378.Firmware

open Bytes

variable {P : Platform}

/-- The argument of each `fifo_put` of `VCOM_putword(c)`, in the order of the calls. -/
def putwordArg (c : CInt) : Fin 4 → CInt
  | 0 => c &&& 0xff
  | 1 => (c &&& (0xff <<< 8)).sshiftRight 8
  | 2 => (c &&& (0xff <<< 16)).sshiftRight 16
  | 3 => (c &&& (0xff <<< 24)).sshiftRight 24

/-- The place of the byte that is put first. -/
def firstPlace : Fin 4 := 0

/-- `VCOM_putword`, with nothing between its puts. -/
def vcomPutword (d : Device P) (c : CInt) : Device P × CInt :=
  let (d, r) := putTx d (putwordArg c 0)
  if r then
    let (d, r) := putTx d (putwordArg c 1)
    if r then
      let (d, r) := putTx d (putwordArg c 2)
      if r then ((putTx d (putwordArg c 3)).1, 0) else (d, 0)
    else (d, 0)
  else (d, 0)

/-- The bytes that `VCOM_putword(c)` puts. -/
def wordBytes (c : CInt) : List UInt8 :=
  (List.finRange 4).map fun place => toByte (putwordArg c place)

/-- A word is four bytes. -/
@[simp] theorem wordBytes_length (c : CInt) : (wordBytes c).length = 4 := by simp [wordBytes]

/-- Masking, shifting and narrowing a word leaves the byte at the place of the mask, for the
top byte too, where the shift extends the sign. -/
theorem toByte_putwordArg (c : CInt) (place : Fin 4) :
    (toByte (putwordArg c place)).toNat = c.toNat / 256 ^ place.val % 256 := by
  have bits : (toByte (putwordArg c place)).toBitVec = c.extractLsb' (8 * place.val) 8 := by
    apply BitVec.eq_of_getLsbD_eq
    intro i inside
    fin_cases place <;> interval_cases i <;>
      simp [toByte, putwordArg, BitVec.getElem_sshiftRight]
  have value := congrArg BitVec.toNat bits
  rw [UInt8.toNat_toBitVec, BitVec.extractLsb'_toNat, Nat.shiftRight_eq_div_pow, pow_mul] at value
  exact value

/-- The bytes of a word encode it, low byte first. -/
theorem leValue_wordBytes (c : CInt) : leValue (wordBytes c) = c.toNat := by
  have bound := c.isLt
  have byte (place : Fin 4) := toByte_putwordArg c place
  have bytes : wordBytes c = [toByte (putwordArg c 0), toByte (putwordArg c 1),
      toByte (putwordArg c 2), toByte (putwordArg c 3)] := rfl
  rw [bytes]
  simp only [leValue_cons, leValue_nil, byte, Fin.val_zero, Fin.val_one, Fin.val_two,
    show ((3 : Fin 4) : Nat) = 3 from rfl]
  omega

/-- Put each of some arguments into `txfifo`, up to the first that is refused. -/
def putEach (d : Device P) : List CInt → Device P
  | [] => d
  | c :: rest =>
    match putTx d c with
    | (d, true) => putEach d rest
    | (d, false) => d

/-- `VCOM_putword` puts its four arguments up to the first that is refused. -/
theorem vcomPutword_eq (d : Device P) (c : CInt) :
    vcomPutword d c = (putEach d ((List.finRange 4).map (putwordArg c)), 0) := by
  have args : (List.finRange 4).map (putwordArg c) =
      [putwordArg c 0, putwordArg c 1, putwordArg c 2, putwordArg c 3] := rfl
  rw [args]
  rcases first : putTx d (putwordArg c 0) with ⟨d₁, _ | _⟩
  · simp [vcomPutword, putEach, first]
  rcases second : putTx d₁ (putwordArg c 1) with ⟨d₂, _ | _⟩
  · simp [vcomPutword, putEach, first, second]
  rcases third : putTx d₂ (putwordArg c 2) with ⟨d₃, _ | _⟩
  · simp [vcomPutword, putEach, first, second, third]
  rcases fourth : putTx d₃ (putwordArg c 3) with ⟨d₄, _ | _⟩ <;>
    simp [vcomPutword, putEach, first, second, third, fourth]

/-- Puts that stop at the first refusal add the bytes there is room for. -/
theorem putEach_items (d : Device P) (args : List CInt) :
    ∃ queue, putEach d args = { d with txfifo := queue } ∧
      P.fifo.items queue = P.fifo.items d.txfifo ++
        (args.map toByte).take (P.fifo.capacity - (P.fifo.items d.txfifo).length) := by
  induction args generalizing d with
  | nil => exact ⟨d.txfifo, rfl, by simp⟩
  | cons c rest ih =>
    by_cases room : (P.fifo.items d.txfifo).length < P.fifo.capacity
    · obtain ⟨next, put, items⟩ := P.fifo.put_accepts (toByte c) room
      obtain ⟨queue, device, final⟩ := ih { d with txfifo := next }
      refine ⟨queue, by simpa [putEach, putTx, put] using device, ?_⟩
      have count : P.fifo.capacity - (P.fifo.items d.txfifo).length =
          P.fifo.capacity - (P.fifo.items d.txfifo ++ [toByte c]).length + 1 := by
        rw [List.length_append, List.length_singleton]
        omega
      rw [final, items, count, List.map_cons, List.take_succ_cons, List.append_assoc,
        List.singleton_append]
    · have refused := (P.fifo.put_refuses d.txfifo (toByte c)).mpr (Nat.not_lt.mp room)
      refine ⟨d.txfifo, by simp [putEach, putTx, refused], ?_⟩
      rw [Nat.sub_eq_zero_of_le (Nat.not_lt.mp room), List.take_zero, List.append_nil]

/-- `VCOM_putword` takes as many bytes of its word as `txfifo` has room for, and so a part
of the word when it has room for some of them only. -/
theorem vcomPutword_items (d : Device P) (c : CInt) :
    ∃ queue, vcomPutword d c = ({ d with txfifo := queue }, 0) ∧
      P.fifo.items queue = P.fifo.items d.txfifo ++
        (wordBytes c).take (P.fifo.capacity - (P.fifo.items d.txfifo).length) := by
  obtain ⟨queue, device, items⟩ := putEach_items d ((List.finRange 4).map (putwordArg c))
  refine ⟨queue, by rw [vcomPutword_eq, device], ?_⟩
  rw [items, List.map_map]
  rfl

end Olimex2378.Firmware

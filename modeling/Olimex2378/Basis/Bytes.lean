import Mathlib.Data.Nat.Digits.Defs
import Mathlib.Tactic.Ring

/-!
# Bytes in memory

A fixed buffer whose front is overwritten, the little-endian reading of a byte list, and the
cut of a list into groups of one size. A short write leaves the rest of the buffer as it
was; a cut keeps a shorter last group, so a list that is no whole number of groups is not
read as if it were.
-/

namespace Olimex2378.Bytes

section Buffer

variable {α : Type*} {size : Nat}

/-- The buffer after its front has been overwritten; what does not fit is dropped. -/
def overwrite (buffer : Vector α size) (front : List α) : Vector α size :=
  ⟨(front.take size ++ buffer.toList.drop front.length).toArray, by simp; omega⟩

/-- An overwritten buffer holds the new front and the old rest. -/
theorem overwrite_toList (buffer : Vector α size) {front : List α}
    (fits : front.length ≤ size) :
    (overwrite buffer front).toList = front ++ buffer.toList.drop front.length := by
  simp [overwrite, Vector.toList, List.take_of_length_le fits]

/-- The front of an overwritten buffer is what was written. -/
theorem overwrite_take (buffer : Vector α size) {front : List α} (fits : front.length ≤ size) :
    (overwrite buffer front).toList.take front.length = front := by
  rw [overwrite_toList buffer fits, List.take_left]

/-- The first cell of an overwritten buffer is the first item written. -/
theorem overwrite_first [Inhabited α] (buffer : Vector α size) {item : α} {rest : List α}
    (fits : (item :: rest).length ≤ size) : (overwrite buffer (item :: rest))[0]! = item := by
  have inside : 0 < size := Nat.lt_of_lt_of_le (Nat.succ_pos _) fits
  have cells := overwrite_toList buffer fits
  rw [getElem!_pos _ 0 inside, ← Vector.getElem_toList]
  · simp only [cells, List.cons_append, List.getElem_cons_zero]
  · rw [Vector.length_toList]
    exact inside

/-- A cell written at the end of a front is the next item of the front. -/
theorem take_succ_set (buffer : Vector α size) (index : Nat) (item : α) (inside : index < size) :
    (buffer.setIfInBounds index item).toList.take (index + 1) =
      buffer.toList.take index ++ [item] := by
  have length : index < buffer.toList.length := by simpa using inside
  have cells : (buffer.setIfInBounds index item).toList = buffer.toList.set index item := by
    simp [Vector.toList]
  rw [cells, List.take_set, List.set_eq_take_append_cons_drop]
  have room : index < (buffer.toList.take (index + 1)).length := by
    rw [List.length_take]
    omega
  rw [if_pos room, List.take_take, List.drop_take]
  simp

end Buffer

/-- The number that a byte list encodes, low byte first. -/
def leValue (bytes : List UInt8) : Nat := Nat.ofDigits 256 (bytes.map UInt8.toNat)

/-- No byte encodes zero. -/
@[simp] theorem leValue_nil : leValue [] = 0 := rfl

/-- The first byte is the lowest digit. -/
@[simp] theorem leValue_cons (byte : UInt8) (rest : List UInt8) :
    leValue (byte :: rest) = byte.toNat + 256 * leValue rest := by
  simp [leValue, Nat.ofDigits_cons]

/-- A later list counts from the place where the earlier one ends. -/
theorem leValue_append (low high : List UInt8) :
    leValue (low ++ high) = leValue low + 256 ^ low.length * leValue high := by
  simp [leValue, Nat.ofDigits_append]

/-- Zero bytes at the high end do not count. -/
theorem leValue_append_zeros (bytes : List UInt8) (count : Nat) :
    leValue (bytes ++ List.replicate count 0) = leValue bytes := by
  simp [leValue, Nat.ofDigits_append_replicate_zero]

/-- A byte list with a nonzero byte at some place encodes at least the weight of the place. -/
theorem le_leValue_of_nonzero {low high : List UInt8} {byte : UInt8} (nonzero : byte ≠ 0) :
    256 ^ low.length ≤ leValue (low ++ byte :: high) := by
  have positive : 0 < byte.toNat := by
    rcases Nat.eq_zero_or_pos byte.toNat with zero | positive
    · exact absurd (UInt8.toNat_inj.mp zero) nonzero
    · exact positive
  rw [leValue_append, leValue_cons]
  exact Nat.le_add_left_of_le (Nat.le_mul_of_pos_right _ (by omega))

/-- A byte list encodes zero exactly when all its bytes are zero. -/
theorem leValue_eq_zero_iff (bytes : List UInt8) :
    leValue bytes = 0 ↔ ∀ byte ∈ bytes, byte = 0 := by
  induction bytes with
  | nil => simp
  | cons byte rest ih =>
    have first : byte.toNat = 0 ↔ byte = 0 := by
      rw [← UInt8.toNat_inj]
      rfl
    rw [leValue_cons, Nat.add_eq_zero_iff, Nat.mul_eq_zero, first, ih, List.forall_mem_cons]
    simp

/-- The lowest digits of a number as bytes, low byte first. -/
def leBytes : Nat → Nat → List UInt8
  | 0, _ => []
  | count + 1, value => UInt8.ofNat value :: leBytes count (value / 256)

/-- The bytes of a number are as many as asked for. -/
@[simp] theorem leBytes_length (count value : Nat) : (leBytes count value).length = count := by
  induction count generalizing value with
  | zero => rfl
  | succ count ih => rw [leBytes, List.length_cons, ih]

/-- The number that some bytes encode has these bytes. -/
theorem leBytes_leValue (bytes : List UInt8) : leBytes bytes.length (leValue bytes) = bytes := by
  induction bytes with
  | nil => rfl
  | cons byte rest ih =>
    have bound := byte.toNat_lt
    have high : (byte.toNat + 256 * leValue rest) / 256 = leValue rest := by omega
    have low : UInt8.ofNat (byte.toNat + 256 * leValue rest) = byte := by
      apply UInt8.toNat_inj.1
      rw [UInt8.toNat_ofNat']
      omega
    rw [List.length_cons, leValue_cons, leBytes, high, low, ih]

/-- The bytes of a number encode it when it is below the weight of the next place. -/
theorem leValue_leBytes {count value : Nat} (small : value < 256 ^ count) :
    leValue (leBytes count value) = value := by
  induction count generalizing value with
  | zero => exact (Nat.lt_one_iff.1 small).symm
  | succ count ih =>
    rw [Nat.pow_succ] at small
    have high := ih (show value / 256 < 256 ^ count by omega)
    rw [leBytes, leValue_cons, high, UInt8.toNat_ofNat']
    omega

/-- Bytes encode a number below the weight of the next place. -/
theorem leValue_lt (bytes : List UInt8) : leValue bytes < 256 ^ bytes.length := by
  induction bytes with
  | nil => exact Nat.one_pos
  | cons byte rest ih =>
    have bound := byte.toNat_lt
    rw [leValue_cons, List.length_cons, Nat.pow_succ]
    omega

section Readings

variable {size : Nat}

/-- A front written over a buffer is read back as its own number exactly when the rest of the
buffer is zero. -/
theorem leValue_overwrite_iff (buffer : Vector UInt8 size) {front : List UInt8}
    (fits : front.length ≤ size) :
    leValue (overwrite buffer front).toList = leValue front ↔
      ∀ byte ∈ buffer.toList.drop front.length, byte = 0 := by
  have weight : 0 < 256 ^ front.length := Nat.pow_pos (by decide)
  rw [overwrite_toList buffer fits, leValue_append, ← leValue_eq_zero_iff]
  constructor
  · intro same
    have none : 256 ^ front.length * leValue (buffer.toList.drop front.length) = 0 := by omega
    exact (Nat.mul_eq_zero.1 none).resolve_left (Nat.ne_of_gt weight)
  · intro zero
    rw [zero, Nat.mul_zero, Nat.add_zero]

/-- The numbers read from a buffer after each of some fronts written over it. -/
def readings (buffer : Vector UInt8 size) : List (List UInt8) → List Nat
  | [] => []
  | front :: rest =>
    leValue (overwrite buffer front).toList :: readings (overwrite buffer front) rest

/-- Each front that is written over a buffer meets only zeros behind its end. -/
def Clear (buffer : Vector UInt8 size) : List (List UInt8) → Prop
  | [] => True
  | front :: rest =>
    (∀ byte ∈ buffer.toList.drop front.length, byte = 0) ∧ Clear (overwrite buffer front) rest

/-- What more fronts are read as. -/
theorem readings_append (buffer : Vector UInt8 size) (first second : List (List UInt8)) :
    readings buffer (first ++ second) =
      readings buffer first ++ readings (first.foldl overwrite buffer) second := by
  induction first generalizing buffer with
  | nil => rfl
  | cons front rest ih => rw [List.cons_append, readings, ih, readings]; rfl

/-- Every front is read back as its own number exactly when each meets only zeros. -/
theorem readings_eq_iff (buffer : Vector UInt8 size) {fronts : List (List UInt8)}
    (fits : ∀ front ∈ fronts, front.length ≤ size) :
    readings buffer fronts = fronts.map leValue ↔ Clear buffer fronts := by
  induction fronts generalizing buffer with
  | nil => simp [readings, Clear]
  | cons front rest ih =>
    have first := leValue_overwrite_iff buffer (fits front List.mem_cons_self)
    have later := ih (overwrite buffer front)
      (fun other member => fits other (List.mem_cons_of_mem front member))
    rw [readings, Clear, List.map_cons, List.cons.injEq, first, later]

end Readings

section Groups

variable {α : Type*}

/-- The first groups of a list, each of one size. -/
def groupsUpTo (size : Nat) : Nat → List α → List (List α)
  | 0, _ => []
  | count + 1, items => items.take size :: groupsUpTo size count (items.drop size)

/-- A list cut into groups of one size; what is left over is a last, shorter group. -/
def groups (size : Nat) (items : List α) : List (List α) :=
  groupsUpTo size ((items.length + size - 1) / size) items

/-- Groups of one size that are joined and cut again are the same groups. -/
theorem groupsUpTo_flatten {size : Nat} {cells : List (List α)}
    (whole : ∀ cell ∈ cells, cell.length = size) :
    groupsUpTo size cells.length cells.flatten = cells := by
  induction cells with
  | nil => rfl
  | cons cell rest ih =>
    have length : cell.length = size := whole cell List.mem_cons_self
    have later := ih (fun other member => whole other (List.mem_cons_of_mem cell member))
    simp only [List.length_cons, List.flatten_cons, groupsUpTo]
    rw [← length, List.take_left, List.drop_left, length, later]

/-- The length of groups of one size that are joined. -/
theorem length_flatten_of_whole {size : Nat} {cells : List (List α)}
    (whole : ∀ cell ∈ cells, cell.length = size) :
    cells.flatten.length = cells.length * size := by
  rw [List.length_flatten, List.map_congr_left whole, List.map_const', List.sum_replicate_nat]

/-- A list joined from groups of one size is cut into these groups. -/
theorem groups_flatten {size : Nat} (positive : 0 < size) {cells : List (List α)}
    (whole : ∀ cell ∈ cells, cell.length = size) : groups size cells.flatten = cells := by
  have count : (cells.flatten.length + size - 1) / size = cells.length := by
    rw [length_flatten_of_whole whole, Nat.mul_comm, Nat.add_sub_assoc positive,
      Nat.mul_add_div positive, Nat.div_eq_of_lt (by omega), Nat.add_zero]
  rw [groups, count, groupsUpTo_flatten whole]

end Groups

end Olimex2378.Bytes

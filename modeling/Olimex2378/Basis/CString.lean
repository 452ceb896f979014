/-!
# C strings

Strings without their terminating zero, the comparison and the bounded copy of the C library,
and arrays of `char` that hold a string. An array of some size holds a string of at most one
byte less, and zeros behind it.
-/

namespace Olimex2378

/-- A C string: the bytes before the first zero. -/
structure CString where
  /-- The bytes. -/
  bytes : List UInt8
  /-- None of them is zero. -/
  noNul : 0 ∉ bytes
  deriving DecidableEq

/-- The bytes of a text in the characters of the C program. -/
def chars (text : String) : List UInt8 := text.toList.map fun char => UInt8.ofNat char.toNat

/-- The comparison of two strings, the difference of the first bytes that differ. -/
def strcmpBytes : List UInt8 → List UInt8 → Int
  | [], [] => 0
  | [], right :: _ => -right.toNat
  | left :: _, [] => left.toNat
  | left :: lefts, right :: rights =>
    if left = right then strcmpBytes lefts rights else left.toNat - right.toNat

/-- `strcmp`. -/
def strcmp (left right : CString) : Int := strcmpBytes left.bytes right.bytes

section Array

variable {size : Nat}

/-- `strncpy`: where the string has fewer bytes, zeros follow it; where it does not, nothing
terminates the copy. -/
def strncpy (dst : Vector UInt8 size) (src : CString) (n : Nat) : Vector UInt8 size :=
  Vector.ofFn fun i => if i.val < n then src.bytes.getD i.val 0 else dst[i]

/-- An array that holds a string, cut to what the array can hold, and zeros behind it. -/
def CString.array (name : CString) : Vector UInt8 size :=
  Vector.ofFn fun i => (name.bytes.take (size - 1)).getD i.val 0

/-- A zero ends the string in the array. -/
def Terminated (buffer : Vector UInt8 size) : Prop := 0 ∈ buffer

end Array

/-- The first byte of a string is not the number 0. -/
theorem first_ne_zero {byte : UInt8} {rest : List UInt8} (noNul : 0 ∉ byte :: rest) :
    byte.toNat ≠ 0 := by
  intro zero
  have same : byte = 0 := UInt8.toNat_inj.1 zero
  apply noNul
  rw [same]
  exact List.mem_cons_self

/-- The comparison is 0 exactly for equal bytes, where none is zero. -/
theorem strcmpBytes_eq_zero {left right : List UInt8} (leftNoNul : 0 ∉ left)
    (rightNoNul : 0 ∉ right) : strcmpBytes left right = 0 ↔ left = right := by
  induction left generalizing right with
  | nil =>
    cases right with
    | nil => exact iff_of_true rfl rfl
    | cons other others =>
      have nonzero := first_ne_zero rightNoNul
      have differ : strcmpBytes [] (other :: others) ≠ 0 := by
        rw [strcmpBytes]
        omega
      exact iff_of_false differ (List.cons_ne_nil other others).symm
  | cons byte rest ih =>
    cases right with
    | nil =>
      have nonzero := first_ne_zero leftNoNul
      have differ : strcmpBytes (byte :: rest) [] ≠ 0 := by
        rw [strcmpBytes]
        omega
      exact iff_of_false differ (List.cons_ne_nil byte rest)
    | cons other others =>
      rw [strcmpBytes, List.cons.injEq]
      by_cases same : byte = other
      · have restNoNul : 0 ∉ rest := fun found => leftNoNul (List.mem_cons_of_mem byte found)
        have othersNoNul : 0 ∉ others := fun found =>
          rightNoNul (List.mem_cons_of_mem other found)
        rw [if_pos same, ih restNoNul othersNoNul]
        exact ⟨fun rests => ⟨same, rests⟩, And.right⟩
      · have differ : byte.toNat ≠ other.toNat := fun equal => same (UInt8.toNat_inj.1 equal)
        rw [if_neg same]
        constructor
        · intro zero
          omega
        · intro both
          exact (same both.1).elim

/-- `strcmp` tells whether two strings are equal. -/
@[simp] theorem strcmp_eq_zero (left right : CString) : strcmp left right = 0 ↔ left = right := by
  rw [strcmp, strcmpBytes_eq_zero left.noNul right.noNul, CString.mk.injEq]

section Array

variable {size : Nat} (dst : Vector UInt8 size) (name : CString)

/-- A byte of an array that holds a string. -/
theorem CString.getElem_array {i : Nat} (inside : i < size) :
    (name.array : Vector UInt8 size)[i] = if i < size - 1 then name.bytes.getD i 0 else 0 := by
  simp only [CString.array, Vector.getElem_ofFn, List.getD_eq_getElem?_getD, List.getElem?_take]
  split
  · rfl
  · rfl

/-- The last byte of an array that holds a string is zero. -/
theorem CString.array_last (room : 0 < size) :
    (name.array : Vector UInt8 size)[size - 1] = 0 := by
  rw [name.getElem_array (by omega), if_neg (Nat.lt_irrefl _)]

/-- The string in an array ends inside it. -/
theorem CString.array_terminated (room : 0 < size) :
    Terminated (name.array : Vector UInt8 size) := by
  rw [Terminated, ← name.array_last room]
  exact Vector.getElem_mem (by omega)

/-- A byte of a bounded copy. -/
theorem getElem_strncpy (n : Nat) {i : Nat} (inside : i < size) :
    (strncpy dst name n)[i] = if i < n then name.bytes.getD i 0 else dst[i] := by
  simp only [strncpy, Vector.getElem_ofFn, Fin.getElem_fin]

/-- A bounded copy to an array whose last byte is zero makes it hold the string. -/
theorem strncpy_array (room : 0 < size) (last : dst[size - 1] = 0) :
    strncpy dst name (size - 1) = name.array := by
  apply Vector.ext
  intro i inside
  rw [name.getElem_array inside, getElem_strncpy]
  split
  · rfl
  · have isLast : i = size - 1 := by omega
    subst isLast
    exact last

/-- A bounded copy followed by a zero in the last byte makes any array hold the string. -/
theorem set_strncpy_array (room : 0 < size) :
    (strncpy dst name (size - 1)).set (size - 1) 0 (by omega) = name.array := by
  apply Vector.ext
  intro i inside
  rw [name.getElem_array inside, Vector.getElem_set]
  split
  · next isLast =>
    rw [if_neg (by omega)]
  · next notLast =>
    have below : i < size - 1 := by omega
    rw [getElem_strncpy, if_pos below, if_pos below]

/-- A bounded copy over another one leaves nothing of it. -/
theorem strncpy_strncpy (other : CString) (n : Nat) :
    strncpy (strncpy dst other n) name n = strncpy dst name n := by
  apply Vector.ext
  intro i inside
  rw [getElem_strncpy, getElem_strncpy, getElem_strncpy]
  split
  · rfl
  · rfl

/-- A bounded copy that leaves the last byte ends inside the array exactly when the string is
shorter than what is copied, or the last byte was a zero. -/
theorem strncpy_terminated_iff (room : 0 < size) :
    Terminated (strncpy dst name (size - 1)) ↔
      name.bytes.length < size - 1 ∨ dst[size - 1]? = some 0 := by
  have lastInside : size - 1 < size := by omega
  rw [Terminated, Vector.mem_iff_getElem, Vector.getElem?_eq_getElem lastInside]
  constructor
  · rintro ⟨i, inside, zero⟩
    rw [getElem_strncpy] at zero
    by_cases copied : i < size - 1
    · rw [if_pos copied] at zero
      apply Or.inl
      apply Nat.lt_of_not_le
      intro long
      have within : i < name.bytes.length := by omega
      rw [List.getD_eq_getElem?_getD, List.getElem?_eq_getElem within, Option.getD_some] at zero
      exact name.noNul (zero ▸ List.getElem_mem within)
    · rw [if_neg copied] at zero
      have isLast : i = size - 1 := by omega
      subst isLast
      exact Or.inr (congrArg some zero)
  · rintro (short | last)
    · refine ⟨name.bytes.length, by omega, ?_⟩
      rw [getElem_strncpy, if_pos short, List.getD_eq_getElem?_getD,
        List.getElem?_eq_none (Nat.le_refl _), Option.getD_none]
    · refine ⟨size - 1, lastInside, ?_⟩
      rw [getElem_strncpy, if_neg (Nat.lt_irrefl _)]
      exact Option.some.inj last

/-- A zero in the last byte of an array that holds a string changes nothing. -/
theorem set_array (room : 0 < size) :
    (name.array : Vector UInt8 size).set (size - 1) 0 (by omega) = name.array := by
  apply Vector.ext
  intro i inside
  rw [Vector.getElem_set]
  split
  · next isLast =>
    subst isLast
    exact (name.array_last room).symm
  · rfl

end Array

end Olimex2378

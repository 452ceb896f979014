import Mathlib.Data.List.DropRight
import Mathlib.Data.List.Induction
import Mathlib.Tactic.IntervalCases

/-!
# Numerals and records

A numeral in a base up to sixteen is read digit by digit, most significant digit first, and has
no zero in front of its other digits. A text of records, each ended by a mark that is in none of
them, is read into its records. Both readers return what was written, and read nothing else. A
text that is cut anywhere still has its first records whole.
-/

namespace Olimex2378.Numerals

/-- The value of a digit. -/
def digitValue (char : Char) : Option Nat :=
  if '0' ≤ char ∧ char ≤ '9' then some (char.toNat - '0'.toNat)
  else if 'a' ≤ char ∧ char ≤ 'f' then some (char.toNat - 'a'.toNat + 10)
  else none

/-- The number that one more digit makes of the number before it. -/
def withDigit (base number : Nat) (char : Char) : Option Nat :=
  (digitValue char).bind fun value => if value < base then some (number * base + value) else none

/-- The number of a numeral. -/
def readNumeral (base : Nat) : List Char → Option Nat
  | [] => none
  | first :: rest =>
    if first = '0' ∧ rest ≠ [] then none else (first :: rest).foldlM (withDigit base) 0

section Numeral

variable {base : Nat}

/-- The digits are told apart. -/
theorem digitValue_digitChar {value : Nat} (digit : value < 16) :
    digitValue (Nat.digitChar value) = some value := by
  interval_cases value <;> decide

/-- A digit of the base is taken. -/
theorem withDigit_digitChar (number : Nat) {value : Nat} (digit : value < base)
    (within : base ≤ 16) :
    withDigit base number (Nat.digitChar value) = some (number * base + value) := by
  rw [withDigit, digitValue_digitChar (by omega)]
  exact if_pos digit

/-- A zero in front of a numeral is taken. -/
theorem withDigit_zero (positive : 1 < base) : withDigit base 0 '0' = some 0 := by
  have digit : digitValue '0' = some 0 := by decide
  rw [withDigit, digit, Option.bind_some, if_pos (by omega), Nat.zero_mul]

/-- The digits of a number read as this number. -/
theorem fold_toDigits (positive : 1 < base) (within : base ≤ 16) (n : Nat) :
    (Nat.toDigits base n).foldlM (withDigit base) 0 = some n := by
  induction n using Nat.strong_induction_on with
  | h n ih =>
    rw [Nat.toDigits_eq_if positive]
    by_cases single : n < base
    · rw [if_pos single, List.foldlM_cons, withDigit_digitChar 0 single within, Nat.zero_mul,
        Nat.zero_add]
      rfl
    · have smaller : n / base < n := Nat.div_lt_self (by omega) positive
      have digit : n % base < base := Nat.mod_lt n (by omega)
      have joined : n / base * base + n % base = n := Nat.div_add_mod' n base
      rw [if_neg single, List.foldlM_append, ih _ smaller]
      show [Nat.digitChar (n % base)].foldlM (withDigit base) (n / base) = some n
      rw [List.foldlM_cons, withDigit_digitChar _ digit within, joined]
      rfl

/-- Only zero is written with a zero first. -/
theorem head_toDigits (positive : 1 < base) (within : base ≤ 16) {n : Nat} {rest : List Char}
    (written : Nat.toDigits base n = '0' :: rest) : rest = [] := by
  induction n using Nat.strong_induction_on generalizing rest with
  | h n ih =>
    rw [Nat.toDigits_eq_if positive] at written
    by_cases single : n < base
    · rw [if_pos single, List.cons.injEq] at written
      exact written.2.symm
    · have smaller : n / base < n := Nat.div_lt_self (by omega) positive
      have leading : 0 < n / base := Nat.div_pos (by omega) (by omega)
      rw [if_neg single] at written
      cases digits : Nat.toDigits base (n / base) with
      | nil => exact absurd digits Nat.toDigits_ne_nil
      | cons first others =>
        rw [digits, List.cons_append, List.cons.injEq] at written
        rw [written.1] at digits
        have zero := fold_toDigits positive within (n / base)
        rw [digits, ih _ smaller digits] at zero
        rw [List.foldlM_cons, withDigit_zero positive] at zero
        have none : 0 = n / base := Option.some.inj zero
        omega

/-- Reading a numeral gives the number that it was written for. -/
theorem readNumeral_toDigits (positive : 1 < base) (within : base ≤ 16) (n : Nat) :
    readNumeral base (Nat.toDigits base n) = some n := by
  have read := fold_toDigits positive within n
  cases written : Nat.toDigits base n with
  | nil => exact absurd written Nat.toDigits_ne_nil
  | cons first rest =>
    rw [written] at read
    have noZero : ¬ (first = '0' ∧ rest ≠ []) := by
      rintro ⟨zero, others⟩
      rw [zero] at written
      exact others (head_toDigits positive within written)
    rw [readNumeral, if_neg noZero, read]

/-- A digit is the one that is written for its value. -/
theorem digitChar_digitValue {char : Char} {value : Nat} (digit : digitValue char = some value) :
    Nat.digitChar value = char := by
  have named : char = Char.ofNat char.toNat := (Char.ofNat_toNat char).symm
  unfold digitValue at digit
  by_cases decimal : '0' ≤ char ∧ char ≤ '9'
  · have lower : 48 ≤ char.toNat := decimal.1
    have upper : char.toNat ≤ 57 := decimal.2
    rw [if_pos decimal] at digit
    rw [← Option.some.inj digit, named]
    generalize char.toNat = code at lower upper
    interval_cases code <;> rfl
  · rw [if_neg decimal] at digit
    by_cases letter : 'a' ≤ char ∧ char ≤ 'f'
    · have lower : 97 ≤ char.toNat := letter.1
      have upper : char.toNat ≤ 102 := letter.2
      rw [if_pos letter] at digit
      rw [← Option.some.inj digit, named]
      generalize char.toNat = code at lower upper
      interval_cases code <;> rfl
    · rw [if_neg letter] at digit
      contradiction

/-- A digit that is taken is a digit of the base. -/
theorem withDigit_eq_some {number next : Nat} {char : Char}
    (taken : withDigit base number char = some next) :
    ∃ value < base, char = Nat.digitChar value ∧ next = number * base + value := by
  unfold withDigit at taken
  obtain ⟨value, digit, inside⟩ := Option.bind_eq_some_iff.1 taken
  by_cases small : value < base
  · rw [if_pos small] at inside
    exact ⟨value, small, (digitChar_digitValue digit).symm, (Option.some.inj inside).symm⟩
  · rw [if_neg small] at inside
    contradiction

/-- The digits of a numeral that does not begin with zero are those of its number. -/
theorem toDigits_fold (positive : 1 < base) {first : Char} (leading : first ≠ '0')
    {rest : List Char} {n : Nat}
    (read : (first :: rest).foldlM (withDigit base) 0 = some n) :
    0 < n ∧ Nat.toDigits base n = first :: rest := by
  induction rest using List.reverseRecOn generalizing n with
  | nil =>
    rw [List.foldlM_cons] at read
    obtain ⟨next, taken, same⟩ := Option.bind_eq_some_iff.1 read
    obtain ⟨value, small, digit, total⟩ := withDigit_eq_some taken
    have number : n = value := by
      rw [← Option.some.inj same, total]
      omega
    have nonzero : value ≠ 0 := by
      intro zero
      rw [digit, zero] at leading
      exact leading rfl
    rw [number, Nat.toDigits_of_lt_base small, digit]
    exact ⟨by omega, rfl⟩
  | append_singleton rest last ih =>
    rw [← List.cons_append, List.foldlM_append] at read
    obtain ⟨before, front, taken⟩ := Option.bind_eq_some_iff.1 read
    obtain ⟨bigger, digits⟩ := ih front
    rw [List.foldlM_cons] at taken
    obtain ⟨next, here, same⟩ := Option.bind_eq_some_iff.1 taken
    obtain ⟨value, small, digit, total⟩ := withDigit_eq_some here
    have number : n = base * before + value := by
      rw [← Option.some.inj same, total, Nat.mul_comm]
    rw [number, ← Nat.toDigits_append_toDigits positive bigger small, digits,
      Nat.toDigits_of_lt_base small, digit]
    refine ⟨?_, rfl⟩
    have grown : 0 < base * before := Nat.mul_pos (by omega) bigger
    omega

/-- A numeral that is read is the one that is written for its number. -/
theorem toDigits_readNumeral (positive : 1 < base) {text : List Char} {n : Nat}
    (read : readNumeral base text = some n) : text = Nat.toDigits base n := by
  cases text with
  | nil => contradiction
  | cons first rest =>
    rw [readNumeral] at read
    by_cases refused : first = '0' ∧ rest ≠ []
    · rw [if_pos refused] at read
      contradiction
    · rw [if_neg refused] at read
      by_cases leading : first = '0'
      · have single : rest = [] := by
          by_contra others
          exact refused ⟨leading, others⟩
        rw [single, leading, List.foldlM_cons] at read
        obtain ⟨next, taken, same⟩ := Option.bind_eq_some_iff.1 read
        rw [withDigit_zero positive] at taken
        have number : n = 0 := by
          rw [← Option.some.inj same, ← Option.some.inj taken]
        rw [single, leading, number, Nat.toDigits_zero]
      · exact (toDigits_fold positive leading read).2.symm

/-- What is no digit is in no numeral. -/
theorem not_mem_toDigits (positive : 1 < base) (within : base ≤ 16) {char : Char}
    (other : digitValue char = none) (n : Nat) : char ∉ Nat.toDigits base n := by
  have digit {value : Nat} (isDigit : value < base) : char ≠ Nat.digitChar value := by
    intro same
    rw [same, digitValue_digitChar (by omega)] at other
    contradiction
  induction n using Nat.strong_induction_on with
  | h n ih =>
    rw [Nat.toDigits_eq_if positive]
    by_cases single : n < base
    · rw [if_pos single, List.mem_singleton]
      exact digit single
    · have smaller : n / base < n := Nat.div_lt_self (by omega) positive
      rw [if_neg single, List.mem_append, List.mem_singleton, not_or]
      exact ⟨ih _ smaller, digit (Nat.mod_lt n (by omega))⟩

end Numeral

section Records

variable {α : Type*} [DecidableEq α] (mark : α)

/-- The records of a text, each ended by a mark; nothing when the last one is not. -/
def records : List α → Option (List (List α))
  | [] => some []
  | item :: rest =>
    if item = mark then (records rest).map ([] :: ·)
    else
      match records rest with
      | some (first :: others) => some ((item :: first) :: others)
      | _ => none

/-- A record in front of others. -/
theorem records_append {record : List α} (unmarked : mark ∉ record) (rest : List α) :
    records mark (record ++ mark :: rest) = (records mark rest).map (record :: ·) := by
  induction record with
  | nil => rw [List.nil_append, records, if_pos rfl]
  | cons item others ih =>
    rw [List.mem_cons, not_or] at unmarked
    rw [List.cons_append, records, if_neg (Ne.symm unmarked.1), ih unmarked.2]
    cases records mark rest with
    | none => rfl
    | some found => rfl

/-- A text that is written record by record is read record by record. -/
theorem records_flatMap {Item : Type*} {write : Item → List α}
    (unmarked : ∀ item, mark ∉ write item) (items : List Item) :
    records mark (items.flatMap fun item => write item ++ [mark]) = some (items.map write) := by
  induction items with
  | nil => rfl
  | cons item rest ih =>
    rw [List.flatMap_cons, List.append_assoc, List.singleton_append,
      records_append mark (unmarked item), ih, Option.map_some, List.map_cons]

/-- A text that is read is made of its records. -/
theorem flatMap_records {text : List α} {found : List (List α)}
    (read : records mark text = some found) :
    text = found.flatMap fun record => record ++ [mark] := by
  induction text generalizing found with
  | nil => rw [← Option.some.inj read]; rfl
  | cons item rest ih =>
    rw [records] at read
    by_cases ends : item = mark
    · rw [if_pos ends] at read
      obtain ⟨others, later, joined⟩ := Option.map_eq_some_iff.1 read
      rw [← joined, List.flatMap_cons, ← ih later, ends]
      rfl
    · rw [if_neg ends] at read
      cases later : records mark rest with
      | none =>
        rw [later] at read
        contradiction
      | some all =>
        rw [later] at read
        cases all with
        | nil => contradiction
        | cons first others =>
          have joined : (item :: first) :: others = found := Option.some.inj read
          have tail := ih later
          rw [List.flatMap_cons] at tail
          rw [← joined, List.flatMap_cons, List.cons_append, List.cons_append, ← tail]

/-- The front of a text that ends with its last mark. -/
def wholeRecords (text : List α) : List α := text.rdropWhile fun item => item ≠ mark

/-- What ends with a mark stays in front of what is whole behind it. -/
theorem wholeRecords_append (record rest : List α) :
    wholeRecords mark (record ++ [mark] ++ rest) =
      record ++ [mark] ++ wholeRecords mark rest := by
  unfold wholeRecords
  induction rest using List.reverseRecOn with
  | nil =>
    rw [List.append_nil, List.rdropWhile_concat_neg _ _ _ (by simp), List.rdropWhile_nil,
      List.append_nil]
  | append_singleton rest last ih =>
    rw [← List.append_assoc]
    by_cases ends : last = mark
    · rw [List.rdropWhile_concat_neg _ _ _ (by simpa using ends),
        List.rdropWhile_concat_neg _ _ _ (by simpa using ends), ← List.append_assoc]
    · rw [List.rdropWhile_concat_pos _ _ _ (by simpa using ends),
        List.rdropWhile_concat_pos _ _ _ (by simpa using ends), ih]

/-- A front of a text of records holds the first of them whole. -/
theorem wholeRecords_of_prefix {Item : Type*} {write : Item → List α}
    (unmarked : ∀ item, mark ∉ write item) {items : List Item} {front : List α}
    (isFront : front <+: items.flatMap fun item => write item ++ [mark]) :
    ∃ first, first <+: items ∧
      wholeRecords mark front = first.flatMap fun item => write item ++ [mark] := by
  induction items generalizing front with
  | nil =>
    rw [List.flatMap_nil, List.prefix_nil] at isFront
    exact ⟨[], List.prefix_rfl, by rw [isFront]; rfl⟩
  | cons item rest ih =>
    rw [List.flatMap_cons] at isFront
    have cut : ∀ part, part <+: write item → wholeRecords mark part = [] := by
      intro part inside
      rw [wholeRecords, List.rdropWhile_eq_nil_iff]
      intro other member
      simp only [decide_eq_true_eq]
      rintro rfl
      exact unmarked item (inside.subset member)
    rcases List.prefix_or_prefix_of_prefix isFront (List.prefix_append _ _) with short | long
    · rcases List.prefix_concat_iff.1 short with whole | part
      · refine ⟨[item], by simp, ?_⟩
        have one := wholeRecords_append mark (write item) []
        rw [List.append_nil] at one
        rw [whole, one, cut [] List.nil_prefix, List.flatMap_singleton, List.append_nil]
      · exact ⟨[], List.nil_prefix, by rw [cut front part]; rfl⟩
    · obtain ⟨tail, rfl⟩ := long
      obtain ⟨first, isFirst, whole⟩ := ih ((List.prefix_append_right_inj _).1 isFront)
      refine ⟨item :: first, List.cons_prefix_cons.2 ⟨rfl, isFirst⟩, ?_⟩
      rw [wholeRecords_append, whole, List.flatMap_cons]

end Records

end Olimex2378.Numerals

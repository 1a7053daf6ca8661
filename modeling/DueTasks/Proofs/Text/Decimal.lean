import DueTasks.Proofs.Text.Reading
import Mathlib.Algebra.Group.Nat.Defs

/-! Decimal numbers read back what was written.
The digits of a number spell that number, with or without leading zeros.
-/

namespace DueTasks.Text

/-- The number that digits spell, in the terms of the standard library. -/
theorem digitsValue_eq (digits : List Char)
    : digitsValue digits = Nat.ofDigitChars 10 digits 0 := by
  simp only [digitsValue, digitValue, Nat.ofDigitChars_eq_foldl, Nat.mul_comm]

theorem digitsValue_decimal (n : Nat) : digitsValue (decimal n) = n := by
  rw [digitsValue_eq, decimal, Nat.ofDigitChars_ten_toDigits]

/-- Reading up to a greatest number is reading the number and taking the smaller of the two, by
induction over the digits from the left.
-/
theorem cappedValue_eq (greatest : Nat) (digits : List Char)
    : cappedValue greatest digits = min (digitsValue digits) greatest := by
  have go (value : Nat)
      : digits.foldl (fun value c => min (value * 10 + digitValue c) greatest) (min value greatest)
        = min (digits.foldl (fun value c => value * 10 + digitValue c) value) greatest := by
    induction digits generalizing value with
    | nil => rfl
    | cons c digits ih =>
        have step : min (min value greatest * 10 + digitValue c) greatest
            = min (value * 10 + digitValue c) greatest := by
          omega
        rw [List.foldl_cons, List.foldl_cons, step, ih]
  rw [cappedValue, digitsValue, ← go, Nat.zero_min]

theorem isDigit_of_mem_decimal {n : Nat} : ∀ c ∈ decimal n, c.isDigit = true :=
  fun _ member => Nat.isDigit_of_mem_toDigits (by decide) (by decide) member

theorem decimal_ne_nil (n : Nat) : decimal n ≠ [] :=
  Nat.toDigits_ne_nil

theorem digitsValue_paddedDecimal (width n : Nat) : digitsValue (paddedDecimal width n) = n := by
  rw [digitsValue_eq, paddedDecimal, List.leftpad, Nat.ofDigitChars_append,
    Nat.ofDigitChars_replicate_zero, Nat.mul_zero, decimal, Nat.ofDigitChars_ten_toDigits]

theorem isDigit_of_mem_paddedDecimal {width n : Nat}
    : ∀ c ∈ paddedDecimal width n, c.isDigit = true := by
  intro c member
  rcases List.mem_append.mp member with zero | digit
  · rw [List.eq_of_mem_replicate zero]
    rfl
  · exact isDigit_of_mem_decimal c digit

/-- A number that fits takes as many digits as its leading zeros fill up. -/
theorem length_paddedDecimal {width n : Nat} (fits : n < 10 ^ width) (positive : 0 < width)
    : (paddedDecimal width n).length = width := by
  have := (Nat.length_toDigits_le_iff (n := n) (by decide : 1 < 10) positive).mpr fits
  rw [paddedDecimal, List.length_leftpad, decimal]
  omega

theorem stops_paddedDecimal {width n : Nat} (fits : n < 10 ^ width) (positive : 0 < width)
    (rest : List Char)
    : stops Char.isDigit (paddedDecimal width n ++ rest) = false := by
  have length := length_paddedDecimal fits positive
  rcases hd : paddedDecimal width n with _ | ⟨digit, more⟩
  · rw [hd] at length
    exact absurd length (Nat.ne_of_lt positive)
  · have isDigit := isDigit_of_mem_paddedDecimal digit (by rw [hd]; exact List.mem_cons_self)
    rw [List.cons_append, stops_cons, isDigit]
    rfl

namespace Cursor

theorem digits?_paddedDecimal (offset : Nat) {width n : Nat} (rest : List Char)
    (fits : n < 10 ^ width) (positive : 0 < width)
    : Parsed.result? (digits? width ⟨offset, paddedDecimal width n ++ rest⟩)
      = some (n, ⟨offset + byteLength (paddedDecimal width n), rest⟩) := by
  have length := length_paddedDecimal fits positive
  rw [result?_digits?, List.take_left' length, List.drop_left' length, digitsValue_paddedDecimal,
    if_pos ⟨length, List.all_eq_true.mpr isDigit_of_mem_paddedDecimal⟩]

theorem digitsAfter?_paddedDecimal (offset : Nat) (mark : Char) {width n : Nat} (rest : List Char)
    (fits : n < 10 ^ width) (positive : 0 < width)
    : Parsed.result? (digitsAfter? mark width ⟨offset, mark :: paddedDecimal width n ++ rest⟩)
      = some (n, ⟨offset + byteLength (mark :: paddedDecimal width n), rest⟩) := by
  rw [result?_digitsAfter?, List.cons_append, char?_cons_self, Option.bind_some,
    digits?_paddedDecimal _ rest fits positive, byteLength_cons, Nat.add_assoc]

theorem run?_decimal (offset n : Nat) {rest : List Char} (stop : stops Char.isDigit rest = true)
    : Parsed.result? (run? ⟨offset, decimal n ++ rest⟩ Char.isDigit)
      = some (decimal n, ⟨offset + byteLength (decimal n), rest⟩) := by
  rw [result?_run?, run_append _ _ isDigit_of_mem_decimal stop,
    skip_append _ _ isDigit_of_mem_decimal stop, if_neg (decimal_ne_nil n)]

end Cursor

end DueTasks.Text

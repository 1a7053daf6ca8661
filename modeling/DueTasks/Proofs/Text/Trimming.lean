import DueTasks.Proofs.Text.Reading

/-! White space around a text.
Trimming takes away white space at both ends and nothing else. A text without white space stays as
it is.
-/

namespace DueTasks.Text

theorem dropWhile_of_not_mem {blank : Char → Bool} {chars : List Char}
    (none : ∀ c ∈ chars, blank c = false)
    : chars.dropWhile blank = chars := by
  cases chars with
  | nil => rfl
  | cons c chars => exact List.dropWhile_cons_of_neg (by simp [none c List.mem_cons_self])

/-- A text without white space has none at its ends. -/
theorem trim_of_not_mem {chars : List Char} (none : ∀ c ∈ chars, isBlank c = false)
    : trim chars = chars := by
  have reversed : ∀ c ∈ chars.reverse, isBlank c = false :=
    fun c member => none c (List.mem_reverse.mp member)
  rw [trim, dropWhile_of_not_mem none, trimRight, dropWhile_of_not_mem reversed,
    List.reverse_reverse]

/-- Digits are no white space. -/
theorem isBlank_of_isDigit {c : Char} (digit : c.isDigit = true) : isBlank c = false := by
  have bounds : 48 ≤ c.toNat ∧ c.toNat ≤ 57 := by
    simp only [Char.isDigit, Bool.and_eq_true, decide_eq_true_eq, ge_iff_le,
      UInt32.le_iff_toNat_le] at digit
    exact digit
  simp only [isBlank, blankRanges, List.any_cons, List.any_nil, Bool.or_false,
    Bool.or_eq_false_iff, Bool.and_eq_false_iff, decide_eq_false_iff_not]
  omega

end DueTasks.Text

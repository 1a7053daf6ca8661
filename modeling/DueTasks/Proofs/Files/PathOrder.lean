import DueTasks.Files.Path
import Mathlib.Data.List.Lex

/-! Paths in order.
Components are in order by their kinds, and names by their characters. Paths are in order by their
components from the left, so that one of two paths precedes the other unless their components are
the same.
-/

namespace DueTasks

-----------------------------------------------------------------------------------------
-- Components in order
-----------------------------------------------------------------------------------------

namespace PathComponent

theorem precedes_iff {a b : PathComponent}
    : a.precedes b = true
      ↔ a.rank < b.rank ∨ ∃ first later, a = .name first ∧ b = .name later ∧ first < later := by
  cases a <;> cases b <;> simp [precedes, rank]

theorem precedes_irrefl (a : PathComponent) : ¬ a.precedes a = true := by
  rw [precedes_iff]
  rintro (less | ⟨first, later, rfl, same, less⟩)
  · exact Nat.lt_irrefl _ less
  · cases same
    exact String.lt_irrefl _ less

theorem precedes_trans {a b c : PathComponent} (h : a.precedes b = true)
    (h' : b.precedes c = true)
    : a.precedes c = true := by
  rw [precedes_iff] at h h' ⊢
  rcases h with less | ⟨first, middle, rfl, rfl, less⟩
  · rcases h' with less' | ⟨middle, later, rfl, rfl, -⟩
    · exact .inl (Nat.lt_trans less less')
    · exact .inl less
  · rcases h' with less' | ⟨_, later, same, rfl, less'⟩
    · exact .inl less'
    · cases same
      exact .inr ⟨first, later, rfl, rfl, String.lt_trans less less'⟩

/-- Of two different components one precedes the other. -/
theorem eq_of_not_precedes {a b : PathComponent} (h : ¬ a.precedes b = true)
    (h' : ¬ b.precedes a = true)
    : a = b := by
  rw [precedes_iff, not_or] at h h'
  have rank : a.rank = b.rank := Nat.le_antisymm (Nat.not_lt.mp h'.1) (Nat.not_lt.mp h.1)
  cases a with
  | name first =>
      cases b with
      | name later =>
          have upper : ¬ later < first := fun less => h'.2 ⟨_, _, rfl, rfl, less⟩
          have lower : ¬ first < later := fun less => h.2 ⟨_, _, rfl, rfl, less⟩
          rw [String.le_antisymm upper lower]
      | root | current | parent => cases rank
  | root | current | parent => cases b <;> first | rfl | cases rank

end PathComponent

-----------------------------------------------------------------------------------------
-- Paths in order
-----------------------------------------------------------------------------------------

namespace Path

variable {p q r : Path}

theorem precedes_iff
    : p.precedes q = true
      ↔ List.Lex (fun a b => a.precedes b = true) p.components q.components :=
  List.lex_eq_true_iff_lex _

theorem precedes_irrefl (p : Path) : ¬ p.precedes p = true :=
  fun less => List.lex_irrefl PathComponent.precedes_irrefl _ (precedes_iff.mp less)

theorem precedes_trans (h : p.precedes q = true) (h' : q.precedes r = true)
    : p.precedes r = true :=
  precedes_iff.mpr
    (List.lex_trans PathComponent.precedes_trans (precedes_iff.mp h) (precedes_iff.mp h'))

/-- One of two paths precedes the other, unless their components are the same. -/
theorem components_eq_of_not_precedes (h : ¬ p.precedes q = true) (h' : ¬ q.precedes p = true)
    : p.components = q.components :=
  have : Std.Trichotomous fun a b : PathComponent => a.precedes b = true :=
    ⟨fun _ _ => PathComponent.eq_of_not_precedes⟩
  Std.Trichotomous.trichotomous (r := List.Lex fun a b => a.precedes b = true) _ _
    (mt precedes_iff.mpr h) (mt precedes_iff.mpr h')

/-- What does not precede a path precedes nothing that the path does not precede. -/
theorem not_precedes_trans (h : ¬ q.precedes p = true) (h' : ¬ r.precedes q = true)
    : ¬ r.precedes p = true := by
  intro less
  by_cases later : p.precedes q = true
  · exact h' (precedes_trans less later)
  · rw [precedes_iff, components_eq_of_not_precedes later h, ← precedes_iff] at less
    exact h' less

end Path

end DueTasks

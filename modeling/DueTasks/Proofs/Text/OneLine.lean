import DueTasks.Proofs.Files.Components
import DueTasks.Proofs.Text.Decimal

/-! Texts without line feeds.
Such a text is one line. Texts that a line feed ends each are told apart again exactly if each of
them is one line.
-/

namespace DueTasks.Text

/-- A text has no line feed. -/
def IsOneLine (text : String) : Prop :=
  '\n' ∉ text.toList

instance : DecidablePred IsOneLine :=
  fun text => inferInstanceAs (Decidable ('\n' ∉ text.toList))

theorem isOneLine_append {before after : String}
    : IsOneLine (before ++ after) ↔ IsOneLine before ∧ IsOneLine after := by
  rw [IsOneLine, String.toList_append, List.mem_append, not_or]
  rfl

theorem isOneLine_ofList {chars : List Char} : IsOneLine (String.ofList chars) ↔ '\n' ∉ chars := by
  rw [IsOneLine, String.toList_ofList]

/-- Numbers are written in digits. -/
theorem not_mem_decimal (n : Nat) : '\n' ∉ decimal n := by
  intro member
  cases isDigit_of_mem_decimal _ member

theorem not_mem_paddedDecimal (width n : Nat) : '\n' ∉ paddedDecimal width n := by
  intro member
  cases isDigit_of_mem_paddedDecimal _ member

theorem isOneLine_toString (n : Nat) : IsOneLine (toString n) :=
  isOneLine_ofList.mpr (not_mem_decimal n)

theorem isOneLine_toString_int (n : Int) : IsOneLine (toString n) := by
  cases n with
  | ofNat n => exact isOneLine_toString n
  | negSucc n => exact isOneLine_append.mpr ⟨by decide, isOneLine_toString _⟩

-----------------------------------------------------------------------------------------
-- Texts that line feeds end
-----------------------------------------------------------------------------------------

/-- Texts one after the other, each with a line feed at its end. -/
def ended (texts : List String) : String :=
  String.join (texts.map (· ++ "\n"))

theorem toList_ended_cons (text : String) (texts : List String)
    : (ended (text :: texts)).toList = text.toList ++ '\n' :: (ended texts).toList := by
  simp [ended, String.join_cons]

/-- The parts between the line feeds are the texts if all of them are one line, by induction over
them.
-/
theorem parts_ended {texts : List String} (single : ∀ text ∈ texts, IsOneLine text)
    : parts (· == '\n') (ended texts).toList = texts.map String.toList ++ [[]] := by
  induction texts with
  | nil => rfl
  | cons text texts ih =>
      obtain ⟨first, single⟩ := List.forall_mem_cons.mp single
      have solid : ∀ c ∈ text.toList, (c == '\n') = false := by
        rintro c member
        rw [beq_eq_false_iff_ne]
        rintro rfl
        exact first member
      rw [toList_ended_cons, parts_append_cons rfl, parts_of_solid solid, ih single]
      rfl

/-- There are as many line feeds as there are texts, besides those in the texts, by induction over
them.
-/
theorem count_ended (texts : List String)
    : (ended texts).toList.count '\n'
      = texts.length + (texts.flatMap String.toList).count '\n' := by
  induction texts with
  | nil => rfl
  | cons text texts ih =>
      rw [toList_ended_cons, List.count_append, List.count_cons_self, ih, List.flatMap_cons,
        List.count_append, List.length_cons]
      omega

/-- Texts that line feeds end are as many lines as there are texts exactly if all of them are one
line.
-/
theorem count_ended_eq_length {texts : List String}
    : (ended texts).toList.count '\n' = texts.length ↔ ∀ text ∈ texts, IsOneLine text := by
  rw [count_ended, Nat.add_eq_left, List.count_eq_zero, List.mem_flatMap]
  constructor
  · intro nowhere text member inside
    exact nowhere ⟨text, member, inside⟩
  · rintro single ⟨text, member, inside⟩
    exact single text member inside

/-- They are told apart again exactly then, too. -/
theorem parts_ended_iff {texts : List String}
    : parts (· == '\n') (ended texts).toList = texts.map String.toList ++ [[]]
      ↔ ∀ text ∈ texts, IsOneLine text := by
  constructor
  · intro apart text member inside
    have part : text.toList ∈ parts (· == '\n') (ended texts).toList := by
      rw [apart]
      exact List.mem_append_left _ (List.mem_map_of_mem member)
    cases solid_of_mem_parts part _ inside
  · exact parts_ended

end DueTasks.Text

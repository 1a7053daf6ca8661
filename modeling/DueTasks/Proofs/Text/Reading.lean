import DueTasks.Text.Cursor

/-! What readers answer, without the bounds that make them end.
A reading is compared by its value and the place behind it. Each reader of characters has an
equation for that pair, by the characters that come next.
-/

namespace DueTasks.Text

namespace Parsed

variable {α β : Type} {bound large : Nat}

/-- The value that was read, and the place behind it. -/
def result (p : Parsed α bound) : α × Cursor :=
  (p.value, p.next)

/-- The results of a reading that may fail. -/
def result? (found : Option (Parsed α bound)) : Option (α × Cursor) :=
  found.map result

@[simp] theorem result_widen (p : Parsed α bound) (le : bound ≤ large)
    : (p.widen le).result = p.result := rfl

@[simp] theorem result_loosen (p : Parsed α bound) : p.loosen.result = p.result := rfl

@[simp] theorem result_withValue (p : Parsed α bound) (value : β)
    : (p.withValue value).result = (value, p.next) := rfl

@[simp] theorem result_mk (value : α) (next : Cursor) (within : next.remaining < bound)
    : (Parsed.mk value next within).result = (value, next) := rfl

@[simp] theorem result_give (c : Cursor) (value : α) : (c.give value).result = (value, c) := rfl

@[simp] theorem result?_none : result? (none : Option (Parsed α bound)) = none := rfl

@[simp] theorem result?_some (p : Parsed α bound) : result? (some p) = some p.result := rfl

/-- A result is that of a reading. -/
theorem result?_eq_some {found : Option (Parsed α bound)} {value : α} {next : Cursor}
    (h : result? found = some (value, next))
    : ∃ p, found = some p ∧ p.value = value ∧ p.next = next := by
  obtain ⟨p, hp, he⟩ := Option.map_eq_some_iff.mp h
  exact ⟨p, hp, congrArg Prod.fst he, congrArg Prod.snd he⟩

/-- There is no result exactly if nothing was read. -/
@[simp] theorem result?_eq_none {found : Option (Parsed α bound)}
    : result? found = none ↔ found = none :=
  Option.map_eq_none_iff

theorem remaining_lt {found : Option (Parsed α bound)} {value : α} {next : Cursor}
    (h : result? found = some (value, next))
    : next.remaining < bound := by
  obtain ⟨p, -, -, rfl⟩ := result?_eq_some h
  exact p.within

end Parsed

/-- Whether no character of a class comes first. -/
def stops (belongs : Char → Bool) (chars : List Char) : Bool :=
  chars.head?.all fun c => !belongs c

@[simp] theorem stops_nil (belongs : Char → Bool) : stops belongs [] = true := rfl

@[simp] theorem stops_cons (belongs : Char → Bool) (c : Char) (chars : List Char)
    : stops belongs (c :: chars) = !belongs c := rfl

theorem stops_mono {narrow wide : Char → Bool} (le : ∀ c, narrow c = true → wide c = true)
    {chars : List Char} (h : stops wide chars = true)
    : stops narrow chars = true := by
  cases chars with
  | nil => rfl
  | cons c chars =>
      simp only [stops_cons, Bool.not_eq_true'] at h ⊢
      exact Bool.eq_false_iff.mpr fun hc => by simp [le c hc] at h

theorem head?_ne_of_stops {belongs : Char → Bool} {chars : List Char} {c : Char}
    (h : stops belongs chars = true) (hc : belongs c = true)
    : chars.head? ≠ some c := by
  intro he
  simp [stops, he, hc] at h

theorem exists_cons_of_not_stops {belongs : Char → Bool} {chars : List Char}
    (h : stops belongs chars = false)
    : ∃ c rest, chars = c :: rest ∧ belongs c = true := by
  cases chars with
  | nil => cases h
  | cons c rest => exact ⟨c, rest, rfl, by simpa using h⟩

namespace Cursor

open Parsed

@[simp] theorem remaining_mk (offset : Nat) (rest : List Char)
    : (Cursor.mk offset rest).remaining = rest.length := rfl

@[simp] theorem result?_any?_cons (offset : Nat) (c : Char) (rest : List Char)
    : result? (any? ⟨offset, c :: rest⟩) = some (c, ⟨offset + c.utf8Size, rest⟩) := rfl

/-- A given character is read if it comes next. -/
@[simp] theorem result?_char?_cons (offset : Nat) (c expected : Char) (rest : List Char)
    : result? (char? ⟨offset, c :: rest⟩ expected)
      = if c = expected then some ((), ⟨offset + c.utf8Size, rest⟩) else none := by
  simp only [char?, any?, Option.bind_eq_bind, Option.bind_some]
  split <;> rfl

/-- A character that comes next is read. -/
theorem char?_cons_self (offset : Nat) (c : Char) (rest : List Char)
    : result? (char? ⟨offset, c :: rest⟩ c) = some ((), ⟨offset + c.utf8Size, rest⟩) := by
  rw [result?_char?_cons, if_pos rfl]

theorem char?_eq_none {c : Cursor} {expected : Char} (h : c.rest.head? ≠ some expected)
    : c.char? expected = none := by
  obtain ⟨offset, _ | ⟨found, rest⟩⟩ := c
  · rfl
  · rw [← result?_eq_none, result?_char?_cons, if_neg fun he => h (congrArg some he)]

/-- A given character is not read only where it does not come next. -/
theorem head?_ne_of_char? {c : Cursor} {expected : Char} (h : c.char? expected = none)
    : c.rest.head? ≠ some expected := by
  obtain ⟨offset, _ | ⟨found, rest⟩⟩ := c
  · exact fun h => nomatch h
  · rintro ⟨rfl⟩
    rw [← result?_eq_none, char?_cons_self] at h
    cases h

theorem of_char? {c next : Cursor} {expected : Char} {value : Unit}
    (h : result? (c.char? expected) = some (value, next))
    : c.rest = expected :: next.rest ∧ next.offset = c.offset + expected.utf8Size := by
  obtain ⟨offset, _ | ⟨found, rest⟩⟩ := c
  · cases h
  · rw [result?_char?_cons] at h
    split at h
    · cases h
      subst expected
      exact ⟨rfl, rfl⟩
    · cases h

/-- The longest run of a class is read if it is not empty. -/
theorem result?_run? (c : Cursor) (belongs : Char → Bool)
    : result? (c.run? belongs)
      = if c.run belongs = [] then none else some (c.run belongs, c.skip belongs) := by
  unfold run?
  split <;> rfl

/-- A number of digits is read if as many digits come next. -/
theorem result?_digits? (count : Nat) (c : Cursor)
    : result? (c.digits? count)
      = if (c.rest.take count).length = count ∧ (c.rest.take count).all Char.isDigit then
          some (digitsValue (c.rest.take count),
            ⟨c.offset + byteLength (c.rest.take count), c.rest.drop count⟩)
        else none := by
  simp only [digits?]
  split <;> rfl

theorem result?_digitsAfter? (mark : Char) (count : Nat) (c : Cursor)
    : result? (c.digitsAfter? mark count)
      = (result? (c.char? mark)).bind fun marked => result? (marked.2.digits? count) := by
  simp only [digitsAfter?]
  cases c.char? mark with
  | none => rfl
  | some marked =>
      simp only [Option.bind_eq_bind, Option.bind_some, result?_some, result]
      cases marked.next.digits? count <;> rfl

theorem result?_charAfterBlanks? (c : Cursor) (expected : Char)
    : result? (c.charAfterBlanks? expected) = result? (c.skipBlanks.char? expected) := by
  simp only [charAfterBlanks?]
  cases c.skipBlanks.char? expected <;> rfl

theorem run_append (belongs : Char → Bool) (offset : Nat) {chars rest : List Char}
    (all : ∀ c ∈ chars, belongs c = true) (stop : stops belongs rest = true)
    : run ⟨offset, chars ++ rest⟩ belongs = chars := by
  have none : rest.takeWhile belongs = [] := by
    cases rest with
    | nil => rfl
    | cons c rest => exact List.takeWhile_cons_of_neg (by simpa using stop)
  rw [run, List.takeWhile_append_of_pos all, none, List.append_nil]

theorem run_of_stops (belongs : Char → Bool) (offset : Nat) {rest : List Char}
    (stop : stops belongs rest = true)
    : run ⟨offset, rest⟩ belongs = [] :=
  run_append belongs offset (List.forall_mem_nil _) stop

theorem skip_append (belongs : Char → Bool) (offset : Nat) {chars rest : List Char}
    (all : ∀ c ∈ chars, belongs c = true) (stop : stops belongs rest = true)
    : skip ⟨offset, chars ++ rest⟩ belongs = ⟨offset + byteLength chars, rest⟩ := by
  have whole : rest.dropWhile belongs = rest := by
    cases rest with
    | nil => rfl
    | cons c rest => exact List.dropWhile_cons_of_neg (by simpa using stop)
  rw [skip, run_append belongs offset all stop, List.dropWhile_append_of_pos all, whole]

/-- A text is a run of a class, or a run with another character behind it. -/
theorem run_or_split (belongs : Char → Bool) (chars : List Char)
    : (∀ c ∈ chars, belongs c = true)
      ∨ ∃ run c more,
          chars = run ++ c :: more ∧ (∀ c ∈ run, belongs c = true) ∧ belongs c = false := by
  induction chars with
  | nil => exact .inl (List.forall_mem_nil _)
  | cons c chars ih =>
      cases hc : belongs c with
      | false => exact .inr ⟨[], c, chars, rfl, List.forall_mem_nil _, hc⟩
      | true =>
          rcases ih with all | ⟨run, other, more, rfl, all, ho⟩
          · exact .inl (List.forall_mem_cons.mpr ⟨hc, all⟩)
          · exact .inr ⟨c :: run, other, more, rfl, List.forall_mem_cons.mpr ⟨hc, all⟩, ho⟩

theorem run_split (c : Cursor) (belongs : Char → Bool)
    : c.rest = c.run belongs ++ (c.skip belongs).rest
      ∧ (∀ found ∈ c.run belongs, belongs found = true)
      ∧ stops belongs (c.skip belongs).rest = true := by
  refine ⟨List.takeWhile_append_dropWhile.symm, List.all_eq_true.mp List.all_takeWhile, ?_⟩
  have stop := List.head?_dropWhile_not belongs c.rest
  show ((c.rest.dropWhile belongs).head?).all _ = true
  cases he : (c.rest.dropWhile belongs).head? with
  | none => rfl
  | some found => simpa [he] using stop

end Cursor

end DueTasks.Text

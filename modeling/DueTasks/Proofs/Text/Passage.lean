import DueTasks.Proofs.Text.Reading

/-! What lies between two places of a text.
A reader that is done at a later place has read the characters in between, and readers in sequence
have read one passage after the other.
-/

namespace DueTasks.Text

/-- A place and a later one with the given characters between them. -/
inductive Passage (chars : List Char) : Cursor → Cursor → Prop where
  | intro (offset : Nat) (rest : List Char)
    : Passage chars ⟨offset, chars ++ rest⟩ ⟨offset + byteLength chars, rest⟩

/-- The place is one in a text, at the end of one of its characters. -/
def Cursor.IsIn (chars : List Char) (c : Cursor) : Prop :=
  ∃ before, Passage before (Cursor.start chars) c

/-- A place and a later one with only characters of a class between them. -/
def Within (belongs : Char → Bool) (c d : Cursor) : Prop :=
  ∃ chars, Passage chars c d ∧ ∀ found ∈ chars, belongs found = true

namespace Passage

variable {first second : List Char} {c d e : Cursor}

theorem nil (c : Cursor) : Passage [] c c :=
  .intro c.offset c.rest

theorem append (h : Passage first c d) (h' : Passage second d e)
    : Passage (first ++ second) c e := by
  obtain ⟨offset, rest⟩ := h
  obtain ⟨_, rest⟩ := h'
  rw [Nat.add_assoc, ← byteLength_append, ← List.append_assoc]
  exact .intro offset rest

theorem rest_eq (h : Passage first c d) : c.rest = first ++ d.rest := by
  obtain ⟨offset, rest⟩ := h
  rfl

theorem offset_eq (h : Passage first c d) : d.offset = c.offset + byteLength first := by
  obtain ⟨offset, rest⟩ := h
  rfl

theorem offset_le (h : Passage first c d) : c.offset ≤ d.offset := by
  rw [h.offset_eq]
  exact Nat.le_add_right _ _

/-- Passages are told by the characters and the bytes that they take. -/
theorem of_eq (rest : c.rest = first ++ d.rest) (offset : d.offset = c.offset + byteLength first)
    : Passage first c d := by
  obtain ⟨start, chars⟩ := c
  obtain ⟨stop, chars'⟩ := d
  simp only at rest offset
  subst rest offset
  exact .intro start chars'

theorem slice_eq {chars : List Char} (h : Passage first c d) (place : c.IsIn chars)
    : slice chars (c.spanTo d) = first := by
  obtain ⟨before, start⟩ := place
  have text : chars = before ++ first ++ d.rest := by
    rw [List.append_assoc, ← h.rest_eq, ← start.rest_eq]
    rfl
  have from_ : c.offset = byteLength before := by simpa [Cursor.start] using start.offset_eq
  rw [Cursor.spanTo, h.offset_eq, from_, text]
  exact slice_append before first d.rest

theorem isIn {chars : List Char} (h : Passage first c d) (place : c.IsIn chars) : d.IsIn chars := by
  obtain ⟨before, start⟩ := place
  exact ⟨before ++ first, start.append h⟩

end Passage

theorem Cursor.isIn_start (chars : List Char) : (Cursor.start chars).IsIn chars :=
  ⟨[], .nil _⟩

/-- A stretch behind a place in a text is told by the characters between that place and it. -/
theorem Cursor.IsIn.slice_eq {text before part after : List Char} {offset : Nat}
    (place : Cursor.IsIn text ⟨offset, before ++ (part ++ after)⟩)
    : slice text ⟨offset + byteLength before, offset + (byteLength before + byteLength part)⟩
      = part := by
  have start := (Passage.intro offset (part ++ after)).isIn place
  rw [← Nat.add_assoc]
  exact (Passage.intro _ after).slice_eq start

theorem utf8ByteSize_eq_byteLength (text : String)
    : text.utf8ByteSize = byteLength text.toList := by
  suffices h : ∀ chars, (String.ofList chars).utf8ByteSize = byteLength chars by
    rw [← h, String.ofList_toList]
  intro chars
  induction chars with
  | nil => rfl
  | cons c chars ih =>
      rw [← List.singleton_append, String.ofList_append, String.utf8ByteSize_append, ih,
        byteLength_append, ← String.singleton_eq_ofList, String.utf8ByteSize_singleton]
      rfl

namespace Within

variable {belongs wide : Char → Bool} {c d e : Cursor}

theorem refl (c : Cursor) : Within belongs c c :=
  ⟨[], .nil c, List.forall_mem_nil _⟩

theorem trans (h : Within belongs c d) (h' : Within belongs d e) : Within belongs c e := by
  obtain ⟨first, passage, all⟩ := h
  obtain ⟨second, passage', all'⟩ := h'
  exact ⟨first ++ second, passage.append passage', List.forall_mem_append.mpr ⟨all, all'⟩⟩

theorem mono (h : Within belongs c d) (le : ∀ c, belongs c = true → wide c = true)
    : Within wide c d := by
  obtain ⟨chars, passage, all⟩ := h
  exact ⟨chars, passage, fun found member => le found (all found member)⟩

theorem remaining_le (h : Within belongs c d) : d.remaining ≤ c.remaining := by
  obtain ⟨chars, passage, -⟩ := h
  have := congrArg List.length passage.rest_eq
  simp only [List.length_append] at this
  simp only [Cursor.remaining]
  omega

/-- A passage of a class does not go on where the class stops. -/
theorem stays (h : Within belongs c d) {chars rest : List Char} (text : c.rest = chars ++ rest)
    (stop : stops belongs rest = true)
    : ∃ more, d.rest = more ++ rest ∧ more <:+ chars := by
  obtain ⟨read, passage, all⟩ := h
  have both := passage.rest_eq.symm.trans text
  rcases List.append_eq_append_iff.mp both with ⟨between, rfl, he⟩ | ⟨between, rfl, he⟩
  · exact ⟨between, he, List.suffix_append read between⟩
  · rcases between with _ | ⟨found, between⟩
    · exact ⟨[], by simpa using he.symm, List.nil_suffix⟩
    · rw [he] at stop
      have := all found (by simp)
      simp [this] at stop

end Within

namespace Cursor

variable {belongs : Char → Bool} {c next : Cursor}

/-- A given character is the passage that it is read from. -/
theorem passage_of_char? {expected : Char} {value : Unit}
    (h : Parsed.result? (c.char? expected) = some (value, next))
    : Passage [expected] c next := by
  obtain ⟨rest, offset⟩ := of_char? h
  exact .of_eq rest (by simpa using offset)

/-- A character that was read is one of its class. -/
theorem within_of_char? {expected : Char} {value : Unit}
    (h : Parsed.result? (c.char? expected) = some (value, next)) (member : belongs expected = true)
    : Within belongs c next := by
  exact ⟨[expected], passage_of_char? h, by simpa using member⟩

theorem within_skip (c : Cursor) (belongs : Char → Bool) : Within belongs c (c.skip belongs) := by
  obtain ⟨split, all, -⟩ := c.run_split belongs
  exact ⟨c.run belongs, .of_eq split rfl, all⟩

theorem within_skipBlanks (c : Cursor) : Within isSpaceOrTab c c.skipBlanks :=
  c.within_skip isSpaceOrTab

theorem passage_of_charAfterBlanks? {expected : Char} {value : Unit}
    (h : Parsed.result? (c.charAfterBlanks? expected) = some (value, next))
    : ∃ blanks,
        Passage (blanks ++ [expected]) c next ∧ ∀ found ∈ blanks, isSpaceOrTab found = true := by
  rw [result?_charAfterBlanks?] at h
  obtain ⟨blanks, passage, all⟩ := c.within_skipBlanks
  exact ⟨blanks, passage.append (passage_of_char? h), all⟩

/-- A run is the passage that it is read from, and not empty. -/
theorem passage_of_run? {chars : List Char}
    (h : Parsed.result? (c.run? belongs) = some (chars, next))
    : Passage chars c next ∧ (∀ found ∈ chars, belongs found = true) ∧ chars ≠ [] := by
  rw [result?_run?] at h
  split at h
  · cases h
  · rename_i some
    cases h
    obtain ⟨split, all, -⟩ := c.run_split belongs
    exact ⟨.of_eq split rfl, all, some⟩

/-- A run that was read is one of its class. -/
theorem within_of_run? {chars : List Char}
    (h : Parsed.result? (c.run? belongs) = some (chars, next))
    : Within belongs c next := by
  obtain ⟨passage, all, -⟩ := passage_of_run? h
  exact ⟨chars, passage, all⟩

/-- A number that was read is made of digits. -/
theorem within_of_digits? {count n : Nat} (h : Parsed.result? (c.digits? count) = some (n, next))
    : Within Char.isDigit c next := by
  rw [result?_digits?] at h
  split at h
  · rename_i digits
    cases h
    exact ⟨c.rest.take count, .of_eq (List.take_append_drop ..).symm rfl,
      List.all_eq_true.mp digits.2⟩
  · cases h

theorem within_of_digitsAfter? {mark : Char} {count n : Nat}
    (h : Parsed.result? (c.digitsAfter? mark count) = some (n, next)) (member : belongs mark = true)
    (digits : ∀ c, c.isDigit = true → belongs c = true)
    : Within belongs c next := by
  rw [result?_digitsAfter?] at h
  obtain ⟨marked, hm, hd⟩ := Option.bind_eq_some_iff.mp h
  exact (within_of_char? hm member).trans ((within_of_digits? hd).mono digits)

end Cursor

end DueTasks.Text

import DueTasks.Proofs.Text.Reading

/-! Reading two texts that agree up to a border.
A reader that stays before the border cannot tell the texts apart, unless it looks beyond. Readers
are compared for as long as the first of them has not passed the border; where a reader of
characters would go on behind the border, it has to be known that the second text does not let it.
-/

namespace DueTasks.Text

/-- Two texts, each from some offset on, that agree up to a border and go on behind it with their
tails.
-/
structure Border where
  base : Nat
  base' : Nat
  tail : List Char
  tail' : List Char

namespace Border

variable {α β γ δ : Type} {b : Border}

/-- Two places with the same text up to the border. -/
inductive Beside (b : Border) : Cursor → Cursor → Prop where
  | intro (count : Nat) (chars : List Char)
    : Beside b ⟨b.base + count, chars ++ b.tail⟩ ⟨b.base' + count, chars ++ b.tail'⟩

/-- A place in the tail of the first text. -/
def Passed (b : Border) (c : Cursor) : Prop :=
  c.remaining < b.tail.length

/-- Reading in the first text, if it passes the border, tells nothing about the second text;
otherwise both find the same at places beside each other.
-/
inductive Keeps (b : Border) (same : α → β → Prop)
    : Option (α × Cursor) → Option (β × Cursor) → Prop where
  | passed {value : α} {next : Cursor} {right : Option (β × Cursor)} (h : b.Passed next)
    : Keeps b same (some (value, next)) right
  | absent : Keeps b same none none
  | found {value : α} {value' : β} {next next' : Cursor} (h : same value value')
      (places : b.Beside next next')
    : Keeps b same (some (value, next)) (some (value', next'))

/-- As `Keeps`, and where the first reader passes the border, the second one finds nothing. -/
inductive Tracks (b : Border) (same : α → β → Prop)
    : Option (α × Cursor) → Option (β × Cursor) → Prop where
  | passed {value : α} {next : Cursor} (h : b.Passed next)
    : Tracks b same (some (value, next)) none
  | absent : Tracks b same none none
  | found {value : α} {value' : β} {next next' : Cursor} (h : same value value')
      (places : b.Beside next next')
    : Tracks b same (some (value, next)) (some (value', next'))

theorem Keeps.map {same : α → β → Prop} {next : γ → δ → Prop} {left : Option (α × Cursor)}
    {right : Option (β × Cursor)} {change : α → γ} {change' : β → δ} (h : b.Keeps same left right)
    (values : ∀ value value', same value value' → next (change value) (change' value'))
    : b.Keeps next (left.map fun found => (change found.1, found.2))
        (right.map fun found => (change' found.1, found.2)) := by
  cases h with
  | passed h => exact .passed h
  | absent => exact .absent
  | found h places => exact .found (values _ _ h) places

/-- As `Keeps`, for readers that always find something. -/
def Stays (b : Border) (same : α → β → Prop) (left : α × Cursor) (right : β × Cursor) : Prop :=
  b.Passed left.2 ∨ same left.1 right.1 ∧ b.Beside left.2 right.2

/-- Readers that always find something keep to each other. -/
theorem Stays.keeps {same : α → β → Prop} {left : α × Cursor} {right : β × Cursor}
    (h : b.Stays same left right)
    : b.Keeps same (some left) (some right) := by
  rcases h with passed | ⟨h, places⟩
  · exact .passed passed
  · exact .found h places

theorem Tracks.of_border {same : α → β → Prop} {bound : Nat} (found : Option (Parsed α bound))
    (le : bound ≤ b.tail.length)
    : b.Tracks same (Parsed.result? found) none := by
  cases found with
  | none => exact .absent
  | some found => exact .passed (Nat.lt_of_lt_of_le found.within le)

theorem Tracks.map {same : α → β → Prop} {next : γ → δ → Prop} {left : Option (α × Cursor)}
    {right : Option (β × Cursor)} {change : α → γ} {change' : β → δ} (h : b.Tracks same left right)
    (values : ∀ value value', same value value' → next (change value) (change' value'))
    : b.Tracks next (left.map fun found => (change found.1, found.2))
        (right.map fun found => (change' found.1, found.2)) := by
  cases h with
  | passed h => exact .passed h
  | absent => exact .absent
  | found h places => exact .found (values _ _ h) places

/-- Readers in sequence track each other, where the second reading goes on from the first one. -/
theorem Tracks.bind {same : α → β → Prop} {next : γ → δ → Prop} {left : Option (α × Cursor)}
    {right : Option (β × Cursor)} {more : α × Cursor → Option (γ × Cursor)}
    {more' : β × Cursor → Option (δ × Cursor)} (h : b.Tracks same left right)
    (forward
      : ∀ before value later, more before = some (value, later)
        → later.remaining ≤ before.2.remaining)
    (rest
      : ∀ value value' c c', same value value' → b.Beside c c'
        → b.Tracks next (more (value, c)) (more' (value', c')))
    : b.Tracks next (left.bind more) (right.bind more') := by
  cases h with
  | absent => exact .absent
  | found h places => exact rest _ _ _ _ h places
  | @passed value c h =>
      simp only [Option.bind_some, Option.bind_none]
      cases he : more (value, c) with
      | none => exact .absent
      | some found => exact .passed (Nat.lt_of_le_of_lt (forward _ _ _ he) h)

/-- A place has only one place beside it. -/
theorem Beside.eq {c d d' : Cursor} (h : b.Beside c d) (h' : b.Beside c d') : d = d' := by
  obtain ⟨count, chars⟩ := h
  generalize place : Cursor.mk (b.base + count) (chars ++ b.tail) = c at h'
  obtain ⟨count', chars'⟩ := h'
  obtain ⟨counted, text⟩ := Cursor.mk.inj place
  rw [Nat.add_left_cancel counted, List.append_cancel_right text]

/-- A given character is found before the border in both texts or in none, if the second text does
not go on with it.
-/
theorem Beside.char? {c c' : Cursor} (h : b.Beside c c') {expected : Char}
    (stop : b.tail'.head? ≠ some expected)
    : b.Tracks Eq (Parsed.result? (c.char? expected)) (Parsed.result? (c'.char? expected)) := by
  obtain ⟨count, _ | ⟨found, chars⟩⟩ := h
  · have right : Cursor.char? ⟨b.base' + count, b.tail'⟩ expected = none :=
      Cursor.char?_eq_none stop
    simp only [List.nil_append, right, Parsed.result?_none]
    exact .of_border _ (Nat.le_refl _)
  · simp only [List.cons_append, Cursor.result?_char?_cons, Nat.add_assoc]
    split
    · exact .found rfl (.intro _ chars)
    · exact .absent

/-- The longest run of a class is the same in both texts, if the second one does not go on with the
class and the first one has not passed the border.
-/
theorem Beside.run? {c c' : Cursor} (h : b.Beside c c') {belongs : Char → Bool}
    (stop : stops belongs b.tail' = true)
    : b.Keeps Eq (Parsed.result? (c.run? belongs)) (Parsed.result? (c'.run? belongs)) := by
  obtain ⟨count, chars⟩ := h
  simp only [Cursor.result?_run?]
  rcases Cursor.run_or_split belongs chars with all | ⟨run, found, more, rfl, all, other⟩
  · -- the run goes up to the border, and only the first text may go on
    rw [Cursor.run_append belongs _ all stop, Cursor.skip_append belongs _ all stop]
    cases hs : stops belongs b.tail with
    | true =>
        rw [Cursor.run_append belongs _ all hs, Cursor.skip_append belongs _ all hs, Nat.add_assoc,
          Nat.add_assoc]
        split
        · exact .absent
        · exact .found rfl (.intro _ [])
    | false =>
        obtain ⟨found, tail, ht, belongs_found⟩ := exists_cons_of_not_stops hs
        rw [if_neg (by simp [Cursor.run, List.takeWhile_append_of_pos all, ht, belongs_found])]
        refine .passed ?_
        simp only [Passed, Cursor.skip, Cursor.remaining, List.dropWhile_append_of_pos all, ht,
          List.dropWhile_cons_of_pos belongs_found, List.length_cons]
        exact Nat.lt_succ_of_le (List.dropWhile_suffix belongs).length_le
  · have before (tail : List Char) : stops belongs (found :: (more ++ tail)) = true := by
      simpa using other
    simp only [List.append_assoc, List.cons_append, Cursor.run_append belongs _ all (before _),
      Cursor.skip_append belongs _ all (before _), Nat.add_assoc]
    split
    · exact .absent
    · exact .found rfl (.intro _ (found :: more))

/-- A number with a fixed count of digits is found before the border in both texts or in none, if
the second text does not go on with a digit.
-/
theorem Beside.digits? {c c' : Cursor} (h : b.Beside c c') (count : Nat)
    (stop : stops Char.isDigit b.tail' = true)
    : b.Tracks Eq (Parsed.result? (c.digits? count)) (Parsed.result? (c'.digits? count)) := by
  obtain ⟨offset, chars⟩ := h
  by_cases short : chars.length < count
  · have right
        : Parsed.result? (Cursor.digits? count ⟨b.base' + offset, chars ++ b.tail'⟩) = none := by
      rw [Cursor.result?_digits?, if_neg]
      rintro ⟨full, digits⟩
      rw [List.take_append, List.take_of_length_le (Nat.le_of_lt short)] at full digits
      rcases ht : b.tail' with _ | ⟨found, tail⟩
      · simp [ht] at full
        omega
      · obtain ⟨more, hm⟩ : ∃ more, count - chars.length = more + 1 :=
          ⟨count - chars.length - 1, by omega⟩
        simp [ht, hm] at digits stop
        simp [stop] at digits
    rw [right]
    refine .of_border _ ?_
    simp only [Cursor.remaining_mk, List.length_append]
    omega
  · have long : count ≤ chars.length := Nat.le_of_not_lt short
    simp only [Cursor.result?_digits?, List.take_append_of_le_length long,
      List.drop_append_of_le_length long, Nat.add_assoc]
    split
    · exact .found rfl (.intro _ _)
    · exact .absent

/-- A number behind a mark is found before the border in both texts or in none, if the second text
goes on with neither.
-/
theorem Beside.digitsAfter? {c c' : Cursor} (h : b.Beside c c') {mark : Char} (count : Nat)
    (unmarked : b.tail'.head? ≠ some mark) (stop : stops Char.isDigit b.tail' = true)
    : b.Tracks Eq (Parsed.result? (c.digitsAfter? mark count))
        (Parsed.result? (c'.digitsAfter? mark count)) := by
  rw [Cursor.result?_digitsAfter?, Cursor.result?_digitsAfter?]
  refine (h.char? unmarked).bind (fun before value later he => ?_) fun _ _ _ _ _ places => ?_
  · have := Parsed.remaining_lt he
    omega
  · exact places.digits? count stop

end Border

end DueTasks.Text

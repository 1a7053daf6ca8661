import DueTasks.Proofs.Trigger.Assembly
import DueTasks.Proofs.Trigger.Locality

/-! Exchanging what stands behind a piece of a trigger.
A piece is read up to the same place when the text behind it is exchanged for one that neither
belongs to it nor can be joined to it. The leaves of derivations keep their values then.
-/

namespace DueTasks

open Text Parsed

namespace Trigger

/-- A text may stand behind a piece in place of another one: it is the same, or no date or
annotation goes on with it. An ampersand may join it only if one may join the other one.
-/
structure Exchange (rest rest' : List Char) : Prop where
  shut : rest' = rest ∨ (Border.mk 0 0 rest rest').Shut
  joins : ∀ offset offset', NoOperator '&' ⟨offset, rest⟩ → NoOperator '&' ⟨offset', rest'⟩

namespace Exchange

variable {rest rest' : List Char}

theorem refl (rest : List Char) : Exchange rest rest :=
  ⟨.inl rfl, fun _ offset' h => h.elsewhere offset'⟩

/-- A text that no annotation and no ampersand goes on with can stand in place of any other one. -/
theorem of_closed (stop : stops isSuffixPart rest' = true)
    (period : ∀ offset, Period.read? ⟨offset, rest'⟩ = none)
    (both : ∀ offset, NoOperator '&' ⟨offset, rest'⟩) (rest : List Char)
    : Exchange rest rest' :=
  ⟨.inr ⟨stop, fun _ offset' _ => period offset'⟩, fun _ offset' _ => both offset'⟩

/-- Texts that can be exchanged are read alongside each other: there is a shut border that no reader
passes as long as it stays before them.
-/
theorem exists_border (h : Exchange rest rest') (offset offset' : Nat)
    : ∃ b : Border,
        b.Shut
        ∧ (∀ chars, b.Beside ⟨offset, chars ++ rest⟩ ⟨offset', chars ++ rest'⟩)
        ∧ (∀ c, rest.length ≤ c.remaining → ¬ b.Passed c)
        ∧ ∀ before after d,
            b.Beside ⟨offset + byteLength before, after ++ rest⟩ d
            → d = ⟨offset' + byteLength before, after ++ rest'⟩ := by
  rcases h.shut with rfl | shut
  · refine ⟨⟨offset, offset', [], []⟩, ⟨rfl, fun _ _ _ => rfl⟩, fun chars => ?_, ?_, ?_⟩
    · have beside : (Border.mk offset offset' [] []).Beside ⟨offset + 0, (chars ++ rest') ++ []⟩
          ⟨offset' + 0, (chars ++ rest') ++ []⟩ := .intro 0 (chars ++ rest')
      simpa only [List.append_nil, Nat.add_zero] using beside
    · exact fun c _ => Nat.not_lt_zero _
    · intro before after d beside
      generalize place : (⟨offset + byteLength before, after ++ rest'⟩ : Cursor) = c at beside
      obtain ⟨count, chars⟩ := beside
      obtain ⟨counted, text⟩ := Cursor.mk.inj place
      simp only [List.append_nil] at text ⊢
      rw [text, Nat.add_left_cancel counted]
  · refine ⟨⟨offset, offset', rest, rest'⟩, ⟨shut.stop, shut.period⟩, fun chars => ?_, ?_, ?_⟩
    · exact .intro 0 chars
    · exact fun c le => Nat.not_lt.mpr le
    · intro before after d beside
      generalize place : (⟨offset + byteLength before, after ++ rest⟩ : Cursor) = c at beside
      obtain ⟨count, chars⟩ := beside
      obtain ⟨counted, text⟩ := Cursor.mk.inj place
      simp only at text ⊢
      rw [List.append_cancel_right text, Nat.add_left_cancel counted]

/-- Annotations are read up to the same place. -/
theorem readSuffix (h : Exchange rest rest') {offset : Nat} {marks : List Char} {suffix : Suffix}
    (read
      : (Trigger.readSuffix ⟨offset, marks ++ rest⟩).result
        = .ok (suffix, ⟨offset + byteLength marks, rest⟩))
    (offset' : Nat)
    : ∃ suffix',
        (Trigger.readSuffix ⟨offset', marks ++ rest'⟩).result
          = .ok (suffix', ⟨offset' + byteLength marks, rest'⟩)
        ∧ suffix'.plain = suffix.plain := by
  obtain ⟨b, shut, beside, stays, place⟩ := h.exists_border offset offset'
  have follows := (beside marks).readSuffix shut
  rw [read] at follows
  generalize (Trigger.readSuffix ⟨offset', marks ++ rest'⟩).result = right at follows
  cases follows with
  | lost passed => exact absurd passed (stays _ (Nat.le_refl _))
  | @found _ suffix' _ d' same places =>
      refine ⟨suffix', ?_, by rw [same, Suffix.plain_mapSpan]⟩
      rw [place marks [] d' places, List.nil_append]

/-- A date in front of more text is read up to the same place. -/
theorem readDate? (h : Exchange rest rest') {offset : Nat} {token marks : List Char} {value : Date}
    (read
      : result? (Date.read? ⟨offset, token ++ (marks ++ rest)⟩)
        = some (value, ⟨offset + byteLength token, marks ++ rest⟩))
    (offset' : Nat)
    : result? (Date.read? ⟨offset', token ++ (marks ++ rest')⟩)
      = some (value, ⟨offset' + byteLength token, marks ++ rest'⟩) := by
  obtain ⟨b, shut, beside, stays, place⟩ := h.exists_border offset offset'
  have keeps := (beside (token ++ marks)).readDate? (shut.head?_ne rfl) shut.stops_isDigit
  rw [List.append_assoc, List.append_assoc, read] at keeps
  generalize result? (Date.read? ⟨offset', token ++ (marks ++ rest')⟩) = right at keeps
  cases keeps with
  | passed passed => exact absurd passed (stays _ (by simp))
  | found same places => rw [place token marks _ places, same]

theorem read?_eq_none (h : Exchange rest rest') {offset : Nat} (chars : List Char)
    (absent : Period.read? ⟨offset, chars ++ rest⟩ = none) (offset' : Nat)
    : Period.read? ⟨offset', chars ++ rest'⟩ = none := by
  obtain ⟨b, shut, beside, stays, place⟩ := h.exists_border offset offset'
  have keeps := (beside chars).readPeriod? shut.stops_isAlphanum shut.period
  rw [absent, result?_none] at keeps
  generalize he : result? (Period.read? ⟨offset', chars ++ rest'⟩) = right at keeps
  cases keeps with
  | absent => exact result?_eq_none.mp he

/-- What stands behind blanks and a character that is no annotation can be exchanged, if it begins
no period where it did not before.
-/
theorem of_gap {blanks : List Char} {found : Char} (all : ∀ c ∈ blanks, isSpaceOrTab c = true)
    (visible : isSpaceOrTab found = false) (other : isSuffixPart found = false)
    (period
      : ∀ offset offset', Period.read? ⟨offset, blanks ++ found :: rest⟩ = none
        → Period.read? ⟨offset', blanks ++ found :: rest'⟩ = none)
    : Exchange (blanks ++ found :: rest) (blanks ++ found :: rest') where
  shut := .inr ⟨stops_gap all other rest', period⟩
  joins offset offset' h := by
    rw [noOperator_append all visible] at h ⊢
    exact h

/-- What stands behind the operand of an operator can be exchanged with other blanks and the next
operand, if no blanks that were there are left out and if the operand begins no period behind a plus
sign where it did not before.
-/
theorem of_operator {symbol : Char} {blanks blanks' blanks'' old new : List Char}
    (all : ∀ c ∈ blanks, isSpaceOrTab c = true) (all' : ∀ c ∈ blanks'', isSpaceOrTab c = true)
    (bare : blanks'' = [] → blanks' = []) (isOperator : symbol = '&' ∨ symbol = '+')
    (period
      : ∀ offset offset', Period.read? ⟨offset, '+' :: (old ++ rest)⟩ = none
        → Period.read? ⟨offset', '+' :: (new ++ rest')⟩ = none)
    : Exchange (blanks ++ symbol :: blanks' ++ (old ++ rest))
        (blanks ++ symbol :: blanks'' ++ (new ++ rest')) := by
  have visible : isSpaceOrTab symbol = false ∧ isSuffixPart symbol = false := by
    rcases isOperator with rfl | rfl <;> decide
  have period (offset offset' : Nat)
      (absent : Period.read? ⟨offset, blanks ++ symbol :: blanks' ++ (old ++ rest)⟩ = none)
      : Period.read? ⟨offset', blanks ++ symbol :: blanks'' ++ (new ++ rest')⟩ = none := by
    rcases read?_operator_eq_none all all' isOperator (new ++ rest') with never | plus
    · exact never offset'
    · obtain ⟨rfl, plus⟩ | ⟨-, ⟨⟩⟩ := List.append_eq_singleton_iff.mp plus
      obtain ⟨rfl, rfl⟩ := List.cons.inj plus
      rw [bare rfl] at absent
      exact period offset offset' absent
  rw [List.append_assoc, List.append_assoc] at period ⊢
  exact .of_gap all visible.1 visible.2 period

end Exchange

end Trigger

end DueTasks

import DueTasks.Proofs.Text.Reading
import DueTasks.Trigger.Parser

/-! What readers of triggers answer.
As with readers of characters, a reading is compared by its value and the place behind it, and a
reading that fails by its fault. Two readings are compared for as long as the first one is neither
final nor lost.
-/

namespace DueTasks

open Text Parsed

namespace Reply

variable {α β γ δ : Type} {bound : Nat}

/-- What was read and the place behind it, or the fault. -/
def result (reply : Reply α bound) : Except Fault (α × Cursor) :=
  reply.map Parsed.result

@[simp] theorem result_ok (p : Parsed α bound) : result (.ok p) = .ok p.result := rfl

/-- A result is that of a reading. -/
theorem result_eq_ok {reply : Reply α bound} {value : α} {next : Cursor}
    (h : result reply = .ok (value, next))
    : ∃ p, reply = .ok p ∧ p.value = value ∧ p.next = next := by
  cases reply with
  | error fault => cases h
  | ok p =>
      cases h
      exact ⟨p, rfl, rfl, rfl⟩

theorem remaining_lt {reply : Reply α bound} {value : α} {next : Cursor}
    (h : result reply = .ok (value, next))
    : next.remaining < bound := by
  obtain ⟨p, -, -, rfl⟩ := result_eq_ok h
  exact p.within

@[simp] theorem ok_bind (found : α) (more : α → Except Fault β)
    : Except.ok found >>= more = more found := rfl

/-- Readers in sequence find something only if each of them does. -/
theorem bind_eq_ok {answer : Except Fault α} {more : α → Except Fault β} {found : β}
    (h : answer >>= more = .ok found)
    : ∃ value, answer = .ok value ∧ more value = .ok found := by
  cases answer with
  | error fault => cases h
  | ok value => exact ⟨value, rfl, h⟩

/-- Readers in sequence have the fault of the first one that has a fault. -/
theorem bind_eq_error {answer : Except Fault α} {more : α → Except Fault β} {fault : Fault}
    (h : answer >>= more = .error fault)
    : answer = .error fault ∨ ∃ value, answer = .ok value ∧ more value = .error fault := by
  cases answer with
  | error other => exact .inl (by cases h; rfl)
  | ok value => exact .inr ⟨value, rfl, h⟩

theorem result_bind {large : Nat} {reply : Reply α bound} {more : Parsed α bound → Reply β large}
    {more' : α × Cursor → Except Fault (β × Cursor)} (h : ∀ p, (more p).result = more' p.result)
    : result (reply >>= more) = result reply >>= more' := by
  cases reply with
  | error fault => rfl
  | ok p => exact h p

/-- Every fault is final. -/
def Final (answer : Except Fault α) : Prop :=
  ∀ fault, answer = .error fault → fault.committed = true

theorem final_error {fault : Fault} (h : fault.committed = true)
    : Final (.error fault : Except Fault α) := by
  rintro _ ⟨⟩
  exact h

theorem final_ok (found : α) : Final (.ok found) :=
  fun _ h => nomatch h

/-- Readers in sequence have final faults only if each of them does. -/
theorem Final.bind {answer : Except Fault α} {more : α → Except Fault β} (h : Final answer)
    (rest : ∀ found, answer = .ok found → Final (more found))
    : Final (answer >>= more) := by
  intro fault he
  cases answer with
  | error other =>
      cases he
      exact h _ rfl
  | ok found => exact rest found rfl fault he

/-- A reading in the first of two texts that is final or lost tells nothing about the second text;
otherwise both texts are rejected, or both hold the same up to places that keep to each other.
-/
inductive Follows (lost : Cursor → Prop) (keep : Cursor → Cursor → Prop) (same : α → β → Prop)
    : Except Fault (α × Cursor) → Except Fault (β × Cursor) → Prop where
  | final {fault : Fault} {right : Except Fault (β × Cursor)} (h : fault.committed = true)
    : Follows lost keep same (.error fault) right
  | lost {value : α} {next : Cursor} {right : Except Fault (β × Cursor)} (h : lost next)
    : Follows lost keep same (.ok (value, next)) right
  | rejected {fault fault' : Fault} (h : fault.committed = false) (h' : fault'.committed = false)
    : Follows lost keep same (.error fault) (.error fault')
  | found {value : α} {value' : β} {next next' : Cursor} (h : same value value')
      (places : keep next next')
    : Follows lost keep same (.ok (value, next)) (.ok (value', next'))

variable {lost lost' : Cursor → Prop} {keep keep' : Cursor → Cursor → Prop} {same : α → β → Prop}
  {next : γ → δ → Prop}

/-- A reading that can only be final or lost follows nothing in particular. -/
theorem Follows.of_lost {left : Except Fault (α × Cursor)} {right : Except Fault (β × Cursor)}
    (final : Final left) (forward : ∀ value later, left = .ok (value, later) → lost later)
    : Follows lost keep same left right := by
  cases left with
  | error fault => exact .final (final fault rfl)
  | ok found => exact .lost (forward _ _ rfl)

/-- Readers in sequence follow each other, where the second reading has final faults only and does
not come back from where the first one was lost.
-/
theorem Follows.bind {left : Except Fault (α × Cursor)} {right : Except Fault (β × Cursor)}
    {more : α × Cursor → Except Fault (γ × Cursor)} {more' : β × Cursor → Except Fault (δ × Cursor)}
    (h : Follows lost keep same left right)
    (final : ∀ before, lost before.2 → Final (more before))
    (forward
      : ∀ before value later, lost before.2 → more before = .ok (value, later) → lost' later)
    (rest
      : ∀ value value' c c', left = .ok (value, c) → same value value' → keep c c'
        → Follows lost' keep' next (more (value, c)) (more' (value', c')))
    : Follows lost' keep' next (left >>= more) (right >>= more') := by
  cases h with
  | final h => exact .final h
  | rejected h h' => exact .rejected h h'
  | found h places => exact rest _ _ _ _ rfl h places
  | lost h => exact .of_lost (final _ h) fun _ _ he => forward _ _ _ h he

end Reply

end DueTasks

import DueTasks.Task.Context

/-! Actions that answer alike.
An action is compared with another one by what both answer from related states. The comparison may
give up on errors of the second action that count as lost; it then says nothing about the first.
-/

namespace DueTasks

-----------------------------------------------------------------------------------------
-- Answers that are the same
-----------------------------------------------------------------------------------------

/-- Two answers hold the same value, or errors that count as the same. -/
inductive SameAnswer {ε ε' α : Type} (same : ε → ε' → Prop) : Except ε α → Except ε' α → Prop where
  | ok (value : α) : SameAnswer same (.ok value) (.ok value)
  | error {left : ε} {right : ε'} (h : same left right)
    : SameAnswer same (.error left) (.error right)

namespace SameAnswer

variable {ε ε' ε'' α β : Type} {same : ε → ε' → Prop}

theorem refl {same : ε → ε → Prop} (h : ∀ error, same error error) (answer : Except ε α)
    : SameAnswer same answer answer := by
  cases answer with
  | ok value => exact .ok value
  | error error => exact .error (h error)

theorem swap {left : Except ε α} {right : Except ε' α} {back : ε' → ε → Prop}
    (h : SameAnswer same left right) (turn : ∀ a b, same a b → back b a)
    : SameAnswer back right left := by
  cases h with
  | ok value => exact .ok value
  | error h => exact .error (turn _ _ h)

theorem trans {next : ε' → ε'' → Prop} {far : ε → ε'' → Prop} {left : Except ε α}
    {middle : Except ε' α} {right : Except ε'' α} (h : SameAnswer same left middle)
    (h' : SameAnswer next middle right) (compose : ∀ a b c, same a b → next b c → far a c)
    : SameAnswer far left right := by
  cases h with
  | ok value =>
      cases h'
      exact .ok value
  | error h =>
      cases h' with
      | error h' => exact .error (compose _ _ _ h h')

/-- Answers that are the same with errors compared by equality are equal. -/
theorem eq {left right : Except ε α} (h : SameAnswer Eq left right) : left = right := by
  cases h with
  | ok => rfl
  | error h => rw [h]

end SameAnswer

namespace Asking

variable {σ τ ε ε' ε₁ ε₂ α β : Type}

-----------------------------------------------------------------------------------------
-- What an action answers and leaves behind
-----------------------------------------------------------------------------------------

/-- What an action answers in a state, and the state that it leaves behind. -/
def outcome (action : Asking σ ε α) (state : σ) : Except ε α × σ :=
  action.run.run state

@[simp] theorem outcome_pure (value : α) (state : σ)
    : outcome (pure value : Asking σ ε α) state = (.ok value, state) := rfl

@[simp] theorem outcome_throw (error : ε) (state : σ)
    : outcome (throw error : Asking σ ε α) state = (.error error, state) := rfl

@[simp] theorem outcome_lift (answer : Except ε α) (state : σ)
    : outcome (liftM answer : Asking σ ε α) state = (answer, state) := by
  cases answer <;> rfl

theorem outcome_bind (action : Asking σ ε α) (next : α → Asking σ ε β) (state : σ)
    : outcome (action >>= next) state
      = match outcome action state with
        | (.ok value, later) => outcome (next value) later
        | (.error error, later) => (.error error, later) := by
  simp only [outcome, ExceptT.run_bind, StateT.run_bind]
  rcases h : (ExceptT.run action).run state with ⟨answer, later⟩
  cases answer <;> rfl

theorem outcome_map (f : α → β) (action : Asking σ ε α) (state : σ)
    : outcome (f <$> action) state
      = ((outcome action state).1.map f, (outcome action state).2) := by
  rw [← bind_pure_comp, outcome_bind]
  rcases outcome action state with ⟨answer, later⟩
  cases answer <;> rfl

theorem outcome_mapError (wrap : ε → ε') (action : Asking σ ε α) (state : σ)
    : outcome (action.mapError wrap) state
      = ((outcome action state).1.mapError wrap, (outcome action state).2) := rfl

theorem mapError_ok (wrap : ε → ε') (value : α)
    : (Except.ok value : Except ε α).mapError wrap = .ok value := rfl

/-- An answer that needs no state stays one when its error is changed. -/
theorem mapError_lift (wrap : ε → ε') (answer : Except ε α)
    : (liftM answer : Asking σ ε α).mapError wrap = liftM (answer.mapError wrap) := by
  cases answer <;> rfl

-----------------------------------------------------------------------------------------
-- Actions that follow each other
-----------------------------------------------------------------------------------------

/-- From related states the first action answers as the second one does and leaves related states,
unless the second one fails with an error that counts as lost.
-/
def Follows (keep : σ → τ → Prop) (same : ε → ε' → Prop) (lost : ε' → Prop)
    (left : Asking σ ε α) (right : Asking τ ε' α)
    : Prop :=
  ∀ s t, keep s t →
    (∃ error, (right.outcome t).1 = .error error ∧ lost error)
    ∨ (SameAnswer same (left.outcome s).1 (right.outcome t).1
        ∧ keep (left.outcome s).2 (right.outcome t).2)

/-- From related states both actions answer the same and leave related states. -/
def Agrees (keep : σ → τ → Prop) (left : Asking σ ε α) (right : Asking τ ε α) : Prop :=
  Follows keep Eq (fun _ => False) left right

namespace Follows

variable {keep : σ → τ → Prop} {same : ε → ε' → Prop} {lost : ε' → Prop}

theorem pure (value : α)
    : Follows keep same lost (Pure.pure value : Asking σ ε α) (Pure.pure value : Asking τ ε' α) :=
  fun _ _ kept => .inr ⟨.ok value, kept⟩

/-- Failing follows failing with an error that counts as the same. -/
theorem throw {left : ε} {right : ε'} (h : same left right)
    : Follows keep same lost (throwThe ε left : Asking σ ε α)
        (throwThe ε' right : Asking τ ε' α) :=
  fun _ _ kept => .inr ⟨.error h, kept⟩

/-- Answers that need no state follow each other if they are the same. -/
theorem lift {left : Except ε α} {right : Except ε' α} (h : SameAnswer same left right)
    : Follows keep same lost (liftM left : Asking σ ε α) (liftM right : Asking τ ε' α) := by
  cases h with
  | ok value => exact .pure value
  | error h => exact .throw h

/-- Any action follows one that fails with an error that counts as lost. -/
theorem of_lost {left : Asking σ ε α} {error : ε'} (h : lost error)
    : Follows keep same lost left (throwThe ε' error : Asking τ ε' α) :=
  fun _ _ _ => .inl ⟨error, rfl, h⟩

/-- An action that follows an answer follows every answer that is the same. -/
theorem trans_lift {same' : ε' → ε' → Prop} {far : ε → ε' → Prop} {left : Asking σ ε α}
    {middle right : Except ε' α}
    (h : Follows keep same (fun _ => False) left (liftM middle : Asking τ ε' α))
    (h' : SameAnswer same' middle right) (compose : ∀ a b c, same a b → same' b c → far a c)
    : Follows keep far (fun _ => False) left (liftM right : Asking τ ε' α) := by
  intro s t kept
  rcases h s t kept with ⟨_, _, none⟩ | ⟨answers, states⟩
  · exact none.elim
  · simp only [outcome_lift] at answers states ⊢
    exact .inr ⟨answers.trans h' compose, states⟩

/-- Sequences follow each other step by step: after equal values the rest starts from related
states, and after an error there is no rest.
-/
theorem bind {left : Asking σ ε α} {right : Asking τ ε' α} {leftNext : α → Asking σ ε β}
    {rightNext : α → Asking τ ε' β} (first : Follows keep same lost left right)
    (later : ∀ value, Follows keep same lost (leftNext value) (rightNext value))
    : Follows keep same lost (left >>= leftNext) (right >>= rightNext) := by
  intro s t kept
  simp only [outcome_bind]
  rcases first s t kept with ⟨error, failed, isLost⟩ | ⟨answers, states⟩
  · left
    rcases h : right.outcome t with ⟨answer, after⟩
    rw [h] at failed
    simp only at failed
    subst failed
    exact ⟨error, rfl, isLost⟩
  · rcases hl : left.outcome s with ⟨leftAnswer, leftState⟩
    rcases hr : right.outcome t with ⟨rightAnswer, rightState⟩
    rw [hl, hr] at answers states
    cases answers with
    | ok value => exact later value _ _ states
    | error h => exact .inr ⟨.error h, states⟩

theorem map {left : Asking σ ε α} {right : Asking τ ε' α} (f : α → β)
    (h : Follows keep same lost left right)
    : Follows keep same lost (f <$> left) (f <$> right) := by
  rw [← bind_pure_comp, ← bind_pure_comp]
  exact h.bind fun value => .pure (f value)

/-- Changed errors follow each other where the change respects what counts as the same and as
lost.
-/
theorem mapError {same' : ε₁ → ε₂ → Prop} {lost' : ε₂ → Prop} {left : Asking σ ε α}
    {right : Asking τ ε' α} {leftWrap : ε → ε₁} {rightWrap : ε' → ε₂}
    (h : Follows keep same lost left right)
    (wrapSame : ∀ a b, same a b → same' (leftWrap a) (rightWrap b))
    (wrapLost : ∀ b, lost b → lost' (rightWrap b))
    : Follows keep same' lost' (left.mapError leftWrap) (right.mapError rightWrap) := by
  intro s t kept
  simp only [outcome_mapError]
  rcases h s t kept with ⟨error, failed, isLost⟩ | ⟨answers, states⟩
  · exact .inl ⟨rightWrap error, by rw [failed]; rfl, wrapLost error isLost⟩
  · refine .inr ⟨?_, states⟩
    generalize (left.outcome s).1 = leftAnswer at answers
    generalize (right.outcome t).1 = rightAnswer at answers
    cases answers with
    | ok value => exact .ok value
    | error h => exact .error (wrapSame _ _ h)

/-- An action that follows another one without loss keeps what the comparison keeps of its state. -/
theorem keeps {kept : σ → Prop} {left : Asking σ ε α} {right : Asking τ ε' α}
    (h : Follows (fun s (_ : τ) => kept s) same (fun _ => False) left right) {s : σ} (t : τ)
    (holds : kept s)
    : kept (left.outcome s).2 := by
  rcases h s t holds with ⟨_, _, none⟩ | ⟨_, states⟩
  · exact none.elim
  · exact states

/-- An action that follows another one, whatever state that one starts from, follows the answer that
it gives in any state where that is no lost error.
-/
theorem answer {kept : σ → Prop} {left : Asking σ ε α} {right : Asking τ ε' α}
    (h : Follows (fun s (_ : τ) => kept s) same lost left right) (state : τ)
    (found : ∀ error, (right.outcome state).1 = .error error → ¬ lost error)
    : Follows (fun s (_ : τ) => kept s) same (fun _ => False) left
        (liftM (right.outcome state).1) := by
  intro s t holds
  rcases h s state holds with ⟨error, failed, isLost⟩ | ⟨answers, states⟩
  · exact absurd isLost (found error failed)
  · exact .inr ⟨by simpa only [outcome_lift] using answers, states⟩

end Follows

/-- Actions that agree still follow each other with their errors put in words, whatever counts as
lost.
-/
theorem Agrees.mapError {keep : σ → τ → Prop} {same : ε' → ε' → Prop} {lost : ε' → Prop}
    {left : Asking σ ε α} {right : Asking τ ε α} (wrap : ε → ε') (refl : ∀ error, same error error)
    (h : Agrees keep left right)
    : Follows keep same lost (left.mapError wrap) (right.mapError wrap) :=
  Follows.mapError h (fun _ _ equal => equal ▸ refl _) (fun _ none => none.elim)

-----------------------------------------------------------------------------------------
-- What the values of an action satisfy
-----------------------------------------------------------------------------------------

/-- Every value that an action answers with satisfies a property, from whatever state. -/
def Ensures (post : α → Prop) (action : Asking σ ε α) : Prop :=
  ∀ state value, (action.outcome state).1 = .ok value → post value

namespace Ensures

variable {post post' : α → Prop} {goal : β → Prop}

/-- A value without any action is the one that it answers with. -/
theorem pure {value : α} (h : post value) : Ensures post (Pure.pure value : Asking σ ε α) := by
  rintro state found ⟨rfl⟩
  exact h

theorem throw (error : ε) : Ensures post (throwThe ε error : Asking σ ε α) := by
  rintro state found ⟨⟩

theorem trivial (action : Asking σ ε α) : Ensures (fun _ => True) action :=
  fun _ _ _ => True.intro

theorem bind {action : Asking σ ε α} {next : α → Asking σ ε β} (first : Ensures post action)
    (later : ∀ value, post value → Ensures goal (next value))
    : Ensures goal (action >>= next) := by
  intro state value h
  rw [outcome_bind] at h
  rcases ran : action.outcome state with ⟨answer, middle⟩
  rw [ran] at h
  cases answer with
  | error error => cases h
  | ok found => exact later found (first state found (by rw [ran])) middle value h

/-- An action that ensures more ensures less. -/
theorem mono {action : Asking σ ε α} (h : Ensures post action)
    (weaker : ∀ value, post value → post' value)
    : Ensures post' action :=
  fun state value found => weaker value (h state value found)

end Ensures

-----------------------------------------------------------------------------------------
-- What the errors of an action satisfy
-----------------------------------------------------------------------------------------

/-- Every error that an action fails with is of a kind, from whatever state. -/
def FailsWith (kind : ε → Prop) (action : Asking σ ε α) : Prop :=
  ∀ state error, (action.outcome state).1 = .error error → kind error

namespace FailsWith

variable {kind : ε → Prop}

theorem pure (value : α) : FailsWith kind (Pure.pure value : Asking σ ε α) := by
  rintro state error ⟨⟩

theorem throw {error : ε} (h : kind error)
    : FailsWith kind (throwThe ε error : Asking σ ε α) := by
  rintro state found ⟨rfl⟩
  exact h

theorem bind {action : Asking σ ε α} {next : α → Asking σ ε β} (first : FailsWith kind action)
    (later : ∀ value, FailsWith kind (next value))
    : FailsWith kind (action >>= next) := by
  intro state error h
  rw [outcome_bind] at h
  rcases ran : action.outcome state with ⟨answer, middle⟩
  rw [ran] at h
  cases answer with
  | error found =>
      cases h
      exact first state error (by rw [ran])
  | ok value => exact later value middle error h

theorem map {action : Asking σ ε α} (f : α → β) (h : FailsWith kind action)
    : FailsWith kind (f <$> action) := by
  rw [← bind_pure_comp]
  exact h.bind fun value => .pure (f value)

/-- Changed errors are of the kind that the change gives them. -/
theorem mapError {action : Asking σ ε' α} {wrap : ε' → ε} (h : ∀ error, kind (wrap error))
    : FailsWith kind (action.mapError wrap) := by
  intro state error failed
  rw [outcome_mapError] at failed
  generalize (action.outcome state).1 = answer at failed
  cases answer with
  | ok value => cases failed
  | error found =>
      cases failed
      exact h found

end FailsWith

-----------------------------------------------------------------------------------------
-- What an action keeps of the state
-----------------------------------------------------------------------------------------

/-- From every state with a property the action ends in a state with that property. -/
def Stable (kept : σ → Prop) (action : Asking σ ε α) : Prop :=
  ∀ state, kept state → kept (action.outcome state).2

/-- A property is kept exactly if the action agrees with itself on the states that have it. -/
theorem stable_iff_agrees {kept : σ → Prop} {action : Asking σ ε α}
    : action.Stable kept ↔ action.Agrees (fun s t => s = t ∧ kept s) action := by
  constructor
  · rintro stable s t ⟨rfl, holds⟩
    exact .inr ⟨.refl (fun _ => rfl) _, rfl, stable s holds⟩
  · intro agrees s holds
    rcases agrees s s ⟨rfl, holds⟩ with ⟨_, _, none⟩ | ⟨_, _, later⟩
    · exact none.elim
    · exact later

-----------------------------------------------------------------------------------------
-- When an action fails
-----------------------------------------------------------------------------------------

/-- The answer is an error exactly if `fails` holds, and then one of a kind. -/
def ErrorIff (kind : ε → Prop) (fails : Prop) : Except ε α → Prop
  | .ok _ => ¬ fails
  | .error error => fails ∧ kind error

/-- From states with a property the action fails exactly if `fails` holds, and then with an error of
a kind. It ends in a state with that property.
-/
def FailsIff (kept : σ → Prop) (kind : ε → Prop) (fails : Prop) (action : Asking σ ε α) : Prop :=
  ∀ state,
    kept state → ErrorIff kind fails (action.outcome state).1 ∧ kept (action.outcome state).2

namespace FailsIff

variable {kept : σ → Prop} {kind : ε → Prop} {fails fails' : Prop}

theorem pure (value : α) : FailsIff kept kind False (Pure.pure value : Asking σ ε α) :=
  fun _ holds => ⟨id, holds⟩

theorem throw {error : ε} (h : kind error)
    : FailsIff kept kind True (throwThe ε error : Asking σ ε α) :=
  fun _ holds => ⟨⟨True.intro, h⟩, holds⟩

theorem congr {action : Asking σ ε α} (h : action.FailsIff kept kind fails) (same : fails ↔ fails')
    : action.FailsIff kept kind fails' :=
  propext same ▸ h

/-- A sequence fails exactly if one of its steps does. -/
theorem bind {action : Asking σ ε α} {next : α → Asking σ ε β}
    (first : action.FailsIff kept kind fails)
    (later : ∀ value, (next value).FailsIff kept kind fails')
    : FailsIff kept kind (fails ∨ fails') (action >>= next) := by
  intro state holds
  obtain ⟨answers, still⟩ := first state holds
  rw [outcome_bind]
  generalize action.outcome state = ran at answers still
  rcases ran with ⟨error | value, middle⟩
  · exact ⟨⟨.inl answers.1, answers.2⟩, still⟩
  · obtain ⟨answers', final⟩ := later value middle still
    refine ⟨?_, final⟩
    generalize ((next value).outcome middle).1 = answer at answers'
    cases answer with
    | error error => exact ⟨.inr answers'.1, answers'.2⟩
    | ok found => exact not_or.mpr ⟨answers, answers'⟩

theorem map {action : Asking σ ε α} (f : α → β) (h : action.FailsIff kept kind fails)
    : FailsIff kept kind fails (f <$> action) := by
  rw [← bind_pure_comp]
  exact (h.bind fun value => .pure (f value)).congr (or_iff_left not_false)

theorem mapError {kind' : ε' → Prop} {action : Asking σ ε α} {wrap : ε → ε'}
    (h : action.FailsIff kept kind fails) (wraps : ∀ error, kind error → kind' (wrap error))
    : (action.mapError wrap).FailsIff kept kind' fails := by
  intro state holds
  obtain ⟨answers, still⟩ := h state holds
  rw [outcome_mapError]
  refine ⟨?_, still⟩
  generalize (action.outcome state).1 = answer at answers
  cases answer with
  | ok value => exact answers
  | error error => exact ⟨answers.1, wraps error answers.2⟩

/-- An action without any errors does not fail. -/
theorem of_stable {action : Asking σ Empty α} {wrap : Empty → ε} (h : action.Stable kept)
    : (action.mapError wrap).FailsIff kept kind False := by
  intro state holds
  rw [outcome_mapError]
  refine ⟨?_, h state holds⟩
  cases (action.outcome state).1 with
  | ok value => exact id
  | error error => cases error

theorem stable {action : Asking σ ε α} (h : action.FailsIff kept kind fails)
    : action.Stable kept :=
  fun state holds => (h state holds).2

end FailsIff

-----------------------------------------------------------------------------------------
-- Answers with related values
-----------------------------------------------------------------------------------------

/-- Two answers hold related values or the same error. -/
inductive RelatedAnswers (rel : α → β → Prop) : Except ε α → Except ε β → Prop where
  | ok {left : α} {right : β} (h : rel left right) : RelatedAnswers rel (.ok left) (.ok right)
  | error (error : ε) : RelatedAnswers rel (.error error) (.error error)

/-- From related states both actions answer with related values or the same error and leave related
states.
-/
def Matches (keep : σ → τ → Prop) (rel : α → β → Prop) (left : Asking σ ε α) (right : Asking τ ε β)
    : Prop :=
  ∀ s t, keep s t →
    RelatedAnswers rel (left.outcome s).1 (right.outcome t).1
    ∧ keep (left.outcome s).2 (right.outcome t).2

namespace Matches

variable {keep : σ → τ → Prop} {rel : α → β → Prop}

theorem pure {left : α} {right : β} (h : rel left right)
    : Matches keep rel (Pure.pure left : Asking σ ε α) (Pure.pure right : Asking τ ε β) :=
  fun _ _ kept => ⟨.ok h, kept⟩

theorem throw (error : ε)
    : Matches keep rel (throwThe ε error : Asking σ ε α) (throwThe ε error : Asking τ ε β) :=
  fun _ _ kept => ⟨.error error, kept⟩

/-- Sequences match step by step: after related values the rest starts from related states. -/
theorem bind {γ δ : Type} {goal : γ → δ → Prop} {left : Asking σ ε α} {right : Asking τ ε β}
    {leftNext : α → Asking σ ε γ} {rightNext : β → Asking τ ε δ}
    (first : Matches keep rel left right)
    (later : ∀ a b, rel a b → Matches keep goal (leftNext a) (rightNext b))
    : Matches keep goal (left >>= leftNext) (right >>= rightNext) := by
  intro s t kept
  obtain ⟨answers, states⟩ := first s t kept
  simp only [outcome_bind]
  generalize left.outcome s = leftRan at answers states
  generalize right.outcome t = rightRan at answers states
  obtain ⟨leftAnswer, leftState⟩ := leftRan
  obtain ⟨rightAnswer, rightState⟩ := rightRan
  cases answers with
  | ok h => exact later _ _ h _ _ states
  | error error => exact ⟨.error error, states⟩

theorem map {γ δ : Type} {goal : γ → δ → Prop} {left : Asking σ ε α} {right : Asking τ ε β}
    {f : α → γ} {g : β → δ} (h : Matches keep rel left right)
    (keeps : ∀ a b, rel a b → goal (f a) (g b))
    : Matches keep goal (f <$> left) (g <$> right) := by
  rw [← bind_pure_comp, ← bind_pure_comp]
  exact h.bind fun a b related => .pure (keeps a b related)

theorem mapError {left : Asking σ ε α} {right : Asking τ ε β} (wrap : ε → ε')
    (h : Matches keep rel left right)
    : Matches keep rel (left.mapError wrap) (right.mapError wrap) := by
  intro s t kept
  obtain ⟨answers, states⟩ := h s t kept
  simp only [outcome_mapError]
  refine ⟨?_, states⟩
  generalize (left.outcome s).1 = leftAnswer at answers
  generalize (right.outcome t).1 = rightAnswer at answers
  cases answers with
  | ok h => exact .ok h
  | error error => exact .error (wrap error)

end Matches

-----------------------------------------------------------------------------------------
-- How an action answers
-----------------------------------------------------------------------------------------

/-- From every state with a property the action answers in a given way and keeps the property. -/
def Yields (kept : σ → Prop) (good : Except ε α → Prop) (action : Asking σ ε α) : Prop :=
  ∀ state, kept state → good (action.outcome state).1 ∧ kept (action.outcome state).2

/-- The values of an answer are of one kind and its errors of another. -/
def Answers (post : α → Prop) (kind : ε → Prop) : Except ε α → Prop
  | .ok value => post value
  | .error error => kind error

namespace Yields

variable {kept : σ → Prop} {good : Except ε α → Prop} {post : α → Prop} {kind : ε → Prop}

theorem pure {value : α} (h : good (.ok value))
    : Yields kept good (Pure.pure value : Asking σ ε α) :=
  fun _ holds => ⟨h, holds⟩

theorem throw {error : ε} (h : good (.error error))
    : Yields kept good (throwThe ε error : Asking σ ε α) :=
  fun _ holds => ⟨h, holds⟩

theorem lift {answer : Except ε α} (h : good answer)
    : Yields kept good (liftM answer : Asking σ ε α) := by
  intro state holds
  rw [outcome_lift]
  exact ⟨h, holds⟩

theorem mono {action : Asking σ ε α} {good' : Except ε α → Prop} (h : action.Yields kept good)
    (weaker : ∀ answer, good answer → good' answer)
    : action.Yields kept good' :=
  fun state holds => ⟨weaker _ (h state holds).1, (h state holds).2⟩

/-- A sequence answers as its last step does, or fails as its first one does. -/
theorem bind {goal : Except ε β → Prop} {action : Asking σ ε α} {next : α → Asking σ ε β}
    (first : action.Yields kept (Answers post kind))
    (later : ∀ value, post value → (next value).Yields kept goal)
    (fails : ∀ error, kind error → goal (.error error))
    : Asking.Yields kept goal (action >>= next) := by
  intro state holds
  obtain ⟨answered, between⟩ := first state holds
  rw [outcome_bind]
  generalize action.outcome state = ran at answered between ⊢
  rcases ran with ⟨error | value, middle⟩
  · exact ⟨fails error answered, between⟩
  · exact later value answered middle between

/-- A sequence of steps that fail alike fails like them. -/
theorem bind_alike {goal : β → Prop} {action : Asking σ ε α} {next : α → Asking σ ε β}
    (first : action.Yields kept (Answers post kind))
    (later : ∀ value, post value → (next value).Yields kept (Answers goal kind))
    : Asking.Yields kept (Answers goal kind) (action >>= next) :=
  first.bind later fun _ h => h

theorem mapError {action : Asking σ ε α} {kind' : ε' → Prop} {wrap : ε → ε'}
    (h : action.Yields kept (Answers post kind)) (wraps : ∀ error, kind error → kind' (wrap error))
    : (action.mapError wrap).Yields kept (Answers post kind') := by
  intro state holds
  obtain ⟨answered, still⟩ := h state holds
  rw [outcome_mapError]
  refine ⟨?_, still⟩
  generalize (action.outcome state).1 = answer at answered
  cases answer with
  | ok value => exact answered
  | error error => exact wraps error answered

/-- Keeping a property is answering in any way. -/
theorem of_stable {action : Asking σ ε α} (h : action.Stable kept)
    : action.Yields kept fun _ => True :=
  fun state holds => ⟨True.intro, h state holds⟩

theorem stable {action : Asking σ ε α} (h : action.Yields kept good) : action.Stable kept :=
  fun state holds => (h state holds).2

end Yields

end Asking

end DueTasks

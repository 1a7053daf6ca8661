import DueTasks.Proofs.Evaluation.Lockstep
import DueTasks.Proofs.Evaluation.Steps

/-! What the context is asked in the course of an evaluation.
A context that keeps a list of its questions answers as it did before. Each step asks the question
that is its own, and no step is taken behind one that fails.
-/

namespace DueTasks

open Asking

-----------------------------------------------------------------------------------------
-- Questions
-----------------------------------------------------------------------------------------

/-- What a context can be asked. -/
inductive Question where
  | today
  | resolve (id : String)
  | findHelper (program : String)
  | runHelper (words : List String)
  | callBuiltin (builtin : String) (words : List String)
  | ownLines
  | ownTarget
  | ownPath
deriving DecidableEq

/-- The question that a step asks. -/
def Step.question? (values : Values) : Step → Option Question
  | .now _ => some .today
  | .resolve _ id => some (.resolve id)
  | .find _ program => some (.findHelper program)
  | .run _ _ => some (.runHelper (HelperArg.expandAll values.args none))
  | .call _ builtin => some (.callBuiltin builtin (HelperArg.expandAll values.args none))
  | .line _ _ => some .ownLines
  | .target _ => some .ownTarget
  | .path _ => some .ownPath
  | _ => none

-----------------------------------------------------------------------------------------
-- A list of questions
-----------------------------------------------------------------------------------------

variable {σ ε ε' α β : Type}

/-- An action that puts a question on a list and then does what it did before. -/
def Asking.listed (question : Question) (action : Asking σ ε α) : Asking (σ × List Question) ε α :=
  ExceptT.mk fun (state, asked) =>
    let (answer, later) := action.outcome state
    (answer, (later, asked ++ [question]))

/-- The context with a list of the questions that it is asked, in their order. -/
def Context.listing (context : Context σ) : Context (σ × List Question) where
  now := context.now
  today := context.today.listed .today
  resolve id := (context.resolve id).listed (.resolve id)
  findHelper program := (context.findHelper program).listed (.findHelper program)
  runHelper words := (context.runHelper words).listed (.runHelper words)
  callBuiltin builtin words :=
    (context.callBuiltin builtin words).listed (.callBuiltin builtin words)
  ownLines := context.ownLines.listed .ownLines
  ownTarget := context.ownTarget.listed .ownTarget
  ownPath := context.ownPath.listed .ownPath

/-- An action with a list does what another one does, and the questions go on the list. -/
def Asking.Lists (questions : List Question) (listing : Asking (σ × List Question) ε α)
    (action : Asking σ ε α)
    : Prop :=
  ∀ state asked,
    listing.outcome (state, asked)
      = ((action.outcome state).1, ((action.outcome state).2, asked ++ questions))

namespace Asking.Lists

variable {questions : List Question} {listing : Asking (σ × List Question) ε α}
  {action : Asking σ ε α}

theorem pure (value : α)
    : Lists [] (Pure.pure value : Asking (σ × List Question) ε α)
        (Pure.pure value : Asking σ ε α) := by
  intro state asked
  simp only [outcome_pure, List.append_nil]

theorem throw (error : ε)
    : Lists [] (throwThe ε error : Asking (σ × List Question) ε α)
        (throwThe ε error : Asking σ ε α) := by
  intro state asked
  rw [List.append_nil]
  rfl

theorem listed (question : Question) (action : Asking σ ε α)
    : Lists [question] (action.listed question) action :=
  fun _ _ => rfl

theorem map (f : α → β) (h : Lists questions listing action)
    : Lists questions (f <$> listing) (f <$> action) := by
  intro state asked
  simp only [outcome_map, h state asked]

theorem mapError (wrap : ε → ε') (h : Lists questions listing action)
    : Lists questions (listing.mapError wrap) (action.mapError wrap) := by
  intro state asked
  simp only [outcome_mapError, h state asked]

/-- What follows puts nothing on the list, so it does not matter whether it is reached. -/
theorem bind {listingNext : α → Asking (σ × List Question) ε β} {next : α → Asking σ ε β}
    (h : Lists questions listing action)
    (later : ∀ value, Lists [] (listingNext value) (next value))
    : Lists questions (listing >>= listingNext) (action >>= next) := by
  intro state asked
  simp only [outcome_bind, h state asked]
  rcases action.outcome state with ⟨answer, middle⟩
  cases answer with
  | ok value => simp only [later value middle, List.append_nil]
  | error error => rfl

/-- An action with a list answers what the other one does. -/
theorem agrees (h : Lists questions listing action)
    : listing.Agrees (fun (state : σ × List Question) (state' : σ) => state.1 = state') action := by
  rintro ⟨state, asked⟩ _ rfl
  rw [h state asked]
  exact .inr ⟨.refl (fun _ => rfl) _, rfl⟩

end Asking.Lists

/-- A context answers the same with a list of its questions. -/
theorem Context.listing_follows (t : Trigger) (context : Context σ)
    : context.listing.Follows t (fun state state' => state.1 = state') Eq (fun _ => False)
        context where
  today := (Lists.listed _ context.today).agrees
  resolve _ id := (Lists.listed _ (context.resolve id)).agrees.mapError _ fun _ => rfl
  findHelper program := (Lists.listed _ (context.findHelper program)).agrees
  runHelper words := (Lists.listed _ (context.runHelper words)).agrees
  callBuiltin builtin words := (Lists.listed _ (context.callBuiltin builtin words)).agrees
  ownLines := (Lists.listed _ context.ownLines).agrees
  ownTarget := (Lists.listed _ context.ownTarget).agrees
  ownPath := (Lists.listed _ context.ownPath).agrees

namespace Trigger

variable (t : Trigger) (context : Context σ)

/-- A step asks its own question and no other one. -/
theorem perform_lists (step : Step) (values : Values)
    : Lists (step.question? values).toList (t.perform context.listing step values)
        (t.perform context step values) := by
  cases step with
  | now node => exact ((Lists.listed _ _).mapError _).map _
  | resolve node id => exact ((Lists.listed _ _).mapError _).map _
  | find node program => exact ((Lists.listed _ _).mapError _).map _
  | call node builtin => exact ((Lists.listed _ _).mapError _).map _
  | target node => exact ((Lists.listed _ _).mapError _).map _
  | path node => exact ((Lists.listed _ _).mapError _).map _
  | run node program =>
      refine (((Lists.listed _ _).mapError _).bind fun line => ?_).map _
      cases Date.ofText? line with
      | some date => exact .pure date
      | none => exact .throw _
  | line node requested =>
      refine (((Lists.listed _ _).mapError _).bind fun lines => ?_).map _
      generalize (do
        let number ← Text.readNatural? requested.toList
        if number = 0 then none else lines[number - 1]?) = found
      cases found with
      | some found => exact .pure found
      | none => exact .throw _
  | check node callee arg =>
      simp only [perform]
      cases values.args.getLast? with
      | none => exact .pure values
      | some value =>
          refine Lists.map _ ?_
          unfold expectNoPlace
          split
          · exact .throw _
          · exact .throw _
          · exact .pure ()
  | fail node error => exact .throw _
  | _ => exact .pure _

end Trigger

-----------------------------------------------------------------------------------------
-- Steps that are taken
-----------------------------------------------------------------------------------------

/-- A step that was taken, with the values before and after it. -/
structure Taken where
  step : Step
  before : Values
  after : Values

/-- The questions that steps asked, in the order of the steps. -/
def Taken.questions (taken : List Taken) : List Question :=
  taken.flatMap fun one => (one.step.question? one.before).toList

namespace Trigger

/-- Steps are taken one after the other, each with the values and the state that the step before it
left behind, and none of them fails.
-/
inductive Run (t : Trigger) (context : Context σ)
    : Values → σ → List Taken → Values → σ → Prop where
  | done (values : Values) (state : σ) : Run t context values state [] values state
  | step {step : Step} {before middle after : Values} {state next later : σ} {taken : List Taken}
      (performed : (t.perform context step before).outcome state = (.ok middle, next))
      (rest : Run t context middle next taken after later)
    : Run t context before state (⟨step, before, middle⟩ :: taken) after later

variable {t : Trigger} {context : Context σ} {values middle after : Values} {state next later : σ}
  {taken : List Taken}

/-- Steps in two parts are taken part by part. -/
theorem Run.of_append {first second : List Taken}
    (h : t.Run context values state (first ++ second) after later)
    : ∃ middle next,
        t.Run context values state first middle next
        ∧ t.Run context middle next second after later := by
  induction first generalizing values state with
  | nil => exact ⟨values, state, .done values state, h⟩
  | cons one first ih =>
      cases h with
      | step performed rest =>
          obtain ⟨middle, next, begun, ended⟩ := ih rest
          exact ⟨middle, next, .step performed begun, ended⟩

/-- Behind steps that were taken the rest goes on with what they left behind. -/
theorem Run.performAll (h : t.Run context values state taken middle next) (rest : List Step)
    : (t.performAll context (taken.map Taken.step ++ rest) values).outcome state
      = (t.performAll context rest middle).outcome next := by
  induction h with
  | done values state => rfl
  | step performed rest ih =>
      rw [List.map_cons, List.cons_append, performAll_cons, outcome_bind, performed]
      exact ih

/-- Steps that were taken have put their questions on the list. -/
theorem Run.listing (h : t.Run context values state taken middle next) (rest : List Step)
    (asked : List Question)
    : (t.performAll context.listing (taken.map Taken.step ++ rest) values).outcome (state, asked)
      = (t.performAll context.listing rest middle).outcome
          (next, asked ++ Taken.questions taken) := by
  induction h generalizing asked with
  | done values state => rw [Taken.questions, List.flatMap_nil, List.append_nil]; rfl
  | step performed rest ih =>
      rw [List.map_cons, List.cons_append, performAll_cons, outcome_bind,
        t.perform_lists context _ _, performed, Taken.questions, List.flatMap_cons,
        ← List.append_assoc]
      exact ih _

/-- A step that fails is the last one that is taken, and asks the last question. -/
theorem Run.stops (h : t.Run context values state taken middle next) {failing : Step}
    {error : TaskError} (rest : List Step)
    (failed : (t.perform context failing middle).outcome next = (.error error, later))
    : (t.performAll context (taken.map Taken.step ++ failing :: rest) values).outcome state
        = (.error error, later)
      ∧ (t.performAll context.listing (taken.map Taken.step ++ failing :: rest) values).outcome
          (state, [])
        = (.error error,
            (later, Taken.questions taken ++ (failing.question? middle).toList)) := by
  constructor
  · rw [h.performAll, performAll_cons, outcome_bind, failed]
  · rw [h.listing, performAll_cons, outcome_bind, t.perform_lists context, failed]
    rfl

/-- Either all steps are taken, or those in front of one that fails. -/
theorem run_or_fail (t : Trigger) (context : Context σ) (steps : List Step) (values : Values)
    (state : σ)
    : ∃ taken middle next,
        t.Run context values state taken middle next
        ∧ (steps = taken.map Taken.step
          ∨ ∃ failing rest error later,
              steps = taken.map Taken.step ++ failing :: rest
              ∧ (t.perform context failing middle).outcome next = (.error error, later)) := by
  induction steps generalizing values state with
  | nil => exact ⟨[], values, state, .done values state, .inl rfl⟩
  | cons step steps ih =>
      rcases performed : (t.perform context step values).outcome state with ⟨answer, next⟩
      cases answer with
      | error error =>
          exact ⟨[], values, state, .done values state,
            .inr ⟨step, steps, error, next, rfl, performed⟩⟩
      | ok middle =>
          obtain ⟨taken, after, later, run, ends⟩ := ih middle next
          refine ⟨_, after, later, .step performed run, ?_⟩
          rcases ends with rfl | ⟨failing, rest, error, final, rfl, failed⟩
          · exact .inl rfl
          · exact .inr ⟨failing, rest, error, final, rfl, failed⟩

end Trigger

end DueTasks

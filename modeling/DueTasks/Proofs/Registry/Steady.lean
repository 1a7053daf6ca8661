import DueTasks.Proofs.Evaluation.Lockstep
import DueTasks.Task.Builtins
import DueTasks.Task.Registry

/-! Surroundings that answer as functions of what they are asked.
Their state may change with every question, but no answer depends on it.
-/

namespace DueTasks

open Asking

variable {σ ε α : Type}

/-- From any two states the action answers the same. -/
def Asking.Steady (action : Asking σ ε α) : Prop :=
  action.Agrees (fun _ _ => True) action

/-- Every question about files has one answer. -/
structure TaskFiles.Steady (files : TaskFiles σ) : Prop where
  resolve : ∀ base text, (files.resolve base text).Steady
  facts : ∀ path, (files.facts path).Steady
  lines : ∀ path, (files.lines path).Steady
  target : ∀ path, (files.target path).Steady
  nativePath : ∀ path, (files.nativePath path).Steady
  findHelper : ∀ name, (files.findHelper name).Steady

/-- Every question about tag filters has one answer. -/
structure TagFilters.Steady (filters : TagFilters σ) : Prop where
  isOutput : ∀ path s t, ((filters.isOutput path).run s).1 = ((filters.isOutput path).run t).1
  requiresAction
    : ∀ path s t, ((filters.requiresAction path).run s).1 = ((filters.requiresAction path).run t).1

/-- Where every question about files and tag filters has one answer, so has every builtin. -/
def BuiltinTable.Steady (table : BuiltinTable σ) : Prop :=
  ∀ name scope args,
    scope.files.Steady → scope.filters.Steady → (table.call name scope args).Steady

/-- Every question to the surroundings has one answer, whatever was asked before. -/
structure Environment.Steady (environment : Environment σ) : Prop where
  files : environment.files.Steady
  run : ∀ words, (environment.run words).Steady
  filters : environment.filters.Steady
  builtins : environment.builtins.Steady

/-- Every question to the context of a task has one answer, whatever was asked before. -/
structure Context.Steady (context : Context σ) : Prop where
  today : context.today.Steady
  resolve : ∀ id, (context.resolve id).Steady
  findHelper : ∀ name, (context.findHelper name).Steady
  runHelper : ∀ words, (context.runHelper words).Steady
  callBuiltin : ∀ name words, (context.callBuiltin name words).Steady
  ownLines : context.ownLines.Steady
  ownTarget : context.ownTarget.Steady
  ownPath : context.ownPath.Steady

namespace Asking.Steady

theorem pure (value : α) : (Pure.pure value : Asking σ ε α).Steady :=
  Follows.pure value

theorem throw (error : ε) : (throwThe ε error : Asking σ ε α).Steady :=
  Follows.throw rfl

/-- An answer that needs no state is steady. -/
theorem lift (answer : Except ε α) : (liftM answer : Asking σ ε α).Steady := by
  cases answer with
  | ok value => exact pure value
  | error error => exact throw error

theorem bind {β : Type} {action : Asking σ ε α} {next : α → Asking σ ε β} (first : action.Steady)
    (later : ∀ value, Asking.Steady (next value))
    : Asking.Steady (action >>= next) :=
  Follows.bind first later

theorem mapError {ε' : Type} {action : Asking σ ε α} (wrap : ε → ε') (h : action.Steady)
    : (action.mapError wrap).Steady :=
  Agrees.mapError wrap (fun _ => rfl) h

theorem ofState {question : StateM σ α} (h : ∀ s t, (question.run s).1 = (question.run t).1)
    : (liftM question : Asking σ ε α).Steady := by
  intro s t _
  have answers : (outcome (liftM question : Asking σ ε α) s).1
      = (outcome (liftM question : Asking σ ε α) t).1 :=
    congrArg Except.ok (h s t)
  exact .inr ⟨answers ▸ SameAnswer.refl (fun _ => rfl) _, trivial⟩

/-- From every state a steady action answers the same. -/
theorem answer {action : Asking σ ε α} (steady : action.Steady) (state state' : σ)
    : (action.outcome state).1 = (action.outcome state').1 := by
  rcases steady state state' True.intro with ⟨_, _, none⟩ | ⟨answers, -⟩
  · exact none.elim
  · exact answers.eq

end Asking.Steady

/-- In a context with one answer to every question a trigger has one evaluation. -/
theorem Trigger.evaluate_steady {context : Context σ} (steady : context.Steady) (t : Trigger)
    : (t.evaluate context).Steady :=
  evaluate_follows (fun _ => rfl) {
    today := steady.today
    resolve := fun _ id => (steady.resolve id).mapError _
    findHelper := steady.findHelper
    runHelper := steady.runHelper
    callBuiltin := steady.callBuiltin
    ownLines := steady.ownLines
    ownTarget := steady.ownTarget
    ownPath := steady.ownPath
  }

namespace Builtin

/-- The standard builtins are steady, since all they ask are files and tag filters. -/
theorem standard_steady : (standard : BuiltinTable σ).Steady := by
  intro name scope args files filters
  unfold BuiltinTable.call standard
  simp only [List.lookup_cons, List.lookup_nil]
  split
  · exact .throw _
  · rename_i builtin found
    split at found
    · obtain rfl := Option.some.inj found
      refine (Steady.lift _).bind fun both => ?_
      refine ((files.resolve _ _).mapError _).bind fun place => ?_
      refine (Steady.ofState (filters.isOutput place)).bind fun output => ?_
      cases output
      · exact .throw _
      · refine (Steady.ofState (filters.requiresAction place)).bind fun required => ?_
        cases required
        · exact .pure _
        · exact .pure _
    · split at found
      · obtain rfl := Option.some.inj found
        refine (Steady.lift _).bind fun both => ?_
        refine ((files.resolve _ _).mapError _).bind fun place => ?_
        refine ((files.facts place).mapError _).bind fun facts => ?_
        split
        · split
          · exact .pure _
          · exact .pure _
        · exact .throw _
      · cases found

end Builtin

/-- Surroundings without files, in which every helper is found and prints one date. Their state
counts the helpers that were run.
-/
def Environment.counting : Environment Nat where
  now := .first
  files :=
    { resolve := fun _ text => throw (.outsideJail text)
      facts := fun path => throw (.notFound path.text)
      lines := fun path => throw (.notFound path.text)
      target := fun path => throw (.notALink path.text)
      nativePath := fun path => throw (.noNativePath path.text)
      findHelper := fun name => pure ⟨name⟩ }
  run _ := do
    modify (· + 1)
    return ⟨some 0, "2021-05-06", ""⟩
  filters := .none
  builtins := Builtin.standard

/-- A count that no answer shows leaves the surroundings steady. -/
theorem Environment.counting_steady : counting.Steady where
  files :=
    { resolve := fun _ _ => .throw _
      facts := fun _ => .throw _
      lines := fun _ => .throw _
      target := fun _ => .throw _
      nativePath := fun _ => .throw _
      findHelper := fun _ => .pure _ }
  run _ := (Steady.ofState fun _ _ => rfl).bind fun _ => .pure _
  filters := ⟨fun _ _ _ => rfl, fun _ _ _ => rfl⟩
  builtins := Builtin.standard_steady

/-- A steady action of the surroundings is an action of the session that keeps whatever does not
depend on the state of the surroundings.
-/
theorem Session.outside_agrees {keep : Session σ → Session σ → Prop} {action : Asking σ ε α}
    (steady : action.Steady)
    (closed : ∀ s t world world', keep s t → keep { s with world } { t with world := world' })
    : (outside action).Agrees keep (outside action) := by
  intro s t holds
  rcases steady s.world t.world trivial with ⟨_, _, none⟩ | ⟨answers, _⟩
  · exact none.elim
  · exact .inr ⟨answers, closed s t _ _ holds⟩

/-- An action of the surroundings keeps whatever does not depend on their state. -/
theorem Session.outside_stable {kept : Session σ → Prop}
    (closed : ∀ session world, kept session → kept { session with world })
    (action : Asking σ ε α)
    : (outside action).Stable kept :=
  fun session holds => closed session _ holds

section

variable (r : Registry σ) (steady : r.environment.Steady) {keep : Session σ → Session σ → Prop}
  (closed : ∀ s t world world', keep s t → keep { s with world } { t with world := world' })

include steady closed

theorem Registry.runHelper_agrees (entry : TaskEntry)
    (left right : String → Asking (Session σ) ReferenceError Date) (words : List String)
    : ((r.contextWith entry left).runHelper words).Agrees keep
        ((r.contextWith entry right).runHelper words) :=
  Session.outside_agrees ((steady.run words).bind fun _ => .lift _) closed

/-- In steady surroundings a task's context answers as another one does if their references do. -/
theorem Registry.contextWith_follows {t : Trigger} {same : TaskError → TaskError → Prop}
    {lost : TaskError → Prop} (entry : TaskEntry)
    {left right : String → Asking (Session σ) ReferenceError Date}
    (resolve
      : ∀ node id,
          ((left id).mapError (t.referenceError node)).Follows keep same lost
            ((right id).mapError (t.referenceError node)))
    : (r.contextWith entry left).Follows t keep same lost (r.contextWith entry right) where
  today := .pure _
  resolve := resolve
  findHelper name := Session.outside_agrees (steady.files.findHelper name) closed
  runHelper := r.runHelper_agrees steady closed entry left right
  callBuiltin name words :=
    Session.outside_agrees (steady.builtins name _ words steady.files steady.filters) closed
  ownLines := Session.outside_agrees (steady.files.lines _) closed
  ownTarget := Session.outside_agrees (steady.files.target _) closed
  ownPath := Session.outside_agrees (steady.files.nativePath _) closed

end

end DueTasks

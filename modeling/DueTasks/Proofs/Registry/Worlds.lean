import DueTasks.Proofs.Registry.Invariants
import DueTasks.Report.TaskReport
import DueTasks.Task.Builtins

/-! What batches keep of their surroundings.
A batch changes the state of its surroundings only by asking them and by running helpers. What all
of that keeps, its reports and done names keep too.
-/

namespace DueTasks

open Asking

variable {σ ε ε' α β : Type}

namespace Asking.Stable

variable {kept : σ → Prop}

theorem throw (error : ε) : (throwThe ε error : Asking σ ε α).Stable kept :=
  fun _ holds => holds

theorem lift (answer : Except ε α) : (liftM answer : Asking σ ε α).Stable kept := by
  intro state holds
  rwa [outcome_lift]

theorem bind {action : Asking σ ε α} {next : α → Asking σ ε β} (first : action.Stable kept)
    (later : ∀ value, (next value).Stable kept)
    : Asking.Stable kept (action >>= next) := by
  have answered : action.Yields kept (Answers (fun _ => True) fun _ => True) :=
    (Yields.of_stable first).mono fun answer _ => by cases answer <;> trivial
  have bound : Asking.Yields kept (fun _ => True) (action >>= next) :=
    answered.bind (fun value _ => .of_stable (later value)) fun _ _ => True.intro
  exact bound.stable

theorem mapError {action : Asking σ ε α} (wrap : ε → ε') (h : action.Stable kept)
    : (action.mapError wrap).Stable kept := by
  intro state holds
  rw [outcome_mapError]
  exact h state holds

end Asking.Stable

/-- A property of the state of the surroundings is kept whatever is asked of them and whatever
helper runs.
-/
structure Environment.Keeps (held : σ → Prop) (environment : Environment σ) : Prop where
  findHelper : ∀ name, (environment.files.findHelper name).Stable held
  lines : ∀ path, (environment.files.lines path).Stable held
  target : ∀ path, (environment.files.target path).Stable held
  nativePath : ∀ path, (environment.files.nativePath path).Stable held
  run : ∀ words, (environment.run words).Stable held
  builtins
    : ∀ name directory args,
        (environment.builtins.call name ⟨environment.files, environment.filters, directory⟩
          args).Stable held

/-- The standard builtins answer as the files and filters do that they ask. Apart from the errors of
those they fail only over their name or their arguments.
-/
theorem Builtin.standard_yields {held : σ → Prop} {scope : BuiltinScope σ} {name : String}
    {args : List String} {place : Path → Prop} {kind : SemanticError → Prop}
    (resolve
      : ∀ text ∈ args,
          (scope.files.resolve scope.directory text).Yields held
            (Answers place fun error => kind (.file error)))
    (facts
      : ∀ path, place path
        → (scope.files.facts path).Yields held
            (Answers (fun _ => True) fun error => kind (.file error)))
    (isOutput : ∀ path state, held state → held ((scope.filters.isOutput path).run state).2)
    (requiresAction
      : ∀ path state, held state → held ((scope.filters.requiresAction path).run state).2)
    (named : kind (.unknownBuiltin name) ∧ kind (.argumentCount name "2" args.length))
    (quotes
      : ∀ text ∈ args,
          kind (.invalidDate text)
          ∧ kind (.notAFilterOutput text)
          ∧ kind (.notFileOrDirectory text))
    : ((standard : BuiltinTable σ).call name scope args).Yields held
        (Answers (fun _ => True) kind) := by
  have both
      : Answers (fun both : Date × String => both.2 ∈ args) kind (dateAndPath name args) := by
    unfold dateAndPath
    split
    · split
      · exact (quotes _ List.mem_cons_self).1
      · exact List.mem_cons_of_mem _ List.mem_cons_self
    · exact named.2
  have located (text : String) (member : text ∈ args)
      : ((scope.files.resolve scope.directory text).mapError SemanticError.file).Yields held
          (Answers place kind) :=
    (resolve text member).mapError fun _ h => h
  have told {action : StateM σ Bool} (h : ∀ state, held state → held (action.run state).2)
      : Yields held (Answers (fun _ => True) kind) (liftM action : Asking σ SemanticError Bool) :=
    fun state holds => ⟨True.intro, h state holds⟩
  unfold BuiltinTable.call standard
  simp only [List.lookup_cons, List.lookup_nil]
  split
  · exact .throw named.1
  · rename_i builtin found
    split at found
    · rename_i same
      obtain rfl := Option.some.inj found
      obtain rfl := eq_of_beq same
      refine (Yields.lift both).bind_alike fun both member => ?_
      refine (located both.2 member).bind_alike fun path _ => ?_
      refine (told (isOutput path)).bind_alike fun output _ => ?_
      cases output with
      | false => exact .throw (quotes both.2 member).2.1
      | true =>
          refine (told (requiresAction path)).bind_alike fun required _ => ?_
          cases required <;> exact .pure True.intro
    · split at found
      · rename_i same
        obtain rfl := Option.some.inj found
        obtain rfl := eq_of_beq same
        refine (Yields.lift both).bind_alike fun both member => ?_
        refine (located both.2 member).bind_alike fun path here => ?_
        have known
            : ((scope.files.facts path).mapError SemanticError.file).Yields held
                (Answers (fun _ => True) kind) :=
          (facts path here).mapError fun _ h => h
        refine known.bind_alike fun facts _ => ?_
        split
        · split <;> exact .pure True.intro
        · exact .throw (quotes both.2 member).2.2
      · cases found

namespace Registry

variable {r : Registry σ} {held : σ → Prop} (keeps : r.environment.Keeps held)

include keeps

end Registry

end DueTasks

import DueTasks.Proofs.Evaluation.Monotonicity
import DueTasks.Proofs.Registry.Cycles

/-! Due dates do not move backwards as time passes.
Two sessions with one batch of tasks go through the same evaluations, references and kept results,
whatever their dates are. On a later date every result is the same error, or the same evaluation
with the same date or a later one.
-/

namespace DueTasks

open Asking

variable {σ : Type}

/-- Two sessions have kept results of the same tasks, and those of the second one are not before
those of the first one.
-/
def Session.NotBefore (early late : Session σ) : Prop :=
  ∀ index,
    Option.Rel (RelatedAnswers Evaluation.NotBefore) (early.results.lookup index)
      (late.results.lookup index)

namespace Session.NotBefore

variable {early late : Session σ}

/-- At the start no results are kept. -/
theorem start (world world' : σ) : NotBefore (.start world) (.start world') :=
  fun _ => .none

/-- One more result of the same task can be kept on both sides. -/
theorem publish (h : NotBefore early late) (index : Nat)
    {result result' : Except TaskError Evaluation}
    (new : RelatedAnswers Evaluation.NotBefore result result')
    : NotBefore { early with results := (index, result) :: early.results }
        { late with results := (index, result') :: late.results } := by
  intro other
  simp only [List.lookup_cons]
  cases other == index with
  | true => exact .some new
  | false => exact h other

end Session.NotBefore

namespace Registry

/-- No task calls a helper or a builtin. -/
def NoneCallsOut (slots : List Slot) : Prop :=
  ∀ slot ∈ slots, ∀ t, slot.trigger = .ok t → ∀ node ∈ t.root.nodes, node.callsOut = false

/-- Which task declares an id does not depend on the surroundings. -/
theorem owner_environment (early late : Environment σ) (slots : List Slot) (id : String)
    : owner ⟨late, slots⟩ id = owner ⟨early, slots⟩ id := by
  have same : declarations ⟨late, slots⟩ id = declarations ⟨early, slots⟩ id := rfl
  unfold owner
  rw [same]
  rcases declarations ⟨early, slots⟩ id with _ | ⟨index, _ | _⟩
  · rfl
  · rfl
  · rfl

section

variable {early late : Environment σ} {slots : List Slot}

/-- A task has a later date on a later date if its references do. -/
theorem evaluateWith_mono (le : early.now ≤ late.now) (apart : NoneCallsOut slots)
    {keep : Session σ → Session σ → Prop}
    {resolve resolve' : String → Asking (Session σ) ReferenceError Date}
    (references : ∀ id, (resolve id).Matches keep (· ≤ ·) (resolve' id)) (index : Fin slots.length)
    : (evaluateWith ⟨early, slots⟩ resolve index).Matches keep Evaluation.NotBefore
        (evaluateWith ⟨late, slots⟩ resolve' index) := by
  unfold evaluateWith
  cases read : (slots.get index).trigger with
  | error error => exact .throw error
  | ok trigger =>
      have inside := apart _ (List.get_mem _ _) trigger read
      exact Trigger.evaluate_mono ⟨.pure le, references⟩ inside

-- The statements follow the two evaluators, and so does the termination: a task that is not
-- waiting joins the callers.
mutual

/-- The result of a task is the same error on a later date, or the same evaluation with a later
date, whether it is a kept one or a new one.
-/
theorem resultOf_mono (le : early.now ≤ late.now) (apart : NoneCallsOut slots) (callers : List Nat)
    (index : Fin slots.length)
    : (resultOf ⟨early, slots⟩ callers index).Matches Session.NotBefore Evaluation.NotBefore
        (resultOf ⟨late, slots⟩ callers index) := by
  intro session session' kept
  have found := kept index.val
  have anew := evaluateWith_mono le apart
    (fun id => resolve_mono le apart (index.val :: callers) id) index
  rw [resultOf_outcome, resultOf_outcome]
  generalize session.results.lookup index.val = first at found
  generalize session'.results.lookup index.val = second at found
  cases found with
  | some related => exact ⟨related, kept⟩
  | none =>
      dsimp only
      cases slots[index].trigger with
      | error error => exact ⟨.error error, kept⟩
      | ok trigger =>
          obtain ⟨answers, states⟩ := anew { session with begun := index.val :: session.begun }
            { session' with begun := index.val :: session'.begun } kept
          exact ⟨answers, states.publish index.val answers⟩
termination_by (outsideOf ⟨early, slots⟩ (index.val :: callers), 1)

/-- A reference has a later date on a later date, or fails with the same error. -/
theorem resolve_mono (le : early.now ≤ late.now) (apart : NoneCallsOut slots) (callers : List Nat)
    (id : String)
    : (resolve ⟨early, slots⟩ callers id).Matches Session.NotBefore (· ≤ ·)
        (resolve ⟨late, slots⟩ callers id) := by
  have same := owner_environment early late slots id
  cases owns : owner ⟨early, slots⟩ id with
  | unknown =>
      rw [resolve_of_unknown owns, resolve_of_unknown (same.trans owns)]
      exact .throw _
  | ambiguous =>
      rw [resolve_of_ambiguous owns, resolve_of_ambiguous (same.trans owns)]
      exact .throw _
  | task index =>
      by_cases waits : index.val ∈ callers
      · rw [resolve_of_waiting owns waits, resolve_of_waiting (same.trans owns) waits]
        exact .throw _
      · have := outsideOf_cons_lt ⟨early, slots⟩ (by simpa using waits)
        rw [resolve_of_owner owns waits, resolve_of_owner (same.trans owns) waits]
        exact ((resultOf_mono le apart callers index).mapError _).map fun _ _ dated => dated.1
termination_by (outsideOf ⟨early, slots⟩ callers, 0)

end

/-- Tasks that are evaluated one after the other have later dates on a later date, by induction over
the tasks.
-/
theorem evaluateEach_mono (le : early.now ≤ late.now) (apart : NoneCallsOut slots)
    (indices : List (Fin slots.length)) {session session' : Session σ}
    (kept : session.NotBefore session')
    : List.Forall₂
        (fun answer answer' =>
          answer.1 = answer'.1 ∧ RelatedAnswers Evaluation.NotBefore answer.2 answer'.2)
        ((evaluateEach ⟨early, slots⟩ indices).run session).1
        ((evaluateEach ⟨late, slots⟩ indices).run session').1 := by
  induction indices generalizing session session' with
  | nil => exact .nil
  | cons index indices ih =>
      obtain ⟨answers, states⟩ := resultOf_mono le apart [] index session session' kept
      rw [evaluateEach_cons, evaluateEach_cons]
      exact .cons ⟨rfl, answers⟩ (ih states)

end

/-- Due dates do not move backwards as time passes: where no name of a batch holds a call of a
helper or a builtin, every task has the same error on a later date, or the same evaluation with the
same date or a later one.
-/
theorem evaluateAll_mono (environment : Environment σ) {now later : Date} (le : now ≤ later)
    {entries : List TaskEntry}
    (apart
      : ∀ entry ∈ entries, ∀ t,
          Trigger.parse entry.name = .ok t → ∀ node ∈ t.root.nodes, node.callsOut = false)
    (world world' : σ)
    : let answers := ((ofEntries { environment with now } entries).evaluateAll.run (.start world)).1
      let answers' :=
        ((ofEntries { environment with now := later } entries).evaluateAll.run (.start world')).1
      answers.map Prod.fst = entries
      ∧ List.Forall₂
          (fun answer answer' =>
            answer.1 = answer'.1 ∧ RelatedAnswers Evaluation.NotBefore answer.2 answer'.2)
          answers answers' := by
  intro answers answers'
  have slots : NoneCallsOut (entries.map Slot.ofEntry) := by
    intro slot member t read
    obtain ⟨entry, listed, rfl⟩ := List.mem_map.mp member
    refine apart entry listed t ?_
    unfold Slot.ofEntry at read
    cases parsed : Trigger.parse entry.name with
    | error error =>
        rw [parsed] at read
        cases read
    | ok trigger =>
        rw [parsed] at read
        cases read
        rfl
  exact ⟨evaluateAll_entries .., evaluateEach_mono le slots _ (.start world world')⟩

/-- A task that is due every day, one on a cycle and one that refers to it, on the last days of two
months.
-/
theorem evaluateAll_mono_of_presentDate
    : let entries := [presentEntry, onwardEntry, selfReferringEntry]
      let answers (now : Date) :=
        ((ofEntries { Environment.counting with now } entries).evaluateAll.run (.start 0)).1
      Date.ofParts 2024 1 31 ≤ Date.ofParts 2024 2 29
      ∧ (∀ entry ∈ entries, ∀ t,
          Trigger.parse entry.name = .ok t → ∀ node ∈ t.root.nodes, node.callsOut = false)
      ∧ List.Forall₂
          (fun answer answer' =>
            answer.1 = answer'.1 ∧ RelatedAnswers Evaluation.NotBefore answer.2 answer'.2)
          (answers (.ofParts 2024 1 31)) (answers (.ofParts 2024 2 29)) := by
  intro entries answers
  have le : Date.ofParts 2024 1 31 ≤ Date.ofParts 2024 2 29 := by decide
  have apart : ∀ entry ∈ entries, ∀ t,
      Trigger.parse entry.name = .ok t → ∀ node ∈ t.root.nodes, node.callsOut = false := by
    intro entry member t parsed
    simp only [entries, List.mem_cons, List.not_mem_nil, or_false] at member
    rcases member with rfl | rfl | rfl
    · cases parse_presentDate.symm.trans parsed
      decide
    · cases parse_onwardReference.symm.trans parsed
      decide
    · cases parse_selfReference.symm.trans parsed
      decide
  exact ⟨le, apart, (evaluateAll_mono Environment.counting le apart 0 0).2⟩

end Registry

end DueTasks

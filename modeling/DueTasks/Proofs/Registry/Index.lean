import DueTasks.Proofs.Registry.Once
import DueTasks.Proofs.Registry.Reordering

/-! Tasks are found by their ids.
Looking up an id fails where no task declares it or where it is declared more than once, be it by
two tasks or twice by one. Otherwise it gives the date of the one task that declares the id, or the
error of that task. The order of the tasks does not matter.
-/

namespace DueTasks

open Asking Text

variable {σ : Type}

namespace TaskEntry

/-- The name of the task can be read, and somewhere in it `id` is called with one argument, which is
this id.
-/
def Declares (entry : TaskEntry) (id : String) : Prop :=
  ∃ trigger,
    Trigger.parse entry.name = .ok trigger
    ∧ ∃ arg token suffix,
        .call "id" [arg] token suffix ∈ trigger.root.nodes ∧ trigger.literal arg = id

/-- The name of the task can be read, and declares the id more than once. -/
def DeclaresAgain (entry : TaskEntry) (id : String) : Prop :=
  ∃ trigger, Trigger.parse entry.name = .ok trigger ∧ 1 < trigger.declaredIds.count id

end TaskEntry

-----------------------------------------------------------------------------------------
-- Ids of entries
-----------------------------------------------------------------------------------------

namespace Slot

theorem mem_declaredIds_ofEntry {entry : TaskEntry} {id : String}
    : id ∈ (ofEntry entry).declaredIds ↔ entry.Declares id := by
  cases parsed : Trigger.parse entry.name with
  | error error =>
      rw [declaredIds_of_malformed entry parsed]
      refine ⟨fun member => absurd member List.not_mem_nil, ?_⟩
      rintro ⟨trigger, read, -⟩
      cases parsed.symm.trans read
  | ok trigger =>
      rw [declaredIds_ofEntry entry parsed, Trigger.declaredIds, List.mem_filterMap]
      constructor
      · rintro ⟨node, member, declares⟩
        obtain ⟨arg, token, suffix, rfl, same⟩ := Trigger.declaredId?_eq_some.mp declares
        exact ⟨trigger, parsed, arg, token, suffix, member, same⟩
      · rintro ⟨other, read, arg, token, suffix, member, same⟩
        cases parsed.symm.trans read
        exact ⟨_, member, Trigger.declaredId?_eq_some.mpr ⟨arg, token, suffix, rfl, same⟩⟩

theorem one_lt_count_declaredIds_ofEntry {entry : TaskEntry} {id : String}
    : 1 < (ofEntry entry).declaredIds.count id ↔ entry.DeclaresAgain id := by
  cases parsed : Trigger.parse entry.name with
  | error error =>
      rw [declaredIds_of_malformed entry parsed]
      refine ⟨fun many => absurd many (Nat.not_lt_zero 1), ?_⟩
      rintro ⟨trigger, read, -⟩
      cases parsed.symm.trans read
  | ok trigger =>
      rw [declaredIds_ofEntry entry parsed]
      refine ⟨fun many => ⟨trigger, parsed, many⟩, ?_⟩
      rintro ⟨other, read, many⟩
      cases parsed.symm.trans read
      exact many

end Slot

-----------------------------------------------------------------------------------------
-- Ids of batches
-----------------------------------------------------------------------------------------

namespace Registry

variable {environment : Environment σ} {entries : List TaskEntry} {id : String}

theorem declaredIds_cons (entry : TaskEntry)
    : (ofEntries environment (entry :: entries)).declaredIds
      = (Slot.ofEntry entry).declaredIds ++ (ofEntries environment entries).declaredIds := rfl

theorem mem_declaredIds_ofEntries
    : id ∈ (ofEntries environment entries).declaredIds ↔ ∃ entry ∈ entries, entry.Declares id := by
  simp only [declaredIds, ofEntries, List.mem_flatMap, List.mem_map, exists_exists_and_eq_and,
    Slot.mem_declaredIds_ofEntry]

theorem owner_eq_unknown_ofEntries
    : (ofEntries environment entries).owner id = .unknown
      ↔ ∀ entry ∈ entries, ¬ entry.Declares id := by
  rw [owner_eq_unknown, List.count_eq_zero, mem_declaredIds_ofEntries]
  simp only [not_exists, not_and]

/-- An id is declared more than once if some task declares it more than once, or two tasks declare
it, by induction over the tasks.
-/
theorem one_lt_count_declaredIds
    : 1 < (ofEntries environment entries).declaredIds.count id
      ↔ ¬ entries.Pairwise (fun a b => ¬ (a.Declares id ∧ b.Declares id))
        ∨ ∃ entry ∈ entries, entry.DeclaresAgain id := by
  induction entries with
  | nil => simp [ofEntries, declaredIds]
  | cons entry entries ih =>
      have here : 0 < (Slot.ofEntry entry).declaredIds.count id ↔ entry.Declares id :=
        List.count_pos_iff.trans Slot.mem_declaredIds_ofEntry
      have later
          : 0 < (ofEntries environment entries).declaredIds.count id
            ↔ ∃ other ∈ entries, other.Declares id :=
        List.count_pos_iff.trans mem_declaredIds_ofEntries
      have again : 1 < (Slot.ofEntry entry).declaredIds.count id ↔ entry.DeclaresAgain id :=
        Slot.one_lt_count_declaredIds_ofEntry
      have pair
          : (entry.Declares id ∧ ∃ other ∈ entries, other.Declares id)
            ↔ ¬ ∀ other ∈ entries, ¬ (entry.Declares id ∧ other.Declares id) := by
        simp only [not_forall, not_not, exists_prop]
        constructor
        · rintro ⟨declares, other, member, declares'⟩
          exact ⟨other, member, declares, declares'⟩
        · rintro ⟨other, member, declares, declares'⟩
          exact ⟨declares, other, member, declares'⟩
      have split (m n : Nat) : 1 < m + n ↔ ((0 < m ∧ 0 < n) ∨ 1 < n) ∨ 1 < m := by omega
      rw [declaredIds_cons, List.count_append, split, here, later, again, ih, pair,
        List.pairwise_cons, not_and_or, List.exists_mem_cons_iff,
        or_comm (a := entry.DeclaresAgain id)]
      simp only [or_assoc]

/-- An id is ambiguous exactly if two different tasks declare it or one declares it more than
once.
-/
theorem owner_eq_ambiguous_ofEntries
    : (ofEntries environment entries).owner id = .ambiguous
      ↔ (∃ i j : Fin entries.length,
          i < j ∧ entries[i].Declares id ∧ entries[j].Declares id)
        ∨ ∃ entry ∈ entries, entry.DeclaresAgain id := by
  rw [owner_eq_ambiguous, one_lt_count_declaredIds, List.pairwise_iff_getElem]
  refine or_congr ?_ Iff.rfl
  constructor
  · intro declared
    simp only [not_forall, not_not] at declared
    obtain ⟨i, j, inside, inside', before, both⟩ := declared
    exact ⟨⟨i, inside⟩, ⟨j, inside'⟩, before, both⟩
  · rintro ⟨i, j, before, both⟩ apart
    exact apart i j i.isLt j.isLt before both

/-- The task that has an id is the only one that declares it. -/
theorem declares_iff_of_owner {index : Fin (ofEntries environment entries).size}
    (owns : (ofEntries environment entries).owner id = .task index)
    : ∀ other : Fin (ofEntries environment entries).size,
        (ofEntries environment entries).slots[other].entry.Declares id ↔ other = index := by
  intro other
  obtain ⟨entry, -, slot⟩ := exists_entry other
  obtain ⟨once, declares⟩ := owner_eq_task.mp owns
  have same : (ofEntries environment entries).slots[other].entry.Declares id
      ↔ id ∈ (ofEntries environment entries).slots[other].declaredIds := by
    rw [slot]
    exact Slot.mem_declaredIds_ofEntry.symm
  rw [same]
  constructor
  · intro declares'
    have owns' := owner_eq_task.mpr ⟨once, declares'⟩
    cases owns.symm.trans owns'
    rfl
  · rintro rfl
    exact declares

-----------------------------------------------------------------------------------------
-- Looking up an id
-----------------------------------------------------------------------------------------

section

variable (r : Registry σ) (id : String) (session : Session σ)

/-- The error of a task is never mistaken for one of the reference itself. -/
theorem date_of_target_ne (answer : Except TaskError Evaluation) (error : SemanticError)
    : (answer.mapError ReferenceError.target).map (·.date) ≠ .error (.reference error) := by
  cases answer with
  | ok evaluation => exact nofun
  | error error => exact nofun

/-- A reference for which nothing waits to the id of a task is answered by that task. -/
theorem resolve_outcome_of_owner {index : Fin r.size} (owns : r.owner id = .task index)
    : (r.resolve [] id).outcome session
      = ((((r.resultOf [] index).outcome session).1.mapError ReferenceError.target).map (·.date),
          ((r.resultOf [] index).outcome session).2) := by
  rw [resolve_of_owner owns List.not_mem_nil, outcome_map, outcome_mapError]

theorem resolve_eq_idNotFound
    : ((r.resolve [] id).outcome session).1 = .error (.reference (.idNotFound id))
      ↔ r.owner id = .unknown := by
  cases owns : r.owner id with
  | unknown => simp only [resolve_of_unknown owns, outcome_throw]
  | ambiguous =>
      rw [resolve_of_ambiguous owns, outcome_throw]
      exact iff_of_false nofun nofun
  | task index =>
      rw [resolve_outcome_of_owner r id session owns]
      exact iff_of_false (date_of_target_ne _ _) nofun

theorem resolve_eq_duplicateId
    : ((r.resolve [] id).outcome session).1 = .error (.reference (.duplicateId id))
      ↔ r.owner id = .ambiguous := by
  cases owns : r.owner id with
  | unknown =>
      rw [resolve_of_unknown owns, outcome_throw]
      exact iff_of_false nofun nofun
  | ambiguous => simp only [resolve_of_ambiguous owns, outcome_throw]
  | task index =>
      rw [resolve_outcome_of_owner r id session owns]
      exact iff_of_false (date_of_target_ne _ _) nofun

end

/-- Looking up an id, whatever was asked before, fails as unknown exactly if no task declares it and
as ambiguous exactly if two tasks declare it or one declares it more than once. In every other case
one task alone declares the id, and the answer is the date or the error that is this task's result
from then on. Ids that are looked up one after the other have the same answers in any order of the
tasks.
-/
theorem resolve_exact (environment : Environment σ) (entries : List TaskEntry) (world : σ)
    (id : String)
    : let r := ofEntries environment entries
      (∀ queries : List (Query r.size),
        let asked := (r.resolve [] id).outcome (r.performAll (.start world) queries)
        (asked.1 = .error (.reference (.idNotFound id)) ↔ ∀ entry ∈ entries, ¬ entry.Declares id)
        ∧ (asked.1 = .error (.reference (.duplicateId id))
          ↔ (∃ i j : Fin entries.length,
              i < j ∧ entries[i].Declares id ∧ entries[j].Declares id)
            ∨ ∃ entry ∈ entries, entry.DeclaresAgain id)
        ∧ (asked.1 ≠ .error (.reference (.idNotFound id))
          → asked.1 ≠ .error (.reference (.duplicateId id))
          → ∃ index result,
              (∀ other : Fin r.size, r.slots[other].entry.Declares id ↔ other = index)
              ∧ r.result? asked.2 index = some result
              ∧ asked.1 = (result.mapError ReferenceError.target).map (·.date)))
      ∧ ∀ entries',
          entries.Perm entries'
          → ∀ earlier : List String,
              let r' := ofEntries environment entries'
              ((r'.resolve [] id).outcome
                  (r'.performAll (.start world) (earlier.map (.resolve [])))).1
                = ((r.resolve [] id).outcome
                    (r.performAll (.start world) (earlier.map (.resolve [])))).1 := by
  intro r
  refine ⟨?_, fun entries' reordered earlier =>
    resolve_reordered environment reordered world earlier id⟩
  intro queries asked
  have notFound := resolve_eq_idNotFound r id (r.performAll (.start world) queries)
  have duplicate := resolve_eq_duplicateId r id (r.performAll (.start world) queries)
  refine ⟨notFound.trans owner_eq_unknown_ofEntries, duplicate.trans owner_eq_ambiguous_ofEntries,
    fun known unambiguous => ?_⟩
  cases owns : r.owner id with
  | unknown => exact absurd (notFound.mpr owns) known
  | ambiguous => exact absurd (duplicate.mpr owns) unambiguous
  | task index =>
      have orderly : r.Orderly (.start world) [] (r.performAll (.start world) queries) :=
        (Orderly.start r world).performAll queries
      have answer := resolve_outcome_of_owner r id (r.performAll (.start world) queries) owns
      refine ⟨index, _, declares_iff_of_owner owns, ?_, congrArg Prod.fst answer⟩
      rw [congrArg Prod.snd answer]
      exact orderly.result?_resultOf []

/-- A task that refers to its own id is found by it, be it before or behind another task that refers
to it.
-/
theorem resolve_of_selfReferringEntry
    : let r := ofEntries Environment.counting [selfReferringEntry, onwardEntry]
      let r' := ofEntries Environment.counting [onwardEntry, selfReferringEntry]
      let asked := (r.resolve [] "a").outcome (.start 0)
      asked.1 ≠ .error (.reference (.idNotFound "a"))
      ∧ asked.1 ≠ .error (.reference (.duplicateId "a"))
      ∧ (∃ index result,
          (∀ other : Fin r.size, r.slots[other].entry.Declares "a" ↔ other = index)
          ∧ r.result? asked.2 index = some result
          ∧ asked.1 = (result.mapError ReferenceError.target).map (·.date))
      ∧ [selfReferringEntry, onwardEntry].Perm [onwardEntry, selfReferringEntry]
      ∧ ((r'.resolve [] "a").outcome (.start 0)).1 = asked.1 := by
  intro r r' asked
  have declared : r.declaredIds = ["a"] := by
    show (Slot.ofEntry _).declaredIds ++ ((Slot.ofEntry _).declaredIds ++ []) = _
    rw [Slot.declaredIds_ofEntry _ parse_selfReference,
      Slot.declaredIds_ofEntry _ parse_onwardReference]
    rfl
  have known : asked.1 ≠ .error (.reference (.idNotFound "a")) := by
    rw [Ne, resolve_eq_idNotFound, owner_eq_unknown, declared]
    decide
  have unambiguous : asked.1 ≠ .error (.reference (.duplicateId "a")) := by
    rw [Ne, resolve_eq_duplicateId, owner_eq_ambiguous, declared]
    decide
  obtain ⟨answers, reordered⟩ :=
    resolve_exact Environment.counting [selfReferringEntry, onwardEntry] 0 "a"
  have swapped : [selfReferringEntry, onwardEntry].Perm [onwardEntry, selfReferringEntry] :=
    .swap ..
  exact ⟨known, unambiguous, (answers []).2.2 known unambiguous, swapped, reordered _ swapped []⟩

-----------------------------------------------------------------------------------------
-- An id that one task declares twice
-----------------------------------------------------------------------------------------

section

open Trigger Reply

/-- A name that declares an id twice. -/
def repeatedId : Trigger :=
  ⟨"id('a') & id('a')", .both (callOfId 0) (callOfId 10), ⟨17, 17⟩⟩

theorem parse_repeatedId : parse "id('a') & id('a')" = .ok repeatedId := by
  have first
      : Reads (.unit (callOfId 0)) ⟨0, "id('a') & id('a')".toList⟩ ⟨7, " & id('a')".toList⟩ :=
    .call_quoted "id" "a" 0 (by decide) rfl
  have sign : Parsed.result? (operator? '&' ⟨7, " & id('a')".toList⟩)
      = some ((), ⟨10, "id('a')".toList⟩) := rfl
  have second : Reads (.unit (callOfId 10)) ⟨10, "id('a')".toList⟩ ⟨17, []⟩ :=
    .call_quoted "id" "a" 10 (by decide) rfl
  exact parse_of_every (.both (.single first) sign second) rfl rfl

end

def repeatedIdEntry : TaskEntry :=
  ⟨⟨"a"⟩, "id('a') & id('a')"⟩

/-- A task that declares an id twice is not found by it, although no other task declares the id. -/
theorem duplicateId_of_repeatedId
    : let r := ofEntries Environment.counting [repeatedIdEntry]
      repeatedIdEntry.Declares "a"
      ∧ (¬ ∃ i j : Fin [repeatedIdEntry].length,
          i < j ∧ [repeatedIdEntry][i].Declares "a" ∧ [repeatedIdEntry][j].Declares "a")
      ∧ ((r.resolve [] "a").outcome (.start 0)).1 = .error (.reference (.duplicateId "a")) := by
  intro r
  have declared : (Slot.ofEntry repeatedIdEntry).declaredIds = ["a", "a"] := by
    rw [Slot.declaredIds_ofEntry _ parse_repeatedId]
    rfl
  have declares : repeatedIdEntry.Declares "a" :=
    Slot.mem_declaredIds_ofEntry.mp (declared ▸ List.mem_cons_self)
  have again : repeatedIdEntry.DeclaresAgain "a" :=
    Slot.one_lt_count_declaredIds_ofEntry.mp (by rw [declared]; decide)
  refine ⟨declares, ?_, ?_⟩
  · rintro ⟨i, j, before, -⟩
    have last : j.val < 1 := j.isLt
    have earlier : i.val < j.val := before
    omega
  · exact (resolve_eq_duplicateId r "a" (.start 0)).mpr
      (owner_eq_ambiguous_ofEntries.mpr (.inr ⟨_, List.mem_cons_self, again⟩))

end Registry

end DueTasks

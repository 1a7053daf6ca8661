import DueTasks.Proofs.Evaluation.References
import DueTasks.Task.Registry
import Mathlib.Data.List.FinRange

/-! Which task declares an id.
Whether an id is unknown, has one task or is ambiguous is told by how often it is declared in the
whole batch.
-/

namespace DueTasks

/-- The ids that the name of a task refers to. -/
def Slot.referencedIds (slot : Slot) : List String :=
  match slot.trigger with
  | .ok trigger => trigger.referencedIds
  | .error _ => []

theorem Slot.trigger_ofEntry (entry : TaskEntry) {trigger : Trigger}
    (parsed : Trigger.parse entry.name = .ok trigger)
    : (Slot.ofEntry entry).trigger = .ok trigger := by
  rw [ofEntry, parsed]
  rfl

theorem Slot.declaredIds_ofEntry (entry : TaskEntry) {trigger : Trigger}
    (parsed : Trigger.parse entry.name = .ok trigger)
    : (Slot.ofEntry entry).declaredIds = trigger.declaredIds := by
  rw [declaredIds, trigger_ofEntry entry parsed]

theorem Slot.declaredIds_of_malformed (entry : TaskEntry) {error : SyntaxError}
    (failed : Trigger.parse entry.name = .error error)
    : (Slot.ofEntry entry).declaredIds = [] := by
  rw [declaredIds, ofEntry, failed]
  rfl

theorem Slot.referencedIds_ofEntry (entry : TaskEntry) {trigger : Trigger}
    (parsed : Trigger.parse entry.name = .ok trigger)
    : (Slot.ofEntry entry).referencedIds = trigger.referencedIds := by
  rw [referencedIds, trigger_ofEntry entry parsed]

namespace Registry

variable {σ : Type} {r : Registry σ} {id : String} {index : Fin r.size}

/-- The ids that the tasks declare, each as often as it is declared. -/
def declaredIds (r : Registry σ) : List String :=
  r.slots.flatMap Slot.declaredIds

theorem mem_declarations : index ∈ r.declarations id ↔ id ∈ r.slots[index].declaredIds := by
  simp [declarations]

/-- The declarations of an id are as many as the times that it is declared. -/
theorem length_declarations : (r.declarations id).length = r.declaredIds.count id := by
  have each (slot : Slot)
      : (slot.declaredIds.filter (· == id)).length = slot.declaredIds.count id :=
    List.countP_eq_length_filter.symm
  have slots : r.slots = (List.finRange r.size).map fun index => r.slots[index] := by
    simp
  rw [declaredIds, List.count_flatMap, declarations, List.length_flatMap]
  conv_rhs => rw [slots, List.map_map]
  simp only [List.length_map, each]
  rfl

/-- A task has an id exactly if it declares it and the id is declared once. -/
theorem owner_eq_task
    : r.owner id = .task index
      ↔ r.declaredIds.count id = 1 ∧ id ∈ r.slots[index].declaredIds := by
  rw [← length_declarations, ← mem_declarations, owner]
  rcases r.declarations id with _ | ⟨first, _ | ⟨second, rest⟩⟩
  · simp
  · simp [eq_comm]
  · simp

theorem owner_eq_unknown : r.owner id = .unknown ↔ r.declaredIds.count id = 0 := by
  rw [← length_declarations, owner]
  rcases r.declarations id with _ | ⟨first, _ | ⟨second, rest⟩⟩
  · simp
  · simp
  · simp

theorem owner_eq_ambiguous : r.owner id = .ambiguous ↔ 1 < r.declaredIds.count id := by
  rw [← length_declarations, owner]
  rcases r.declarations id with _ | ⟨first, _ | ⟨second, rest⟩⟩
  · simp
  · simp
  · simp

/-- An id that is declared once has a task. -/
theorem exists_owner (once : r.declaredIds.count id = 1) : ∃ index, r.owner id = .task index := by
  cases owns : r.owner id with
  | unknown =>
      rw [owner_eq_unknown, once] at owns
      cases owns
  | ambiguous =>
      rw [owner_eq_ambiguous, once] at owns
      exact absurd owns (Nat.lt_irrefl 1)
  | task index => exact ⟨index, rfl⟩

/-- Every task of a batch was read from one of its entries. -/
theorem exists_entry {environment : Environment σ} {entries : List TaskEntry}
    (index : Fin (ofEntries environment entries).size)
    : ∃ entry ∈ entries, (ofEntries environment entries).slots[index] = Slot.ofEntry entry := by
  obtain ⟨entry, member, same⟩ := List.mem_map.mp (List.getElem_mem index.isLt)
  exact ⟨entry, member, same.symm⟩

end Registry

end DueTasks

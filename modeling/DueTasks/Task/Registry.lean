import DueTasks.Task.DoneName
import DueTasks.Task.Entry
import DueTasks.Task.Environment
import DueTasks.Trigger.Parser

/-! Batches of tasks that refer to each other.
A registry reads the names of all its tasks up front. Tasks are evaluated when they are asked for,
directly or through a reference, and each result is kept for the rest of the session. A reference
to a task whose own evaluation waits for it is a cycle.
-/

namespace DueTasks

/-- A task with the trigger that its name holds, or the reason why it holds none. -/
structure Slot where
  entry : TaskEntry
  trigger : Except TaskError Trigger

/-- A task with its name read. -/
def Slot.ofEntry (entry : TaskEntry) : Slot where
  entry
  trigger := (Trigger.parse entry.name).mapError .malformed

def Slot.declaredIds (slot : Slot) : List String :=
  match slot.trigger with
  | .ok trigger => trigger.declaredIds
  | .error _ => []

/-- A batch of tasks in its surroundings. -/
structure Registry (σ : Type) where
  environment : Environment σ
  slots : List Slot

/-- The state of a session: the results so far, the tasks whose evaluation has begun, latest
first, and the state of the surroundings.
-/
structure Session (σ : Type) where
  results : List (Nat × Except TaskError Evaluation)
  begun : List Nat
  world : σ

/-- Which task declares an id. -/
inductive IdOwner (size : Nat) where
  | unknown
  | ambiguous
  | task (index : Fin size)

namespace Session

/-- The state before any question. -/
def start {σ : Type} (world : σ) : Session σ :=
  ⟨[], [], world⟩

/-- An action of the surroundings, as an action of the session. -/
def outside {σ ε α : Type} (action : Asking σ ε α) : Asking (Session σ) ε α :=
  fun session =>
    let (answer, world) := action session.world
    (answer, { session with world })

end Session

namespace Registry

variable {σ : Type}

def ofEntries (environment : Environment σ) (entries : List TaskEntry) : Registry σ :=
  ⟨environment, entries.map .ofEntry⟩

variable (r : Registry σ)

/-- The number of tasks. -/
abbrev size : Nat :=
  r.slots.length

/-- The tasks in the order in which they were given. -/
def entries : List TaskEntry :=
  r.slots.map Slot.entry

/-- The index of the task at a path. Of several tasks at one path it is the last. -/
def indexOf? (path : Path) : Option (Fin r.size) :=
  (List.finRange r.size).reverse.find? fun index => r.slots[index].entry.path.same path

/-- The tasks that declare an id, one for every declaration. -/
def declarations (id : String) : List (Fin r.size) :=
  (List.finRange r.size).flatMap fun index =>
    (r.slots[index].declaredIds.filter (· == id)).map fun _ => index

/-- The one declaration of an id. -/
def owner (id : String) : IdOwner r.size :=
  match r.declarations id with
  | [] => .unknown
  | [index] => .task index
  | _ => .ambiguous

/-- The number of tasks that are not on a chain. -/
def outsideOf (chain : List Nat) : Nat :=
  (List.range r.size).countP fun index => !chain.contains index

/-- A task that joins a chain it was not on leaves fewer tasks outside of the chain. -/
theorem outsideOf_cons_lt {chain : List Nat} {index : Fin r.size}
    (h : chain.contains index.val = false)
    : r.outsideOf (index.val :: chain) < r.outsideOf chain := by
  let others : List Nat := (List.range r.size).filter fun other => !chain.contains other
  have joined
      : r.outsideOf (index.val :: chain) = others.countP fun other => other != index.val := by
    rw [outsideOf, List.countP_filter]
    exact List.countP_congr fun other _ => by simp
  have before : r.outsideOf chain = others.length := List.countP_eq_length_filter
  have member : index.val ∈ others :=
    List.mem_filter.mpr ⟨List.mem_range.mpr index.isLt, by rw [h, Bool.not_false]⟩
  rw [joined, before]
  refine Nat.lt_of_le_of_ne List.countP_le_length fun all => ?_
  simpa using List.countP_eq_length.mp all _ member

/-- The action of a builtin that a task calls. -/
def callBuiltin (entry : TaskEntry) (name : String) (args : List String)
    : Asking σ SemanticError Date :=
  let environment := r.environment
  environment.builtins.call name
    ⟨environment.files, environment.filters, entry.path.directory⟩ args

/-- What the evaluation of a task asks of its surroundings, with references left open. -/
def contextWith (entry : TaskEntry)
    (resolve : String → Asking (Session σ) ReferenceError Date) : Context (Session σ) :=
  let environment := r.environment
  { now := environment.now
    resolve
    findHelper := fun name => Session.outside (environment.files.findHelper name)
    runHelper := fun args => Session.outside do
      let output ← environment.run args
      (output.line (args.headD "") : Except _ _)
    callBuiltin := fun name args => Session.outside (r.callBuiltin entry name args)
    ownLines := Session.outside (environment.files.lines entry.path)
    ownTarget := Session.outside (environment.files.target entry.path)
    ownPath := Session.outside (environment.files.nativePath entry.path) }

/-- Notes that the evaluation of a task begins. -/
def noteBegun (index : Nat) : StateM (Session σ) Unit :=
  modify fun session => { session with begun := index :: session.begun }

/-- Keeps the result of a task. -/
def publish (index : Nat) (result : Except TaskError Evaluation) : StateM (Session σ) Unit :=
  modify fun session => { session with results := (index, result) :: session.results }

mutual

/-- The evaluation of a task, from the results so far or newly made. `callers` are the tasks that
wait for it.
-/
def resultOf (callers : List Nat) (index : Fin r.size) : Asking (Session σ) TaskError Evaluation :=
  ExceptT.mk do
    match (← get).results.lookup index.val with
    | some result => return result
    | none =>
        match r.slots[index].trigger with
        | .error error => return .error error
        | .ok trigger =>
            noteBegun index.val
            let context := r.contextWith r.slots[index].entry fun id =>
              resolve (index.val :: callers) id
            let result ← (trigger.evaluate context).run
            publish index.val result
            return result
termination_by (r.outsideOf (index.val :: callers), 1)

/-- The date of the task that declares an id. A task among the `callers` waits for this answer. -/
def resolve (callers : List Nat) (id : String) : Asking (Session σ) ReferenceError Date :=
  match r.owner id with
  | .unknown => throw (.reference (.idNotFound id))
  | .ambiguous => throw (.reference (.duplicateId id))
  | .task index =>
      if h : callers.contains index.val then throw (.reference (.cycle id))
      else
        have := r.outsideOf_cons_lt (Bool.not_eq_true _ ▸ h)
        (·.date) <$> (resultOf callers index).mapError .target
termination_by (r.outsideOf callers, 0)

end

/-- The error of a path at which there is no task. -/
def unknownTask (path : Path) : TaskError :=
  .semantic path.text (.unknownTask path.text)

def trigger (path : Path) : Except TaskError Trigger :=
  match r.indexOf? path with
  | none => .error (unknownTask path)
  | some index => r.slots[index].trigger

def evaluate (path : Path) : Asking (Session σ) TaskError Evaluation :=
  match r.indexOf? path with
  | none => throw (unknownTask path)
  | some index => r.resultOf [] index

def date (path : Path) : Asking (Session σ) TaskError Date :=
  (·.date) <$> r.evaluate path

/-- The evaluations of all tasks, in the order in which they were given. -/
def evaluateAll : StateM (Session σ) (List (TaskEntry × Except TaskError Evaluation)) :=
  (List.finRange r.size).mapM fun index => do
    let result ← (r.resultOf [] index).run
    return (r.slots[index].entry, result)

/-- The name that the task at a path is given once it is done. -/
def doneName (path : Path) : Asking (Session σ) TaskError String :=
  match r.indexOf? path with
  | none => throw (unknownTask path)
  | some index => do
      let evaluation ← r.resultOf [] index
      let trigger ← (r.slots[index].trigger : Except _ _)
      let context := r.contextWith r.slots[index].entry fun id => r.resolve [index.val] id
      trigger.doneName context evaluation

end Registry

end DueTasks

import DueTasks.Proofs.Evaluation.Noting
import DueTasks.Proofs.Evaluation.Questions
import Mathlib.Data.List.Forall2

/-! Which helpers an evaluation runs.
Every helper call that is visited is run once, behind the helper calls in its own arguments. It is
run with the words of the arguments that are recorded for it, in which the places for a period are
left out.
-/

namespace DueTasks

open Asking

-----------------------------------------------------------------------------------------
-- Helper calls and their arguments
-----------------------------------------------------------------------------------------

mutual

/-- The helper calls of a node that are visited, each behind those in its arguments. -/
def Node.helperCalls : Node → List Node
  | .date .. => []
  | .call name args token suffix =>
      if name == "bin" || name == "builtin" then
        Argument.helperCallsOfList args
          ++ [Node.call name args token suffix].filter (Node.isCallOf "bin")
      else []
  | .both left right => left.helperCalls ++ right.helperCalls
  | .either left right => left.helperCalls ++ right.helperCalls
  | .group inner _ => inner.helperCalls

/-- The helper calls that are visited for an argument of a helper or a builtin. -/
def Argument.helperCalls : Argument → List Node
  | .quoted .. => []
  | .bare .. => []
  | .trigger node => if node.isPlaceholder then [] else node.helperCalls

def Argument.helperCallsOfList : List Argument → List Node
  | [] => []
  | arg :: args => arg.helperCalls ++ Argument.helperCallsOfList args

end

/-- Whether an argument is a place for a period. -/
def Argument.isPeriodPlace : Argument → Bool
  | .trigger node => node.isCallOf "arg" || node.isCallOf "args"
  | _ => false

/-- What an argument of a helper is evaluated to: the place that it is for a period, or a word. -/
inductive Argument.Gives : Argument → HelperArg → Prop where
  | period (token : Span) (suffix : Suffix) : Gives (.trigger (.call "arg" [] token suffix)) .period
  | periodWords (token : Span) (suffix : Suffix)
    : Gives (.trigger (.call "args" [] token suffix)) .periodWords
  | word {arg : Argument} (value : String) (other : arg.isPeriodPlace = false)
    : Gives arg (.word value)

/-- A helper call is run with the path of the helper and the values of its other arguments, which
are recorded for it.
-/
inductive Node.RunsWith (records : CallArgs) : Node → List HelperArg → Prop where
  | intro (first : Argument) {rest : List Argument} {token : Span} (suffix : Suffix)
      {path : String} {values : List HelperArg} (given : List.Forall₂ Argument.Gives rest values)
      (recorded : (token.start, .word path :: values) ∈ records)
    : RunsWith records (.call "bin" (first :: rest) token suffix) (.word path :: values)

/-- Helper calls are run one after the other with what is recorded for them. -/
inductive Ran (records : CallArgs) : List Node → List (List String) → Prop where
  | done : Ran records [] []
  | run {call : Node} {args : List HelperArg} {calls : List Node} {words : List (List String)}
      (own : call.RunsWith records args) (later : Ran records calls words)
    : Ran records (call :: calls) (HelperArg.expandAll args none :: words)

theorem Node.RunsWith.mono {records more : CallArgs} {call : Node} {args : List HelperArg}
    (h : call.RunsWith records args) (sub : records ⊆ more)
    : call.RunsWith more args := by
  obtain ⟨first, suffix, given, recorded⟩ := h
  exact .intro first suffix given (sub recorded)

namespace Ran

variable {records more : CallArgs} {calls calls' : List Node} {words words' : List (List String)}

theorem mono (h : Ran records calls words) (sub : records ⊆ more) : Ran more calls words := by
  induction h with
  | done => exact .done
  | run own later ih => exact .run (own.mono sub) ih

/-- Helper calls are run in sequence, by induction over the first ones. -/
theorem append (h : Ran records calls words) (h' : Ran records calls' words')
    : Ran records (calls ++ calls') (words ++ words') := by
  induction h with
  | done => exact h'
  | run own later ih => exact .run own ih

/-- Calls with the words with which they ran. -/
theorem exists_runs (h : Ran records calls words)
    : ∃ runs : List (Node × List String),
        runs.map Prod.fst = calls
        ∧ runs.map Prod.snd = words
        ∧ ∀ run ∈ runs, ∃ args,
            run.1.RunsWith records args ∧ run.2 = HelperArg.expandAll args none := by
  induction h with
  | done => exact ⟨[], rfl, rfl, nofun⟩
  | @run call args calls words own later ih =>
      obtain ⟨runs, rfl, rfl, each⟩ := ih
      refine ⟨(call, HelperArg.expandAll args none) :: runs, rfl, rfl, ?_⟩
      exact List.forall_mem_cons.mpr ⟨⟨args, own, rfl⟩, each⟩

variable {first second : Notes}

/-- What two parts record, they record together, if the calls of the first one start in front of
those of the second one.
-/
theorem parts (ran : Ran first.calls calls words) (ran' : Ran second.calls calls' words')
    (sorted : (first.calls.starts ++ second.calls.starts).Pairwise (· < ·))
    : Ran (first ++ second).calls (calls ++ calls') (words ++ words') := by
  rw [Notes.calls_append, CallArgs.merge_eq_append sorted]
  exact (ran.mono (List.subset_append_left _ _)).append (ran'.mono (List.subset_append_right _ _))

/-- What two operands record, they record together. -/
theorem operands (ran : Ran first.calls calls words) (ran' : Ran second.calls calls' words')
    (position : Position) (sorted : (first.calls.starts ++ second.calls.starts).Pairwise (· < ·))
    : Ran (.ofOperator position ++ first ++ second : Notes).calls (calls ++ calls')
        (words ++ words') := by
  have front : (Notes.ofOperator position ++ first).calls = first.calls :=
    CallArgs.nil_merge (List.pairwise_append.mp sorted).1
  rw [← front] at ran sorted
  exact ran.parts ran' sorted

end Ran

-----------------------------------------------------------------------------------------
-- Runs in a list of questions
-----------------------------------------------------------------------------------------

/-- The words of a helper that is run. -/
def Question.run? : Question → Option (List String)
  | .runHelper words => some words
  | _ => none

namespace Asking

variable {σ ε ε' α β : Type} {post : α → List (List String) → Prop}

/-- Every value that an action with a list of questions answers with, and the helpers that it runs
on the way, satisfy a property, from whatever state.
-/
def EnsuresRuns (post : α → List (List String) → Prop) (action : Asking (σ × List Question) ε α)
    : Prop :=
  ∀ state value,
    (action.outcome state).1 = .ok value
    → ∃ words,
        (action.outcome state).2.2.filterMap Question.run?
          = state.2.filterMap Question.run? ++ words
        ∧ post value words

namespace EnsuresRuns

theorem pure {value : α} (h : post value [])
    : EnsuresRuns post (Pure.pure value : Asking (σ × List Question) ε α) := by
  rintro state found ⟨rfl⟩
  exact ⟨[], (List.append_nil _).symm, h⟩

theorem throw (error : ε)
    : EnsuresRuns post (throwThe ε error : Asking (σ × List Question) ε α) := by
  rintro state found ⟨⟩

/-- Helpers are run in sequence. -/
theorem bind {goal : β → List (List String) → Prop} {action : Asking (σ × List Question) ε α}
    {next : α → Asking (σ × List Question) ε β} (first : EnsuresRuns post action)
    (later
      : ∀ value words,
          post value words
          → EnsuresRuns (fun found words' => goal found (words ++ words')) (next value))
    : EnsuresRuns goal (action >>= next) := by
  intro state value h
  rw [outcome_bind] at h ⊢
  rcases ran : action.outcome state with ⟨answer, middle⟩
  rw [ran] at h
  cases answer with
  | error error => cases h
  | ok found =>
      obtain ⟨words, begun, holds⟩ := first state found (by rw [ran])
      obtain ⟨words', ended, holds'⟩ := later found words holds middle value h
      rw [ran] at begun
      exact ⟨words ++ words', by rw [ended, begun, List.append_assoc], holds'⟩

/-- What an action ensures without its runs, it ensures with them. -/
theorem and {post' : α → Prop} {action : Asking (σ × List Question) ε α}
    (h : EnsuresRuns post action) (h' : Ensures post' action)
    : EnsuresRuns (fun value words => post value words ∧ post' value) action := by
  intro state value found
  obtain ⟨words, asked, holds⟩ := h state value found
  exact ⟨words, asked, holds, h' state value found⟩

/-- An action that puts given questions on the list runs the helpers among them. -/
theorem of_lists {questions : List Question} {listing : Asking (σ × List Question) ε α}
    {action : Asking σ ε α} (h : Lists questions listing action)
    : EnsuresRuns (fun _ words => words = questions.filterMap Question.run?) listing := by
  rintro ⟨state, asked⟩ value -
  rw [h state asked]
  exact ⟨_, List.filterMap_append, rfl⟩

end EnsuresRuns

end Asking

-----------------------------------------------------------------------------------------
-- Runs of an evaluation
-----------------------------------------------------------------------------------------

namespace Trigger

variable {σ : Type} {t : Trigger} {context : Context σ}

/-- A call without arguments runs nothing to see this. -/
theorem expectNone_runs (node : Node) (name : String) (args : List Argument)
    : EnsuresRuns (fun _ words => words = [] ∧ args = [])
        (t.expectNone node name args : Asking (σ × List Question) TaskError Unit) := by
  cases args with
  | nil => exact .pure ⟨rfl, rfl⟩
  | cons arg args => exact .throw _

theorem expectLiteral_runs (node : Node) (name : String) (args : List Argument)
    : EnsuresRuns (fun _ words => words = [])
        (t.expectLiteral node name args : Asking (σ × List Question) TaskError String) := by
  rcases args with _ | ⟨arg, _ | _⟩
  · exact .throw _
  · exact .pure rfl
  · exact .throw _

/-- Nothing is run for a word. -/
theorem expectWord_runs (node : Node) (name : String) (arg : Argument)
    : EnsuresRuns (fun _ words => words = [] ∧ arg.helperCalls = [])
        (t.expectWord node name arg : Asking (σ × List Question) TaskError String) := by
  unfold expectWord
  cases arg with
  | trigger inner => exact .throw _
  | _ => exact .pure ⟨rfl, rfl⟩

theorem expectNoPlace_runs (node : Node) (callee : Callee) (arg : Argument) (value : HelperArg)
    : EnsuresRuns (fun _ words => words = [])
        (t.expectNoPlace node callee arg value : Asking (σ × List Question) TaskError Unit) := by
  unfold expectNoPlace
  split
  · exact .throw _
  · exact .throw _
  · exact .pure rfl

theorem ownLine_runs (node : Node) (requested : String)
    : EnsuresRuns (fun _ words => words = []) (t.ownLine context.listing node requested) := by
  refine (EnsuresRuns.of_lists ((Lists.listed _ context.ownLines).mapError _)).bind ?_
  rintro lines words rfl
  extract_lets found
  cases found with
  | none => exact .throw _
  | some line => exact .pure rfl

/-- What makes sense only as an argument gives a place for a period or a word, and runs nothing. -/
theorem placeholder?_runs {node : Node} {action : Asking (σ × List Question) TaskError HelperArg}
    (found : t.placeholder? context.listing node = some action)
    : EnsuresRuns (fun value words => words = [] ∧ Argument.Gives (.trigger node) value)
        action := by
  cases node with
  | call name args token suffix =>
      simp only [placeholder?] at found
      cases callee : Callee.ofName name with
      | period =>
          obtain rfl := (Callee.ofName_eq .period (by simp)).mp callee
          cases found
          refine (expectNone_runs _ _ args).bind ?_
          rintro _ _ ⟨rfl, rfl⟩
          exact .pure ⟨rfl, .period token suffix⟩
      | periodWords =>
          obtain rfl := (Callee.ofName_eq .periodWords (by simp)).mp callee
          cases found
          refine (expectNone_runs _ _ args).bind ?_
          rintro _ _ ⟨rfl, rfl⟩
          exact .pure ⟨rfl, .periodWords token suffix⟩
      | line =>
          obtain rfl := (Callee.ofName_eq .line (by simp)).mp callee
          cases found
          refine (expectLiteral_runs _ _ args).bind ?_
          rintro requested _ rfl
          refine (ownLine_runs _ requested).bind ?_
          rintro line _ rfl
          exact .pure ⟨rfl, .word line rfl⟩
      | target =>
          obtain rfl := (Callee.ofName_eq .target (by simp)).mp callee
          cases found
          refine (expectNone_runs _ _ args).bind ?_
          rintro _ _ ⟨rfl, rfl⟩
          refine (EnsuresRuns.of_lists ((Lists.listed _ context.ownTarget).mapError _)).bind ?_
          rintro path _ rfl
          exact .pure ⟨rfl, .word _ rfl⟩
      | task =>
          obtain rfl := (Callee.ofName_eq .task (by simp)).mp callee
          cases found
          refine (expectNone_runs _ _ args).bind ?_
          rintro _ _ ⟨rfl, rfl⟩
          refine (EnsuresRuns.of_lists ((Lists.listed _ context.ownPath).mapError _)).bind ?_
          rintro path _ rfl
          exact .pure ⟨rfl, .word _ rfl⟩
      | _ =>
          rw [callee] at found
          cases found
  | _ => cases found

/-- A helper is run once for its date. -/
theorem helperDate_runs (node : Node) (program : String) (args : List HelperArg)
    : EnsuresRuns (fun _ words => words = [HelperArg.expandAll args none])
        (t.helperDate context.listing node program args) := by
  refine (EnsuresRuns.of_lists ((Lists.listed _ (context.runHelper _)).mapError _)).bind ?_
  rintro line words rfl
  cases Date.ofText? line with
  | some date => exact .pure rfl
  | none => exact .throw _

/-- A trigger that stands for a date is no place for a period. -/
theorem isPeriodPlace_of_none {node : Node} (none : node.isPlaceholder = false)
    : (Argument.trigger node).isPeriodPlace = false := by
  cases node with
  | call name args token suffix =>
      rw [Argument.isPeriodPlace, Node.isCallOf, Node.isCallOf, Bool.or_eq_false_iff,
        beq_eq_false_iff_ne, beq_eq_false_iff_ne]
      constructor
      · rintro rfl
        cases none
      · rintro rfl
        cases none
  | _ => rfl

theorem helperCalls_bin (args : List Argument) (token : Span) (suffix : Suffix)
    : (Node.call "bin" args token suffix).helperCalls
      = Argument.helperCallsOfList args ++ [.call "bin" args token suffix] := by
  rw [Node.helperCalls]
  rfl

theorem helperCalls_builtin (args : List Argument) (token : Span) (suffix : Suffix)
    : (Node.call "builtin" args token suffix).helperCalls = Argument.helperCallsOfList args := by
  rw [Node.helperCalls]
  exact List.append_nil _

/-- A call that is no helper call and no builtin call runs nothing. -/
theorem helperCalls_of_literal {name : String} {callee : Callee}
    (named : Callee.ofName name = callee) (inward : callee ≠ .helper) (inward' : callee ≠ .builtin)
    (args : List Argument) (token : Span) (suffix : Suffix)
    : (Node.call name args token suffix).helperCalls = [] := by
  subst named
  have apart : (name == "bin" || name == "builtin") = false := by
    simpa [Callee.ofName_eq_helper, Callee.ofName_eq_builtin] using And.intro inward inward'
  rw [Node.helperCalls, apart]
  rfl

/-- The helper calls of the first operand are run before those of the second one. -/
theorem operands_runs {node left right : Node}
    {first second : Asking (σ × List Question) TaskError (Noted Date)} {pick : Date → Date → Date}
    (position : Position) (joins : node = .both left right ∨ node = .either left right)
    (sorted : (node.nodes.filterMap Node.callStart?).Pairwise (· < ·))
    (told : Ensures (fun noted => Notes.OfNode left position.ofOperands noted.notes) first)
    (told' : Ensures (fun noted => Notes.OfNode right position.ofOperands noted.notes) second)
    (ran
      : (left.nodes.filterMap Node.callStart?).Pairwise (· < ·)
        → EnsuresRuns (fun noted words => Ran noted.notes.calls left.helperCalls words) first)
    (ran'
      : (right.nodes.filterMap Node.callStart?).Pairwise (· < ·)
        → EnsuresRuns (fun noted words => Ran noted.notes.calls right.helperCalls words) second)
    : EnsuresRuns
        (fun (noted : Noted Date) words => Ran noted.notes.calls node.helperCalls words)
        (do
          let left ← first
          let right ← second
          return ⟨pick left.value right.value,
            .ofOperator position ++ left.notes ++ right.notes⟩) := by
  obtain ⟨sorted, sorted', recorded⟩ := sorted_operands joins sorted
  have calls : node.helperCalls = left.helperCalls ++ right.helperCalls := by
    rcases joins with rfl | rfl <;> rfl
  refine ((ran sorted).and told).bind ?_
  rintro left words ⟨ran, told⟩
  refine ((ran' sorted').and told').bind ?_
  rintro right words' ⟨ran', told'⟩
  refine .pure ?_
  rw [← told.starts sorted, ← told'.starts sorted'] at recorded
  rw [calls, List.append_nil]
  exact ran.operands ran' position recorded

section

variable {arg : Argument} {rest : List Argument} {token : Span} {suffix : Suffix}

/-- A helper is run behind the helper calls in its arguments. -/
theorem helperCall_runs (position : Position)
    (sorted
      : ((Node.call "bin" (arg :: rest) token suffix).nodes.filterMap Node.callStart?).Pairwise
          (· < ·))
    (ran
      : EnsuresRuns
          (fun values words =>
            Ran values.notes.calls (Argument.helperCallsOfList rest) words
            ∧ List.Forall₂ Argument.Gives rest values.value)
          (t.evaluateArguments context.listing (.call "bin" (arg :: rest) token suffix) .helper
            rest))
    : EnsuresRuns
        (fun call words =>
          Ran call.notes.calls (Node.call "bin" (arg :: rest) token suffix).helperCalls words)
        (t.evaluateCall context.listing (.call "bin" (arg :: rest) token suffix) "bin" token
          position (arg :: rest)) := by
  have arguments := ran.and (evaluateArguments_notes _ _ _ _ rest)
  unfold evaluateCall
  refine (expectWord_runs _ _ arg).bind ?_
  rintro program _ ⟨rfl, word⟩
  refine (EnsuresRuns.of_lists ((Lists.listed _ (context.findHelper program)).mapError _)).bind ?_
  rintro path _ rfl
  refine arguments.bind ?_
  rintro values words ⟨⟨ran, given⟩, inside⟩
  have recorded := inside.starts (sorted_rest sorted)
  refine (helperDate_runs _ _ _).bind ?_
  rintro date _ rfl
  refine .pure ?_
  rw [calls_of_record _ (recorded ▸ sorted_record sorted), List.append_nil, helperCalls_bin,
    Argument.helperCallsOfList, word]
  refine (ran.mono (List.subset_cons_self _ _)).append (.run ?_ .done)
  exact .intro arg suffix given List.mem_cons_self

/-- A builtin runs no helper itself, so only the helper calls in its arguments are run. -/
theorem builtinCall_runs (position : Position)
    (sorted
      : ((Node.call "builtin" (arg :: rest) token suffix).nodes.filterMap
          Node.callStart?).Pairwise (· < ·))
    (ran
      : EnsuresRuns
          (fun values words =>
            Ran values.notes.calls (Argument.helperCallsOfList rest) words
            ∧ List.Forall₂ Argument.Gives rest values.value)
          (t.evaluateArguments context.listing (.call "builtin" (arg :: rest) token suffix)
            .builtin rest))
    : EnsuresRuns
        (fun call words =>
          Ran call.notes.calls (Node.call "builtin" (arg :: rest) token suffix).helperCalls words)
        (t.evaluateCall context.listing (.call "builtin" (arg :: rest) token suffix) "builtin"
          token position (arg :: rest)) := by
  have arguments := ran.and (evaluateArguments_notes _ _ _ _ rest)
  unfold evaluateCall
  refine (expectWord_runs _ _ arg).bind ?_
  rintro builtin _ ⟨rfl, word⟩
  refine arguments.bind ?_
  rintro values words ⟨⟨ran, -⟩, inside⟩
  have recorded := inside.starts (sorted_rest sorted)
  refine (EnsuresRuns.of_lists ((Lists.listed _ (context.callBuiltin builtin _)).mapError _)).bind
    ?_
  rintro date _ rfl
  refine .pure ?_
  rw [calls_of_record _ (recorded ▸ sorted_record sorted), helperCalls_builtin,
    Argument.helperCallsOfList, word]
  simp only [List.nil_append, List.filterMap_cons, Question.run?, List.filterMap_nil,
    List.append_nil]
  exact ran.mono (List.subset_cons_self _ _)

end

-- The statements follow the evaluators, as a call hands its arguments on to be evaluated. That no
-- record takes the place of another one is seen by where the calls start.
mutual

/-- The helper calls of a node are run with what is recorded for them, by induction over the
syntax.
-/
theorem evaluateNode_runs (node : Node) (position : Position)
    (sorted : (node.nodes.filterMap Node.callStart?).Pairwise (· < ·))
    : EnsuresRuns (fun noted words => Ran noted.notes.calls node.helperCalls words)
        (t.evaluateNode context.listing node position) := by
  cases node with
  | date value token suffix =>
      rw [evaluateNode]
      exact .pure .done
  | call name args token suffix =>
      have visited := sorted.sublist (Node.recordedStarts_sublist (Node.visited_sublist _))
      rw [evaluateNode]
      refine ((evaluateCall_runs name token position args suffix sorted).and
        (evaluateCall_notes _ _ name token position args suffix)).bind ?_
      rintro call words ⟨ran, inside⟩
      refine .pure ?_
      rw [calls_of_call (inside.starts sorted ▸ visited), List.append_nil]
      exact ran
  | both left right | either left right =>
      rw [evaluateNode]
      exact operands_runs position (by simp) sorted (evaluateNode_notes _ _ left _)
        (evaluateNode_notes _ _ right _) (evaluateNode_runs left _) (evaluateNode_runs right _)
  | group inner span =>
      rw [evaluateNode]
      exact evaluateNode_runs inner position sorted
termination_by (sizeOf node, 0)

/-- A helper call is run behind those in its arguments. -/
theorem evaluateCall_runs (name : String) (token : Span) (position : Position)
    (args : List Argument) (suffix : Suffix)
    (sorted
      : ((Node.call name args token suffix).nodes.filterMap Node.callStart?).Pairwise (· < ·))
    : EnsuresRuns
        (fun call words =>
          Ran call.notes.calls (Node.call name args token suffix).helperCalls words)
        (t.evaluateCall context.listing (.call name args token suffix) name token position
          args) := by
  unfold evaluateCall
  cases callee : Callee.ofName name with
  | now =>
      rw [helperCalls_of_literal callee nofun nofun]
      refine (expectNone_runs _ _ args).bind ?_
      rintro _ _ ⟨rfl, rfl⟩
      refine (EnsuresRuns.of_lists ((Lists.listed _ context.today).mapError _)).bind ?_
      rintro date _ rfl
      exact .pure .done
  | id =>
      rw [helperCalls_of_literal callee nofun nofun]
      refine (expectLiteral_runs _ _ args).bind ?_
      rintro _ _ rfl
      exact .pure .done
  | reference =>
      rw [helperCalls_of_literal callee nofun nofun]
      refine (expectLiteral_runs _ _ args).bind ?_
      rintro id _ rfl
      refine (EnsuresRuns.of_lists ((Lists.listed _ (context.resolve id)).mapError _)).bind ?_
      rintro date _ rfl
      exact .pure .done
  | waiting =>
      rw [helperCalls_of_literal callee nofun nofun]
      refine (expectNone_runs _ _ args).bind ?_
      rintro _ _ ⟨rfl, rfl⟩
      exact .pure .done
  | helper =>
      obtain rfl := Callee.ofName_eq_helper.mp callee
      cases args with
      | nil => exact .throw _
      | cons arg rest =>
          exact helperCall_runs position sorted
            (evaluateArguments_runs _ .helper rest (sorted_rest sorted))
  | builtin =>
      obtain rfl := Callee.ofName_eq_builtin.mp callee
      cases args with
      | nil => exact .throw _
      | cons arg rest =>
          exact builtinCall_runs position sorted
            (evaluateArguments_runs _ .builtin rest (sorted_rest sorted))
  | _ => exact .throw _
termination_by (sizeOf args, 1)

/-- The helper calls of arguments are run, and each argument gives its value. -/
theorem evaluateArguments_runs (node : Node) (callee : Callee) (args : List Argument)
    (sorted : ((Argument.nodesOfList args).filterMap Node.callStart?).Pairwise (· < ·))
    : EnsuresRuns
        (fun values words =>
          Ran values.notes.calls (Argument.helperCallsOfList args) words
          ∧ List.Forall₂ Argument.Gives args values.value)
        (t.evaluateArguments context.listing node callee args) := by
  have visited := sorted.sublist
    (Node.recordedStarts_sublist (Argument.visitedOfList_sublist args))
  cases args with
  | nil =>
      rw [evaluateArguments]
      exact .pure ⟨.done, .nil⟩
  | cons arg args =>
      rw [Argument.nodesOfList, List.filterMap_append] at sorted
      obtain ⟨sorted, sorted', -⟩ := List.pairwise_append.mp sorted
      rw [Argument.visitedOfList, Node.recordedStarts_append] at visited
      rw [evaluateArguments]
      refine ((evaluateArgument_runs arg sorted).and (evaluateArgument_notes _ _ arg)).bind ?_
      rintro first words ⟨⟨ran, given⟩, inside⟩
      refine (expectNoPlace_runs _ _ _ _).bind ?_
      rintro _ _ rfl
      have others := evaluateArguments_runs node callee args sorted'
      refine (others.and (evaluateArguments_notes _ _ node callee args)).bind ?_
      rintro rest words' ⟨⟨ran', given'⟩, inside'⟩
      rw [← inside.starts sorted, ← inside'.starts sorted'] at visited
      refine .pure ⟨?_, .cons given given'⟩
      rw [List.append_nil, List.nil_append]
      exact ran.parts ran' visited
termination_by (sizeOf args, 0)

/-- The helper calls of an argument are run, and the argument gives its value. -/
theorem evaluateArgument_runs (arg : Argument)
    (sorted : (arg.nodes.filterMap Node.callStart?).Pairwise (· < ·))
    : EnsuresRuns
        (fun value words => Ran value.notes.calls arg.helperCalls words ∧ arg.Gives value.value)
        (t.evaluateArgument context.listing arg) := by
  cases arg with
  | quoted value span | bare value span =>
      rw [evaluateArgument]
      exact .pure ⟨.done, .word value rfl⟩
  | trigger node =>
      have place : (t.placeholder? context.listing node).isSome = node.isPlaceholder :=
        t.isSome_placeholder? node
      rw [evaluateArgument, Argument.helperCalls, ← place]
      cases found : t.placeholder? context.listing node with
      | some action =>
          refine (placeholder?_runs found).bind ?_
          rintro value _ ⟨rfl, given⟩
          exact .pure ⟨.done, given⟩
      | none =>
          rw [found] at place
          refine (evaluateNode_runs node .argument sorted).bind fun date words ran => .pure ?_
          rw [List.append_nil]
          exact ⟨ran, .word _ (isPeriodPlace_of_none place.symm)⟩
termination_by (sizeOf arg, 0)

end

-----------------------------------------------------------------------------------------
-- Names
-----------------------------------------------------------------------------------------

-- The statements follow the nodes that are visited, as a call goes on with its arguments.
mutual

/-- The helper calls are those among the nodes that are visited, by induction over the syntax. -/
theorem helperCalls_perm (node : Node)
    : node.helperCalls.Perm (node.visited.filter (Node.isCallOf "bin")) := by
  cases node with
  | date value token suffix => exact .refl _
  | call name args token suffix =>
      rw [Node.helperCalls, Node.visited]
      split
      · refine ((helperCallsOfList_perm args).append_right _).trans ?_
        refine List.perm_append_comm.trans ?_
        rw [← List.filter_append]
        rfl
      · rename_i inward
        have other : (name == "bin") = false := by
          simp only [Bool.or_eq_true, not_or, Bool.not_eq_true] at inward
          exact inward.1
        rw [List.filter_cons_of_neg (by simp [Node.isCallOf, other])]
        exact .refl _
  | both left right | either left right =>
      rw [Node.helperCalls, Node.visited, List.filter_cons_of_neg Bool.false_ne_true,
        List.filter_append]
      exact (helperCalls_perm left).append (helperCalls_perm right)
  | group inner span =>
      rw [Node.helperCalls, Node.visited, List.filter_cons_of_neg Bool.false_ne_true]
      exact helperCalls_perm inner

theorem helperCallsOf_perm (arg : Argument)
    : arg.helperCalls.Perm (arg.visited.filter (Node.isCallOf "bin")) := by
  cases arg with
  | quoted value span | bare value span => exact .refl _
  | trigger node =>
      rw [Argument.helperCalls, Argument.visited]
      split
      · exact .refl _
      · exact helperCalls_perm node

theorem helperCallsOfList_perm (args : List Argument)
    : (Argument.helperCallsOfList args).Perm
        ((Argument.visitedOfList args).filter (Node.isCallOf "bin")) := by
  cases args with
  | nil => exact .refl _
  | cons arg args =>
      rw [Argument.helperCallsOfList, Argument.visitedOfList, List.filter_append]
      exact (helperCallsOf_perm arg).append (helperCallsOfList_perm args)

end

/-- No helper call is run twice for one evaluation. -/
theorem helperCalls_apart {name : String} (parsed : parse name = .ok t)
    : (t.root.helperCalls.filterMap Node.callStart?).Nodup := by
  have sorted := calls_ascending parsed
  have part := (List.filter_sublist (p := Node.isCallOf "bin")).trans t.root.visited_sublist
  have apart := (sorted.sublist (part.filterMap Node.callStart?)).imp Nat.ne_of_lt
  exact ((helperCalls_perm t.root).filterMap _).nodup_iff.mpr apart

/-- The evaluation of a name that was read runs its helper calls with what it records for them. -/
theorem evaluate_runs {name : String} (parsed : parse name = .ok t) (context : Context σ)
    : EnsuresRuns (fun evaluation words => Ran evaluation.notes.calls t.root.helperCalls words)
        (t.evaluate context.listing) := by
  refine (evaluateNode_runs t.root .root (calls_ascending parsed)).bind fun noted words ran => ?_
  refine .pure ?_
  rw [List.append_nil]
  exact ran

/-- What an evaluation ends in, it also ends in with a list of its questions. -/
theorem exists_asked {before after : σ} {evaluation : Evaluation}
    (evaluated : (t.evaluate context).outcome before = (.ok evaluation, after))
    : ∃ asked,
        (t.evaluate context.listing).outcome (before, []) = (.ok evaluation, (after, asked)) := by
  have follows := evaluate_follows (fun _ => rfl) (context.listing_follows t)
  rcases follows (before, []) before rfl with ⟨_, _, none⟩ | ⟨answers, states⟩
  · exact none.elim
  · rw [evaluated] at answers states
    generalize (t.evaluate context.listing).outcome (before, []) = ran at answers states
    obtain ⟨answer, later, asked⟩ := ran
    obtain rfl : later = after := states
    obtain rfl : answer = .ok evaluation := answers.eq
    exact ⟨asked, rfl⟩

end Trigger

end DueTasks

import DueTasks.Proofs.Evaluation.SameText
import DueTasks.Proofs.Evaluation.Schedule

/-! The order of an evaluation, its first error and its date.
Evaluation takes the scheduled steps one after the other. The first step that fails ends it, with an
error that quotes the call that it belongs to. If none fails, the date is found from the leaves
upwards.
-/

namespace DueTasks

open Asking Text

variable {σ : Type}

-----------------------------------------------------------------------------------------
-- The date of a node
-----------------------------------------------------------------------------------------

/-- Steps have found the date of a node, apart from its annotations. -/
def Taken.Found (taken : List Taken) (node : Node) (date : Date) : Prop :=
  ∃ one ∈ taken, one.step.dated? = some node ∧ one.after.dates.head? = some date

/-- The date of a node, from the leaves upwards: a date of its own and the date that was found for a
call are moved by their annotations, operators take the later or the earlier date, and a group has
the date of what stands in it.
-/
inductive Node.Dated (taken : List Taken) : Node → Date → Prop where
  | date (value : Date) (token : Span) (suffix : Suffix)
    : Dated taken (.date value token suffix) (suffix.applyTo value)
  | call {name : String} {args : List Argument} {token : Span} {suffix : Suffix} {date : Date}
      (found : Taken.Found taken (.call name args token suffix) date)
    : Dated taken (.call name args token suffix) (suffix.applyTo date)
  | both {left right : Node} {first second : Date} (h : Dated taken left first)
      (h' : Dated taken right second)
    : Dated taken (.both left right) (max first second)
  | either {left right : Node} {first second : Date} (h : Dated taken left first)
      (h' : Dated taken right second)
    : Dated taken (.either left right) (min first second)
  | group {inner : Node} {date : Date} (span : Span) (h : Dated taken inner date)
    : Dated taken (.group inner span) date

mutual

/-- The spans of nodes are spans of every node that they stand in, by induction over the syntax. -/
theorem Node.span_mem_spans_of_mem_nodes (node : Node) {inner : Node} (h : inner ∈ node.nodes)
    : inner.span ∈ node.spans := by
  cases node with
  | date value token suffix =>
      obtain rfl := List.mem_singleton.mp h
      exact Node.span_mem_spans _
  | call name args token suffix =>
      rcases List.mem_cons.mp h with rfl | h
      · exact Node.span_mem_spans _
      · have below := Argument.span_mem_spansOfList args h
        exact List.mem_cons_of_mem _ (List.mem_cons_of_mem _ (List.mem_cons_of_mem _ below))
  | both left right | either left right =>
      rcases List.mem_cons.mp h with rfl | h
      · exact Node.span_mem_spans _
      · refine List.mem_cons_of_mem _ (List.mem_append.mpr ((List.mem_append.mp h).imp ?_ ?_))
        · exact left.span_mem_spans_of_mem_nodes
        · exact right.span_mem_spans_of_mem_nodes
  | group inner span =>
      rcases List.mem_cons.mp h with rfl | h
      · exact Node.span_mem_spans _
      · exact List.mem_cons_of_mem _ (inner.span_mem_spans_of_mem_nodes h)

theorem Argument.span_mem_spansOfList (args : List Argument) {inner : Node}
    (h : inner ∈ Argument.nodesOfList args)
    : inner.span ∈ Argument.spansOfList args := by
  cases args with
  | nil => cases h
  | cons arg args =>
      refine List.mem_append.mpr ((List.mem_append.mp h).imp (fun h => ?_) fun h => ?_)
      · cases arg with
        | quoted value span | bare value span => cases h
        | trigger node => exact node.span_mem_spans_of_mem_nodes h
      · exact Argument.span_mem_spansOfList args h

end

/-- What a span covers is its text. -/
theorem Span.Covers.text_eq {t : Trigger} {span : Span} {part : List Char}
    (h : span.Covers t.source.toList part)
    : t.text span = String.ofList part := by
  obtain ⟨before, after, text, rfl⟩ := h
  rw [Trigger.text, text, slice_append]

/-- More steps find what fewer steps have found. -/
theorem Node.Dated.mono {taken more : List Taken} {node : Node} {date : Date}
    (h : node.Dated taken date) (sub : taken ⊆ more)
    : node.Dated more date := by
  induction h with
  | date value token suffix => exact .date value token suffix
  | call found =>
      obtain ⟨one, member, dated, date⟩ := found
      exact .call ⟨one, sub member, dated, date⟩
  | both h h' ih ih' => exact .both ih ih'
  | either h h' ih ih' => exact .either ih ih'
  | group span h ih => exact .group span ih

namespace Trigger

variable {t : Trigger} {context : Context σ} {values after : Values} {state later : σ}
  {taken : List Taken} {node : Node}

/-- Steps in two parts are taken part by part. -/
theorem Run.split (run : t.Run context values state taken after later) {first second : List Step}
    (all : taken.map Taken.step = first ++ second)
    : ∃ before behind middle next,
        taken = before ++ behind
        ∧ before.map Taken.step = first
        ∧ behind.map Taken.step = second
        ∧ t.Run context values state before middle next
        ∧ t.Run context middle next behind after later := by
  obtain ⟨before, behind, rfl, firsts, seconds⟩ := List.map_eq_append_iff.mp all
  obtain ⟨middle, next, begun, ended⟩ := run.of_append
  exact ⟨before, behind, middle, next, rfl, firsts, seconds, begun, ended⟩

/-- A single step was taken if it did not fail. -/
theorem Run.of_singleton (run : t.Run context values state taken after later) {step : Step}
    (all : taken.map Taken.step = [step])
    : taken = [⟨step, values, after⟩]
      ∧ (t.perform context step values).outcome state = (.ok after, later) := by
  cases run with
  | done => cases all
  | step performed rest =>
      simp only [List.map_cons, List.cons.injEq, List.map_eq_nil_iff] at all
      obtain ⟨rfl, rfl⟩ := all
      cases rest
      exact ⟨rfl, performed⟩

/-- The last step of a call finds its date or fails. -/
theorem CallSteps.ends {args : List Argument} {steps : List Step} (h : t.CallSteps node args steps)
    : ∃ front last,
        steps = front ++ [last]
        ∧ (last.dated? = some node ∨ ∃ error, last = .fail node error) := by
  cases h with
  | @single step args own ends => exact ⟨[], step, rfl, ends⟩
  | @enclosed opening closing callee arg args opens closes differ ends =>
      exact ⟨opening :: t.stepsOfArguments node callee args, closing, rfl, .inl ends⟩

/-- The steps of a call, none of which failed, have found its date. -/
theorem Run.found {name : String} {args : List Argument}
    (run : t.Run context values state taken after later)
    (all : taken.map Taken.step = t.stepsOfCall node name args)
    : ∃ date, after = values.addDate date ∧ Taken.Found taken node date := by
  obtain ⟨date, rfl⟩ : ∃ date, after = values.addDate date := by
    have performed := run.performAll []
    rw [List.append_nil, all, performAll_stepsOfCall node name node.span .root args, outcome_map]
      at performed
    generalize (t.evaluateCall context node name node.span .root args).outcome state = ran
      at performed
    obtain ⟨answer, final⟩ := ran
    cases answer with
    | error error => cases performed
    | ok call =>
        cases performed
        exact ⟨call.value, rfl⟩
  obtain ⟨front, last, shape, ends⟩ := (callSteps_stepsOfCall (t := t) node name args).ends
  obtain ⟨before, behind, middle, next, rfl, -, lasts, -, ended⟩ := run.split (all.trans shape)
  obtain ⟨rfl, performed⟩ := ended.of_singleton lasts
  rcases ends with dated | ⟨error, rfl⟩
  · exact ⟨date, rfl, _, List.mem_append_right _ List.mem_cons_self, dated, rfl⟩
  · cases performed

/-- The steps of a node, none of which failed, have found its date, by induction over the syntax
outside of arguments.
-/
theorem dated_of_run {node : Node} {values after : Values} {state later : σ} {taken : List Taken}
    (run : t.Run context values state taken after later) (all : taken.map Taken.step = t.steps node)
    : ∃ date, after = values.addDate date ∧ node.Dated taken date := by
  cases node with
  | date value token suffix =>
      rw [steps] at all
      obtain ⟨before, behind, middle, next, rfl, first, second, begun, ended⟩ :=
        run.split (all.trans (List.singleton_append ..).symm)
      obtain ⟨-, dated⟩ := begun.of_singleton first
      obtain ⟨-, moved⟩ := ended.of_singleton second
      cases dated
      cases moved
      exact ⟨_, rfl, .date value token suffix⟩
  | call name args token suffix =>
      rw [steps] at all
      obtain ⟨before, behind, middle, next, rfl, first, second, begun, ended⟩ := run.split all
      obtain ⟨date, rfl, one, member, found⟩ := begun.found first
      obtain ⟨-, moved⟩ := ended.of_singleton second
      cases moved
      exact ⟨suffix.applyTo date, rfl, .call ⟨one, List.mem_append_left _ member, found⟩⟩
  | both left right | either left right =>
      rw [steps] at all
      obtain ⟨operands, behind, middle, next, rfl, both, join, begun, ended⟩ := run.split all
      obtain ⟨before, rest, between, further, rfl, lefts, rights, firsts, seconds⟩ :=
        begun.split both
      obtain ⟨first, rfl, dated⟩ := dated_of_run firsts lefts
      obtain ⟨second, rfl, dated'⟩ := dated_of_run seconds rights
      obtain ⟨-, joined⟩ := ended.of_singleton join
      cases joined
      have dated := (dated.mono (List.subset_append_left _ rest)).mono
        (List.subset_append_left _ behind)
      have dated' := (dated'.mono (List.subset_append_right before _)).mono
        (List.subset_append_left _ behind)
      first
      | exact ⟨_, rfl, .both dated dated'⟩
      | exact ⟨_, rfl, .either dated dated'⟩
  | group inner span =>
      rw [steps] at all
      obtain ⟨date, rfl, dated⟩ := dated_of_run run all
      exact ⟨date, rfl, .group span dated⟩
termination_by sizeOf node

-----------------------------------------------------------------------------------------
-- The error of a step
-----------------------------------------------------------------------------------------

/-- An error quotes a text of the name. -/
def Quotes (text : String) (error : TaskError) : Prop :=
  (∃ reason, error = .semantic text reason) ∨ ∃ reason, error = .helper text reason

theorem quotes_semantic (text : String) (reason : SemanticError)
    : Quotes text (.semantic text reason) :=
  .inl ⟨reason, rfl⟩

theorem quotes_helper (text : String) (reason : HelperError) : Quotes text (.helper text reason) :=
  .inr ⟨reason, rfl⟩

theorem helperDate_quotes (node : Node) (program : String) (args : List HelperArg)
    : FailsWith (Quotes (t.text node.span)) (t.helperDate context node program args) := by
  refine (FailsWith.mapError fun error => quotes_helper _ error).bind fun line => ?_
  split
  · exact .pure _
  · exact .throw (quotes_helper _ _)

theorem ownLine_quotes (node : Node) (requested : String)
    : FailsWith (Quotes (t.text node.span)) (t.ownLine context node requested) := by
  refine (FailsWith.mapError fun error => quotes_semantic _ _).bind fun lines => ?_
  extract_lets found
  cases found with
  | some line => exact .pure line
  | none => exact .throw (quotes_semantic _ _)

theorem expectNoPlace_quotes (node : Node) (callee : Callee) (arg : Argument) (value : HelperArg)
    : FailsWith (Quotes (t.text node.span))
        (t.expectNoPlace node callee arg value : Asking σ TaskError Unit) := by
  unfold expectNoPlace
  split
  · exact .throw (quotes_semantic _ _)
  · exact .throw (quotes_semantic _ _)
  · exact .pure ()

/-- A step that fails belongs to a call, and its error quotes the text of that call, unless it is
the error of the task that the call refers to.
-/
theorem perform_fails {step : Step} {error : TaskError}
    (failed : (t.perform context step values).outcome state = (.error error, later))
    : ∃ node,
        step.caller? = some node
        ∧ (Quotes (t.text node.span) error
          ∨ ∃ id,
              step = .resolve node id
              ∧ (context.resolve id).outcome state = (.error (.target error), later)) := by
  have quoted {node : Node}
      (quotes : FailsWith (Quotes (t.text node.span)) (t.perform context step values))
      : Quotes (t.text node.span) error :=
    quotes state error (by rw [failed])
  cases step with
  | now node => exact ⟨node, rfl, .inl (quoted (.map _ (.mapError nofun)))⟩
  | resolve node id =>
      refine ⟨node, rfl, ?_⟩
      rw [perform, outcome_map, outcome_mapError] at failed
      rcases ran : (context.resolve id).outcome state with ⟨answer, final⟩
      rw [ran] at failed
      rcases answer with (reason | reason) | date
      · cases failed
        exact .inl (quotes_semantic _ _)
      · cases failed
        exact .inr ⟨id, rfl, ran⟩
      · cases failed
  | find node program =>
      exact ⟨node, rfl, .inl (quoted (.map _ (.mapError fun _ => quotes_semantic _ _)))⟩
  | run node program => exact ⟨node, rfl, .inl (quoted ((helperDate_quotes _ _ _).map _))⟩
  | call node builtin =>
      exact ⟨node, rfl, .inl (quoted (.map _ (.mapError fun _ => quotes_semantic _ _)))⟩
  | line node requested => exact ⟨node, rfl, .inl (quoted ((ownLine_quotes _ _).map _))⟩
  | target node =>
      exact ⟨node, rfl, .inl (quoted (.map _ (.mapError fun _ => quotes_semantic _ _)))⟩
  | path node =>
      exact ⟨node, rfl, .inl (quoted (.map _ (.mapError fun _ => quotes_semantic _ _)))⟩
  | check node callee arg =>
      refine ⟨node, rfl, .inl (quoted ?_)⟩
      simp only [perform]
      cases values.args.getLast? with
      | some value => exact (expectNoPlace_quotes _ _ _ _).map _
      | none => exact .pure values
  | fail node reason => exact ⟨node, rfl, .inl (quoted (.throw (quotes_semantic _ _)))⟩
  | _ => cases failed

-----------------------------------------------------------------------------------------
-- Evaluation takes the steps in order
-----------------------------------------------------------------------------------------

/-- What the steps of a trigger end in, its evaluation ends in. -/
theorem outcome_evaluate (t : Trigger) (context : Context σ) (state : σ)
    : (t.performAll context (t.steps t.root) {}).outcome state
      = (((t.evaluate context).outcome state).1.map fun evaluation => ⟨[evaluation.date], []⟩,
          ((t.evaluate context).outcome state).2) := by
  rw [performAll_steps t.root .root, evaluate, ← map_eq_pure_bind, outcome_map, outcome_map]
  generalize (t.evaluateNode context t.root .root).outcome state = ran
  obtain ⟨answer, later⟩ := ran
  cases answer <;> rfl

/-- An evaluation with a list of questions has the same answer as one without. -/
theorem outcome_evaluate_listing (t : Trigger) (context : Context σ) (state : σ)
    (asked : List Question)
    : (t.evaluate context.listing).outcome (state, asked)
      = (((t.evaluate context).outcome state).1,
          ((t.performAll context.listing (t.steps t.root) {}).outcome (state, asked)).2) := by
  have follows := evaluate_follows (fun _ => rfl) (context.listing_follows t)
  rcases follows (state, asked) state rfl with ⟨_, _, none⟩ | ⟨answers, -⟩
  · exact none.elim
  · rw [outcome_evaluate t context.listing]
    exact Prod.ext answers.eq rfl

/-- A step behind others fails. It belongs to a call of the tree. Its error quotes the exact text of
this call, or it is the error of the task that the call refers to.
-/
structure FirstFailure (t : Trigger) (context : Context σ) (taken : List Taken) (values : Values)
    (state : σ) (failing : Step) (error : TaskError) (later : σ)
    : Prop where
  scheduled : ∃ rest, t.steps t.root = taken.map Taken.step ++ failing :: rest
  failed : (t.perform context failing values).outcome state = (.error error, later)
  blamed
    : ∃ call ∈ t.root.nodes,
        failing.caller? = some call
        ∧ call.callStart?.isSome = true
        ∧ ((∃ part, call.span.Covers t.source.toList part ∧ Quotes (String.ofList part) error)
          ∨ ∃ id,
              failing = .resolve call id
              ∧ (context.resolve id).outcome state = (.error (.target error), later))

/-- A scheduled step that fails behind those that were taken is the first failure. -/
theorem ReadFrom.firstFailure {text : String} {d : Cursor} (h : t.ReadFrom text d) {failing : Step}
    {rest : List Step} {error : TaskError}
    (scheduled : t.steps t.root = taken.map Taken.step ++ failing :: rest)
    (failed : (t.perform context failing values).outcome state = (.error error, later))
    : t.FirstFailure context taken values state failing error later := by
  refine ⟨⟨rest, scheduled⟩, failed, ?_⟩
  obtain ⟨call, own, blamed⟩ := perform_fails failed
  have member : failing ∈ t.steps t.root := by
    rw [scheduled]
    exact List.mem_append_right _ List.mem_cons_self
  obtain ⟨inside, isCall⟩ := (scheduled_steps t t.root).called failing member call own
  refine ⟨call, inside, own, isCall, blamed.imp_left fun quotes => ?_⟩
  have place : (Cursor.start text.toList).IsIn t.source.toList := by
    rw [h.source]
    exact Cursor.isIn_start _
  obtain ⟨part, covers⟩ := h.reads.spans_isPart place _ (t.root.span_mem_spans_of_mem_nodes inside)
  refine ⟨part, covers, ?_⟩
  rwa [← covers.text_eq]

/-- Evaluation takes the scheduled steps in their order, up to the first one that fails, and asks
nothing but what these steps ask, one question each. No step that asks is scheduled twice. The first
failure ends the evaluation with its error; without one, the date is found from the leaves upwards.
-/
theorem evaluate_in_order {text : String} {t : Trigger} (parsed : parse text = .ok t)
    (context : Context σ) (state : σ)
    : ((t.steps t.root).filter Step.asks).Nodup
      ∧ ∃ taken values between,
          t.Run context {} state taken values between
          ∧ (Taken.questions taken).length = (taken.map Taken.step).countP Step.asks
          ∧ ((t.steps t.root = taken.map Taken.step
              ∧ ∃ evaluation,
                  (t.evaluate context).outcome state = (.ok evaluation, between)
                  ∧ (t.evaluate context.listing).outcome (state, [])
                    = (.ok evaluation, (between, Taken.questions taken))
                  ∧ t.root.Dated taken evaluation.date)
            ∨ ∃ failing error later,
                t.FirstFailure context taken values between failing error later
                ∧ (t.evaluate context).outcome state = (.error error, later)
                ∧ (t.evaluate context.listing).outcome (state, [])
                  = (.error error,
                      (later, Taken.questions taken ++ (failing.question? values).toList))) := by
  obtain ⟨d, h⟩ := parse_eq_ok.mp parsed
  refine ⟨(scheduled_steps t t.root).once (h.reads.ascending.sorted.imp Nat.ne_of_lt), ?_⟩
  obtain ⟨taken, values, between, run, ends⟩ := run_or_fail t context (t.steps t.root) {} state
  refine ⟨taken, values, between, run, Taken.length_questions taken, ?_⟩
  have evaluated := outcome_evaluate t context state
  rw [outcome_evaluate_listing]
  generalize (t.evaluate context).outcome state = ran at evaluated
  obtain ⟨answer, final⟩ := ran
  rcases ends with all | ⟨failing, rest, error, later, all, failed⟩
  · left
    have performed := run.performAll []
    have listed := run.listing [] []
    rw [List.append_nil, ← all] at performed listed
    rw [evaluated] at performed
    cases answer with
    | error error => cases performed
    | ok evaluation =>
        cases performed
        obtain ⟨date, same, dated⟩ := dated_of_run run all.symm
        cases same
        exact ⟨all, evaluation, rfl, by rw [listed]; rfl, dated⟩
  · right
    obtain ⟨performed, listed⟩ := run.stops rest failed
    rw [← all] at performed listed
    rw [evaluated] at performed
    cases answer with
    | ok evaluation => cases performed
    | error found =>
        cases performed
        exact ⟨failing, error, final, h.firstFailure all failed, rfl, by rw [listed]⟩

/-- Takes the next one of some lines. -/
def nextLine : StateM (List String) String :=
  modifyGet fun lines => (lines.headD "", lines.tail)

/-- A context that takes the next one of some lines whenever it is asked for the current date and
whenever a helper is run.
-/
def dictating : Context (List String) where
  now := .first
  today := do return (Date.ofText? (← nextLine)).getD .first
  resolve _ := pure .first
  findHelper program := pure ⟨program⟩
  runHelper _ := nextLine
  callBuiltin _ _ := pure .first
  ownLines := pure []
  ownTarget := pure ⟨""⟩
  ownPath := pure ⟨""⟩

/-- The helper is looked up, its argument asks for the current date, the helper runs, and the last
call asks for the current date again. The date with an offset, a month later than it is written,
comes after that and before the one from the helper, so it is the date of the task.
-/
theorem evaluate_in_order_of_nestedCalls
    : parse "(bin('ä', now()) + 2020E1M & now()) - ü" = .ok nestedCalls
      ∧ ∃ evaluation taken,
          nestedCalls.steps nestedCalls.root = taken.map Taken.step
          ∧ (nestedCalls.evaluate dictating.listing).outcome
              (["2021-05-06", "2021", "2019", "x"], [])
            = (.ok evaluation,
                (["x"], [.findHelper "ä", .today, .runHelper ["ä", "2021-05-06"], .today]))
          ∧ nestedCalls.root.Dated taken evaluation.date
          ∧ evaluation.date = .ofParts 2020 2 1 := by
  have asked
      : ((nestedCalls.evaluate dictating.listing).outcome
          (["2021-05-06", "2021", "2019", "x"], [])).2
        = (["x"], [.findHelper "ä", .today, .runHelper ["ä", "2021-05-06"], .today]) := by
    decide +kernel
  have date
      : ((nestedCalls.evaluate dictating).outcome
          ["2021-05-06", "2021", "2019", "x"]).1.toOption.map Evaluation.date
        = some (.ofParts 2020 2 1) := by
    decide +kernel
  obtain ⟨-, taken, values, between, -, -, ends⟩ :=
    evaluate_in_order parse_nestedCalls dictating ["2021-05-06", "2021", "2019", "x"]
  rcases ends with ⟨all, evaluation, evaluated, listed, dated⟩
    | ⟨failing, error, later, -, failed, -⟩
  · rw [listed] at asked
    rw [evaluated] at date
    have listed := listed.trans (congrArg (Prod.mk (Except.ok evaluation)) asked)
    exact ⟨parse_nestedCalls, evaluation, taken, all, listed, dated, Option.some.inj date⟩
  · rw [failed] at date
    cases date

end Trigger

end DueTasks

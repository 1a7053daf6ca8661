import DueTasks.Proofs.DoneName.Rewriting
import DueTasks.Proofs.Evaluation.Flags
import DueTasks.Proofs.Evaluation.Runs

/-! Helpers that run again for a done name.
A repeating helper call outside of arguments runs with the words with which it ran when the task was
evaluated, and with the words of its period in the places for them. The calls run again in the order
of the text, up to the first one that fails.
-/

namespace DueTasks

open Asking

/-- Whether a node is a helper call that repeats. -/
def Node.runsAgain (node : Node) : Bool :=
  node.isCallOf "bin" && node.repetition?.isSome

/-- A call that is not run again asks for no change. -/
theorem Node.changes_call {name : String} {args : List Argument} {token : Span} {suffix : Suffix}
    (once : (Node.call name args token suffix).runsAgain = false) (now : Date) (pending : Bool)
    : (Node.call name args token suffix).changes now pending = [] := by
  rw [runsAgain, Bool.and_eq_false_iff] at once
  rw [changes]
  cases repeats : suffix.repetition with
  | none => rfl
  | some repetition =>
      rcases once with other | once
      · exact if_neg (by simpa [isCallOf] using other)
      · simp [repetition?, suffix?, repeats] at once

/-- A call that runs again asks for its text to become what its helper prints. -/
theorem Node.exists_changes_call {name : String} {args : List Argument} {token : Span}
    {suffix : Suffix} (again : (Node.call name args token suffix).runsAgain = true) (now : Date)
    (pending : Bool)
    : suffix.repetition.isSome = true
      ∧ ∃ period, (Node.call name args token suffix).changes now pending
          = [.helper token ⟨token.start, suffix.span.stop⟩ period] := by
  obtain ⟨called, repeats⟩ := Bool.and_eq_true_iff.mp again
  have helper : name = "bin" := beq_iff_eq.mp called
  obtain ⟨repetition, found⟩ := Option.isSome_iff_exists.mp repeats
  have found : suffix.repetition = some repetition := found
  refine ⟨repeats, repetition.period, ?_⟩
  rw [changes, found]
  exact if_pos helper

/-- The words of arguments without and with a period: an argument `arg()` becomes the words of the
period in one, an argument `args()` becomes all of them, and every other argument is one word that
stays the same.
-/
inductive PeriodFilled (period : Period) : List Argument → List String → List String → Prop where
  | nil : PeriodFilled period [] [] []
  | period (token : Span) (suffix : Suffix) {args : List Argument} {old new : List String}
      (later : PeriodFilled period args old new)
    : PeriodFilled period (.trigger (.call "arg" [] token suffix) :: args) old
        (" ".intercalate period.keywords :: new)
  | periodWords (token : Span) (suffix : Suffix) {args : List Argument} {old new : List String}
      (later : PeriodFilled period args old new)
    : PeriodFilled period (.trigger (.call "args" [] token suffix) :: args) old
        (period.keywords ++ new)
  | word {arg : Argument} (value : String) (other : arg.isPeriodPlace = false)
      {args : List Argument} {old new : List String} (later : PeriodFilled period args old new)
    : PeriodFilled period (arg :: args) (value :: old) (value :: new)

/-- Arguments that were evaluated are filled with a period, by induction over them. -/
theorem PeriodFilled.of_given (period : Period) {args : List Argument} {values : List HelperArg}
    (given : List.Forall₂ Argument.Gives args values)
    : PeriodFilled period args (HelperArg.expandAll values none)
        (HelperArg.expandAll values (some period)) := by
  induction given with
  | nil => exact .nil
  | cons first others ih =>
      cases first with
      | period token suffix => exact .period token suffix ih
      | periodWords token suffix => exact .periodWords token suffix ih
      | word value other => exact .word value other ih

/-- The words with which a repeating helper call runs again: those with which this call, and no
other one, ran in the evaluation, with the period of its own repeat filled in.
-/
inductive Replayed (evaluation : Evaluation) (runs : List (Node × List String))
    : Node → List String → Prop where
  | intro {first : Argument} {rest : List Argument} {token : Span} {suffix : Suffix}
      {repetition : Repeat} {args : List HelperArg} {path : String} {old new : List String}
      (repeats : suffix.repetition = some repetition)
      (known : evaluation.notes.calls.lookup token.start = some args)
      (own : HelperArg.expandAll args none = path :: old)
      (ran : (.call "bin" (first :: rest) token suffix, path :: old) ∈ runs)
      (again : HelperArg.expandAll args (some repetition.period) = path :: new)
      (filled : PeriodFilled repetition.period rest old new)
    : Replayed evaluation runs (.call "bin" (first :: rest) token suffix) (path :: new)

-----------------------------------------------------------------------------------------
-- Helpers that run one after the other
-----------------------------------------------------------------------------------------

namespace Trigger

variable {σ α β : Type} {t : Trigger} {context : Context σ} {all all' : List (List String)}

/-- An action with a list of questions runs helpers one after the other and asks nothing else, up to
the first one that fails.
-/
def RunsInTurn (context : Context σ) (all : List (List String))
    (action : Asking (σ × List Question) TaskError α)
    : Prop :=
  ∀ state asked,
    (∃ value later,
      action.outcome (state, asked) = (.ok value, (later, asked ++ all.map .runHelper)))
    ∨ ∃ earlier failing rest middle error quote later,
        all = earlier ++ failing :: rest
        ∧ (context.runHelper failing).outcome middle = (.error error, later)
        ∧ action.outcome (state, asked)
          = (.error (.helper quote error),
              (later, asked ++ (earlier ++ [failing]).map .runHelper))

namespace RunsInTurn

theorem pure (value : α)
    : RunsInTurn context [] (Pure.pure value : Asking (σ × List Question) TaskError α) :=
  fun state asked => .inl ⟨value, state, by simp⟩

/-- Helpers run in sequence. -/
theorem bind {action : Asking (σ × List Question) TaskError α}
    {next : α → Asking (σ × List Question) TaskError β} (first : RunsInTurn context all action)
    (later : ∀ value, RunsInTurn context all' (next value))
    : RunsInTurn context (all ++ all') (action >>= next) := by
  intro state asked
  rw [outcome_bind]
  rcases first state asked with ⟨value, middle, answered⟩
    | ⟨earlier, failing, rest, middle, error, quote, after, rfl, failed, answered⟩
  · simp only [answered]
    rcases later value middle (asked ++ all.map .runHelper) with ⟨found, after, answered'⟩
      | ⟨earlier, failing, rest, between, error, quote, after, rfl, failed, answered'⟩
    · exact .inl ⟨found, after, by rw [answered', List.map_append, List.append_assoc]⟩
    · refine .inr ⟨all ++ earlier, failing, rest, between, error, quote, after, ?_, failed, ?_⟩
      · rw [List.append_assoc]
      · rw [answered', List.append_assoc, ← List.map_append, ← List.append_assoc]
  · refine .inr ⟨earlier, failing, rest ++ all', middle, error, quote, after, ?_, failed, ?_⟩
    · rw [List.append_assoc, List.cons_append]
    · rw [answered]

/-- What follows runs nothing. -/
theorem map_pure {action : Asking (σ × List Question) TaskError α} (f : α → β)
    (h : RunsInTurn context all action)
    : RunsInTurn context all (action >>= fun value => Pure.pure (f value)) := by
  have both := h.bind fun value => .pure (f value)
  rwa [List.append_nil] at both

/-- A single helper runs. -/
theorem single (words : List String) (quote : String)
    : RunsInTurn context [words]
        ((context.listing.runHelper words).mapError (TaskError.helper quote)) := by
  intro state asked
  have listed : (context.listing.runHelper words).outcome (state, asked) = _ :=
    Lists.listed (.runHelper words) (context.runHelper words) state asked
  rw [outcome_mapError, listed]
  rcases ran : (context.runHelper words).outcome state with ⟨answer, later⟩
  cases answer with
  | ok line => exact .inl ⟨line, later, rfl⟩
  | error error => exact .inr ⟨[], words, [], state, error, quote, later, rfl, ran, rfl⟩

end RunsInTurn

-----------------------------------------------------------------------------------------
-- Helpers that run for a done name
-----------------------------------------------------------------------------------------

/-- The words with which a node runs again, if it does. -/
def replay? (evaluation : Evaluation) : Node → Option (List String)
  | .call _ _ token suffix => do
      let repetition ← suffix.repetition
      let args ← evaluation.notes.calls.lookup token.start
      return HelperArg.expandAll args (some repetition.period)
  | _ => none

/-- The words with which the helper calls among some nodes run again. -/
def replays (evaluation : Evaluation) (nodes : List Node) : List (List String) :=
  (nodes.filter Node.runsAgain).filterMap (replay? evaluation)

theorem replays_operands (evaluation : Evaluation) {node : Node} (other : node.runsAgain = false)
    (first second : List Node)
    : replays evaluation (node :: (first ++ second))
      = replays evaluation first ++ replays evaluation second := by
  rw [replays, List.filter_cons_of_neg (by simp [other]), List.filter_append,
    List.filterMap_append]
  rfl

/-- A call runs again with what is recorded for it, if it is a helper call that repeats. -/
theorem doneNode_call_runs (evaluation : Evaluation) (name : String) (args : List Argument)
    (token : Span) (suffix : Suffix)
    : RunsInTurn context (replays evaluation [.call name args token suffix])
        (t.doneNode context.listing evaluation (.call name args token suffix)) := by
  rw [doneNode, replays]
  by_cases helper : name = "bin"
  · subst helper
    rw [if_pos (Callee.ofName_eq_helper.mpr rfl), doneCall]
    cases repeats : suffix.repetition with
    | none =>
        have once : (Node.call "bin" args token suffix).runsAgain = false := by
          simp [Node.runsAgain, Node.repetition?, Node.suffix?, repeats]
        rw [List.filter_cons_of_neg (by simp [once])]
        exact .pure _
    | some repetition =>
        have again : (Node.call "bin" args token suffix).runsAgain = true := by
          simp [Node.runsAgain, Node.isCallOf, Node.repetition?, Node.suffix?, repeats]
        rw [List.filter_cons_of_pos again, List.filter_nil, List.filterMap_cons, replay?, repeats]
        cases known : evaluation.notes.calls.lookup token.start with
        | none => exact .pure _
        | some recorded => exact (RunsInTurn.single _ _).map_pure _
  · have other : (Node.call name args token suffix).runsAgain = false := by
      simp [Node.runsAgain, Node.isCallOf, helper]
    rw [if_neg fun h => helper (Callee.ofName_eq_helper.mp h),
      List.filter_cons_of_neg (by simp [other])]
    exact .pure _

/-- Writing a node anew runs the helper calls outside of arguments that repeat, in their order, by
induction over the syntax.
-/
theorem doneNode_runs (evaluation : Evaluation) (node : Node)
    : RunsInTurn context (replays evaluation node.outer)
        (t.doneNode context.listing evaluation node) := by
  cases node with
  | date value token suffix =>
      rw [doneNode]
      exact .pure _
  | call name args token suffix => exact doneNode_call_runs evaluation name args token suffix
  | both left right | either left right =>
      rw [doneNode, Node.outer, replays_operands evaluation rfl]
      refine (doneNode_runs evaluation left).bind fun first => ?_
      exact (doneNode_runs evaluation right).map_pure _
  | group inner span =>
      rw [doneNode]
      exact (doneNode_runs evaluation inner).map_pure _
termination_by sizeOf node

-----------------------------------------------------------------------------------------
-- Helpers that run again as they ran before
-----------------------------------------------------------------------------------------

/-- What a helper call that repeats is run with again is what it was run with. -/
theorem replayed_of_runsAgain {evaluation : Evaluation} {runs : List (Node × List String)}
    {node : Node} {args : List HelperArg} (again : node.runsAgain = true)
    (ascending : evaluation.notes.calls.starts.Pairwise (· < ·))
    (own : node.RunsWith evaluation.notes.calls args)
    (ran : (node, HelperArg.expandAll args none) ∈ runs)
    : ∃ words, replay? evaluation node = some words ∧ Replayed evaluation runs node words := by
  obtain ⟨first, suffix, given, recorded⟩ := own
  rename_i rest token path values
  obtain ⟨repetition, repeats⟩ : ∃ repetition, suffix.repetition = some repetition := by
    rw [Node.runsAgain, Bool.and_eq_true] at again
    exact Option.isSome_iff_exists.mp again.2
  have known := CallArgs.lookup_of_mem ascending recorded
  refine ⟨path :: HelperArg.expandAll values (some repetition.period), ?_, ?_⟩
  · rw [replay?, repeats]
    simp only [Option.bind_eq_bind, Option.bind_some, known]
    rfl
  · exact .intro repeats known rfl ran rfl (.of_given _ given)

/-- The helpers that run again are told by the nodes, if there is one for each of them. -/
theorem replays_eq {evaluation : Evaluation} {runs : List (Node × List String)} {nodes : List Node}
    (each
      : ∀ node ∈ nodes, ∃ words,
          replay? evaluation node = some words ∧ Replayed evaluation runs node words)
    : List.Forall₂ (Replayed evaluation runs) nodes (nodes.filterMap (replay? evaluation)) := by
  induction nodes with
  | nil => exact .nil
  | cons node nodes ih =>
      obtain ⟨⟨words, found, again⟩, others⟩ := List.forall_mem_cons.mp each
      rw [List.filterMap_cons_some found]
      exact .cons again (ih others)

/-- Nothing runs again where nothing repeats. -/
theorem filter_runsAgain_eq_nil (once : t.hasRepeat = false)
    : t.root.outer.filter Node.runsAgain = [] := by
  refine List.filter_eq_nil_iff.mpr fun node member again => ?_
  rw [Node.runsAgain, Bool.and_eq_true] at again
  have visited := t.root.visited_sublist.subset (t.root.outer_subset_visited member)
  have repeats : t.hasRepeat = true := List.any_eq_true.mpr ⟨node, visited, again.2⟩
  rw [once] at repeats
  cases repeats

/-- The helper calls of an evaluation are run once each, and a done name runs those of them that
repeat outside of arguments again, each with what was recorded for it and with its period filled
in. They are run in the order of the text, up to the first one that fails. Nothing is run for a task
that cannot repeat.
-/
theorem doneName_replays (context : Context σ) {text : String} {t : Trigger}
    {evaluation : Evaluation} {before after : σ} (parsed : parse text = .ok t)
    (evaluated : (t.evaluate context).outcome before = (.ok evaluation, after)) (state : σ)
    : ∃ asked runs again,
        (t.evaluate context.listing).outcome (before, []) = (.ok evaluation, (after, asked))
        ∧ runs.map Prod.fst = t.root.helperCalls
        ∧ (t.root.helperCalls.filterMap Node.callStart?).Nodup
        ∧ asked.filterMap Question.run? = runs.map Prod.snd
        ∧ List.Forall₂ (Replayed evaluation runs) (t.root.outer.filter Node.runsAgain) again
        ∧ if t.hasRepeat = true ∧ t.declaredIds ≠ [] then
            (t.doneName context.listing evaluation).outcome (state, [])
              = (.error (.semantic text .cannotRepeat), (state, []))
          else
            (∃ name later,
              (t.doneName context.listing evaluation).outcome (state, [])
                = (.ok name, (later, again.map .runHelper)))
            ∨ ∃ earlier failing rest middle error quote later,
                again = earlier ++ failing :: rest
                ∧ (context.runHelper failing).outcome middle = (.error error, later)
                ∧ (t.doneName context.listing evaluation).outcome (state, [])
                  = (.error (.helper quote error),
                      (later, (earlier ++ [failing]).map .runHelper)) := by
  obtain ⟨d, h⟩ := parse_eq_ok.mp parsed
  obtain ⟨asked, listed⟩ := exists_asked evaluated
  obtain ⟨words, questions, ran⟩ :=
    evaluate_runs parsed context (before, []) evaluation (by rw [listed])
  obtain ⟨-, ascending⟩ := evaluate_records parsed before evaluation (by rw [evaluated])
  have canRepeat := evaluate_canRepeat before evaluation (by rw [evaluated])
  obtain ⟨runs, calls, rfl, each⟩ := ran.exists_runs
  rw [listed] at questions
  have again : List.Forall₂ (Replayed evaluation runs) (t.root.outer.filter Node.runsAgain)
      (replays evaluation t.root.outer) := by
    refine replays_eq fun node member => ?_
    obtain ⟨member, again⟩ := List.mem_filter.mp member
    have helper : node.isCallOf "bin" = true := (Bool.and_eq_true _ _ ▸ again).1
    have called : node ∈ t.root.helperCalls :=
      (helperCalls_perm t.root).mem_iff.mpr
        (List.mem_filter.mpr ⟨t.root.outer_subset_visited member, helper⟩)
    rw [← calls] at called
    obtain ⟨⟨_, words⟩, run, rfl⟩ := List.mem_map.mp called
    obtain ⟨args, own, rfl⟩ := each _ run
    exact replayed_of_runsAgain again ascending own run
  refine ⟨asked, runs, _, listed, calls, helperCalls_apart parsed, questions, again, ?_⟩
  by_cases repeats : t.hasRepeat = true
  · by_cases declared : t.declaredIds = []
    · rw [if_neg (fun both => both.2 declared), doneName]
      rw [if_neg (by simp [repeats]), if_neg (by simp [canRepeat, declared])]
      exact (doneNode_runs evaluation t.root).map_pure _ state []
    · rw [if_pos ⟨repeats, declared⟩, doneName, if_neg (by simp [repeats]),
        if_pos (by simpa [canRepeat] using declared), h.source]
      rfl
  · have once := Bool.eq_false_iff.mpr repeats
    rw [if_neg (fun both => repeats both.1), doneName, if_pos (by simp [once]), replays,
      filter_runsAgain_eq_nil once]
    exact .inl ⟨_, state, rfl⟩

-----------------------------------------------------------------------------------------
-- Calls that repeat
-----------------------------------------------------------------------------------------

section

open Text Parsed Reply

/-- A helper call that repeats, with a place for its period. -/
def placedHelper : Node :=
  .call "bin" [.quoted "x" ⟨4, 7⟩, .trigger (.call "arg" [] ⟨9, 14⟩ (bareSuffix 14))] ⟨0, 15⟩
    ⟨none, none, none, some ⟨false, .zero⟩, ⟨15, 16⟩⟩

/-- A helper call that repeats without a period. -/
def plainHelper (offset : Nat) : Node :=
  .call "bin" [.quoted "y" ⟨offset + 4, offset + 7⟩] ⟨offset, offset + 8⟩
    ⟨none, none, none, some ⟨false, .zero⟩, ⟨offset + 8, offset + 9⟩⟩

/-- Two helper calls that repeat. -/
def twoHelpers : Trigger where
  source := "bin('x', arg())P & bin('y')P - t"
  root := .both placedHelper (plainHelper 19)
  ending := ⟨28, 32⟩

theorem parse_twoHelpers : parse "bin('x', arg())P & bin('y')P - t" = .ok twoHelpers := by
  have place : Reads (.unit (.call "arg" [] ⟨9, 14⟩ (bareSuffix 14)))
      ⟨9, "arg())P & bin('y')P - t".toList⟩ ⟨14, ")P & bin('y')P - t".toList⟩ :=
    .call_nil "arg" 9 (by decide) rfl
  have placed : Reads (.arg (.trigger (.call "arg" [] ⟨9, 14⟩ (bareSuffix 14))))
      ⟨9, "arg())P & bin('y')P - t".toList⟩ ⟨14, ")P & bin('y')P - t".toList⟩ :=
    .trigger (.part (.single place) rfl) rfl rfl
  have named := Reads.quoted "x" 4 ", arg())P & bin('y')P - t".toList
  have first : Reads (.unit placedHelper) ⟨0, "bin('x', arg())P & bin('y')P - t".toList⟩
      ⟨16, " & bin('y')P - t".toList⟩ :=
    .call_args "bin" 0 (by decide) rfl (named.moreArgs_append rfl placed.lastArg_append) rfl
  have sign : result? (operator? '&' ⟨16, " & bin('y')P - t".toList⟩)
      = some ((), ⟨19, "bin('y')P - t".toList⟩) := rfl
  have second
      : Reads (.unit (plainHelper 19)) ⟨19, "bin('y')P - t".toList⟩ ⟨28, " - t".toList⟩ :=
    .call_quoted "bin" "y" 19 (by decide) rfl
  exact parse_of_every (.both (.single first) sign second) rfl rfl

/-- An id, and a helper call that repeats. -/
def declaringHelper : Trigger where
  source := "id('a') & bin('y')P - t"
  root := .both (.call "id" [.quoted "a" ⟨3, 6⟩] ⟨0, 7⟩ (bareSuffix 7)) (plainHelper 10)
  ending := ⟨19, 23⟩

theorem parse_declaringHelper : parse "id('a') & bin('y')P - t" = .ok declaringHelper := by
  have first : Reads (.unit (.call "id" [.quoted "a" ⟨3, 6⟩] ⟨0, 7⟩ (bareSuffix 7)))
      ⟨0, "id('a') & bin('y')P - t".toList⟩ ⟨7, " & bin('y')P - t".toList⟩ :=
    .call_quoted "id" "a" 0 (by decide) rfl
  have sign : result? (operator? '&' ⟨7, " & bin('y')P - t".toList⟩)
      = some ((), ⟨10, "bin('y')P - t".toList⟩) := rfl
  have second
      : Reads (.unit (plainHelper 10)) ⟨10, "bin('y')P - t".toList⟩ ⟨19, " - t".toList⟩ :=
    .call_quoted "bin" "y" 10 (by decide) rfl
  exact parse_of_every (.both (.single first) sign second) rfl rfl

end

/-- A context in which helpers print the next one of some lines, and nothing once there are none. -/
def printing : Context (List String) where
  now := .ofParts 2024 1 1
  resolve _ := pure .first
  findHelper program := pure ⟨program⟩
  runHelper words := do
    match ← get with
    | [] => throw (.noOutput (words.headD ""))
    | line :: lines =>
        set lines
        return line
  callBuiltin _ _ := pure .first
  ownLines := pure []
  ownTarget := pure ⟨""⟩
  ownPath := pure ⟨""⟩

/-- Both helpers run again, and the first one gets the words of its period. -/
theorem doneName_replays_of_twoHelpers
    : ∃ evaluation runs again,
        parse "bin('x', arg())P & bin('y')P - t" = .ok twoHelpers
        ∧ (twoHelpers.evaluate printing).outcome ["2023", "2022", "2025", "2026"]
          = (.ok evaluation, ["2025", "2026"])
        ∧ runs.map Prod.fst = [placedHelper, plainHelper 19]
        ∧ runs.map Prod.snd = [["x"], ["y"]]
        ∧ List.Forall₂ (Replayed evaluation runs) [placedHelper, plainHelper 19] again
        ∧ again.map Question.runHelper = [.runHelper ["x", "0 days"], .runHelper ["y"]]
        ∧ (twoHelpers.doneName printing.listing evaluation).outcome (["2025", "2026"], [])
          = (.ok "2025P & 2026P - t", ([], again.map .runHelper)) := by
  obtain ⟨evaluation, evaluated, listed, named⟩ : ∃ evaluation,
      (twoHelpers.evaluate printing).outcome ["2023", "2022", "2025", "2026"]
        = (.ok evaluation, ["2025", "2026"])
      ∧ (twoHelpers.evaluate printing.listing).outcome (["2023", "2022", "2025", "2026"], [])
        = (.ok evaluation,
            (["2025", "2026"],
              [.findHelper "x", .runHelper ["x"], .findHelper "y", .runHelper ["y"]]))
      ∧ (twoHelpers.doneName printing.listing evaluation).outcome (["2025", "2026"], [])
        = (.ok "2025P & 2026P - t", ([], [.runHelper ["x", "0 days"], .runHelper ["y"]])) :=
    ⟨_, rfl, rfl, rfl⟩
  obtain ⟨asked, runs, again, listed', calls, -, questions, replayed, done⟩ :=
    doneName_replays printing parse_twoHelpers evaluated ["2025", "2026"]
  rw [listed] at listed'
  cases listed'
  rw [if_neg (by decide), named] at done
  rcases done with ⟨name, later, answered⟩
    | ⟨earlier, failing, rest, middle, error, quote, later, -, -, answered⟩
  · have ran : again.map Question.runHelper = [.runHelper ["x", "0 days"], .runHelper ["y"]] :=
      (congrArg (fun ran => ran.2.2) answered).symm
    exact ⟨evaluation, runs, again, parse_twoHelpers, evaluated, calls, questions.symm, replayed,
      ran, ran ▸ named⟩
  · cases answered

/-- A call that repeats may not be run again: another helper may fail before its turn, or the task
may have an id.
-/
theorem replays_of_refusals
    : (∃ evaluation error,
        parse "bin('x', arg())P & bin('y')P - t" = .ok twoHelpers
        ∧ (twoHelpers.evaluate printing.listing).outcome (["2023", "2022"], [])
          = (.ok evaluation,
              ([], [.findHelper "x", .runHelper ["x"], .findHelper "y", .runHelper ["y"]]))
        ∧ twoHelpers.root.outer.filter Node.runsAgain = [placedHelper, plainHelper 19]
        ∧ (twoHelpers.doneName printing.listing evaluation).outcome ([], [])
          = (.error error, ([], [.runHelper ["x", "0 days"]])))
      ∧ ∃ evaluation,
          parse "id('a') & bin('y')P - t" = .ok declaringHelper
          ∧ (declaringHelper.evaluate printing.listing).outcome (["2023", "2022"], [])
            = (.ok evaluation, (["2022"], [.findHelper "y", .runHelper ["y"]]))
          ∧ declaringHelper.root.outer.filter Node.runsAgain = [plainHelper 10]
          ∧ (declaringHelper.doneName printing.listing evaluation).outcome (["2022"], [])
            = (.error (.semantic "id('a') & bin('y')P - t" .cannotRepeat), (["2022"], [])) :=
  ⟨⟨_, _, parse_twoHelpers, rfl, rfl, rfl⟩, _, parse_declaringHelper, rfl, rfl, rfl⟩

end Trigger

end DueTasks

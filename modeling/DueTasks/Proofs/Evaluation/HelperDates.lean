import DueTasks.Proofs.Evaluation.Flags
import DueTasks.Proofs.Helper.Protocol
import DueTasks.Proofs.Registry.Steady

/-! Calls of helpers.
A call of a helper that could be run has the date that the helper gives, or fails with the error of
the helper's first fault.
-/

namespace DueTasks

open Asking

variable {σ : Type} {r : Registry σ} {entry : TaskEntry}
  {resolve : String → Asking (Session σ) ReferenceError Date}

/-- A helper that ran in a task's surroundings answers with its line. -/
theorem Registry.runHelper_of_ran {path : String} {words : List String} {output : HelperOutput}
    {session : Session σ} {world : σ}
    (ran : (r.environment.run (path :: words)).outcome session.world = (.ok output, world))
    : ((r.contextWith entry resolve).runHelper (path :: words)).outcome session
      = (output.line path, { session with world }) := by
  have line
      : (r.environment.run (path :: words) >>= fun output =>
            (output.line path : Except _ _)).outcome session.world
        = (output.line path, world) := by
    rw [outcome_bind, ran]
    exact outcome_lift ..
  have asked
      : ((r.contextWith entry resolve).runHelper (path :: words)).outcome session
        = (((r.environment.run (path :: words) >>= fun output =>
              (output.line path : Except _ _)).outcome session.world).1,
            { session with
              world :=
                ((r.environment.run (path :: words) >>= fun output =>
                  (output.line path : Except _ _)).outcome session.world).2 }) :=
    rfl
  rw [asked, line]

namespace Trigger

variable {t : Trigger}

/-- A helper that ran gives the date that it is understood to give. -/
theorem helperDate_of_ran (call : Node) (program : String) {path : String}
    {args : List HelperArg} {output : HelperOutput} {session : Session σ} {world : σ}
    (ran
      : (r.environment.run (path :: HelperArg.expandAll args none)).outcome session.world
        = (.ok output, world))
    : (t.helperDate (r.contextWith entry resolve) call program (.word path :: args)).outcome session
      = ((output.verdict program path).mapError (t.helperError call), { session with world }) := by
  have line
      : ((r.contextWith entry resolve).runHelper (path :: HelperArg.expandAll args none)).outcome
          session
        = (output.line path, { session with world }) :=
    Registry.runHelper_of_ran ran
  have words : HelperArg.expandAll (.word path :: args) none
      = path :: HelperArg.expandAll args none :=
    rfl
  rw [helperDate, outcome_bind, words, outcome_mapError, line, HelperOutput.verdict]
  cases output.line path with
  | error error => rfl
  | ok line =>
      dsimp only [mapError_ok]
      cases Date.ofText? line with
      | none => rfl
      | some date => rfl

section

variable (position : Position) {named : Argument} {args : List Argument} {program : String}
  {path : Path} {rest : Noted (List HelperArg)} {output : HelperOutput}
  {before located between : Session σ} {world : σ} (name? : named.word? = some program)
  (found
    : ((r.contextWith entry resolve).findHelper program).outcome before = (.ok path, located))
  (token : Span) (suffix : Suffix)
  (evaluated
    : (t.evaluateArguments (r.contextWith entry resolve)
          (.call "bin" (named :: args) token suffix) .helper args).outcome located
      = (.ok rest, between))
  (ran
    : (r.environment.run (path.text :: HelperArg.expandAll rest.value none)).outcome between.world
      = (.ok output, world))

include name? found evaluated

/-- A call of a helper applies its annotations to the date that is read from the helper. -/
theorem evaluateNode_helper
    : let call := Node.call "bin" (named :: args) token suffix
      let given :=
        (t.helperDate (r.contextWith entry resolve) call program
          (.word path.text :: rest.value)).outcome between
      ∃ notes,
        (t.evaluateNode (r.contextWith entry resolve) call position).outcome before
          = (given.1.map fun date => ⟨suffix.applyTo date, notes⟩, given.2) := by
  intro call given
  simp only [given, call, evaluateNode, outcome_bind]
  unfold evaluateCall
  simp only [Callee.ofName, expectWord, name?, outcome_bind, outcome_pure, outcome_mapError,
    found, mapError_ok, evaluated]
  generalize (t.helperDate _ _ program _).outcome between = answer
  rcases answer with ⟨error | date, later⟩
  · exact ⟨{}, rfl⟩
  · exact ⟨_, rfl⟩

include ran

/-- A call of a helper that ran applies its annotations to the date that the helper is understood to
give.
-/
theorem evaluateNode_helper_of_ran
    : let call := Node.call "bin" (named :: args) token suffix
      ∃ notes,
        (t.evaluateNode (r.contextWith entry resolve) call position).outcome before
          = (match output.verdict program path.text with
              | .ok printed => .ok ⟨suffix.applyTo printed, notes⟩
              | .error error => .error (t.helperError call error),
              { between with world }) := by
  intro call
  obtain ⟨notes, evaluated⟩ := evaluateNode_helper position name? found token suffix evaluated
  rw [helperDate_of_ran call program ran] at evaluated
  refine ⟨notes, evaluated.trans ?_⟩
  cases output.verdict program path.text <;> rfl

/-- A call of a helper that could be run has a date exactly if the helper gives one, namely that one
with the annotations of the call applied. Otherwise the call fails with the error of the first fault
of what the helper left behind.
-/
theorem helper_date_exact
    : let call := Node.call "bin" (named :: args) token suffix
      let answer := (t.evaluateNode (r.contextWith entry resolve) call position).outcome before
      (∀ date,
        (∃ notes, answer.1 = .ok ⟨date, notes⟩)
          ↔ ∃ printed, output.Gives printed ∧ date = suffix.applyTo printed)
      ∧ (∀ error,
        answer.1 = .error error
          ↔ ∃ fault,
              output.FirstFault fault
              ∧ error = t.helperError call (output.faultError program path.text fault))
      ∧ answer.2 = { between with world } := by
  intro call answer
  obtain ⟨notes, answered⟩ :=
    evaluateNode_helper_of_ran position name? found token suffix evaluated ran
  have result
      : answer.1
        = match output.verdict program path.text with
          | .ok printed => .ok ⟨suffix.applyTo printed, notes⟩
          | .error error => .error (t.helperError call error) :=
    congrArg Prod.fst answered
  refine ⟨fun date => ⟨?_, ?_⟩, fun error => ⟨?_, ?_⟩, congrArg Prod.snd answered⟩
  · rintro ⟨noted, dated⟩
    rw [result] at dated
    cases verdict : output.verdict program path.text with
    | ok printed =>
        rw [verdict] at dated
        cases dated
        exact ⟨printed, HelperOutput.verdict_eq_ok.mp verdict, rfl⟩
    | error error =>
        rw [verdict] at dated
        cases dated
  · rintro ⟨printed, gives, rfl⟩
    exact ⟨notes, by rw [result, gives.verdict]⟩
  · intro failed
    rw [result] at failed
    cases verdict : output.verdict program path.text with
    | ok printed =>
        rw [verdict] at failed
        cases failed
    | error found =>
        rw [verdict] at failed
        cases failed
        obtain ⟨fault, first, rfl⟩ := HelperOutput.verdict_eq_error.mp verdict
        exact ⟨fault, first, rfl⟩
  · rintro ⟨fault, first, rfl⟩
    rw [result, first.verdict]

end

-----------------------------------------------------------------------------------------
-- A day that does not exist
-----------------------------------------------------------------------------------------

section

open Text Parsed Reply

/-- A task that calls a helper without further arguments. -/
def helperTask : Trigger :=
  ⟨"bin('next') - t", .call "bin" [.quoted "next" ⟨4, 10⟩] ⟨0, 11⟩ (bareSuffix 11), ⟨11, 15⟩⟩

theorem parse_helperTask : parse "bin('next') - t" = .ok helperTask := by
  have call : Reads (.unit helperTask.root) ⟨0, "bin('next') - t".toList⟩ ⟨11, " - t".toList⟩ :=
    .call_quoted "bin" "next" 0 (by decide) rfl
  exact parse_of_every (.single call) rfl rfl

/-- Surroundings in which every helper is found and leaves the same behind. -/
def Environment.leaving (output : HelperOutput) : Environment Nat :=
  { Environment.counting with run := fun _ => pure output }

/-- A date with a day that does not exist is spelled. -/
theorem spells_lateFebruary : Date.Spells "2020-02-31".toList 2020 2 31 := by
  have year : HasDigits 4 "2020".toList := ⟨rfl, List.all_eq_true.mp rfl⟩
  have month : HasDigits 2 "02".toList := ⟨rfl, List.all_eq_true.mp rfl⟩
  have day : HasDigits 2 "31".toList := ⟨rfl, List.all_eq_true.mp rfl⟩
  exact .day year month day

theorem lateFebruary_gives
    : HelperOutput.Gives ⟨some 0, " 2020-02-31\r\n", ""⟩ (.ofParts 2020 2 31) where
  code := rfl
  err := rfl
  printed :=
    ⟨" 2020-02-31".toList, ⟨by decide, .inr (.inr rfl)⟩, 2020, 2, 31, spells_lateFebruary,
      Date.toCivil_ofParts (by decide) 2 31⟩

/-- A helper that prints the 31st of February between white space gives the 29th in a leap year. -/
theorem helper_date_exact_of_lateFebruary
    : parse "bin('next') - t" = .ok helperTask
      ∧ let t := helperTask
        let entry : TaskEntry := ⟨⟨"a"⟩, t.source⟩
        let r := Registry.ofEntries (Environment.leaving ⟨some 0, " 2020-02-31\r\n", ""⟩) [entry]
        let context := r.contextWith entry fun id => r.resolve [0] id
        ∃ date notes,
          ((t.evaluateNode context t.root .root).outcome (.start 0)).1 = .ok ⟨date, notes⟩
          ∧ date.toCivil = .clamped 2020 2 29 := by
  refine ⟨parse_helperTask, ?_⟩
  intro t entry r context
  have found : (context.findHelper "next").outcome (.start 0) = (.ok ⟨"next"⟩, .start 0) := rfl
  have evaluated
      : (t.evaluateArguments context t.root .helper []).outcome (.start 0)
        = (.ok ⟨[], {}⟩, .start 0) :=
    rfl
  have ran
      : (r.environment.run ["next"]).outcome 0 = (.ok ⟨some 0, " 2020-02-31\r\n", ""⟩, 0) :=
    rfl
  have named : (Argument.quoted "next" ⟨4, 10⟩).word? = some "next" := rfl
  have dates := helper_date_exact .root named found ⟨0, 11⟩ (bareSuffix 11) evaluated ran
  obtain ⟨notes, dated⟩ := (dates.1 _).mpr ⟨_, lateFebruary_gives, rfl⟩
  exact ⟨_, notes, dated, Date.toCivil_ofParts (by decide) 2 31⟩

end

end Trigger

end DueTasks

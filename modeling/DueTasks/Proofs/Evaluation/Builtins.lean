import DueTasks.Proofs.Asking
import DueTasks.Proofs.Calendar.DateText
import DueTasks.Proofs.Evaluation.Flags
import DueTasks.Proofs.Registry.Steady
import DueTasks.Task.Builtins
import DueTasks.Task.Registry

/-! Dates that are passed to builtins.
A builtin is told a date as a text. Where what it asks of its path holds it gives the date back,
unless the year of the date is written with a sign: no builtin can read such a text.
-/

namespace DueTasks

open Asking

variable {σ : Type}

namespace Builtin

variable {scope : BuiltinScope σ} {name path : String} {world later : σ}

/-- What a standard builtin asks of a path holds there: the path leads to the output of a filter
that requires action, or to a file or a directory that is not empty.
-/
inductive Approves (scope : BuiltinScope σ) (path : String) : String → σ → σ → Prop where
  | filter {place : Path} {world found known later : σ}
      (resolved : (scope.files.resolve scope.directory path).outcome world = (.ok place, found))
      (output : (scope.filters.isOutput place).run found = (true, known))
      (required : (scope.filters.requiresAction place).run known = (true, later))
    : Approves scope path "filter" world later
  | nonEmpty {place : Path} {facts : FileFacts} {world found later : σ}
      (resolved : (scope.files.resolve scope.directory path).outcome world = (.ok place, found))
      (known : (scope.files.facts place).outcome found = (.ok facts, later))
      (present : facts.present = true)
      (kind : facts.isFile = true ∨ facts.isDirectory = true)
      (size : 0 < facts.size)
    : Approves scope path "non_empty" world later

theorem outcome_liftState {ε α : Type} (action : StateM σ α) (state : σ)
    : (liftM action : Asking σ ε α).outcome state
      = (.ok (action.run state).1, (action.run state).2) :=
  rfl

theorem outcome_mapError_of_ok {ε ε' α : Type} {action : Asking σ ε α} {state after : σ}
    {value : α} (answered : action.outcome state = (.ok value, after)) (wrap : ε → ε')
    : (action.mapError wrap).outcome state = (.ok value, after) := by
  rw [outcome_mapError, answered]
  rfl

/-- A builtin that approves of its path gives the date that it reads, and fails where it can read
none.
-/
theorem call_standard (approves : Approves scope path name world later) (date : String)
    : ((standard : BuiltinTable σ).call name scope [date, path]).outcome world
      = match Date.ofText? date with
        | some date => (.ok date, later)
        | none => (.error (.invalidDate date), world) := by
  cases approves with
  | filter resolved output required =>
      have found : (standard (σ := σ)).lookup "filter" = some filter := rfl
      simp only [BuiltinTable.call, found, filter, dateAndPath]
      cases Date.ofText? date with
      | none => simp only [outcome_bind, outcome_lift]
      | some date =>
          simp only [outcome_bind, outcome_lift, outcome_mapError_of_ok resolved,
            outcome_liftState, output, required, if_true, outcome_pure]
  | nonEmpty resolved known present kind size =>
      have found : (standard (σ := σ)).lookup "non_empty" = some nonEmpty := rfl
      simp only [BuiltinTable.call, found, nonEmpty, dateAndPath]
      cases Date.ofText? date with
      | none => simp only [outcome_bind, outcome_lift]
      | some date =>
          simp only [outcome_bind, outcome_lift, outcome_mapError_of_ok resolved,
            outcome_mapError_of_ok known, present, Bool.true_and, Bool.or_eq_true, kind, size,
            if_true, outcome_pure]

end Builtin

-----------------------------------------------------------------------------------------
-- Calls of builtins
-----------------------------------------------------------------------------------------

/-- What a builtin that a task calls can look at. -/
def Registry.scope (r : Registry σ) (entry : TaskEntry) : BuiltinScope σ :=
  ⟨r.environment.files, r.environment.filters, entry.path.directory⟩

/-- A task's builtin that approves of its path gives the date that it reads. -/
theorem Registry.callBuiltin_of_approves (r : Registry σ)
    (standard : r.environment.builtins = Builtin.standard) (entry : TaskEntry)
    (resolve : String → Asking (Session σ) ReferenceError Date) {name path : String}
    {session : Session σ} {world : σ}
    (approves : Builtin.Approves (r.scope entry) path name session.world world) (date : String)
    : ((r.contextWith entry resolve).callBuiltin name [date, path]).outcome session
      = match Date.ofText? date with
        | some date => (.ok date, { session with world })
        | none => (.error (.invalidDate date), session) := by
  have answer := Builtin.call_standard approves date
  rw [← standard] at answer
  have asked
      : ((r.contextWith entry resolve).callBuiltin name [date, path]).outcome session
        = (((r.environment.builtins.call name (r.scope entry) [date, path]).outcome
              session.world).1,
            { session with
              world :=
                ((r.environment.builtins.call name (r.scope entry) [date, path]).outcome
                  session.world).2 }) :=
    rfl
  rw [asked, answer]
  cases Date.ofText? date <;> rfl

namespace Trigger

variable {t : Trigger} {r : Registry σ} {entry : TaskEntry}
  {resolve : String → Asking (Session σ) ReferenceError Date}
  {node : Node} {state state' : Session σ}

/-- A node that has a date stands for that date as an argument too. -/
theorem evaluateArgument_of_dated {context : Context σ} {date : Noted Date} {before after : σ}
    (dated : (t.evaluateNode context node .argument).outcome before = (.ok date, after))
    : (t.evaluateArgument context (.trigger node)).outcome before
      = (.ok ⟨.word date.value.text, date.notes⟩, after) := by
  have plain : t.placeholder? context node = none := by
    cases node with
    | call name args token suffix =>
        rw [evaluateNode] at dated
        unfold evaluateCall at dated
        unfold placeholder?
        dsimp only
        cases called : Callee.ofName name <;> rw [called] at dated <;> first | rfl | cases dated
    | _ => rfl
  rw [evaluateArgument, plain, outcome_bind, dated]
  rfl

/-- A builtin is told a date and a path as two words. -/
theorem evaluateArguments_of_dated {context : Context σ} {call : Node} {arg : Argument}
    {date : Noted Date} {path : String} {notes : Notes} {before between after : σ}
    (dated : (t.evaluateNode context node .argument).outcome before = (.ok date, between))
    (word : (t.evaluateArgument context arg).outcome between = (.ok ⟨.word path, notes⟩, after))
    : (t.evaluateArguments context call .builtin [.trigger node, arg]).outcome before
      = (.ok ⟨[.word date.value.text, .word path], date.notes ++ (notes ++ {})⟩, after) := by
  simp only [evaluateArguments, outcome_bind, evaluateArgument_of_dated dated, expectNoPlace,
    outcome_pure, word]

section

variable (standard : r.environment.builtins = Builtin.standard) (position : Position)
  {named arg : Argument} {date : Noted Date} {name path : String} {notes : Notes}
  {before between after : Session σ} {world : σ} (name? : named.word? = some name)
  (dated
    : (t.evaluateNode (r.contextWith entry resolve) node .argument).outcome before
      = (.ok date, between))
  (word
    : (t.evaluateArgument (r.contextWith entry resolve) arg).outcome between
      = (.ok ⟨.word path, notes⟩, after))
  (approves : Builtin.Approves (r.scope entry) path name after.world world)

include standard name? dated word approves

/-- What a call of a builtin that approves of its path gives is the date that it reads. -/
theorem evaluateCall_builtin (call : Node) (token : Span)
    : ∃ notes,
        (t.evaluateCall (r.contextWith entry resolve) call "builtin" token position
            [named, .trigger node, arg]).outcome before
          = match Date.ofText? date.value.text with
            | some date => (.ok ⟨date, notes⟩, { after with world })
            | none => (.error (t.semanticError call (.invalidDate date.value.text)), after) := by
  have called := r.callBuiltin_of_approves standard entry resolve approves date.value.text
  unfold evaluateCall
  simp only [Callee.ofName, expectWord, name?, outcome_bind, outcome_pure,
    evaluateArguments_of_dated dated word, HelperArg.expandAll, HelperArg.expand,
    List.flatMap_cons, List.flatMap_nil, List.cons_append, List.nil_append, outcome_mapError,
    called]
  cases Date.ofText? date.value.text with
  | none => exact ⟨{}, rfl⟩
  | some read => exact ⟨_, rfl⟩

/-- A call of a builtin whose path fulfils what the builtin asks of it gives exactly the date that
its argument has, if the year of that date lies in 0 to 9999, and otherwise fails because the text
of the date is none. That text is the date again exactly in those years.
-/
theorem builtin_date_exact (token : Span) (suffix : Suffix)
    : let call := Node.call "builtin" [named, .trigger node, arg] token suffix
      let answer := (t.evaluateNode (r.contextWith entry resolve) call position).outcome before
      let fourDigits := 0 ≤ date.value.year ∧ date.value.year ≤ 9999
      (fourDigits
        → ∃ notes, answer = (.ok ⟨suffix.applyTo date.value, notes⟩, { after with world }))
      ∧ (¬ fourDigits
        → answer = (.error (t.semanticError call (.invalidDate date.value.text)), after))
      ∧ Date.ofText? date.value.text = if fourDigits then some date.value else none := by
  intro call answer fourDigits
  have text : Date.ofText? date.value.text = if fourDigits then some date.value else none :=
    date.value.ofText?_text
  obtain ⟨notes, called⟩ :=
    evaluateCall_builtin standard position name? dated word approves call token
  refine ⟨fun year => ?_, fun year => ?_, text⟩
  · rw [text, if_pos year] at called
    simp only [answer, call, evaluateNode, outcome_bind]
    rw [called]
    exact ⟨_, rfl⟩
  · rw [text, if_neg year] at called
    simp only [answer, call, evaluateNode, outcome_bind]
    rw [called]

end

-----------------------------------------------------------------------------------------
-- A file that is not empty
-----------------------------------------------------------------------------------------

section

open Text Parsed Reply

/-- Surroundings in which every path leads to a file of one byte. -/
def fileEverywhere : Environment Nat where
  now := .first
  files :=
    { Environment.counting.files with
      resolve := fun _ path => pure ⟨path⟩
      facts := fun _ => pure ⟨true, true, false, 1⟩ }
  run := Environment.counting.run
  filters := .none
  builtins := Builtin.standard

theorem fileEverywhere_approves (entries : List TaskEntry) (entry : TaskEntry) (path : String)
    (world : Nat)
    : Builtin.Approves ((Registry.ofEntries fileEverywhere entries).scope entry) path "non_empty"
        world world :=
  .nonEmpty rfl rfl rfl (.inl rfl) Nat.one_pos

/-- A builtin that is passed a date and the path of a file. -/
def onFile (date : Node) : Node :=
  let past := date.span.stop
  .call "builtin"
    [.quoted "non_empty" ⟨8, 19⟩, .trigger date, .quoted "x" ⟨past + 2, past + 5⟩]
    ⟨0, past + 6⟩ (bareSuffix (past + 6))

/-- The call is read wherever its date is read as an argument. -/
theorem reads_onFile {date : Node} {chars : List Char} (solid : stops isSpaceOrTab chars = true)
    (read
      : Reads (.arg (.trigger date)) ⟨21, chars⟩ ⟨date.span.stop, ", 'x')".toList⟩)
    : Reads (.unit (onFile date)) ⟨0, "builtin('non_empty', ".toList ++ chars⟩
        ⟨date.span.stop + 6, []⟩ := by
  have builtin := Reads.quoted "non_empty" 8 (',' :: ' ' :: chars)
  have path := Reads.quoted "x" (date.span.stop + 2) ")".toList
  have args := builtin.moreArgs_append solid (read.moreArgs_append rfl path.lastArg_append)
  exact .call_args "builtin" 0 (by decide) rfl args rfl

/-- A builtin that is passed a date. -/
def dateOnFile : Trigger :=
  ⟨"builtin('non_empty', 2020, 'x')",
    onFile (.date (.ofParts 2020 1 1) ⟨21, 25⟩ (bareSuffix 25)), ⟨31, 31⟩⟩

theorem parse_dateOnFile : parse "builtin('non_empty', 2020, 'x')" = .ok dateOnFile := by
  have date : result? (Date.read? ⟨21, "2020, 'x')".toList⟩)
      = some (.ofParts 2020 1 1, ⟨25, ", 'x')".toList⟩) := rfl
  have bare : (readSuffix ⟨25, ", 'x')".toList⟩).result
      = .ok (bareSuffix 25, ⟨25, ", 'x')".toList⟩) := rfl
  have call
      : Reads (.unit dateOnFile.root) ⟨0, "builtin('non_empty', 2020, 'x')".toList⟩ ⟨31, []⟩ :=
    reads_onFile rfl (.trigger (.part (.single (.date date bare)) rfl) rfl rfl)
  exact parse_of_every (.single call) rfl rfl

/-- A date of the year 2020 is given back. -/
theorem builtin_date_exact_of_2020
    : parse "builtin('non_empty', 2020, 'x')" = .ok dateOnFile
      ∧ let t := dateOnFile
        let entry : TaskEntry := ⟨⟨"a"⟩, t.source⟩
        let r := Registry.ofEntries fileEverywhere [entry]
        ∃ notes,
          (t.evaluateNode (r.contextWith entry fun id => r.resolve [0] id) t.root .root).outcome
              (.start 0)
            = (.ok ⟨.ofParts 2020 1 1, notes⟩, .start 0) := by
  refine ⟨parse_dateOnFile, ?_⟩
  intro t entry r
  have dated
      : (t.evaluateNode (r.contextWith entry fun id => r.resolve [0] id)
            (.date (.ofParts 2020 1 1) ⟨21, 25⟩ (bareSuffix 25)) .argument).outcome (.start 0)
        = (.ok ⟨.ofParts 2020 1 1, {}⟩, .start 0) := rfl
  have word
      : (t.evaluateArgument (r.contextWith entry fun id => r.resolve [0] id)
            (.quoted "x" ⟨27, 30⟩)).outcome (.start 0)
        = (.ok ⟨.word "x", {}⟩, .start 0) := rfl
  have named : (Argument.quoted "non_empty" ⟨8, 19⟩).word? = some "non_empty" := rfl
  have approves : Builtin.Approves (r.scope entry) "x" "non_empty" 0 0 :=
    fileEverywhere_approves ..
  exact (builtin_date_exact rfl .root named dated word approves ⟨0, 31⟩ (bareSuffix 31)).1
    (by decide)

/-- A call of `waiting` as an argument. -/
def waitingCall : Node :=
  .call "waiting" [] ⟨21, 30⟩ (bareSuffix 30)

/-- A builtin that is passed the latest date. -/
def waitingOnFile : Trigger :=
  ⟨"builtin('non_empty', waiting(), 'x')", onFile waitingCall, ⟨36, 36⟩⟩

theorem parse_waitingOnFile : parse "builtin('non_empty', waiting(), 'x')" = .ok waitingOnFile := by
  have waiting
      : Reads (.unit waitingCall) ⟨21, "waiting(), 'x')".toList⟩ ⟨30, ", 'x')".toList⟩ :=
    .call_nil "waiting" 21 (by decide) rfl
  have call
      : Reads (.unit waitingOnFile.root) ⟨0, "builtin('non_empty', waiting(), 'x')".toList⟩
          ⟨36, []⟩ :=
    reads_onFile rfl (.trigger (.part (.single waiting) rfl) rfl rfl)
  exact parse_of_every (.single call) rfl rfl

/-- The latest date does not reach a builtin, although all that the builtin asks of its path
holds.
-/
theorem invalidDate_of_waitingOnFile
    : parse "builtin('non_empty', waiting(), 'x')" = .ok waitingOnFile
      ∧ let entry : TaskEntry := ⟨⟨"a"⟩, waitingOnFile.source⟩
        let r := Registry.ofEntries fileEverywhere [entry]
        let context := r.contextWith entry fun id => r.resolve [0] id
        ((waitingOnFile.evaluateNode context waitingCall .argument).outcome
            (.start 0)).1.toOption.map (·.value)
          = some .last
        ∧ Builtin.Approves (r.scope entry) "x" "non_empty" 0 0
        ∧ Date.ofText? Date.last.text = none
        ∧ ((waitingOnFile.evaluate context).outcome (.start 0)).1
          = .error (.semantic waitingOnFile.source (.invalidDate "+262142-12-31")) :=
  ⟨parse_waitingOnFile, rfl, fileEverywhere_approves _ _ _ _, by decide +kernel, rfl⟩

end

end Trigger

end DueTasks

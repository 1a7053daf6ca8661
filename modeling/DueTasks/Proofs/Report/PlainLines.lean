import DueTasks.Proofs.Registry.Cycles
import DueTasks.Proofs.Registry.PlainBatches
import DueTasks.Proofs.Registry.Queries
import DueTasks.Proofs.Task.Quotes
import DueTasks.Report.TaskReport

/-! Reports as plain lines.
Every report is printed with a line feed at its end. The lines that are printed are those of the
reports exactly if neither the name of a task nor a text that its error quotes has a line feed.
-/

namespace DueTasks

open Asking Text

-----------------------------------------------------------------------------------------
-- One report
-----------------------------------------------------------------------------------------

theorem ClockTime.isOneLine_minuteText (t : ClockTime) : IsOneLine t.minuteText := by
  rw [minuteText, isOneLine_ofList, minuteChars]
  simp [not_mem_paddedDecimal]

namespace TaskReport

theorem isOneLine_dueText (evaluation : Evaluation) : IsOneLine (dueText evaluation) := by
  rw [dueText]
  split
  · decide
  · split
    · decide
    · exact evaluation.date.isOneLine_text

theorem isOneLine_flagsText (notes : Notes) : IsOneLine (flagsText notes) := by
  have time : IsOneLine ((notes.time.map fun time => " " ++ time.minuteText).getD "") := by
    cases notes.time with
    | none => decide
    | some time => exact isOneLine_append.mpr ⟨by decide, time.isOneLine_minuteText⟩
  have priority
      : IsOneLine ((notes.priority.map fun priority => " #" ++ toString priority.toNat).getD "") := by
    cases notes.priority with
    | none => decide
    | some priority => exact isOneLine_append.mpr ⟨by decide, isOneLine_toString _⟩
  have repetition : IsOneLine (if notes.isRepeating then " repeat" else "") := by
    split <;> decide
  exact isOneLine_append.mpr ⟨isOneLine_append.mpr ⟨time, repetition⟩, priority⟩

/-- The texts of a report that were not written by the program itself. -/
def quoted (report : TaskReport) : List String :=
  report.entry.name
    :: match report.outcome with
      | .ok _ => []
      | .error error => error.quoted

/-- A report is one line exactly if the name of its task is, and all that its error quotes. -/
theorem isOneLine_line {report : TaskReport}
    : IsOneLine report.line ↔ AllOneLine report.quoted := by
  rw [line, quoted]
  cases report.outcome with
  | ok evaluation =>
      have before : IsOneLine (dueText evaluation ++ flagsText evaluation.notes ++ "\t") :=
        isOneLine_append.mpr
          ⟨isOneLine_append.mpr ⟨isOneLine_dueText _, isOneLine_flagsText _⟩, by decide⟩
      dsimp only
      rw [isOneLine_append, and_iff_right before, allOneLine_cons, and_iff_left allOneLine_nil]
  | error error =>
      have before : IsOneLine "error\t" := by decide
      have between : IsOneLine "\t" := by decide
      dsimp only
      rw [isOneLine_append, isOneLine_append, isOneLine_append, and_iff_right before,
        and_iff_left between, error.isOneLine_message, allOneLine_cons]

/-- The line of a report names its task behind a tab. -/
theorem exists_line_eq (report : TaskReport)
    : ∃ before behind,
        report.line = before ++ "\t" ++ report.entry.name ++ behind ∧ IsOneLine before := by
  rw [line]
  cases report.outcome with
  | ok evaluation =>
      refine ⟨dueText evaluation ++ flagsText evaluation.notes, "", (String.append_empty).symm, ?_⟩
      exact isOneLine_append.mpr ⟨isOneLine_dueText _, isOneLine_flagsText _⟩
  | error error =>
      have tab : "error\t" = "error" ++ "\t" := by decide
      refine ⟨"error", "\t" ++ error.message, ?_, by decide⟩
      dsimp only
      simp only [tab, String.append_assoc]

end TaskReport

-----------------------------------------------------------------------------------------
-- All reports
-----------------------------------------------------------------------------------------

namespace Registry

variable {σ : Type}

/-- Reports are made of what the evaluation of all tasks answers. -/
theorem reports_run (r : Registry σ) (dueOnly : Bool) (session : Session σ)
    : (r.reports dueOnly).run session
      = (((r.evaluateAll.run session).1.map fun outcome => ⟨outcome.1, outcome.2⟩).filter
            fun report => !dueOnly || report.isDue r.environment.now,
          (r.evaluateAll.run session).2) :=
  rfl

/-- Without a choice of those that are due there is a report on every task, in their order. -/
theorem reports_entries (environment : Environment σ) (entries : List TaskEntry)
    (session : Session σ)
    : (((ofEntries environment entries).reports false).run session).1.map TaskReport.entry
      = entries := by
  have all (reports : List TaskReport)
      : (reports.filter fun report => !false || report.isDue environment.now) = reports :=
    List.filter_eq_self.mpr fun _ _ => rfl
  rw [reports_run]
  dsimp only
  rw [show (ofEntries environment entries).environment = environment from rfl, all, List.map_map]
  exact evaluateAll_entries environment entries session

theorem plainText_eq (reports : List TaskReport)
    : Format.plainText (reports.map TaskReport.toRecord) = ended (reports.map TaskReport.line) := by
  simp [Format.plainText, ended, TaskReport.toRecord, Function.comp_def]

/-- Tasks of one line in surroundings that tell such texts are reported on in one line each. -/
theorem allOneLine_reports {environment : Environment σ} {held : σ → Prop}
    (tells : environment.TellsLines held) {entries : List TaskEntry}
    (plain : ∀ entry ∈ entries, IsOneLine entry.name ∧ IsOneLine entry.path.text)
    {session : Session σ} (sound : session.Sound held PlainResult) (dueOnly : Bool)
    : ∀ report ∈ (((ofEntries environment entries).reports dueOnly).run session).1,
        AllOneLine report.quoted := by
  intro report member
  rw [reports_run] at member
  obtain ⟨outcome, evaluated, rfl⟩ := List.mem_map.mp (List.mem_filter.mp member).1
  have good := (evaluateAll_yields (evaluatesWell_of_tellsLines tells plain) sound).1 _ evaluated
  have named : outcome.1 ∈ entries := by
    rw [← evaluateAll_entries environment entries session]
    exact List.mem_map_of_mem evaluated
  refine allOneLine_cons.mpr ⟨(plain _ named).1, ?_⟩
  dsimp only
  generalize outcome.2 = result at good
  cases result with
  | ok evaluation => exact allOneLine_nil
  | error error => exact good

/-- A batch is printed as the lines of its reports, in the order of the tasks and each with the name
of its task. There are as many lines as reports, and they are the lines of the reports, exactly if
neither the name of a reported task nor a text that its error quotes has a line feed. None has one if
the tasks have none and are told of none.
-/
theorem plain_exact (environment : Environment σ) (entries : List TaskEntry) (session : Session σ)
    (dueOnly pretty : Bool)
    : let r := ofEntries environment entries
      let outcomes := (r.evaluateAll.run session).1.map fun outcome =>
        TaskReport.mk outcome.1 outcome.2
      let reports := ((r.reports dueOnly).run session).1
      let printed := ended (reports.map TaskReport.line)
      outcomes.map TaskReport.entry = entries
      ∧ reports = outcomes.filter (fun report => !dueOnly || report.isDue environment.now)
      ∧ Format.plain.print pretty (reports.map TaskReport.toRecord) = .text printed
      ∧ (∀ report ∈ reports,
          ∃ before behind,
            report.line = before ++ "\t" ++ report.entry.name ++ behind ∧ IsOneLine before)
      ∧ (printed.toList.count '\n' = reports.length
        ↔ ∀ report ∈ reports, AllOneLine report.quoted)
      ∧ (parts (· == '\n') printed.toList
          = reports.map (fun report => report.line.toList) ++ [[]]
        ↔ ∀ report ∈ reports, AllOneLine report.quoted)
      ∧ (∀ held,
          environment.TellsLines held
          → session.Sound held PlainResult
          → (∀ entry ∈ entries, IsOneLine entry.name ∧ IsOneLine entry.path.text)
          → ∀ report ∈ reports, AllOneLine report.quoted) := by
  intro r outcomes reports printed
  have single
      : (∀ line ∈ reports.map TaskReport.line, IsOneLine line)
        ↔ ∀ report ∈ reports, AllOneLine report.quoted := by
    rw [List.forall_mem_map]
    exact forall₂_congr fun report _ => report.isOneLine_line
  refine ⟨?_, rfl, ?_, fun report _ => report.exists_line_eq, ?_, ?_, ?_⟩
  · exact (List.map_map ..).trans (evaluateAll_entries environment entries session)
  · exact congrArg Printed.text (plainText_eq reports)
  · rw [← single, ← count_ended_eq_length, List.length_map]
  · rw [← single, ← parts_ended_iff, List.map_map]
    rfl
  · intro held tells sound plain
    exact allOneLine_reports tells plain sound dueOnly

/-- Three tasks of one line each are printed as three lines, even if one of them refers to itself. -/
theorem plain_of_selfReferringEntry
    : let entries := [selfReferringEntry, onwardEntry, presentEntry]
      let reports := (((ofEntries Environment.counting entries).reports false).run (.start 0)).1
      Environment.counting.TellsLines (fun _ => True)
      ∧ (Session.start 0).Sound (fun _ => True) PlainResult
      ∧ (∀ entry ∈ entries, IsOneLine entry.name ∧ IsOneLine entry.path.text)
      ∧ ∃ printed,
          Format.plain.print false (reports.map TaskReport.toRecord) = .text printed
          ∧ printed.toList.count '\n' = 3 := by
  intro entries reports
  have sound : (Session.start 0).Sound (fun _ => True) PlainResult := .start trivial
  have plain : ∀ entry ∈ entries, IsOneLine entry.name ∧ IsOneLine entry.path.text := by decide
  obtain ⟨-, -, printed, -, count, -, quoted⟩ :=
    plain_exact Environment.counting entries (.start 0) false false
  have all := quoted _ Environment.counting_tellsLines sound plain
  refine ⟨Environment.counting_tellsLines, sound, plain, _, printed, (count.mpr all).trans ?_⟩
  rw [← List.length_map TaskReport.entry, reports_entries]
  rfl

/-- A task whose name has a line feed is printed as two lines. -/
theorem plain_of_lineFeed
    : let r := ofEntries Environment.counting [⟨⟨"a"⟩, "2020-01-01 - a\nb"⟩]
      let reports := ((r.reports false).run (.start 0)).1
      reports.length = 1
      ∧ ∃ printed,
          Format.plain.print false (reports.map TaskReport.toRecord) = .text printed
          ∧ printed.toList.count '\n' ≠ reports.length := by
  intro r reports
  have named : reports.map TaskReport.entry = [⟨⟨"a"⟩, "2020-01-01 - a\nb"⟩] :=
    reports_entries ..
  obtain ⟨report, alone, entry⟩ := List.map_eq_singleton_iff.mp named
  refine ⟨by rw [alone]; rfl, ended (reports.map TaskReport.line), ?_, ?_⟩
  · exact congrArg Printed.text (plainText_eq reports)
  · intro count
    rw [← List.length_map TaskReport.line, count_ended_eq_length, List.forall_mem_map] at count
    have line : IsOneLine report.line := count report (alone ▸ List.mem_cons_self)
    have name : IsOneLine report.entry.name := (report.isOneLine_line.mp line) _ List.mem_cons_self
    rw [entry] at name
    revert name
    decide

end Registry

end DueTasks

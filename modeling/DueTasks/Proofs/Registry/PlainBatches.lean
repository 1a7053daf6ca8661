import DueTasks.Proofs.Evaluation.PlainErrors
import DueTasks.Proofs.Registry.Declarations
import DueTasks.Proofs.Registry.Steady
import DueTasks.Proofs.Registry.Worlds
import DueTasks.Proofs.Text.Lines

/-! Batches with errors of one line.
If the names and the paths of all tasks are one line each, and so is whatever their surroundings tell,
then so are all texts that errors quote.
-/

namespace DueTasks

open Asking Text

variable {σ : Type} {held : σ → Prop}

-----------------------------------------------------------------------------------------
-- Helpers
-----------------------------------------------------------------------------------------

/-- Parts are made of characters of their text, by induction on the text. -/
theorem Text.subset_of_mem_parts {separates : Char → Bool} {chars part : List Char}
    (member : part ∈ parts separates chars)
    : part ⊆ chars := by
  induction chars generalizing part with
  | nil =>
      rw [List.mem_singleton.mp member]
      exact List.nil_subset _
  | cons c rest ih =>
      cases hc : separates c with
      | true =>
          rw [parts_cons_of_pos hc] at member
          rcases List.mem_cons.mp member with rfl | member
          · exact List.nil_subset _
          · exact List.subset_cons_of_subset c (ih member)
      | false =>
          obtain ⟨first, more, he⟩ := exists_parts_eq_cons separates rest
          rw [parts_cons_of_neg hc he] at member
          rw [he] at ih
          rcases List.mem_cons.mp member with rfl | member
          · exact List.cons_subset_cons c (ih List.mem_cons_self)
          · exact List.subset_cons_of_subset c (ih (List.mem_cons_of_mem _ member))

/-- A program is called by a part of its path. -/
theorem isOneLine_programName {path : String} (oneLine : IsOneLine path)
    : IsOneLine (programName path) := by
  rw [programName]
  cases found : (Path.mk path).fileName? with
  | none => exact oneLine
  | some name =>
      have member : PathComponent.name name ∈ (Path.mk path).components := by
        rw [Path.fileName?] at found
        split at found
        · rename_i last
          cases found
          exact List.mem_of_getLast? last
        · cases found
      rw [Path.components_eq, List.mem_append] at member
      have segment : PathComponent.name name ∈ Path.body (Path.mk path).chars := by
        rcases member with member | member
        · rw [Path.lead] at member
          split at member
          · cases List.mem_singleton.mp member
          · split at member
            · cases List.mem_singleton.mp member
            · cases member
        · exact member
      obtain ⟨segment, kept, stands⟩ := List.mem_map.mp segment
      rw [Path.componentOf] at stands
      split at stands
      · cases stands
      · cases stands
        rw [Option.getD_some, isOneLine_ofList]
        exact fun feed => oneLine (subset_of_mem_parts (List.mem_filter.mp kept).1 feed)

/-- The first line of an output has no line feed. -/
theorem not_mem_headLine (chars : List Char) : '\n' ∉ headLine chars := by
  have first := not_mem_firstLine chars
  rw [headLine]
  split
  · rw [dropCarriageReturn]
    split
    · exact fun member => first (List.mem_of_mem_dropLast member)
    · exact first
  · exact first

/-- What a helper is told to have done wrong is one line if its path is, and what it complained about
is.
-/
theorem HelperOutput.line_answers {output : HelperOutput} {path : String}
    (oneLine : IsOneLine path) (complaint : '\n' ∉ trimRight output.err.toList)
    : Answers IsOneLine HelperError.IsPlain (output.line path) := by
  have shown : AllOneLine [programName path] :=
    allOneLine_cons.mpr ⟨isOneLine_programName oneLine, allOneLine_nil⟩
  rw [line]
  split
  · exact shown
  · split
    · refine allOneLine_cons.mpr ⟨isOneLine_programName oneLine, ?_⟩
      exact allOneLine_cons.mpr ⟨isOneLine_ofList.mpr complaint, allOneLine_nil⟩
    · cases read : lines output.out.toList with
      | nil => exact shown
      | cons first more =>
          have written : output.out.toList ≠ [] := by
            intro none
            rw [lines_eq_nil.mpr none] at read
            cases read
          rw [lines_eq written] at read
          obtain ⟨rfl, _⟩ := List.cons.inj read
          dsimp only
          split
          · exact shown
          · split
            · exact shown
            · exact isOneLine_ofList.mpr (not_mem_headLine _)

-----------------------------------------------------------------------------------------
-- Surroundings
-----------------------------------------------------------------------------------------

/-- To questions in texts of one line, the surroundings answer and fail in such texts. -/
structure Environment.TellsLines (held : σ → Prop) (environment : Environment σ) : Prop where
  findHelper
    : ∀ name, IsOneLine name
      → (environment.files.findHelper name).Yields held
          (Answers (fun path => IsOneLine path.text) FileError.IsPlain)
  lines
    : ∀ path, IsOneLine path.text
      → (environment.files.lines path).Yields held (Answers AllOneLine FileError.IsPlain)
  target
    : ∀ path, IsOneLine path.text
      → (environment.files.target path).Yields held
          (Answers (fun target => IsOneLine target.text) FileError.IsPlain)
  nativePath
    : ∀ path, IsOneLine path.text
      → (environment.files.nativePath path).Yields held
          (Answers (fun native => IsOneLine native.text) FileError.IsPlain)
  run
    : ∀ path words, IsOneLine path → AllOneLine words
      → (environment.run (path :: words)).Yields held
          (Answers (fun output => '\n' ∉ trimRight output.err.toList) HelperError.IsPlain)
  builtins
    : ∀ name path words, IsOneLine name → IsOneLine path.text → AllOneLine words
      → (environment.builtins.call name
            ⟨environment.files, environment.filters, Path.directory path⟩ words).Yields held
          (Answers (fun _ => True) SemanticError.IsPlain)

/-- Surroundings without files whose helpers print one date tell nothing else. -/
theorem Environment.counting_tellsLines : counting.TellsLines fun _ => True where
  findHelper _ oneLine := .pure oneLine
  lines _ oneLine := .throw (allOneLine_cons.mpr ⟨oneLine, allOneLine_nil⟩)
  target _ oneLine := .throw (allOneLine_cons.mpr ⟨oneLine, allOneLine_nil⟩)
  nativePath _ oneLine := .throw (allOneLine_cons.mpr ⟨oneLine, allOneLine_nil⟩)
  run _ _ _ _ := fun _ _ => ⟨List.not_mem_nil, True.intro⟩
  builtins name path words oneLine _ plain := by
    have alone {text : String} (h : IsOneLine text) : AllOneLine [text] :=
      allOneLine_cons.mpr ⟨h, allOneLine_nil⟩
    apply Builtin.standard_yields
    · exact fun text member => .throw (alone (plain text member))
    · exact fun place (here : IsOneLine place.text) => .throw (alone here)
    · exact fun _ _ _ => True.intro
    · exact fun _ _ _ => True.intro
    · exact ⟨alone oneLine, allOneLine_cons.mpr ⟨oneLine, alone (by decide)⟩⟩
    · exact fun text member =>
        ⟨alone (plain text member), alone (plain text member), alone (plain text member)⟩

namespace Registry

variable {r : Registry σ} (tells : r.environment.TellsLines held)

/-- A result that fails quotes only texts of one line. -/
abbrev PlainResult : Except TaskError Evaluation → Prop :=
  Answers (fun _ => True) TaskError.IsPlain

include tells

/-- A task of one line is told only such texts, as far as references are. -/
theorem contextWith_tellsLines {entry : TaskEntry} (path : IsOneLine entry.path.text)
    {resolve : String → Asking (Session σ) ReferenceError Date}
    (references
      : ∀ id, IsOneLine id
        → (resolve id).Yields (Session.Sound held PlainResult)
            (GoodReference PlainResult SemanticError.IsPlain))
    : (r.contextWith entry resolve).TellsLines (Session.Sound held PlainResult) where
  today := fun _ sound => sound
  resolve id oneLine := (references id oneLine).mono fun answer h => by
    cases answer with
    | ok date => trivial
    | error error => cases error <;> exact h
  findHelper name oneLine := Session.Sound.outside (tells.findHelper name oneLine)
  runHelper path words oneLine plain :=
    Session.Sound.outside ((tells.run path words oneLine plain).bind
      (fun _ complaint => .lift (HelperOutput.line_answers oneLine complaint)) fun _ h => h)
  callBuiltin name words oneLine plain :=
    Session.Sound.outside (tells.builtins name entry.path words oneLine path plain)
  ownLines := Session.Sound.outside (tells.lines entry.path path)
  ownTarget := Session.Sound.outside (tells.target entry.path path)
  ownPath := Session.Sound.outside (tells.nativePath entry.path path)

omit tells

/-- Tasks whose names and paths are one line fail in one line. -/
theorem evaluatesWell_of_tellsLines {environment : Environment σ}
    (tells : environment.TellsLines held) {entries : List TaskEntry}
    (plain : ∀ entry ∈ entries, IsOneLine entry.name ∧ IsOneLine entry.path.text)
    : (ofEntries environment entries).EvaluatesWell held PlainResult IsOneLine
        SemanticError.IsPlain where
  evaluates index resolve references := by
    obtain ⟨entry, member, slot⟩ := exists_entry index
    obtain ⟨name, path⟩ := plain entry member
    have slot : (ofEntries environment entries).slots.get index = Slot.ofEntry entry := slot
    have read := Trigger.parse_isOneLine name
    rw [evaluateWith, slot]
    cases parsed : Trigger.parse entry.name with
    | error error =>
        rw [parsed] at read
        rw [Slot.ofEntry, parsed]
        exact .throw read
    | ok trigger =>
        rw [parsed] at read
        rw [Slot.trigger_ofEntry entry parsed]
        exact Trigger.evaluate_yields read.1 (contextWith_tellsLines tells path references) read.2
  unknown id oneLine := allOneLine_cons.mpr ⟨oneLine, allOneLine_nil⟩
  ambiguous id oneLine := allOneLine_cons.mpr ⟨oneLine, allOneLine_nil⟩
  cycle id oneLine := allOneLine_cons.mpr ⟨oneLine, allOneLine_nil⟩

end Registry

end DueTasks

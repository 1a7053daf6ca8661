import DueTasks.Proofs.DoneName.Rewriting
import DueTasks.Proofs.Evaluation.SameText
import DueTasks.Proofs.Trigger.Ending

/-! Names that differ only in their endings.
What a trigger says and what its done name copies stands in front of the ending, so another ending
changes nothing but itself.
-/

namespace DueTasks

open Text Parsed

-----------------------------------------------------------------------------------------
-- The text in front of an ending
-----------------------------------------------------------------------------------------

namespace Text

/-- Bytes of a leading part are taken alike, whatever follows that part. -/
theorem takeBytes_append_of_le {count : Nat} {head : List Char} (le : count ≤ byteLength head)
    (tail : List Char)
    : takeBytes count (head ++ tail) = takeBytes count head := by
  induction head generalizing count with
  | nil =>
      obtain rfl : count = 0 := Nat.le_zero.mp le
      cases tail <;> rfl
  | cons c head ih =>
      cases count with
      | zero => rfl
      | succ count =>
          have fewer : count + 1 - c.utf8Size ≤ byteLength head := by
            simp only [byteLength_cons] at le
            omega
          rw [List.cons_append, takeBytes, takeBytes, ih fewer]

/-- The number of bytes in front of a place in a text, at the end of one of its characters. -/
def IsPlace (text : List Char) (offset : Nat) : Prop :=
  ∃ before after, text = before ++ after ∧ offset = byteLength before

/-- Stretches of a leading part are the same, whatever follows that part. -/
theorem slice_append_of_isPlace {front : List Char} {start stop : Nat} (first : IsPlace front start)
    (last : IsPlace front stop) (tail : List Char)
    : slice (front ++ tail) ⟨start, stop⟩ = slice front ⟨start, stop⟩ := by
  obtain ⟨before, after, rfl, rfl⟩ := first
  obtain ⟨before', after', split, rfl⟩ := last
  have fits : byteLength before' - byteLength before ≤ byteLength after := by
    have bytes := congrArg byteLength split
    simp only [byteLength_append] at bytes
    omega
  simp only [slice, List.append_assoc, dropBytes_append, takeBytes_append_of_le fits]

end Text

/-- A part of a text ends at places of that text. -/
theorem Span.IsPart.endsAt {text : List Char} {span : Span} (h : span.IsPart text)
    : span.EndsAt (IsPlace text) := by
  obtain ⟨part, before, after, rfl, rfl⟩ := h
  exact ⟨⟨before, part ++ after, List.append_assoc .., rfl⟩,
    ⟨before ++ part, after, rfl, (byteLength_append ..).symm⟩⟩

namespace Trigger

open Asking

variable {t t' : Trigger} {d : Cursor}

/-- Names with the same front have the same text between any two places of it. -/
theorem sameText_of_front {front ending other : List Char}
    (source : t.source = String.ofList (front ++ ending))
    (source' : t'.source = String.ofList (front ++ other))
    : SameText (IsPlace front) t t' := by
  intro start stop first last
  simp only [copy, source, source', String.toList_ofList, slice_append_of_isPlace first last]

/-- The spans of a trigger end at places in front of its ending. -/
theorem ReadFrom.endsAt {front ending : List Char}
    (h : t.ReadFrom (String.ofList (front ++ ending)) d) (ends : d.rest = ending)
    : ∀ span ∈ t.root.spans, span.EndsAt (IsPlace front) := by
  obtain ⟨alone, -⟩ := h.with_ending ends .empty
  have place : (Cursor.start (String.ofList (front ++ [])).toList).IsIn front := by
    simpa using Cursor.isIn_start front
  exact fun span member => (alone.reads.spans_isPart place span member).endsAt

-----------------------------------------------------------------------------------------
-- Another ending
-----------------------------------------------------------------------------------------

/-- Two triggers are the same up to the endings of their names, in all that they are and do:
they have one tree, their evaluations differ only in the ending, and so do their done names. The
error that a task cannot repeat quotes the whole name, and any other error is the same.
-/
structure SameUpToEnding (front ending other : String) (t t' : Trigger) : Prop where
  root : t'.root = t.root
  endings : t.endingText = ending ∧ t'.endingText = other
  evaluate (σ : Type) (context : Context σ)
    : t'.evaluate context
      = (fun evaluation => { evaluation with ending := other }) <$> t.evaluate context
  doneName (σ : Type) (context : Context σ) (evaluation : Evaluation) (state : σ)
    : if t.hasRepeat = true ∧ evaluation.canRepeat = false then
        (t.doneName context evaluation).outcome state
          = (.error (.semantic (front ++ ending) .cannotRepeat), state)
        ∧ (t'.doneName context { evaluation with ending := other }).outcome state
          = (.error (.semantic (front ++ other) .cannotRepeat), state)
      else
        ∃ (done : Except TaskError String) (later : σ),
          (t.doneName context evaluation).outcome state = ((· ++ ending) <$> done, later)
          ∧ (t'.doneName context { evaluation with ending := other }).outcome state
            = ((· ++ other) <$> done, later)

/-- A done name is told by the new text of the tree and by the ending, which stands behind it. -/
theorem doneName_eq {σ : Type} {context : Context σ} {evaluation : Evaluation}
    {front ending : String} (source : t.source = front ++ ending)
    (copied : t.copy t.ending = ending.toList)
    : t.doneName context evaluation
      = if t.hasRepeat = false then pure (front ++ ending)
        else if evaluation.canRepeat = false then
          throw (.semantic (front ++ ending) .cannotRepeat)
        else
          (fun text => String.ofList text ++ ending)
            <$> t.doneNode context evaluation t.root := by
  rw [doneName]
  simp only [Bool.not_eq_true', source, copied, String.ofList_append, String.ofList_toList,
    map_eq_pure_bind]

/-- Triggers with one tree, read from names with one front, are the same up to their endings. -/
theorem sameUpToEnding {front ending other : String} {d' : Cursor}
    (h : t.ReadFrom (front ++ ending) d) (h' : t'.ReadFrom (front ++ other) d')
    (ends : d.rest = ending.toList) (ends' : d'.rest = other.toList) (root : t'.root = t.root)
    : t.SameUpToEnding front ending other t' := by
  have text (e : String) : front ++ e = String.ofList (front.toList ++ e.toList) := by
    rw [String.ofList_append, String.ofList_toList, String.ofList_toList]
  have same : SameText (IsPlace front.toList) t t' :=
    sameText_of_front (h.source.trans (text ending)) (h'.source.trans (text other))
  have inside : ∀ span ∈ t.root.spans, span.EndsAt (IsPlace front.toList) :=
    ReadFrom.endsAt (text ending ▸ h) ends
  have ending_eq : t.endingText = ending := by rw [h.endingText_eq, ends, String.ofList_toList]
  have other_eq : t'.endingText = other := by rw [h'.endingText_eq, ends', String.ofList_toList]
  refine ⟨root, ⟨ending_eq, other_eq⟩, ?_, ?_⟩
  · intro σ context
    rw [evaluate_text same root inside, other_eq]
  · intro σ context evaluation state
    have repeats : t'.hasRepeat = t.hasRepeat := by rw [hasRepeat, hasRepeat, root]
    rw [doneName_eq h.source (h.copy_ending.trans ends),
      doneName_eq h'.source (h'.copy_ending.trans ends'), repeats, root,
      doneNode_text same evaluation other t.root inside]
    cases t.hasRepeat with
    | false => exact ⟨.ok front, state, rfl, rfl⟩
    | true =>
        cases evaluation.canRepeat with
        | false => exact ⟨rfl, rfl⟩
        | true =>
            refine ⟨String.ofList <$> ((t.doneNode context evaluation t.root).outcome state).1,
              ((t.doneNode context evaluation t.root).outcome state).2, ?_, ?_⟩
            all_goals
              simp only [Bool.true_eq_false, if_false, outcome_map, Functor.map_map]
              rfl

/-- Where no operator comes next, none stands behind the blanks. -/
theorem NoOperator.head?_ne {symbol : Char} {c : Cursor} {blanks behind : List Char}
    (stop : NoOperator symbol c) (text : c.rest = blanks ++ behind)
    (all : ∀ c ∈ blanks, isSpaceOrTab c = true) (visible : isSpaceOrTab symbol = false)
    : behind.head? ≠ some symbol := by
  intro head
  obtain ⟨more, rfl⟩ := List.head?_eq_some_iff.mp head
  obtain ⟨offset, rest⟩ := c
  obtain rfl : rest = _ := text
  exact (noOperator_append all visible).mp stop rfl

/-- The ending of a name is never interpreted. It does not begin with an operator, with or without
blanks in front, and every free ending in its place gives the same trigger with that ending.
-/
theorem parse_with_ending {text : String} {t : Trigger} (parsed : parse text = .ok t)
    : (∀ blanks behind : List Char,
        t.endingText.toList = blanks ++ behind →
        (∀ c ∈ blanks, isSpaceOrTab c = true) →
        behind.head? ≠ some '&' ∧ behind.head? ≠ some '+')
      ∧ ∃ front : String,
          text = front ++ t.endingText
          ∧ ∀ other : String, FreeEnding other.toList →
            ∃ t', parse (front ++ other) = .ok t'
              ∧ t.SameUpToEnding front t.endingText other t' := by
  obtain ⟨d, h⟩ := parse_eq_ok.mp parsed
  have rest : d.rest = t.endingText.toList := by rw [h.endingText_eq, String.toList_ofList]
  constructor
  · intro blanks behind split all
    have ends := rest.trans split
    exact ⟨h.reads.noOperator.head?_ne ends all rfl, h.stop.head?_ne ends all rfl⟩
  · obtain ⟨chars, passage, -⟩ := h.reads.passage
    have split : text = String.ofList (chars ++ d.rest) := by
      have whole : text.toList = chars ++ d.rest := passage.rest_eq
      rw [← whole, String.ofList_toList]
    have front : text = String.ofList chars ++ t.endingText := by
      rw [h.endingText_eq, ← String.ofList_append, ← split]
    refine ⟨String.ofList chars, front, fun other free => ?_⟩
    obtain ⟨h', -⟩ := ReadFrom.with_ending (split ▸ h) rfl free
    have name : String.ofList (chars ++ other.toList) = String.ofList chars ++ other := by
      rw [String.ofList_append, String.ofList_toList]
    rw [name] at h'
    exact ⟨_, parse_eq_ok.mpr ⟨_, h'⟩, sameUpToEnding (front ▸ h) h' rest rfl rfl⟩

/-- A helper call and a date that repeat stay the same trigger in front of a file extension. -/
theorem parse_with_ending_of_repeatingCall
    : parse "bin('x')P & 2020P - t" = .ok repeatingCall
      ∧ FreeEnding ".md".toList
      ∧ ∃ t', parse "bin('x')P & 2020P.md" = .ok t'
          ∧ repeatingCall.SameUpToEnding "bin('x')P & 2020P" " - t" ".md" t' := by
  have parsed := parse_eq_ok.mpr ⟨_, repeatingCall_readFrom⟩
  have ends : repeatingCall.endingText = " - t" := by decide
  have free : FreeEnding ".md".toList := .dot _
  obtain ⟨-, front, name, again⟩ := parse_with_ending parsed
  rw [ends] at name again
  obtain rfl : front = "bin('x')P & 2020P" := (String.append_left_inj " - t").mp name.symm
  exact ⟨parsed, free, again ".md" free⟩

end Trigger

end DueTasks

import DueTasks.Proofs.Asking
import DueTasks.Task.DoneName

/-! Names with stretches replaced.
A repeat asks for a change: a date becomes another date, or a helper call what the helper prints.
Changes are made in the order of the text, up to the first helper that fails.
-/

namespace DueTasks

open Text

/-- A stretch of a text, and what takes its place. -/
structure Edit where
  span : Span
  text : List Char

/-- A text that starts at an offset, with stretches replaced one behind the other and all else kept
in order.
-/
inductive Edited : Nat → List Char → List Edit → List Char → Prop where
  | kept (offset : Nat) (text : List Char) : Edited offset text [] text
  | edit {offset : Nat} (gap old text : List Char) {rest new : List Char} {edits : List Edit}
      (later : Edited (offset + byteLength (gap ++ old)) rest edits new)
    : Edited offset (gap ++ old ++ rest)
        (⟨⟨offset + byteLength gap, offset + byteLength (gap ++ old)⟩, text⟩ :: edits)
        (gap ++ text ++ new)

/-- Two ways to cut a text behind the same number of bytes are the same way. -/
theorem Text.append_inj_byteLength {first second first' second' : List Char}
    (same : first ++ second = first' ++ second') (length : byteLength first = byteLength first')
    : first = first' ∧ second = second' := by
  have front : first = first' := by
    rw [← takeBytes_append first second, same, length, takeBytes_append]
  exact ⟨front, List.append_cancel_left (front ▸ same)⟩

namespace Edited

variable {offset : Nat} {old old' new new' : List Char} {edits edits' : List Edit}

theorem behind {gap : List Char} (h : Edited (offset + byteLength gap) old edits new)
    : Edited offset (gap ++ old) edits (gap ++ new) := by
  cases h with
  | kept => exact .kept _ _
  | edit more stretch text later =>
      rw [← List.append_assoc, ← List.append_assoc, ← List.append_assoc, ← List.append_assoc,
        Nat.add_assoc, Nat.add_assoc, ← byteLength_append, ← byteLength_append,
        ← List.append_assoc]
      refine .edit (gap ++ more) stretch text ?_
      rw [List.append_assoc, byteLength_append, ← Nat.add_assoc]
      exact later

/-- Texts behind each other are edited one after the other, by induction over the edits of the
first one.
-/
theorem append (first : Edited offset old edits new)
    (second : Edited (offset + byteLength old) old' edits' new')
    : Edited offset (old ++ old') (edits ++ edits') (new ++ new') := by
  induction first with
  | kept offset text => exact second.behind
  | @edit offset gap stretch text rest new edits later ih =>
      have more := ih (by rwa [Nat.add_assoc, ← byteLength_append])
      simpa only [List.append_assoc, List.cons_append] using Edited.edit gap stretch text more

theorem front (text : List Char) {stretch rest : List Char} {span : Span}
    (here : span = ⟨offset, offset + byteLength stretch⟩)
    : Edited offset (stretch ++ rest) [⟨span, text⟩] (text ++ rest) := by
  rw [here]
  exact Edited.edit [] stretch text (.kept _ rest)

/-- A text is edited in one way only, by induction over the edits. -/
theorem unique (h : Edited offset old edits new) (h' : Edited offset old edits new')
    : new = new' := by
  induction h generalizing new' with
  | kept offset text =>
      cases h'
      rfl
  | @edit offset gap stretch text rest new edits later ih =>
      generalize whole : gap ++ stretch ++ rest = chars at h'
      generalize all : (_ :: edits : List Edit) = more at h'
      cases h' with
      | kept => cases all
      | @edit _ gap' stretch' text' rest' new' edits' later' =>
          simp only [List.cons.injEq, Edit.mk.injEq, Span.mk.injEq, Nat.add_left_cancel_iff] at all
          obtain ⟨⟨⟨start, stop⟩, rfl⟩, rfl⟩ := all
          obtain ⟨front, rfl⟩ := append_inj_byteLength whole stop
          obtain ⟨rfl, -⟩ := append_inj_byteLength front start
          rw [ih (front ▸ later')]

end Edited

-----------------------------------------------------------------------------------------
-- The changes that repeats ask for
-----------------------------------------------------------------------------------------

/-- What a repeat asks to change in a name. -/
inductive Change where
  /-- The text of a date becomes that of another date. -/
  | date (token : Span) (value : Date)
  /-- The text of a helper call becomes what the helper prints for a period. If the helper fails,
  the call is quoted with its annotations, the stretch `whole`.
  -/
  | helper (token whole : Span) (period : Period)

/-- The date that a repeat puts in place of a date. There is none without a repeat, while the task
is pending, and under a forced repeat without a period.
-/
def Suffix.nextDate? (now : Date) (pending : Bool) (suffix : Suffix) : Option Date :=
  match suffix.repetition with
  | none => none
  | some repetition =>
      if pending || (repetition.forced && repetition.period.isZero) then none
      else some (repetition.period.addTo now)

/-- The changes that the repeats of a node ask for, in the order of the text, arguments apart. -/
def Node.changes (now : Date) (pending : Bool) : Node → List Change
  | .date _ token suffix => ((suffix.nextDate? now pending).map (.date token)).toList
  | .call name _ token suffix =>
      match suffix.repetition with
      | none => []
      | some repetition =>
          if name = "bin" then [.helper token ⟨token.start, suffix.span.stop⟩ repetition.period]
          else []
  | .both left right => left.changes now pending ++ right.changes now pending
  | .either left right => left.changes now pending ++ right.changes now pending
  | .group inner _ => inner.changes now pending

/-- Where nothing repeats, nothing changes, by induction over the syntax outside of arguments. -/
theorem Node.changes_eq_nil (now : Date) (pending : Bool) (node : Node)
    (h : (node.nodes.any fun node => node.repetition?.isSome) = false)
    : node.changes now pending = [] := by
  cases node with
  | date value token suffix =>
      have once : suffix.repetition = none := by
        simpa [nodes, repetition?, suffix?] using h
      rw [changes, Suffix.nextDate?, once]
      rfl
  | call name args token suffix =>
      have once : suffix.repetition = none := by
        simp only [nodes, List.any_cons, Bool.or_eq_false_iff] at h
        simpa [repetition?, suffix?] using h.1
      rw [changes, once]
  | both left right | either left right =>
      simp only [nodes, List.any_cons, List.any_append, Bool.or_eq_false_iff] at h
      rw [changes, changes_eq_nil now pending left h.2.1, changes_eq_nil now pending right h.2.2,
        List.append_nil]
  | group inner span =>
      simp only [nodes, List.any_cons, Bool.or_eq_false_iff] at h
      rw [changes, changes_eq_nil now pending inner h.2]
termination_by sizeOf node

namespace Trigger

open Asking

variable {σ : Type} (t : Trigger) (context : Context σ) (evaluation : Evaluation)

-----------------------------------------------------------------------------------------
-- Changes are made one after the other
-----------------------------------------------------------------------------------------

/-- Changes are made one after the other, each from the state that the one before it leaves. A
helper runs with the arguments recorded for its call and the period.
-/
inductive Makes : List Change → σ → List Edit → σ → Prop where
  | none (state : σ) : Makes [] state [] state
  | date (token : Span) (value : Date) {changes : List Change} {state after : σ}
      {edits : List Edit} (later : Makes changes state edits after)
    : Makes (.date token value :: changes) state (⟨token, value.chars⟩ :: edits) after
  | helper (token whole : Span) (period : Period) {changes : List Change} {state middle after : σ}
      {edits : List Edit} {args : List HelperArg} {line : String}
      (known : evaluation.notes.calls.lookup token.start = some args)
      (ran : (context.runHelper (HelperArg.expandAll args (some period))).outcome state
        = (.ok line, middle))
      (later : Makes changes middle edits after)
    : Makes (.helper token whole period :: changes) state (⟨token, line.toList⟩ :: edits) after

/-- All changes before some helper call are made, and then the helper fails. No later change is
tried.
-/
inductive Fails : List Change → σ → TaskError → σ → Prop where
  | intro {earlier : List Change} (later : List Change) {token whole : Span} {period : Period}
      {state middle after : σ} {edits : List Edit} {args : List HelperArg} {error : HelperError}
      (made : Makes context evaluation earlier state edits middle)
      (known : evaluation.notes.calls.lookup token.start = some args)
      (ran : (context.runHelper (HelperArg.expandAll args (some period))).outcome middle
        = (.error error, after))
    : Fails (earlier ++ .helper token whole period :: later) state
        (.helper (t.text whole) error) after

variable {t context evaluation} {changes changes' : List Change} {state middle after : σ}
  {edits edits' : List Edit} {error : TaskError}

/-- Changes in sequence are made in sequence, by induction over the first ones. -/
theorem Makes.append (first : Makes context evaluation changes state edits middle)
    (second : Makes context evaluation changes' middle edits' after)
    : Makes context evaluation (changes ++ changes') state (edits ++ edits') after := by
  induction first with
  | none state => exact second
  | date token value later ih => exact .date token value (ih second)
  | helper token whole period known ran later ih =>
      exact .helper token whole period known ran (ih second)

theorem Fails.behind (first : Makes context evaluation changes state edits middle)
    (second : t.Fails context evaluation changes' middle error after)
    : t.Fails context evaluation (changes ++ changes') state error after := by
  obtain ⟨later, made, known, ran⟩ := second
  rw [← List.append_assoc]
  exact .intro later (first.append made) known ran

theorem Fails.append (first : t.Fails context evaluation changes state error after)
    (more : List Change)
    : t.Fails context evaluation (changes ++ more) state error after := by
  obtain ⟨later, made, known, ran⟩ := first
  rw [List.append_assoc]
  exact .intro (later ++ more) made known ran

theorem Fails.exists_helper (h : t.Fails context evaluation changes state error after)
    : ∃ quote failure, error = .helper quote failure := by
  obtain ⟨later, made, known, ran⟩ := h
  exact ⟨_, _, rfl⟩

/-- Changes in sequence are made in sequence only, by induction over the first ones. -/
theorem Makes.split
    (h : Makes context evaluation (changes ++ changes') state edits after)
    : ∃ first middle second, Makes context evaluation changes state first middle
        ∧ Makes context evaluation changes' middle second after
        ∧ edits = first ++ second := by
  induction changes generalizing state edits with
  | nil => exact ⟨[], state, edits, .none state, h, rfl⟩
  | cons change changes ih =>
      cases h with
      | date token value later =>
          obtain ⟨first, middle, second, made, made', rfl⟩ := ih later
          exact ⟨_, middle, second, .date token value made, made', rfl⟩
      | helper token whole period known ran later =>
          obtain ⟨first, middle, second, made, made', rfl⟩ := ih later
          exact ⟨_, middle, second, .helper token whole period known ran made, made', rfl⟩

/-- Changes are made in one way only, by induction over them. -/
theorem Makes.unique {after' : σ} (h : Makes context evaluation changes state edits after)
    (h' : Makes context evaluation changes state edits' after')
    : edits = edits' ∧ after = after' := by
  induction h generalizing edits' with
  | none state =>
      cases h'
      exact ⟨rfl, rfl⟩
  | date token value later ih =>
      cases h' with
      | date _ _ later' =>
          obtain ⟨rfl, rfl⟩ := ih later'
          exact ⟨rfl, rfl⟩
  | helper token whole period known ran later ih =>
      cases h' with
      | helper _ _ _ known' ran' later' =>
          cases known.symm.trans known'
          cases ran.symm.trans ran'
          obtain ⟨rfl, rfl⟩ := ih later'
          exact ⟨rfl, rfl⟩

/-- Changes that are made do not fail. -/
theorem Makes.not_fails {after' : σ} (h : Makes context evaluation changes state edits after)
    : ¬ t.Fails context evaluation changes state error after' := by
  rintro ⟨later, made, known, ran⟩
  obtain ⟨first, middle, second, made', behind, rfl⟩ := h.split
  obtain ⟨rfl, rfl⟩ := made.unique made'
  cases behind with
  | helper token whole period known' ran' later =>
      cases known.symm.trans known'
      cases ran.symm.trans ran'

/-- Only a helper call can fail. -/
theorem Fails.exists_change (h : t.Fails context evaluation changes state error after)
    : ∃ token whole period, .helper token whole period ∈ changes := by
  obtain ⟨later, made, known, ran⟩ := h
  exact ⟨_, _, _, List.mem_append_right _ List.mem_cons_self⟩

end Trigger

end DueTasks

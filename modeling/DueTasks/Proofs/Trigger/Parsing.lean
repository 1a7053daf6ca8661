import DueTasks.Proofs.Trigger.Tiling
import DueTasks.Task.DoneName

/-! Task names and the triggers that are read from them.
A name is read as a trigger exactly if the grammar derives the trigger from the start of the name
and nothing can be joined to it.
-/

namespace DueTasks

open Text Parsed

namespace Trigger

open Reply

/-- A trigger is read from a name up to a place in it. -/
structure ReadFrom (t : Trigger) (text : String) (d : Cursor) : Prop where
  reads : Reads (.either t.root) (Cursor.start text.toList) d
  stop : NoOperator '+' d
  source : t.source = text
  ending : t.ending = ⟨d.offset, text.utf8ByteSize⟩

theorem result_parse (text : String)
    : parse text
      = match (readNode (Cursor.start text.toList)).result with
        | .ok (root, d) => .ok ⟨text, root, ⟨d.offset, text.utf8ByteSize⟩⟩
        | .error fault => .error (.atOffset text fault.offset fault.expected) := by
  rw [parse]
  cases readNode (Cursor.start text.toList) <;> rfl

/-- Names are read as what the grammar derives. -/
theorem parse_eq_ok {text : String} {t : Trigger}
    : parse text = .ok t ↔ ∃ d, t.ReadFrom text d := by
  rw [result_parse]
  constructor
  · intro h
    split at h
    · rename_i root d read
      cases h
      obtain ⟨either, stop⟩ := reads_of_readNode read
      exact ⟨d, either, stop, rfl, rfl⟩
    · cases h
  · rintro ⟨d, reads, stop, source, ending⟩
    obtain ⟨found, root, span⟩ := t
    simp only at reads source ending
    subst source ending
    have read := reads.run
    rw [Piece.ReadBy, result_readEither, result?_eq_none.mpr stop] at read
    rw [read]

/-- A name is read as the units joined by ampersands that it starts with, if no operator follows. -/
theorem parse_of_every {text : String} {root : Node} {d : Cursor}
    (every : Reads (.every root) (.start text.toList) d) (noAmpersand : NoOperator '&' d)
    (noPlus : NoOperator '+' d)
    : parse text = .ok ⟨text, root, ⟨d.offset, text.utf8ByteSize⟩⟩ :=
  parse_eq_ok.mpr ⟨d, .part every noAmpersand, noPlus, rfl, rfl⟩

namespace Reads

variable {t : Trigger} {piece piece' : Piece} {c m e d : Cursor}

/-- The text between the spans of two pieces is what lies between them. -/
theorem copy_between {left right : Span} {gap : List Char} (first : Reads piece c m)
    (covers : piece.span? = some left) (second : Reads piece' e d)
    (covers' : piece'.span? = some right) (joining : Passage gap m e)
    (place : m.IsIn t.source.toList)
    : t.copy ⟨left.stop, right.start⟩ = gap := by
  rw [first.span covers, second.span covers']
  exact joining.slice_eq place

/-- The text around the span of a piece is what lies around it. -/
theorem copy_around {span : Span} {before behind : List Char} (inside : Reads piece m e)
    (covers : piece.span? = some span) (opening : Passage before c m) (closing : Passage behind e d)
    (place : c.IsIn t.source.toList)
    : t.copy ⟨c.offset, span.start⟩ = before ∧ t.copy ⟨span.stop, d.offset⟩ = behind := by
  rw [inside.span covers]
  exact ⟨opening.slice_eq place, closing.slice_eq (inside.isIn (opening.isIn place))⟩

end Reads

namespace ReadFrom

variable {t : Trigger} {text : String} {d : Cursor}

/-- Every place that a trigger was read up to is one in the name. -/
theorem isIn (h : t.ReadFrom text d) : d.IsIn text.toList :=
  h.reads.isIn (Cursor.isIn_start _)

/-- The ending goes on to the end of the name. -/
theorem passage_ending (h : t.ReadFrom text d) : Passage d.rest d ⟨text.utf8ByteSize, []⟩ := by
  obtain ⟨before, start⟩ := h.isIn
  refine .of_eq (List.append_nil _).symm ?_
  rw [utf8ByteSize_eq_byteLength, start.offset_eq]
  show byteLength (Cursor.start text.toList).rest = _
  rw [start.rest_eq, byteLength_append]
  show _ = 0 + _ + _
  rw [Nat.zero_add]

theorem copy_ending (h : t.ReadFrom text d) : t.copy t.ending = d.rest := by
  rw [copy, h.source, h.ending]
  exact h.passage_ending.slice_eq h.isIn

theorem endingText_eq (h : t.ReadFrom text d) : t.endingText = String.ofList d.rest :=
  congrArg String.ofList h.copy_ending

end ReadFrom

end Trigger

end DueTasks

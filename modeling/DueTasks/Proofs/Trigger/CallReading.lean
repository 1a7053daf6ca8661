import DueTasks.Proofs.Trigger.Assembly

/-! Calls in a text.
A call is its name with its arguments in parentheses behind it. A text in quotes is one way to write
an argument, and it is read back whatever characters it has.
-/

namespace DueTasks

open Text Parsed

/-- A name of a call: a letter or an underscore, with more of them or digits behind it. -/
structure IsName (letters : List Char) : Prop where
  starts : letters.head?.any Trigger.isNameStart = true
  parts : ∀ c ∈ letters, Trigger.isNamePart c = true

instance (letters : List Char) : Decidable (IsName letters) :=
  decidable_of_iff
    (letters.head?.any Trigger.isNameStart = true ∧ letters.all Trigger.isNamePart = true)
    ⟨fun h => ⟨h.1, List.all_eq_true.mp h.2⟩, fun h => ⟨h.starts, List.all_eq_true.mpr h.parts⟩⟩

/-- A character in a text in quotes. A backslash stands before another one and before the quote. -/
def escaped (quote c : Char) : List Char :=
  if c = '\\' ∨ c = quote then ['\\', c] else [c]

/-- A text in quotes. -/
def quotedChars (quote : Char) (value : List Char) : List Char :=
  quote :: (value.flatMap (escaped quote) ++ [quote])

namespace Trigger

open Reply

-----------------------------------------------------------------------------------------
-- Reading texts in quotes
-----------------------------------------------------------------------------------------

/-- A text in quotes is read back from behind its opening quote, by induction on the text. -/
theorem readQuoted?_append (offset : Nat) {quote : Char} (other : quote ≠ '\\')
    (value rest : List Char)
    : readQuoted? quote offset (value.flatMap (escaped quote) ++ quote :: rest)
      = some (value,
          ⟨offset + byteLength (value.flatMap (escaped quote)) + quote.utf8Size, rest⟩) := by
  induction value generalizing offset with
  | nil =>
      rw [List.flatMap_nil, List.nil_append, readQuoted?_cons _ _ _ other, if_pos rfl]
      rfl
  | cons c value ih =>
      rw [List.flatMap_cons, List.append_assoc, byteLength_append, escaped]
      -- either the character has a backslash before it, or it is neither a backslash nor the quote
      by_cases special : c = '\\' ∨ c = quote
      · rw [if_pos special]
        show readQuoted? quote offset ('\\' :: c :: (_ ++ quote :: rest)) = _
        rw [readQuoted?_escape, if_pos special, ih, Option.map_some]
        simp only [byteLength_cons, byteLength_nil, Nat.add_assoc, Nat.add_zero]
        rfl
      · obtain ⟨plain, inside⟩ := not_or.mp special
        rw [if_neg special]
        show readQuoted? quote offset (c :: (_ ++ quote :: rest)) = _
        rw [readQuoted?_cons _ _ _ plain, if_neg inside, ih, Option.map_some]
        simp only [byteLength_cons, byteLength_nil, Nat.add_assoc, Nat.add_zero]

/-- A text in quotes is read back as an argument. -/
theorem result_readArgument_quotedChars (offset : Nat) {quote : Char}
    (isQuote : quote = '"' ∨ quote = '\'') (value rest : List Char)
    : (readArgument ⟨offset, quotedChars quote value ++ rest⟩).result
      = .ok (.quoted (String.ofList value)
            ⟨offset, offset + byteLength (quotedChars quote value)⟩,
          ⟨offset + byteLength (quotedChars quote value), rest⟩) := by
  have text : quotedChars quote value ++ rest
      = quote :: (value.flatMap (escaped quote) ++ quote :: rest) := by
    simp [quotedChars]
  have length : byteLength (quotedChars quote value)
      = quote.utf8Size + (byteLength (value.flatMap (escaped quote)) + quote.utf8Size) := by
    simp [quotedChars]
  have other : quote ≠ '\\' := by
    rintro rfl
    rcases isQuote with h | h <;> cases h
  have argument (c : Cursor)
      : readQuotedArgument quote c
          ⟨offset + quote.utf8Size, value.flatMap (escaped quote) ++ quote :: rest⟩
        = .ok (.quoted (String.ofList value) (c.spanTo
              ⟨offset + byteLength (quotedChars quote value), rest⟩),
            ⟨offset + byteLength (quotedChars quote value), rest⟩) := by
    rw [readQuotedArgument, readQuoted?_append _ other, length]
    simp only [Nat.add_assoc]
  rw [text, result_readArgument, Cursor.result?_char?_cons, Cursor.result?_char?_cons]
  rcases isQuote with rfl | rfl
  · exact argument _
  · exact argument _

-----------------------------------------------------------------------------------------
-- Reading calls
-----------------------------------------------------------------------------------------

namespace Reads

/-- A text in quotes is read as an argument. -/
theorem quoted (text : String) (offset : Nat) (rest : List Char)
    : Reads
        (.arg (.quoted text ⟨offset, offset + byteLength (quotedChars '\'' text.toList)⟩))
        ⟨offset, quotedChars '\'' text.toList ++ rest⟩
        ⟨offset + byteLength (quotedChars '\'' text.toList), rest⟩ := by
  have read := result_readArgument_quotedChars offset (.inr rfl) text.toList rest
  rw [String.ofList_toList] at read
  exact .word read rfl

variable {offset : Nat} {inner rest : List Char} {arg next : Argument} {args : List Argument}
  {suffix : Suffix} {c d e : Cursor}

/-- A parenthesis ends the arguments. -/
theorem lastArg_append (last : Reads (.arg arg) c ⟨offset, ')' :: rest⟩)
    : Reads (.args [arg]) c ⟨offset + 1, rest⟩ :=
  .lastArg last (result?_charAfterBlanks?_append (List.forall_mem_nil _) rfl offset rest)

/-- A comma and a space stand between two arguments. -/
theorem moreArgs_append (first : Reads (.arg arg) c ⟨offset, ',' :: ' ' :: inner⟩)
    (solid : stops isSpaceOrTab inner = true)
    (more : Reads (.args (next :: args)) ⟨offset + 2, inner⟩ d)
    : Reads (.args (arg :: next :: args)) c d := by
  have comma
      : result? (Cursor.charAfterBlanks? ⟨offset, ',' :: ' ' :: inner⟩ ',')
        = some ((), ⟨offset + 1, ' ' :: inner⟩) :=
    result?_charAfterBlanks?_append (List.forall_mem_nil _) rfl offset _
  have behind : Cursor.skipBlanks ⟨offset + 1, ' ' :: inner⟩ = ⟨offset + 2, inner⟩ :=
    Cursor.skip_append isSpaceOrTab (offset + 1)
      (List.forall_mem_singleton.mpr rfl : ∀ c ∈ [' '], isSpaceOrTab c = true) solid
  exact .moreArgs first comma (by rw [behind]; exact more)

variable (name : String)

/-- A call is read from its name and its arguments, if no blank begins them. -/
theorem call_args (offset : Nat) (named : IsName name.toList)
    (solid : stops isSpaceOrTab inner = true)
    (arguments : Reads (.args args) ⟨offset + byteLength name.toList + 1, inner⟩ e)
    (annotated : (readSuffix e).result = .ok (suffix, d))
    : Reads (.unit (.call name args ⟨offset, e.offset⟩ suffix))
        ⟨offset, name.toList ++ '(' :: inner⟩ d := by
  have call :=
    call_append named.starts named.parts (List.forall_mem_nil _) solid arguments annotated
  rw [String.ofList_toList] at call
  exact call

/-- A call without arguments is read from its name. -/
theorem call_nil (offset : Nat) (named : IsName name.toList)
    (annotated
      : (readSuffix ⟨offset + byteLength name.toList + 2, rest⟩).result = .ok (suffix, d))
    : Reads (.unit (.call name [] ⟨offset, offset + byteLength name.toList + 2⟩ suffix))
        ⟨offset, name.toList ++ '(' :: ')' :: rest⟩ d :=
  call_args name offset named rfl (.noArgs (Cursor.char?_cons_self ..)) annotated

/-- A call of a text in quotes is read from its name and the text. -/
theorem call_quoted (text : String) (offset : Nat) (named : IsName name.toList)
    (annotated
      : (readSuffix
          ⟨offset + byteLength name.toList + 1 + byteLength (quotedChars '\'' text.toList) + 1,
            rest⟩).result
        = .ok (suffix, d))
    : let start := offset + byteLength name.toList + 1
      let stop := start + byteLength (quotedChars '\'' text.toList)
      Reads (.unit (.call name [.quoted text ⟨start, stop⟩] ⟨offset, stop + 1⟩ suffix))
        ⟨offset, name.toList ++ '(' :: (quotedChars '\'' text.toList ++ ')' :: rest)⟩ d :=
  call_args name offset named rfl (quoted text _ _).lastArg_append annotated

end Reads

end Trigger

end DueTasks

import DueTasks.Proofs.Trigger.SuffixReading

/-! The readers of triggers, one step at a time.
Each reader of nodes and arguments has an equation for its result, without the bounds that make it
end.
-/

namespace DueTasks

open Text Parsed

namespace Reply

variable {α : Type} {bound large : Nat}

/-- Makes every fault of an answer final. -/
def final (answer : Except Fault α) : Except Fault α :=
  answer.mapError fun fault => { fault with committed := true }

@[simp] theorem result_commit (reply : Reply α bound)
    : reply.commit.result = final reply.result := by
  cases reply <;> rfl

theorem final_final (answer : Except Fault α) : Final (final answer) := by
  intro fault h
  cases answer with
  | error other =>
      cases h
      rfl
  | ok found => cases h

/-- Making faults final does not change what is found. -/
theorem final_eq_ok {answer : Except Fault α} {found : α} (h : final answer = .ok found)
    : answer = .ok found := by
  cases answer with
  | error fault => cases h
  | ok other =>
      cases h
      rfl

/-- Making faults final does not change where they are. -/
theorem final_eq_error {answer : Except Fault α} {fault : Fault} (h : final answer = .error fault)
    : ∃ fault', answer = .error fault' ∧ fault.offset = fault'.offset := by
  cases answer with
  | error other =>
      cases h
      exact ⟨other, rfl, rfl⟩
  | ok found => cases h

@[simp] theorem final_found (found : α) : final (.ok found) = .ok found := rfl

/-- A larger bound does not change the result. -/
theorem result_bind_widen (reply : Reply α bound) (le : bound ≤ large)
    : result (reply >>= fun p => pure (p.widen le)) = reply.result := by
  cases reply <;> rfl

end Reply

namespace Trigger

open Reply

-----------------------------------------------------------------------------------------
-- Each reader has one equation
-----------------------------------------------------------------------------------------

theorem result?_operator? (symbol : Char) (c : Cursor)
    : result? (operator? symbol c)
      = (result? (c.skipBlanks.char? symbol)).map fun found => ((), found.2.skipBlanks) := by
  simp only [operator?, Cursor.charAfterBlanks?]
  cases c.skipBlanks.char? symbol <;> rfl

/-- A word is read if it is not empty. -/
theorem result_readWord (c : Cursor)
    : (readWord c).result
      = match result? (c.run? isWordPart) with
        | none => .error ⟨c.offset, .argument, true⟩
        | some word => .ok (.bare (String.ofList word.1) (c.spanTo word.2), word.2) := by
  rw [readWord]
  cases c.run? isWordPart <;> rfl

theorem readWord_next {c later : Cursor} {arg : Argument}
    (h : (readWord c).result = .ok (arg, later))
    : later = c.skip isWordPart := by
  rw [result_readWord, Cursor.result?_run?] at h
  split at h
  · cases h
  · rename_i word hw
    split at hw
    · cases hw
    · cases hw
      cases h
      rfl

theorem result_readDate (c : Cursor)
    : (readDate c).result
      = match result? (Date.read? c) with
        | none => .error ⟨c.offset, .date, false⟩
        | some date =>
            (readSuffix date.2).result >>= fun suffix =>
              .ok (.date date.1 (c.spanTo date.2) suffix.1, suffix.2) := by
  rw [readDate]
  cases Date.read? c with
  | none => rfl
  | some date => exact result_bind fun suffix => rfl

theorem result_readNode (c : Cursor)
    : (readNode c).result
      = (readEvery c).result >>= fun first => (readEither first.1 first.2).result := by
  rw [readNode]
  exact result_bind fun first => result_bind_widen _ _

/-- More parts are read for as long as a plus sign comes next. -/
theorem result_readEither (left : Node) (c : Cursor)
    : (readEither left c).result
      = match result? (operator? '+' c) with
        | none => .ok (left, c)
        | some sign =>
            final (readEvery sign.2).result >>= fun right =>
              (readEither (.either left right.1) right.2).result := by
  rw [readEither]
  cases operator? '+' c with
  | none => rfl
  | some sign =>
      simp only [result?_some, ← result_commit]
      exact result_bind fun right => result_bind_widen _ _

theorem result_readEvery (c : Cursor)
    : (readEvery c).result
      = (readUnit c).result >>= fun first => (readBoth first.1 first.2).result := by
  rw [readEvery]
  exact result_bind fun first => result_bind_widen _ _

/-- More units are read for as long as an ampersand comes next. -/
theorem result_readBoth (left : Node) (c : Cursor)
    : (readBoth left c).result
      = match result? (operator? '&' c) with
        | none => .ok (left, c)
        | some sign =>
            final (readUnit sign.2).result >>= fun right =>
              (readBoth (.both left right.1) right.2).result := by
  rw [readBoth]
  cases operator? '&' c with
  | none => rfl
  | some sign =>
      simp only [result?_some, ← result_commit]
      exact result_bind fun right => result_bind_widen _ _

/-- Reads a name and the call that it begins. -/
def readNamed (c : Cursor) : Except Fault (Node × Cursor) :=
  match result? (c.run? isNamePart) with
  | none => .error ⟨c.offset, .dateOrCall, false⟩
  | some name =>
      match result? (name.2.char? '(') with
      | none => .error ⟨name.2.offset, .openAfter (String.ofList name.1), false⟩
      | some opening => (readCall c (String.ofList name.1) opening.2.skipBlanks).result

/-- A unit is told by its first character. -/
theorem result_readUnit (c : Cursor)
    : (readUnit c).result
      = match result? (c.char? '(') with
        | some opening => (readGroup c opening.2.skipBlanks).result
        | none =>
            if c.rest.head?.any Char.isDigit then (readDate c).result
            else if c.rest.head?.any isNameStart then readNamed c
            else .error ⟨c.offset, .dateOrCall, false⟩ := by
  rw [readUnit]
  cases c.char? '(' with
  | some opening => exact result_bind_widen _ _
  | none =>
      simp only [result?_none, readNamed]
      split
      · rfl
      · split
        · cases c.run? isNamePart with
          | none => rfl
          | some name =>
              simp only [result?_some, Parsed.result]
              cases name.next.char? '(' with
              | none => rfl
              | some opening => exact result_bind_widen _ _
        · rfl

theorem result_readGroup (start c : Cursor)
    : (readGroup start c).result
      = final (readNode c).result >>= fun inner =>
          match result? (inner.2.charAfterBlanks? ')') with
          | none => .error ⟨inner.2.skipBlanks.offset, .close, true⟩
          | some closing => .ok (.group inner.1 (start.spanTo closing.2), closing.2) := by
  rw [readGroup, ← result_commit]
  refine result_bind fun inner => ?_
  simp only [Parsed.result]
  cases inner.next.charAfterBlanks? ')' <;> rfl

theorem result_readCall (start : Cursor) (name : String) (c : Cursor)
    : (readCall start name c).result
      = final (readArguments c).result >>= fun args =>
          (readSuffix args.2).result >>= fun suffix =>
            .ok (.call name args.1 (start.spanTo args.2) suffix.1, suffix.2) := by
  rw [readCall, ← result_commit]
  exact result_bind fun args => result_bind fun suffix => rfl

/-- Arguments are read unless they are closed at once. -/
theorem result_readArguments (c : Cursor)
    : (readArguments c).result
      = match result? (c.char? ')') with
        | some closing => .ok ([], closing.2)
        | none => (readSomeArguments c).result := by
  rw [readArguments]
  cases c.char? ')' <;> rfl

/-- Reads what follows an argument. -/
def readMoreArguments (arg : Argument × Cursor) : Except Fault (List Argument × Cursor) :=
  match result? (arg.2.charAfterBlanks? ')') with
  | some closing => .ok ([arg.1], closing.2)
  | none =>
      match result? (arg.2.charAfterBlanks? ',') with
      | none => .error ⟨arg.2.skipBlanks.offset, .commaOrClose, true⟩
      | some comma =>
          (readSomeArguments comma.2.skipBlanks).result >>= fun more =>
            .ok (arg.1 :: more.1, more.2)

theorem result_readSomeArguments (c : Cursor)
    : (readSomeArguments c).result = (readArgument c).result >>= readMoreArguments := by
  rw [readSomeArguments]
  refine result_bind fun arg => ?_
  simp only [readMoreArguments, Parsed.result]
  cases arg.next.charAfterBlanks? ')' with
  | some closing => rfl
  | none =>
      simp only [result?_none]
      cases arg.next.charAfterBlanks? ',' with
      | none => rfl
      | some comma => exact result_bind fun more => rfl

/-- Reads a quoted text that begins at `start`, from behind its opening quote. -/
def readQuotedArgument (quote : Char) (start c : Cursor) : Except Fault (Argument × Cursor) :=
  match readQuoted? quote c.offset c.rest with
  | none => .error ⟨start.offset, .closingQuote, true⟩
  | some found => .ok (.quoted (String.ofList found.1) (start.spanTo found.2), found.2)

/-- Reads an argument without quotes: a trigger if the argument ends behind it, else a word. -/
def readPlainArgument (c : Cursor) : Except Fault (Argument × Cursor) :=
  match (readNode c).result with
  | .ok node =>
      if atArgumentEnd node.2 then .ok (.trigger node.1, node.2) else (readWord c).result
  | .error fault => if fault.committed then .error fault else (readWord c).result

theorem readQuoted?_escape (quote : Char) (offset : Nat) (c : Char) (rest : List Char)
    : readQuoted? quote offset ('\\' :: c :: rest)
      = if c = '\\' ∨ c = quote then
          (readQuoted? quote (offset + 1 + c.utf8Size) rest).map fun found =>
            (c :: found.1, found.2)
        else none := by
  rw [readQuoted?]

theorem readQuoted?_cons (quote : Char) (offset : Nat) {c : Char} (rest : List Char)
    (other : c ≠ '\\')
    : readQuoted? quote offset (c :: rest)
      = if c = quote then some ([], ⟨offset + c.utf8Size, rest⟩)
        else
          (readQuoted? quote (offset + c.utf8Size) rest).map fun found =>
            (c :: found.1, found.2) := by
  rw [readQuoted?, if_neg other]
  exact fun _ _ he _ => other he

theorem result?_readLiteral? (quote : Char) (c : Cursor)
    : result? (readLiteral? quote c)
      = (readQuoted? quote c.offset c.rest).map fun found => (String.ofList found.1, found.2) := by
  unfold readLiteral?
  split
  · rename_i h
    simp only [h, result?_none, Option.map_none]
  · rename_i found h
    simp only [h, result?_some, Option.map_some]
    rfl

theorem readQuotedArgument_eq (quote : Char) (start c : Cursor)
    : readQuotedArgument quote start c
      = match result? (readLiteral? quote c) with
        | none => .error ⟨start.offset, .closingQuote, true⟩
        | some literal => .ok (.quoted literal.1 (start.spanTo literal.2), literal.2) := by
  rw [readQuotedArgument, result?_readLiteral?]
  cases readQuoted? quote c.offset c.rest <;> rfl

/-- An argument is told by its first character. -/
theorem result_readArgument (c : Cursor)
    : (readArgument c).result
      = match result? (c.char? '"'), result? (c.char? '\'') with
        | some opening, _ => readQuotedArgument '"' c opening.2
        | none, some opening => readQuotedArgument '\'' c opening.2
        | none, none => readPlainArgument c := by
  rw [readArgument]
  cases hd : c.char? '"' with
  | some opening =>
      have sees : c.sees '"' = true := by
        have double := (Cursor.of_char? (congrArg result? hd)).1
        rw [Cursor.sees, double]
        rfl
      simp only [Option.some_or, sees, if_true]
      simp only [readQuotedArgument_eq, result?_some, Parsed.result]
      cases readLiteral? '"' opening.next <;> cases c.char? '\'' <;> rfl
  | none =>
      have sees : c.sees '"' = false := beq_eq_false_iff_ne.mpr (Cursor.head?_ne_of_char? hd)
      cases c.char? '\'' with
      | some opening =>
          simp only [Option.none_or, sees, readQuotedArgument_eq, result?_none, result?_some,
            Parsed.result, Bool.false_eq_true, if_false]
          cases readLiteral? '\'' opening.next <;> rfl
      | none =>
          simp only [Option.none_or, result?_none, readPlainArgument]
          cases readNode c with
          | error fault =>
              show Reply.result (if _ then _ else _) = if _ then _ else _
              split <;> rfl
          | ok node =>
              simp only [result_ok, Parsed.result]
              split <;> rfl

-----------------------------------------------------------------------------------------
-- Faults behind the first part of a trigger are final
-----------------------------------------------------------------------------------------

/-- Faults behind the first part of a trigger are final, by induction on what is left to read. -/
theorem final_readEither (left : Node) (c : Cursor) : Final (readEither left c).result := by
  rw [result_readEither]
  split
  · exact final_ok _
  · rename_i sign hs
    have := Parsed.remaining_lt hs
    refine (final_final _).bind fun right hr => ?_
    have := Reply.remaining_lt (final_eq_ok hr)
    exact final_readEither _ _
termination_by c.remaining

/-- Faults behind the first unit of a part are final, by induction on what is left to read. -/
theorem final_readBoth (left : Node) (c : Cursor) : Final (readBoth left c).result := by
  rw [result_readBoth]
  split
  · exact final_ok _
  · rename_i sign hs
    have := Parsed.remaining_lt hs
    refine (final_final _).bind fun right hr => ?_
    have := Reply.remaining_lt (final_eq_ok hr)
    exact final_readBoth _ _
termination_by c.remaining

theorem final_readWord (c : Cursor) : Final (readWord c).result := by
  rw [result_readWord]
  split
  · exact final_error rfl
  · exact final_ok _

theorem final_readQuotedArgument (quote : Char) (start c : Cursor)
    : Final (readQuotedArgument quote start c) := by
  unfold readQuotedArgument
  split
  · exact final_error rfl
  · exact final_ok _

/-- Faults in arguments are final. -/
theorem final_readArgument (c : Cursor) : Final (readArgument c).result := by
  rw [result_readArgument]
  split
  · exact final_readQuotedArgument _ _ _
  · exact final_readQuotedArgument _ _ _
  · unfold readPlainArgument
    split
    · split
      · exact final_ok _
      · exact final_readWord c
    · split
      · exact final_error ‹_›
      · exact final_readWord c

/-- Faults in arguments are final, by induction on what is left to read. -/
theorem final_readSomeArguments (c : Cursor) : Final (readSomeArguments c).result := by
  rw [result_readSomeArguments]
  refine (final_readArgument c).bind fun arg ha => ?_
  have := Reply.remaining_lt ha
  unfold readMoreArguments
  split
  · exact final_ok _
  · split
    · exact final_error rfl
    · rename_i comma hc
      have := Parsed.remaining_lt hc
      have := comma.2.remaining_skipBlanks_le
      exact (final_readSomeArguments _).bind fun _ _ => final_ok _
termination_by c.remaining

theorem final_readMoreArguments (arg : Argument × Cursor) : Final (readMoreArguments arg) := by
  unfold readMoreArguments
  split
  · exact final_ok _
  · split
    · exact final_error rfl
    · exact (final_readSomeArguments _).bind fun _ _ => final_ok _

/-- Behind an argument more is read only where the argument ends, and then something is read. -/
theorem readMoreArguments_next {arg : Argument × Cursor} {args : List Argument} {later : Cursor}
    (h : readMoreArguments arg = .ok (args, later))
    : atArgumentEnd arg.2 = true ∧ later.remaining < arg.2.remaining := by
  have sees {expected : Char} {found : Unit × Cursor}
      (h : result? (arg.2.charAfterBlanks? expected) = some found)
      : arg.2.skipBlanks.sees expected = true := by
    rw [Cursor.result?_charAfterBlanks?] at h
    rw [Cursor.sees, (Cursor.of_char? h).1, List.head?_cons, beq_self_eq_true]
  unfold readMoreArguments at h
  split at h
  · rename_i closing hc
    cases h
    exact ⟨by rw [atArgumentEnd, sees hc, Bool.or_true], Parsed.remaining_lt hc⟩
  · split at h
    · cases h
    · rename_i comma hc
      obtain ⟨more, hm, he⟩ := bind_eq_ok h
      cases he
      have := Parsed.remaining_lt hc
      have := comma.2.remaining_skipBlanks_le
      have := Reply.remaining_lt hm
      exact ⟨by rw [atArgumentEnd, sees hc, Bool.true_or], by omega⟩

end Trigger

end DueTasks

/-! Places in a text, counted in bytes of its UTF-8 form.
A span names a stretch of a text by its two byte offsets, and `slice` reads the stretch back.
Offsets that fall on character boundaries cut exactly between characters.
-/

namespace DueTasks

/-- A stretch of a text: the byte offset of its first byte and the one after its last byte. -/
structure Span where
  start : Nat
  stop : Nat
deriving DecidableEq, Repr, Inhabited

namespace Text

/-- The number of bytes that the characters take in UTF-8. -/
def byteLength : List Char → Nat
  | [] => 0
  | c :: chars => c.utf8Size + byteLength chars

/-- What follows the first `count` bytes. -/
def dropBytes : Nat → List Char → List Char
  | 0, chars => chars
  | _ + 1, [] => []
  | count + 1, c :: chars => dropBytes (count + 1 - c.utf8Size) chars

/-- The characters that begin within the first `count` bytes. -/
def takeBytes : Nat → List Char → List Char
  | 0, _ => []
  | _ + 1, [] => []
  | count + 1, c :: chars => c :: takeBytes (count + 1 - c.utf8Size) chars

/-- The characters that a span covers. -/
def slice (chars : List Char) (span : Span) : List Char :=
  takeBytes (span.stop - span.start) (dropBytes span.start chars)

@[simp] theorem byteLength_nil : byteLength [] = 0 := rfl

@[simp] theorem byteLength_cons (c : Char) (chars : List Char)
    : byteLength (c :: chars) = c.utf8Size + byteLength chars := rfl

@[simp] theorem byteLength_append (left right : List Char)
    : byteLength (left ++ right) = byteLength left + byteLength right := by
  induction left with
  | nil => simp
  | cons c left ih => simp [ih, Nat.add_assoc]

/-- Dropping the bytes of a leading part leaves the rest. -/
theorem dropBytes_append (head tail : List Char)
    : dropBytes (byteLength head) (head ++ tail) = tail := by
  induction head with
  | nil => cases tail <;> rfl
  | cons c head ih =>
      have positive := c.utf8Size_pos
      obtain ⟨count, hc⟩ : ∃ count, byteLength (c :: head) = count + 1 :=
        ⟨c.utf8Size + byteLength head - 1, by simp; omega⟩
      have rest : count + 1 - c.utf8Size = byteLength head := by simp at hc; omega
      rw [hc, List.cons_append, dropBytes, rest, ih]

/-- Taking the bytes of a leading part gives that part. -/
theorem takeBytes_append (head tail : List Char)
    : takeBytes (byteLength head) (head ++ tail) = head := by
  induction head with
  | nil => cases tail <;> rfl
  | cons c head ih =>
      have positive := c.utf8Size_pos
      obtain ⟨count, hc⟩ : ∃ count, byteLength (c :: head) = count + 1 :=
        ⟨c.utf8Size + byteLength head - 1, by simp; omega⟩
      have rest : count + 1 - c.utf8Size = byteLength head := by simp at hc; omega
      rw [hc, List.cons_append, takeBytes, rest, ih]

/-- A slice whose ends lie on character boundaries is the part between them. -/
theorem slice_append (before middle after : List Char)
    : slice (before ++ middle ++ after)
        ⟨byteLength before, byteLength before + byteLength middle⟩ = middle := by
  simp [slice, List.append_assoc, dropBytes_append, takeBytes_append]

end Text

end DueTasks

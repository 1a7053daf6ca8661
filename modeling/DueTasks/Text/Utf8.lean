/-! Text from bytes.
Bytes are read as UTF-8, one character at a time. Where they are not UTF-8, the longest beginning
of a character that can be made out counts as one mistake.
-/

namespace DueTasks.Text

/-- How a character goes on behind its first byte: the bits of the first byte, the range of the
second byte, and how many bytes follow in all.
-/
structure Utf8Lead where
  bits : Nat
  low : UInt8
  high : UInt8
  more : Nat

/-- What a byte begins, if it begins a character. -/
def utf8Lead? (b : UInt8) : Option Utf8Lead :=
  if b < 0x80 then some ⟨b.toNat, 0x80, 0xbf, 0⟩
  else if b < 0xc2 then none
  else if b < 0xe0 then some ⟨b.toNat - 0xc0, 0x80, 0xbf, 1⟩
  else if b < 0xf0 then
    some ⟨b.toNat - 0xe0, if b = 0xe0 then 0xa0 else 0x80, if b = 0xed then 0x9f else 0xbf, 2⟩
  else if b < 0xf5 then
    some ⟨b.toNat - 0xf0, if b = 0xf0 then 0x90 else 0x80, if b = 0xf4 then 0x8f else 0xbf, 3⟩
  else none

/-- Reads the bytes that go on a character, and tells what is left. There is no character if a
byte is out of range; that byte is left.
-/
def utf8Continue (bits : Nat) (low high : UInt8) : Nat → List UInt8 → Option Char × List UInt8
  | 0, rest => (some (Char.ofNat bits), rest)
  | _ + 1, [] => (none, [])
  | more + 1, b :: rest =>
      if low ≤ b ∧ b ≤ high then utf8Continue (bits * 64 + (b.toNat - 0x80)) 0x80 0xbf more rest
      else (none, b :: rest)

/-- Reads one character behind its first byte, and tells what is left. -/
def utf8Char (b : UInt8) (rest : List UInt8) : Option Char × List UInt8 :=
  match utf8Lead? b with
  | none => (none, rest)
  | some lead => utf8Continue lead.bits lead.low lead.high lead.more rest

/-- Going on a character leaves no more bytes than there were. -/
theorem utf8Continue_length_le (bits : Nat) (low high : UInt8) (more : Nat) (rest : List UInt8)
    : (utf8Continue bits low high more rest).2.length ≤ rest.length := by
  fun_induction utf8Continue bits low high more rest with
  | case1 => exact Nat.le_refl _
  | case2 => exact Nat.le_refl _
  | case3 _ _ _ _ _ _ _ ih => exact Nat.le_succ_of_le ih
  | case4 => exact Nat.le_refl _

/-- Reading a character leaves no more bytes than stood behind its first one. -/
theorem utf8Char_length_le (b : UInt8) (rest : List UInt8)
    : (utf8Char b rest).2.length ≤ rest.length := by
  unfold utf8Char
  split
  · exact Nat.le_refl _
  · exact utf8Continue_length_le ..

/-- The characters of bytes, with `none` for every mistake. -/
def utf8Chars : List UInt8 → List (Option Char)
  | [] => []
  | b :: rest => (utf8Char b rest).1 :: utf8Chars (utf8Char b rest).2
termination_by bytes => bytes.length
decreasing_by exact Nat.lt_succ_of_le (utf8Char_length_le b rest)

/-- The text of bytes, if they are UTF-8. -/
def ofUtf8? (bytes : List UInt8) : Option String :=
  ((utf8Chars bytes).mapM id).map String.ofList

/-- The text of bytes, with the replacement character for every mistake. -/
def ofUtf8Lossy (bytes : List UInt8) : String :=
  String.ofList ((utf8Chars bytes).map fun c => c.getD '\ufffd')

/-- The bytes of a text. -/
def toUtf8 (text : String) : List UInt8 :=
  text.toUTF8.toList

end DueTasks.Text

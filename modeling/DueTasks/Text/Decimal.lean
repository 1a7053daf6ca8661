/-! Decimal numbers in text: reading digits exactly and writing them with leading zeros. -/

namespace DueTasks.Text

def digitValue (c : Char) : Nat :=
  c.toNat - '0'.toNat

/-- The number that decimal digits spell, most significant first. -/
def digitsValue (digits : List Char) : Nat :=
  digits.foldl (fun value c => value * 10 + digitValue c) 0

/-- The number that decimal digits spell, read digit by digit up to a greatest number that stands
for all larger ones.
-/
def cappedValue (greatest : Nat) (digits : List Char) : Nat :=
  digits.foldl (fun value c => min (value * 10 + digitValue c) greatest) 0

/-- The decimal digits of a number. -/
def decimal (n : Nat) : List Char :=
  Nat.toDigits 10 n

/-- The decimal digits of a number, with leading zeros up to `width` characters. -/
def paddedDecimal (width n : Nat) : List Char :=
  (decimal n).leftpad width '0'

/-- The number that a text spells in decimal digits, with an optional plus sign before them. -/
def readNatural? (chars : List Char) : Option Nat :=
  let digits := match chars with
    | '+' :: rest => rest
    | _ => chars
  if digits.isEmpty || !digits.all Char.isDigit then none else some (digitsValue digits)

end DueTasks.Text

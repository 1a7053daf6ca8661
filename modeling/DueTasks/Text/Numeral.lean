/-! Numerals in any base up to 36, with letters of either case as the digits from ten on. -/

namespace DueTasks.Text

def digit? (base : Nat) (c : Char) : Option Nat := do
  let value ←
    if '0' ≤ c ∧ c ≤ '9' then some (c.toNat - '0'.toNat)
    else if 'a' ≤ c ∧ c ≤ 'z' then some (c.toNat - 'a'.toNat + 10)
    else if 'A' ≤ c ∧ c ≤ 'Z' then some (c.toNat - 'A'.toNat + 10)
    else none
  if value < base then some value else none

/-- The number that one or more digits spell in a base, most significant first. -/
def numeral? (base : Nat) (chars : List Char) : Option Nat :=
  if chars.isEmpty then none
  else (chars.mapM (digit? base)).map fun digits => digits.foldl (fun n digit => n * base + digit) 0

end DueTasks.Text

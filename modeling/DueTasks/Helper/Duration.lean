import DueTasks.Text.Decimal

/-! Lengths of time and how they are written: in the largest unit of which there is at least one,
with as many decimal places as are needed to be exact.
-/

namespace DueTasks

/-- A length of time in nanoseconds. -/
structure Duration where
  nanoseconds : Nat
deriving DecidableEq

namespace Duration

/-- A length of time in whole seconds. -/
def ofSeconds (seconds : Nat) : Duration :=
  ⟨seconds * 1000000000⟩

/-- A length of time in whole milliseconds. -/
def ofMilliseconds (milliseconds : Nat) : Duration :=
  ⟨milliseconds * 1000000⟩

/-- A decimal number from its whole part and a fraction of `places` decimal places. Zeros at the end
of the fraction are left out, and so is a fraction of zero.
-/
def decimalText (whole fraction places : Nat) : String :=
  let digits := (Text.paddedDecimal places fraction).reverse.dropWhile (· == '0')
  let point := if digits.isEmpty then [] else '.' :: digits.reverse
  String.ofList (Text.decimal whole ++ point)

/-- The length of time with its unit. -/
def text (d : Duration) : String :=
  let n := d.nanoseconds
  if 1000000000 ≤ n then decimalText (n / 1000000000) (n % 1000000000) 9 ++ "s"
  else if 1000000 ≤ n then decimalText (n / 1000000) (n % 1000000) 6 ++ "ms"
  else if 1000 ≤ n then decimalText (n / 1000) (n % 1000) 3 ++ "µs"
  else decimalText n 0 0 ++ "ns"

end Duration

end DueTasks

/-!
# Decimal numerals

Windows and prefix lengths are written in decimal: ASCII digits, at least one,
after an optional sign. Nothing else is a numeral, in particular no blank, no
grouping mark and no digit of another script. `Numeral.value` is the number
that a run of digits denotes; the readers add the sign and the range.
-/

namespace EntityFeatures

namespace Numeral

/-- One of the ten ASCII digits. -/
def isDigit (character : Char) : Bool :=
  '0' ≤ character && character ≤ '9'

/-- The number that an ASCII digit stands for. -/
def digitValue (digit : Char) : Nat :=
  digit.toNat - '0'.toNat

/-- The number that a run of digits denotes, the most significant digit first. -/
def value (digits : List Char) : Nat :=
  digits.foldl (fun total digit => 10 * total + digitValue digit) 0

/-- The number denoted by characters that are digits throughout. -/
def natural? (characters : List Char) : Option Nat :=
  if !characters.isEmpty && characters.all isDigit then some (value characters) else none

/-- The number denoted by digits after an optional sign. -/
def signed? : List Char → Option Int
  | '-' :: digits => (natural? digits).map fun magnitude => -(magnitude : Int)
  | '+' :: digits => (natural? digits).map fun magnitude => (magnitude : Int)
  | digits => (natural? digits).map fun magnitude => (magnitude : Int)

/-- The numeral `text`, if what it denotes lies between `low` and `high`. -/
def within? (low high : Int) (text : String) : Option Int :=
  (signed? text.toList).filter fun number => decide (low ≤ number ∧ number ≤ high)

/-- The numeral `text` as a signed number of 32 bits. -/
def int32? (text : String) : Option Int32 :=
  (within? Int32.minValue.toInt Int32.maxValue.toInt text).map Int32.ofInt

/-- The numeral `text`, if it denotes a positive number that a signed number of 64 bits can hold. -/
def positive? (text : String) : Option Nat :=
  (within? 1 Int64.maxValue.toInt text).map Int.toNat

end Numeral

end EntityFeatures

/-!
# Hexadecimal digits

The sixteen digits and their values. Digits are written with small letters and
read in either case.
-/

namespace EntityFeatures

/-- The digit of a number below sixteen. -/
def hexDigit (number : Nat) : Char :=
  if number < 10 then Char.ofNat ('0'.toNat + number) else Char.ofNat ('a'.toNat + number - 10)

/-- The value of a digit. -/
def hexDigit? (character : Char) : Option Nat :=
  if '0' ≤ character ∧ character ≤ '9' then some (character.toNat - '0'.toNat)
  else if 'a' ≤ character ∧ character ≤ 'f' then some (character.toNat - 'a'.toNat + 10)
  else if 'A' ≤ character ∧ character ≤ 'F' then some (character.toNat - 'A'.toNat + 10)
  else none

theorem hexDigit?_hexDigit {number : Nat} (small : number < 16) :
    hexDigit? (hexDigit number) = some number := by
  revert number
  decide

end EntityFeatures

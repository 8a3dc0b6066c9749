/-!
# Blank characters

The characters that Unicode gives the property `White_Space`. A name of an
entity type may not hold one, and an address ends where one stands.
-/

namespace EntityFeatures

/-- The ranges of `White_Space`, first and last code point, in ascending order. -/
def blankRanges : List (Nat × Nat) :=
  [(0x09, 0x0D), (0x20, 0x20), (0x85, 0x85), (0xA0, 0xA0), (0x1680, 0x1680), (0x2000, 0x200A),
    (0x2028, 0x2029), (0x202F, 0x202F), (0x205F, 0x205F), (0x3000, 0x3000)]

/-- A character with the property `White_Space`. -/
def isBlank (character : Char) : Bool :=
  blankRanges.any fun (first, last) => first ≤ character.toNat && character.toNat ≤ last

example : (blankRanges.map fun (first, last) => last - first + 1).sum = 25 := rfl

end EntityFeatures

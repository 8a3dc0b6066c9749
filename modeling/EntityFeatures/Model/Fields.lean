import EntityFeatures.Text.Utf8

/-!
# The fields of a saved model

A model is saved as a sequence of fields without names or types: numbers of one
and of four bytes, the low byte first, and texts. A text begins with its length
in bytes, which takes one byte up to 254; a longer text has the byte 255 and then
the length in four bytes.

Writing fails when a number does not fit into its field, and says which number
it was. The values that are written here are integers, so that a caller cannot
cut a number down by accident before it is checked.
-/

namespace EntityFeatures

namespace Model

/-- The two widths of a number field. -/
inductive Width where
  | one
  | four
  deriving DecidableEq, Repr

namespace Width

/-- The width in words. -/
def text : Width → String
  | one => "1 byte"
  | four => "4 bytes"

end Width

/-- Why a model cannot be saved. -/
inductive EncodeFault where
  /-- The value does not fit into a field of this width. -/
  | tooWide (value : Int) (width : Width)
  deriving DecidableEq, Repr

/-- The wording of the fault. -/
def EncodeFault.message : EncodeFault → String
  | tooWide value width =>
      "cannot encode model: value " ++ toString value ++ " does not fit into " ++ width.text

/-- The bytes of some fields, or the reason why they cannot be written. -/
abbrev Encoded := Except EncodeFault (List UInt8)

/-- The four bytes of a number, the low byte first. -/
def fourBytes (number : Nat) : List UInt8 :=
  [UInt8.ofNat number, UInt8.ofNat (number / 256), UInt8.ofNat (number / 65536),
    UInt8.ofNat (number / 16777216)]

/-- The number of four bytes, the low byte first. -/
def ofFourBytes (first second third fourth : UInt8) : UInt32 :=
  UInt32.ofNat
    (first.toNat + 256 * second.toNat + 65536 * third.toNat + 16777216 * fourth.toNat)

/-- A number in one byte. -/
def encodeByte (value : Int) : Encoded :=
  if 0 ≤ value ∧ value < 256 then .ok [UInt8.ofNat value.toNat]
  else .error (.tooWide value .one)

/-- A number in four bytes. -/
def encodeWord (value : Int) : Encoded :=
  if 0 ≤ value ∧ value < 4294967296 then .ok (fourBytes value.toNat)
  else .error (.tooWide value .four)

/-- The length of a text in front of it. -/
def encodeLength (length : Nat) : Encoded :=
  if length < 255 then encodeByte length
  else do
    let long ← encodeWord length
    return 255 :: long

/-- The length of a text in bytes, and then the bytes. -/
def encodeText (text : String) : Encoded := do
  let bytes := Utf8.encode text
  let length ← encodeLength bytes.length
  return length ++ bytes

/-- Several items, one after the other. -/
def encodeEach {Item : Type} (encode : Item → Encoded) : List Item → Encoded
  | [] => .ok []
  | item :: rest => do
      let front ← encode item
      let back ← encodeEach encode rest
      return front ++ back

/-- The number of items in four bytes, and then the items. -/
def encodeCounted {Item : Type} (encode : Item → Encoded) (items : List Item) : Encoded := do
  let count ← encodeWord items.length
  let bytes ← encodeEach encode items
  return count ++ bytes

@[simp]
theorem encodeWord_toNat (number : UInt32) :
    encodeWord (number.toNat : Int) = .ok (fourBytes number.toNat) := by
  have bound : number.toNat < 4294967296 := number.toNat_lt
  unfold encodeWord
  rw [if_pos (by omega)]
  simp

@[simp]
theorem ofFourBytes_fourBytes (number : UInt32) :
    ofFourBytes (UInt8.ofNat number.toNat) (UInt8.ofNat (number.toNat / 256))
      (UInt8.ofNat (number.toNat / 65536)) (UInt8.ofNat (number.toNat / 16777216)) = number := by
  have bound : number.toNat < 4294967296 := number.toNat_lt
  apply UInt32.toNat_inj.1
  simp only [ofFourBytes, UInt8.toNat_ofNat', UInt32.toNat_ofNat']
  omega

end Model

end EntityFeatures

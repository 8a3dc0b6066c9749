import EntityFeatures.Model.Fields

/-!
# Reading a saved model

A model is read field by field. What is being filled with the fields, the
target, keeps what it has received when the data turn out to be damaged, and so
does the position in the data. A `Reader` therefore carries both: the target and
the bytes that are still to be read.

The fields that do not depend on a target are read the same way whatever the
target is. `Reader.within` reads into a part of the target. `Reader.build` reads
into a target of its own, which is handed on only when it is complete.

No number in the data is trusted. A loop of `Reader.times` runs as often as the
data claim, but every round reads at least one byte or fails.
-/

namespace EntityFeatures

namespace Model

/-- Why the data are not a saved model. -/
inductive DecodeFault where
  /-- The data end inside a number field. -/
  | endInNumber (width : Width)
  /-- The data end inside a text of this many bytes. -/
  | endInText (length : Nat)
  /-- The bytes of a text are no text. -/
  | notText (fault : Utf8.Fault)
  /-- No extractor has this name. -/
  | unknownExtractor (name : String)
  /-- The byte that tells whether a phrase goes on is neither 0 nor 1. -/
  | wrongFlag (flag : UInt8)
  deriving DecidableEq, Repr

/-- The wording of the fault. -/
def DecodeFault.message (fault : DecodeFault) : String :=
  "cannot decode model: " ++
    match fault with
    | endInNumber width => "unexpected end of data reading " ++ width.text
    | endInText length => s!"unexpected end of data reading {length} bytes"
    | notText fault => "string is not valid UTF-8: " ++ fault.message
    | unknownExtractor name => "unknown feature processor '" ++ name ++ "'"
    | wrongFlag flag => "invalid gazetteer prefix flag " ++ toString flag.toNat

/-- A step of reading: it takes bytes from the front of the data and may change the target. -/
abbrev Reader (Target : Type) := EStateM DecodeFault (Target × List UInt8)

namespace Reader

variable {Target : Type}

/-- A field of one byte. When there is none, nothing is taken. -/
def byte : Reader Target UInt8
  | (target, first :: rest) => .ok first (target, rest)
  | (target, []) => .error (.endInNumber .one) (target, [])

/-- A field of four bytes. When there are fewer, all of them are taken. -/
def word : Reader Target UInt32
  | (target, first :: second :: third :: fourth :: rest) =>
      .ok (ofFourBytes first second third fourth) (target, rest)
  | (target, _) => .error (.endInNumber .four) (target, [])

/-- The given number of bytes. When there are fewer, nothing is taken. -/
def bytes (length : Nat) : Reader Target (List UInt8)
  | (target, data) =>
      let front := data.take length
      if front.length = length then .ok front (target, data.drop length)
      else .error (.endInText length) (target, data)

/-- The length in front of a text: one byte, or four of them behind the byte 255. -/
def textLength : Reader Target Nat := do
  let short ← byte
  if short = 255 then
    let long ← word
    return long.toNat
  else
    return short.toNat

/-- A text. Its bytes are taken even when they are no text. -/
def text : Reader Target String := do
  let length ← textLength
  let data ← bytes length
  match Utf8.decode data with
  | .ok text => return text
  | .error fault => throw (.notText fault)

/-- Several fields of four bytes. -/
def words : (count : Nat) → Reader Target (List UInt32)
  | 0 => return []
  | count + 1 => do
      let first ← word
      let rest ← words count
      return first :: rest

/-- Changes the target and takes nothing. -/
def update (change : Target → Target) : Reader Target Unit
  | (target, data) => .ok () (change target, data)

/-- Reads the same thing several times, until one of them fails. -/
def times : (count : Nat) → Reader Target Unit → Reader Target Unit
  | 0, _ => return ()
  | count + 1, reader => do
      reader
      times count reader

/-- Reads the number of items and then each of them. -/
def counted (reader : Reader Target Unit) : Reader Target Unit := do
  let count ← word
  times count.toNat reader

/-- Reads into a part of the target. -/
def within {Part : Type} (get : Target → Part) (put : Part → Target → Target)
    (reader : Reader Part Unit) : Reader Target Unit
  | (target, data) =>
      match reader (get target, data) with
      | .ok _ (part, rest) => .ok () (put part target, rest)
      | .error fault (part, rest) => .error fault (put part target, rest)

/-- Reads into a fresh target, which is lost if it cannot be completed. -/
def build {Part : Type} (fresh : Part) (reader : Reader Part Unit) : Reader Target Part
  | (target, data) =>
      match reader (fresh, data) with
      | .ok _ (part, rest) => .ok part (target, rest)
      | .error fault (_, rest) => .error fault (target, rest)

end Reader

end Model

end EntityFeatures

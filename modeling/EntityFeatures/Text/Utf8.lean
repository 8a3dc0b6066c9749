/-!
# Text as bytes

A saved model, a resource file and a template are all read as bytes and hold
text in UTF-8. `Utf8.encode` gives the bytes of a text and `Utf8.decode` the
text of some bytes.

When the bytes are no text, the reader of a damaged model wants to know where
the damage is, so the failure carries a `Utf8.Fault`: the first position at
which no character can be read, and whether the bytes there are wrong or only
stop too early. `Utf8.decode_encode` and `Utf8.encode_of_decode_ok` say that a
text and its bytes determine each other.
-/

namespace EntityFeatures

namespace Utf8

/-- Why, and from which byte on, some bytes are not the bytes of a text. -/
inductive Fault where
  /-- The `length` bytes from `index` on cannot begin a character. -/
  | invalid (length index : Nat)
  /-- The bytes end inside the character that begins at `index`. -/
  | incomplete (index : Nat)
  deriving DecidableEq, Repr

namespace Fault

/-- The wording of the fault. -/
def message : Fault → String
  | .invalid length index =>
      s!"invalid utf-8 sequence of {length} bytes from index {index}"
  | .incomplete index => s!"incomplete utf-8 byte sequence from index {index}"

end Fault

/-- A byte that continues a character: its two high bits are `10`. -/
def isContinuation (byte : UInt8) : Bool :=
  0x80 ≤ byte && byte ≤ 0xBF

/--
What the first byte of a character of more than one byte promises: how many
bytes follow it, and the range in which the first of them lies. The range is
narrower than all continuation bytes where it rules out a longer spelling of a
shorter character, a surrogate, or a number beyond the last code point.
-/
structure Lead where
  following : Nat
  low : UInt8
  high : UInt8
  deriving DecidableEq, Repr

/-- The promise of a first byte, if it can begin a character of several bytes. -/
def lead? (byte : UInt8) : Option Lead :=
  if 0xC2 ≤ byte && byte ≤ 0xDF then some ⟨1, 0x80, 0xBF⟩
  else if byte = 0xE0 then some ⟨2, 0xA0, 0xBF⟩
  else if byte = 0xED then some ⟨2, 0x80, 0x9F⟩
  else if 0xE1 ≤ byte && byte ≤ 0xEF then some ⟨2, 0x80, 0xBF⟩
  else if byte = 0xF0 then some ⟨3, 0x90, 0xBF⟩
  else if 0xF1 ≤ byte && byte ≤ 0xF3 then some ⟨3, 0x80, 0xBF⟩
  else if byte = 0xF4 then some ⟨3, 0x80, 0x8F⟩
  else none

/--
Looks for `missing` further continuation bytes, `seen` bytes of the character
being read already: `none` if they are all there.
-/
def continuationFault? (index : Nat) : (missing seen : Nat) → List UInt8 → Option Fault
  | 0, _, _ => none
  | _ + 1, _, [] => some (.incomplete index)
  | missing + 1, seen, byte :: rest =>
      if isContinuation byte then continuationFault? index missing (seen + 1) rest
      else some (.invalid seen index)

/-- What is wrong with the character that begins with `lead`, if anything is. -/
def leadFault? (index : Nat) (lead : Lead) : List UInt8 → Option Fault
  | [] => some (.incomplete index)
  | byte :: rest =>
      if lead.low ≤ byte && byte ≤ lead.high then
        continuationFault? index (lead.following - 1) 2 rest
      else some (.invalid 1 index)

/--
The first fault in bytes that are not a text, their first byte standing at
`index`. The number `skip` counts the bytes of the current character that are
known to be in order. Bytes in which no fault is found end before a further
character begins.
-/
def firstFault (index : Nat) : (skip : Nat) → List UInt8 → Fault
  | _, [] => .incomplete index
  | skip + 1, _ :: rest => firstFault (index + 1) skip rest
  | 0, byte :: rest =>
      if byte < 0x80 then firstFault (index + 1) 0 rest
      else
        match lead? byte with
        | none => .invalid 1 index
        | some lead =>
            match leadFault? index lead rest with
            | some fault => fault
            | none => firstFault (index + 1) lead.following rest

/-- The bytes of a text. -/
def encode (text : String) : List UInt8 :=
  text.toUTF8.data.toList

/-- The text of some bytes, or the first fault in them. -/
def decode (bytes : List UInt8) : Except Fault String :=
  match String.fromUTF8? ⟨bytes.toArray⟩ with
  | some text => .ok text
  | none => .error (firstFault 0 0 bytes)

@[simp]
theorem decode_encode (text : String) : decode (encode text) = .ok text := by
  have valid : text.toByteArray.IsValidUTF8 := text.isValidUTF8
  simp [decode, encode, String.fromUTF8?, String.fromUTF8, valid]

theorem encode_of_decode_ok {bytes : List UInt8} {text : String}
    (decoded : decode bytes = .ok text) : encode text = bytes := by
  unfold decode at decoded
  split at decoded
  next found read =>
    simp only [String.fromUTF8?, String.fromUTF8] at read
    split at read
    · simp only [Option.some.injEq, Except.ok.injEq] at read decoded
      subst decoded
      subst read
      rfl
    · simp at read
  next => simp at decoded

end Utf8

end EntityFeatures

import EntityFeatures.Text.Hexadecimal
import EntityFeatures.Text.Numeral

/-!
# JSON

Words and spans are exchanged as JSON. `Json.parse?` reads a text as one value,
and `Json.quote` writes a string.

The reader follows the grammar strictly: no leading zeros, no control characters
in strings, nothing but blanks before and behind the value. Two things are kept
apart in the result because they matter to those who use it. A number that is
written as an integer without sign, fraction and exponent is a `natural`, and of
any other it is only known that it is a number. And a string may name half of a surrogate pair with an
escape; the grammar allows that, but no text has such a character, so the string
has no text.
-/

namespace EntityFeatures

/-- A value, as far as its users need it. -/
inductive Json where
  | null
  | bool (value : Bool)
  /-- A number written with digits only. -/
  | natural (value : Nat)
  /-- Any other number. -/
  | otherNumber
  /-- A string, and its text if it has one. -/
  | string (text : Option String)
  | array (items : List Json)
  /-- The members in the order in which they are written, repeated names included. -/
  | object (members : List (Option String × Json))
  deriving Repr

namespace Json

/-! ## Reading -/

/-- The blanks that may stand between the parts of a value. -/
def isSpace (character : Char) : Bool :=
  character == ' ' || character == '\t' || character == '\n' || character == '\r'

/-- The text without the blanks in front of it. -/
def skipSpaces (text : List Char) : List Char :=
  text.dropWhile isSpace

/-- The number of four hexadecimal digits. -/
def codeUnit? (first second third fourth : Char) : Option Nat := do
  let first ← hexDigit? first
  let second ← hexDigit? second
  let third ← hexDigit? third
  let fourth ← hexDigit? fourth
  return 4096 * first + 256 * second + 16 * third + fourth

/-- What the character behind a backslash stands for, `u` apart. -/
def escaped? : Char → Option Char
  | '"' => some '"'
  | '\\' => some '\\'
  | '/' => some '/'
  | 'b' => some '\x08'
  | 'f' => some '\x0C'
  | 'n' => some '\n'
  | 'r' => some '\r'
  | 't' => some '\t'
  | _ => none

/-- What a string is made of: characters, and numbers given in hexadecimal. -/
inductive Piece where
  | char (character : Char)
  | code (unit : Nat)

/-- Reads the rest of a string behind its opening quote, and what follows the closing one. -/
def pieces? : List Char → Option (List Piece × List Char)
  | '"' :: rest => some ([], rest)
  | '\\' :: 'u' :: first :: second :: third :: fourth :: rest => do
      let unit ← codeUnit? first second third fourth
      let (pieces, behind) ← pieces? rest
      return (.code unit :: pieces, behind)
  | '\\' :: letter :: rest => do
      let character ← escaped? letter
      let (pieces, behind) ← pieces? rest
      return (.char character :: pieces, behind)
  | character :: rest =>
      if character.toNat < 0x20 || character == '\\' then none
      else do
        let (pieces, behind) ← pieces? rest
        return (.char character :: pieces, behind)
  | [] => none

/-- Whether a number is the first half of a surrogate pair. -/
def isLeading (unit : Nat) : Bool :=
  0xD800 ≤ unit && unit ≤ 0xDBFF

/-- Whether a number is the second half of a surrogate pair. -/
def isTrailing (unit : Nat) : Bool :=
  0xDC00 ≤ unit && unit ≤ 0xDFFF

/-- The characters of a string, if all of its surrogates are in pairs. -/
def characters? : List Piece → Option (List Char)
  | [] => some []
  | .char character :: rest => (characters? rest).map (character :: ·)
  | .code unit :: rest =>
      if isLeading unit then
        match rest with
        | .code second :: behind =>
            if isTrailing second then
              let codePoint := 0x10000 + 0x400 * (unit - 0xD800) + (second - 0xDC00)
              (characters? behind).map (Char.ofNat codePoint :: ·)
            else none
        | _ => none
      else if isTrailing unit then none
      else (characters? rest).map (Char.ofNat unit :: ·)

/-- Reads the rest of a string behind its opening quote. -/
def string? (text : List Char) : Option (Option String × List Char) := do
  let (pieces, rest) ← pieces? text
  return ((characters? pieces).map String.ofList, rest)

/-- Reads digits, at least one. -/
def digits? (text : List Char) : Option (List Char × List Char) :=
  let digits := text.takeWhile Numeral.isDigit
  if digits.isEmpty then none else some (digits, text.dropWhile Numeral.isDigit)

/-- Reads the digits of an integer: more than one only if the first is not zero. -/
def integer? (text : List Char) : Option (List Char × List Char) := do
  let (digits, rest) ← digits? text
  match digits with
  | '0' :: _ :: _ => none
  | _ => some (digits, rest)

/-- Reads a fraction, if there is one, and says whether there is. -/
def fraction? : List Char → Option (Bool × List Char)
  | '.' :: rest => (digits? rest).map fun (_, behind) => (true, behind)
  | text => some (false, text)

/-- The text without a sign in front of it. -/
def skipSign : List Char → List Char
  | '+' :: rest => rest
  | '-' :: rest => rest
  | text => text

/-- Reads an exponent, if there is one, and says whether there is. -/
def exponent? : List Char → Option (Bool × List Char)
  | 'e' :: rest => (digits? (skipSign rest)).map fun (_, behind) => (true, behind)
  | 'E' :: rest => (digits? (skipSign rest)).map fun (_, behind) => (true, behind)
  | text => some (false, text)

/-- Reads a number without a sign, and says whether it is written with digits only. -/
def unsigned? (text : List Char) : Option (Json × List Char) := do
  let (digits, rest) ← integer? text
  let (hasFraction, rest) ← fraction? rest
  let (hasExponent, rest) ← exponent? rest
  return (if hasFraction || hasExponent then otherNumber else natural (Numeral.value digits), rest)

/-- Reads a number; one with a sign is not written with digits only. -/
def number? : List Char → Option (Json × List Char)
  | '-' :: rest => (unsigned? rest).map fun (_, behind) => (otherNumber, behind)
  | text => unsigned? text

mutual

/--
Reads a value. The reader goes down with a bound that becomes smaller; twice the length of the
text and two more is never used up, so a larger bound makes no difference.
-/
def value? : (bound : Nat) → List Char → Option (Json × List Char)
  | 0, _ => none
  | bound + 1, text =>
      match skipSpaces text with
      | '"' :: rest => (string? rest).map fun (text, behind) => (string text, behind)
      | '[' :: rest =>
          match skipSpaces rest with
          | ']' :: behind => some (array [], behind)
          | inside => (items? bound inside).map fun (items, behind) => (array items, behind)
      | '\x7b' :: rest =>
          match skipSpaces rest with
          | '\x7d' :: behind => some (object [], behind)
          | inside => (members? bound inside).map fun (members, behind) => (object members, behind)
      | 't' :: 'r' :: 'u' :: 'e' :: rest => some (bool true, rest)
      | 'f' :: 'a' :: 'l' :: 's' :: 'e' :: rest => some (bool false, rest)
      | 'n' :: 'u' :: 'l' :: 'l' :: rest => some (null, rest)
      | other => number? other

/-- Reads the items of an array, at least one, and the bracket behind them. -/
def items? : (bound : Nat) → List Char → Option (List Json × List Char)
  | 0, _ => none
  | bound + 1, text => do
      let (item, rest) ← value? bound text
      match skipSpaces rest with
      | ']' :: behind => return ([item], behind)
      | ',' :: more =>
          let (items, behind) ← items? bound more
          return (item :: items, behind)
      | _ => none

/-- Reads the members of an object, at least one, and the brace behind them. -/
def members? : (bound : Nat) → List Char → Option (List (Option String × Json) × List Char)
  | 0, _ => none
  | bound + 1, text =>
      match skipSpaces text with
      | '"' :: rest => do
          let (name, rest) ← string? rest
          match skipSpaces rest with
          | ':' :: rest =>
              let (value, rest) ← value? bound rest
              match skipSpaces rest with
              | '\x7d' :: behind => return ([(name, value)], behind)
              | ',' :: more =>
                  let (members, behind) ← members? bound more
                  return ((name, value) :: members, behind)
              | _ => none
          | _ => none
      | _ => none

end

/-- The value that a whole text is. -/
def parse? (text : String) : Option Json := do
  let characters := text.toList
  let (value, rest) ← value? (2 * characters.length + 2) characters
  if (skipSpaces rest).isEmpty then some value else none

/-! ## Using a value -/

/-- The text of a string, if it has one. -/
def text? : Json → Option String
  | string text => text
  | _ => none

/-- A natural number below `2 ^ 64`. -/
def size? : Json → Option Nat
  | natural value => if value < 18446744073709551616 then some value else none
  | _ => none

/-- The names of the members, if all of them have a text. -/
def names? (members : List (Option String × Json)) : Option (List String) :=
  members.mapM fun member => member.1

/-- The values of the members with a name. -/
def valuesOf (members : List (Option String × Json)) (name : String) : List Json :=
  (members.filter fun member => member.1 == some name).map fun member => member.2

/-! ## Writing -/

/-- A character as it is written in a string. -/
def escape (character : Char) : List Char :=
  match character with
  | '"' => ['\\', '"']
  | '\\' => ['\\', '\\']
  | '\x08' => ['\\', 'b']
  | '\x0C' => ['\\', 'f']
  | '\n' => ['\\', 'n']
  | '\r' => ['\\', 'r']
  | '\t' => ['\\', 't']
  | _ =>
      if character.toNat < 0x20 then
        ['\\', 'u', '0', '0', hexDigit (character.toNat / 16), hexDigit (character.toNat % 16)]
      else [character]

/-- A text as it is written in quotes. -/
def quote (text : String) : String :=
  String.ofList ('"' :: text.toList.flatMap escape ++ ['"'])

/-- A member of an object, from its name and its written value. -/
def writtenMember (name value : String) : String :=
  quote name ++ ":" ++ value

/-- An object, from its written members. -/
def writtenObject (members : List String) : String :=
  "\x7b" ++ ",".intercalate members ++ "\x7d"

end Json

end EntityFeatures

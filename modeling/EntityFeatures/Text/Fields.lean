/-!
# Fields and lines

Resource files and templates are cut into lines, and lines into fields. Both
cuts are stated on lists, so that they apply to the characters of a text and to
bytes that may not be a text at all.

A cut at a separator is `List.splitOn`: there is always one more field than
there are separators, and an empty list has one empty field. Lines differ in
two ways. A newline ends a line and does not begin another, so a text that ends
in a newline has no empty line after it. And a carriage return that stands
before the newline belongs to the line end; one at the end of a text without a
final newline belongs to the line.
-/

namespace EntityFeatures

namespace Text

variable {Symbol : Type} [BEq Symbol]

/-- The fields of `text` between the occurrences of `separator`. -/
def fields (separator : Char) (text : String) : List String :=
  (text.toList.splitOn separator).map String.ofList

/-- A line without the carriage return at its end, if it has one. -/
def dropReturn (carriageReturn : Symbol) (line : List Symbol) : List Symbol :=
  if line.getLast? == some carriageReturn then line.dropLast else line

/--
The lines among the `pieces` between newlines: all but the last are ended by a
newline, and the last is a line only if it holds something.
-/
def linesOfPieces (carriageReturn : Symbol) : List (List Symbol) → List (List Symbol)
  | [] => []
  | [unended] => if unended.isEmpty then [] else [unended]
  | ended :: next :: rest =>
      dropReturn carriageReturn ended :: linesOfPieces carriageReturn (next :: rest)

/-- The lines of a list in which `newline` ends a line. -/
def linesOf (newline carriageReturn : Symbol) (text : List Symbol) : List (List Symbol) :=
  linesOfPieces carriageReturn (text.splitOn newline)

/-- The lines of a text. -/
def lines (text : String) : List String :=
  (linesOf '\n' '\r' text.toList).map String.ofList

/-- The lines of some bytes, each of which may or may not be a text. -/
def byteLines (bytes : List UInt8) : List (List UInt8) :=
  linesOf 0x0A 0x0D bytes

end Text

end EntityFeatures

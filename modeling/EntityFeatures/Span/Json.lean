import EntityFeatures.Span.Basic
import EntityFeatures.Text.Json

/-!
# Spans as JSON

A span is written as an object with its start, its length and its type, in this
order. It is read from such an object, with the members in any order and others
between them, or from an array of the three values.
-/

namespace EntityFeatures

namespace Span

/-- The span of a start, a length and a type. -/
def ofValues? (start length type : Json) : Option Span := do
  let start ← start.size?
  let length ← length.size?
  let type ← type.text?
  return ⟨start, length, type⟩

/-- The value of a member that is given exactly once. -/
def memberIn? (members : List (Option String × Json)) (name : String) : Option Json :=
  match Json.valuesOf members name with
  | [value] => some value
  | _ => none

/-- The span that a value describes, if it describes one. -/
def ofJson? : Json → Option Span
  | .array [start, length, type] => ofValues? start length type
  | .object members => do
      let _ ← Json.names? members
      let start ← memberIn? members "start"
      let length ← memberIn? members "length"
      let type ← memberIn? members "type"
      ofValues? start length type
  | _ => none

/-- The span that a text describes, if it describes one. -/
def parse? (text : String) : Option Span := do
  let value ← Json.parse? text
  ofJson? value

/-- The span as an object. -/
def toJson (span : Span) : String :=
  Json.writtenObject
    [Json.writtenMember "start" (toString span.start),
      Json.writtenMember "length" (toString span.length),
      Json.writtenMember "type" (Json.quote span.type)]

end Span

end EntityFeatures

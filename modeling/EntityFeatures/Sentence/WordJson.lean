import EntityFeatures.Sentence.Basic
import EntityFeatures.Text.Json

/-!
# Words as JSON

A word is written as an object with its five attributes. It is read from an object
or from an array of the attributes in the same order. Attributes that are not
given are empty, and members with other names are passed over; but no attribute
may be given twice, and an array may not be longer than there are attributes.
-/

namespace EntityFeatures

namespace Word

/-- The names of the attributes, in the order in which they are written. -/
def attributeNames : List String :=
  ["form", "raw_lemma", "lemma_id", "lemma_comments", "tag"]

/-- The attributes, in the order of their names. -/
def attributes (word : Word) : List String :=
  [word.form, word.rawLemma, word.lemmaId, word.lemmaComments, word.tag]

/-- The word with the given attributes, in the order of their names; those missing are empty. -/
def ofAttributes (attributes : List String) : Word where
  form := attributes.getD 0 ""
  rawLemma := attributes.getD 1 ""
  lemmaId := attributes.getD 2 ""
  lemmaComments := attributes.getD 3 ""
  tag := attributes.getD 4 ""

/-- The attribute of a name among the members of an object. -/
def attributeIn? (members : List (Option String × Json)) (name : String) : Option String :=
  match Json.valuesOf members name with
  | [] => some ""
  | [value] => value.text?
  | _ => none

/-- The word that a value describes, if it describes one. -/
def ofJson? : Json → Option Word
  | .array items =>
      if items.length ≤ attributeNames.length then (items.mapM Json.text?).map ofAttributes
      else none
  | .object members => do
      let _ ← Json.names? members
      let attributes ← attributeNames.mapM (attributeIn? members)
      return ofAttributes attributes
  | _ => none

/-- The word that a text describes, if it describes one. -/
def parse? (text : String) : Option Word := do
  let value ← Json.parse? text
  ofJson? value

/-- The word as an object with all of its attributes. -/
def toJson (word : Word) : String :=
  Json.writtenObject
    (List.zipWith (fun name value => Json.writtenMember name (Json.quote value)) attributeNames
      word.attributes)

end Word

end EntityFeatures

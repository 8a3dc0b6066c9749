import EntityFeatures.Text.Blank
import EntityFeatures.Model.Reader

/-!
# Types of entities

The types of named entities are written by name and stored by number. A
`Registry` gives each name a number, in the order in which the names come up,
and never takes one back. A name is a text without blanks that is not empty.

The registry is the list of its names. A type that is looked up by name is the
last place at which the name stands; the names that `Registry.resolve` adds
stand in one place only, but a saved list may repeat a name.
-/

namespace EntityFeatures

/-- The number of a type of entities. -/
abbrev EntityId := UInt32

/-- The number that stands for no type. -/
def EntityId.unknown : EntityId := 4294967295

/-- Whether a text may be the name of a type. -/
def isEntityName (name : String) : Bool :=
  !name.isEmpty && !name.toList.any isBlank

/-- The names of the known types of entities; the number of a type is its place. -/
structure Registry where
  names : List String
  deriving DecidableEq, Repr

namespace Registry

/-- The registry without names. -/
def empty : Registry := ⟨[]⟩

/-- The number of names. -/
def size (registry : Registry) : Nat :=
  registry.names.length

/-- The name of a type, if the type is known. -/
def name? (registry : Registry) (id : EntityId) : Option String :=
  registry.names[id.toNat]?

/-- The last place at which a name stands in a list of names whose first has the number `index`. -/
def lastIndex? (name : String) (index : Nat) : List String → Option Nat
  | [] => none
  | first :: rest =>
      match lastIndex? name (index + 1) rest with
      | some found => some found
      | none => if first = name then some index else none

/-- The type of a name, which is the last one if the name stands at several places. -/
def find? (registry : Registry) (name : String) : Option EntityId :=
  (lastIndex? name 0 registry.names).map UInt32.ofNat

/-- The registry with one more name at its end. -/
def push (registry : Registry) (name : String) : Registry :=
  ⟨registry.names ++ [name]⟩

/--
The type of a name, and the registry afterwards. A new name is added if the
caller asks for it. What cannot be a name has no type.
-/
def resolve (registry : Registry) (name : String) (add : Bool) : EntityId × Registry :=
  if isEntityName name then
    match registry.find? name with
    | some id => (id, registry)
    | none =>
        if add then (UInt32.ofNat registry.size, registry.push name)
        else (EntityId.unknown, registry)
  else (EntityId.unknown, registry)

/-- The registry as the fields of a saved model: the number of names and the names. -/
def save (registry : Registry) : Model.Encoded :=
  Model.encodeCounted Model.encodeText registry.names

open Model in
/-- Replaces the registry by a saved one. Names are taken as they come. -/
def load : Reader Registry Unit := do
  Reader.update fun _ => empty
  Reader.counted do
    let name ← Reader.text
    Reader.update fun registry => registry.push name

end Registry

end EntityFeatures

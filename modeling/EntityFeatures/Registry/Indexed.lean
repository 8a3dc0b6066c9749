import EntityFeatures.Feature.Vocabulary
import EntityFeatures.Registry

/-!
# A registry with two tables

A registry can be used in both directions: a number leads to its name, and a name to
its number. `IndexedRegistry` has a table for each. A saved registry holds the names
only, and the second table is filled again while they are read: of a name that comes
twice it has the last number.
-/

namespace EntityFeatures

/-- The names by their numbers and the numbers by their names. -/
structure IndexedRegistry where
  registry : Registry
  numbers : KeyTable

namespace IndexedRegistry

/-- Both tables without names. -/
def empty : IndexedRegistry := ⟨.empty, ∅⟩

/-- The number of names. -/
def size (tables : IndexedRegistry) : Nat :=
  tables.registry.size

/-- The name of a type, from the first table. -/
def name? (tables : IndexedRegistry) (id : EntityId) : Option String :=
  tables.registry.name? id

/-- Appends a name, whose number replaces an earlier one in the second table. -/
def push (tables : IndexedRegistry) (name : String) : IndexedRegistry :=
  ⟨tables.registry.push name, tables.numbers.insert name (UInt32.ofNat tables.size)⟩

/-- The type of a name, from the second table, and the tables afterwards. -/
def resolve (tables : IndexedRegistry) (name : String) (add : Bool) : EntityId × IndexedRegistry :=
  if isEntityName name then
    match tables.numbers[name]? with
    | some id => (id, tables)
    | none =>
        if add then (UInt32.ofNat tables.size, tables.push name)
        else (EntityId.unknown, tables)
  else (EntityId.unknown, tables)

/-- Only the names are saved, in the order of their numbers. -/
def save (tables : IndexedRegistry) : Model.Encoded :=
  tables.registry.save

open Model in
/-- Empties both tables and fills them name by name. -/
def load : Reader IndexedRegistry Unit := do
  Reader.update fun _ => empty
  Reader.counted do
    let name ← Reader.text
    Reader.update fun tables => tables.push name

end IndexedRegistry

end EntityFeatures

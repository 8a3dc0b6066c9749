import Std.Data.ExtTreeMap
import EntityFeatures.Feature.Block

/-!
# Vocabularies

An extractor knows its features by keys: the form of a word, a tag, the label of
an earlier stage. A `KeyTable` holds what has been given to each key. The same
kind of table also leads from forms to clusters and from phrases to entries,
where the number is an index instead of an id.

The empty key stands for what lies outside a sentence. It has the window itself
as its feature, takes no place in the table and no id from the counter.

A table is read in two ways. `KeyTable.find` leaves it as it is, and a key that
is not there has the unknown feature. `Vocabulary.learn` gives a new key the next
block of ids; when the block does not fit, the key stays unknown and neither the
table nor the counter changes.
-/

namespace EntityFeatures

/-- What each key of an extractor stands for. -/
abbrev KeyTable := Std.ExtTreeMap String UInt32

namespace KeyTable

/-- The feature of a key, which is unknown when the table does not have the key. -/
def find (table : KeyTable) (window : Window) (key : String) : FeatureId :=
  if key = "" then window else (table[key]?).getD FeatureId.unknown

/-- The order in which a table is written: by what the key stands for, then by the key. -/
def entryLE (left right : String × UInt32) : Bool :=
  left.2 < right.2 || (left.2 == right.2 && left.1 ≤ right.1)

/-- The keys and what they stand for, in the order in which they are written. -/
def entries (table : KeyTable) : List (String × UInt32) :=
  table.toList.mergeSort entryLE

end KeyTable

/-- A table that can grow, with the counter that its new features are taken from. -/
structure Vocabulary where
  table : KeyTable
  /-- The first id that no feature owns yet. -/
  total : FeatureId

namespace Vocabulary

/--
The feature of a key, which becomes a new one if the table does not have the
key; nothing when the ids that it needs do not fit.
-/
def allocate? (vocabulary : Vocabulary) (window : Window) (key : String) :
    Option (FeatureId × Vocabulary) :=
  if key = "" then some (window, vocabulary)
  else
    match vocabulary.table[key]? with
    | some feature => some (feature, vocabulary)
    | none => do
        let feature ← vocabulary.total.blockCentre? window 0
        let total ← vocabulary.total.blocksEnd? window 1
        return (feature, ⟨vocabulary.table.insert key feature, total⟩)

/-- The feature of a key, learned if need be, and unknown when the ids are used up. -/
def learn (vocabulary : Vocabulary) (window : Window) (key : String) :
    FeatureId × Vocabulary :=
  (vocabulary.allocate? window key).getD (FeatureId.unknown, vocabulary)

/-- Allocates several keys in order. Stops at the first that does not fit, and says so. -/
def reserve (window : Window) : List String → Vocabulary → Bool × Vocabulary
  | [], vocabulary => (true, vocabulary)
  | key :: rest, vocabulary =>
      match vocabulary.allocate? window key with
      | some (_, grown) => reserve window rest grown
      | none => (false, vocabulary)

@[simp]
theorem learn_empty (vocabulary : Vocabulary) (window : Window) :
    vocabulary.learn window "" = (window, vocabulary) := by
  simp [learn, allocate?]

theorem learn_of_getElem? {vocabulary : Vocabulary} {window : Window} {key : String}
    {feature : FeatureId} (nonempty : key ≠ "") (known : vocabulary.table[key]? = some feature) :
    vocabulary.learn window key = (feature, vocabulary) := by
  simp [learn, allocate?, nonempty, known]

end Vocabulary

end EntityFeatures

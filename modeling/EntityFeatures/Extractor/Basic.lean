import EntityFeatures.Extractor.AddressTypes
import EntityFeatures.Extractor.Attribute
import EntityFeatures.Extractor.CaseFeature
import EntityFeatures.Extractor.ClusterTable
import EntityFeatures.Extractor.EarlierLabel
import EntityFeatures.Extractor.NumericFeature
import EntityFeatures.Extractor.PhraseTable

/-!
# Extractors

An extractor finds features of one kind in a sentence. Whatever the kind, it has a
window and a table of keys; `Kind` says which kind it is and holds what only this
kind has.

`Extractor.create?` makes an extractor by name. It knows nothing yet: its window is
zero and its tables are empty until it is configured or loaded.
-/

namespace EntityFeatures

/-- The kinds of extractors, each with what only it has. -/
inductive Kind where
  /-- Features of the clusters of lemmas. -/
  | clusters (clusters : ClusterTable)
  /-- No features, but containers around recognised entities. -/
  | containers
  /-- The class of terms that a note on the lemma names. -/
  | lemmaTerm
  /-- An attribute as it stands. -/
  | lexical (source : Attribute)
  /-- How an attribute is capitalized. -/
  | capitalization (source : CasedAttribute)
  /-- Phrases that are listed in files. -/
  | gazetteers (entries : PhraseTable)
  /-- Numbers that may be times and dates. -/
  | numericValue
  /-- Labels of an earlier stage. -/
  | earlierLabel
  /-- No features, but addresses settled as entities. -/
  | addresses (types : AddressTypes)
  deriving DecidableEq, Repr

namespace Kind

/-- The kind of a name, with empty tables. -/
def ofName : ExtractorName → Kind
  | .brownClusters => clusters #[]
  | .czechAddContainers => containers
  | .czechLemmaTerm => lemmaTerm
  | .form => lexical .form
  | .formCapitalization => capitalization .form
  | .gazetteers => gazetteers #[]
  | .lemmaId => lexical .lemmaId
  | .numericTimeValue => numericValue
  | .previousStage => earlierLabel
  | .rawLemma => lexical .rawLemma
  | .rawLemmaCapitalization => capitalization .rawLemma
  | .tag => lexical .tag
  | .urlEmailDetector => addresses {}

/-- The name of a kind. -/
def name : Kind → ExtractorName
  | clusters _ => .brownClusters
  | containers => .czechAddContainers
  | lemmaTerm => .czechLemmaTerm
  | lexical .form => .form
  | lexical .lemmaId => .lemmaId
  | lexical .rawLemma => .rawLemma
  | lexical .tag => .tag
  | capitalization .form => .formCapitalization
  | capitalization .rawLemma => .rawLemmaCapitalization
  | gazetteers _ => .gazetteers
  | numericValue => .numericTimeValue
  | earlierLabel => .previousStage
  | addresses _ => .urlEmailDetector

@[simp]
theorem name_ofName (extractor : ExtractorName) : (ofName extractor).name = extractor := by
  cases extractor <;> rfl

end Kind

/-- An extractor: its kind, with a window and a table of keys. -/
structure Extractor where
  window : Window := 0
  /-- What each key stands for: a feature, a cluster or an entry, depending on the kind. -/
  table : KeyTable := ∅
  kind : Kind
  deriving DecidableEq

namespace Extractor

/-- The extractor of a name, which knows nothing yet. -/
def ofName (name : ExtractorName) : Extractor :=
  { kind := .ofName name }

/-- The extractor of a name, if there is one of that name. -/
def create? (name : String) : Option Extractor :=
  (ExtractorName.ofText? name).map ofName

/-- The name of an extractor, which is that of its kind. -/
def name (extractor : Extractor) : ExtractorName :=
  extractor.kind.name

@[simp]
theorem create?_text (name : ExtractorName) : create? name.text = some (ofName name) := by
  simp [create?]

end Extractor

end EntityFeatures

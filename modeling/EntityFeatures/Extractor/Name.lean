/-!
# The extractors by name

There are thirteen extractors. Templates and saved models call them by the names
given here, which are compared exactly.
-/

namespace EntityFeatures

/-- The extractors. -/
inductive ExtractorName where
  | brownClusters
  | czechAddContainers
  | czechLemmaTerm
  | form
  | formCapitalization
  | gazetteers
  | lemmaId
  | numericTimeValue
  | previousStage
  | rawLemma
  | rawLemmaCapitalization
  | tag
  | urlEmailDetector
  deriving DecidableEq, Repr

namespace ExtractorName

/-- The name as it is written. -/
def text : ExtractorName → String
  | brownClusters => "BrownClusters"
  | czechAddContainers => "CzechAddContainers"
  | czechLemmaTerm => "CzechLemmaTerm"
  | form => "Form"
  | formCapitalization => "FormCapitalization"
  | gazetteers => "Gazetteers"
  | lemmaId => "Lemma"
  | numericTimeValue => "NumericTimeValue"
  | previousStage => "PreviousStage"
  | rawLemma => "RawLemma"
  | rawLemmaCapitalization => "RawLemmaCapitalization"
  | tag => "Tag"
  | urlEmailDetector => "URLEmailDetector"

/-- All names. -/
def all : List ExtractorName :=
  [brownClusters, czechAddContainers, czechLemmaTerm, form, formCapitalization, gazetteers,
    lemmaId, numericTimeValue, previousStage, rawLemma, rawLemmaCapitalization, tag,
    urlEmailDetector]

/-- The name that is written like this, if there is one. -/
def ofText? (name : String) : Option ExtractorName :=
  all.find? fun extractor => extractor.text == name

@[simp]
theorem ofText?_text (extractor : ExtractorName) : ofText? extractor.text = some extractor := by
  cases extractor <;> decide

end ExtractorName

end EntityFeatures

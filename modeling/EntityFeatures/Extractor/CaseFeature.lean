import EntityFeatures.Extractor.Attribute
import EntityFeatures.Text.LetterCase

/-!
# Capitalization

Three features tell how a form or a lemma is capitalized: its first character is a
capital, it has capitals and no small letters, it has both. Titlecase letters
count as capitals. The features are always there, with the keys given by
`CaseFeature.key`.
-/

namespace EntityFeatures

/-- The attributes whose capitalization is a feature. -/
inductive CasedAttribute where
  | form
  | rawLemma
  deriving DecidableEq, Repr

/-- The text of an attribute of a word. -/
def CasedAttribute.of : CasedAttribute → Word → String
  | form, word => word.form
  | rawLemma, word => word.rawLemma

/-- The features of capitalization. -/
inductive CaseFeature where
  /-- The first character is a capital. -/
  | firstCapital
  /-- There are capitals and no small letters. -/
  | allCapital
  /-- There are capitals and small letters. -/
  | mixed
  deriving DecidableEq, Repr

namespace CaseFeature

/-- The key of a feature of capitalization. -/
def key : CaseFeature → String
  | firstCapital => "f"
  | allCapital => "a"
  | mixed => "m"

/-- The features in the order in which they are reserved and emitted. -/
def all : List CaseFeature :=
  [firstCapital, allCapital, mixed]

/-- Whether a text is capitalized in this way. -/
def holds (text : List Char) : CaseFeature → Bool
  | firstCapital => text.head?.any isCapital
  | allCapital => text.any isCapital && !text.any isSmall
  | mixed => text.any isCapital && text.any isSmall

/-- The features of a text, in order. -/
def of (text : String) : List CaseFeature :=
  all.filter fun feature => feature.holds text.toList

/-- The keys that are always there. -/
def keys : List String :=
  all.map key

end CaseFeature

/-- The requests that make all keys known, and then those for the features of every word. -/
def CasedAttribute.requests (source : CasedAttribute) (window : Window) (sentence : Sentence) :
    List Request :=
  CaseFeature.keys.map .know ++
    requestsByWord
      (fun position word =>
        (CaseFeature.of (source.of word)).map fun feature =>
          .around feature.key position window)
      sentence.words

end EntityFeatures

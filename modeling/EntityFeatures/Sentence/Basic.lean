import EntityFeatures.Registry
import EntityFeatures.Feature.Emission

/-!
# Sentences

A sentence comes in as a list of words with their linguistic attributes. Beside
the words it carries what the extractors read and write: the features of every
token, the label that an earlier stage of recognition gave to it, and its scores,
one for each of the five labels of a token inside or outside an entity.

These lists belong to the tokens, but nothing forces them to be as long as the
list of words: a caller may change the words first and the rest later.
`Sentence.reset` makes all of them fit again.
-/

namespace EntityFeatures

/-- A token with its linguistic attributes. -/
structure Word where
  /-- The token as it stands in the text. -/
  form : String := ""
  /-- The normalised lemma. -/
  rawLemma : String := ""
  /-- The lemma with the marks that tell homonyms apart. -/
  lemmaId : String := ""
  /-- Notes on the lemma. -/
  lemmaComments : String := ""
  tag : String := ""
  deriving DecidableEq, Repr

/-- The word of a form and a lemma that needs no marks. -/
def Word.ofLemma (form rawLemma : String) : Word :=
  ⟨form, rawLemma, rawLemma, "", ""⟩

/-- Where a token stands in an entity. -/
inductive Label where
  | beginning
  | inside
  | last
  | outside
  /-- The only token of its entity. -/
  | unit
  deriving DecidableEq, Repr

/-- The label that an earlier stage gave to a token, by number, and the type of the entity. -/
structure PreviousLabel where
  label : Int32 := -1
  entity : EntityId := EntityId.unknown
  deriving DecidableEq, Repr

/-- Whether the earlier stage said anything about the token. -/
def PreviousLabel.isGiven (previous : PreviousLabel) : Bool :=
  previous.label != -1

/--
How probable something is: a floating point number of 64 bits, of which every bit counts.
Zero has two signs, and there are many values that are no numbers.
-/
structure Probability where
  bits : UInt64
  deriving DecidableEq, Repr

namespace Probability

/-- The probability that a floating point number is. -/
def ofFloat (number : Float) : Probability :=
  ⟨number.toBits⟩

instance : OfNat Probability 0 :=
  ⟨ofFloat 0⟩

instance : OfNat Probability 1 :=
  ⟨ofFloat 1⟩

end Probability

/-- How probable a label is, and of which type the entity would be. -/
structure LabelScore where
  probability : Probability := 0
  entity : EntityId := EntityId.unknown
  deriving DecidableEq, Repr

/-- The scores of a token for every label. -/
structure TokenScores where
  beginning : LabelScore := {}
  inside : LabelScore := {}
  last : LabelScore := {}
  outside : LabelScore := {}
  unit : LabelScore := {}
  /-- The label is settled, and nothing may change the scores any more. -/
  decided : Bool := false
  deriving DecidableEq, Repr

namespace TokenScores

/-- The scores with another one for a label. -/
def set (scores : TokenScores) (label : Label) (score : LabelScore) : TokenScores :=
  match label with
  | .beginning => { scores with beginning := score }
  | .inside => { scores with inside := score }
  | .last => { scores with last := score }
  | .outside => { scores with outside := score }
  | .unit => { scores with unit := score }

/-- The scores of a token that is certain to be an entity of the given type on its own. -/
def certain (entity : EntityId) : TokenScores :=
  { unit := { probability := 1, entity }, decided := true }

end TokenScores

/-- A sentence and what the extractors read and write beside its words. -/
@[ext]
structure Sentence where
  words : List Word := []
  features : FeatureLists := []
  previous : List PreviousLabel := []
  scores : List TokenScores := []
  deriving DecidableEq, Repr

namespace Sentence

/-- The number of words. -/
def size (sentence : Sentence) : Nat :=
  sentence.words.length

/-- One empty list of features for every word. -/
def clearFeatures (sentence : Sentence) : Sentence :=
  { sentence with features := List.replicate sentence.size [] }

/-- Nothing emitted, no earlier label and no scores, for every word. -/
def reset (sentence : Sentence) : Sentence :=
  { words := sentence.words
    features := List.replicate sentence.size []
    previous := List.replicate sentence.size {}
    scores := List.replicate sentence.size {} }

/-- The sentence of some words, about which nothing is known yet. -/
def ofWords (words : List Word) : Sentence :=
  reset { words }

/-- The sentence with a word behind its last one. -/
def pushWord (sentence : Sentence) (word : Word) : Sentence :=
  { sentence with words := sentence.words ++ [word] }

/-- The sentence without its last word. -/
def popWord (sentence : Sentence) : Sentence :=
  { sentence with words := sentence.words.dropLast }

/-- The sentence with a feature behind those of a token. -/
def pushFeature (sentence : Sentence) (token : Nat) (feature : FeatureId) : Sentence :=
  { sentence with features := sentence.features.modify token (· ++ [feature]) }

/-- Notes what an earlier stage said about a token. -/
def setPrevious (sentence : Sentence) (token : Nat) (previous : PreviousLabel) : Sentence :=
  { sentence with previous := sentence.previous.set token previous }

/-- The sentence with the scores of a token changed. -/
def modifyScores (sentence : Sentence) (token : Nat) (change : TokenScores → TokenScores) :
    Sentence :=
  { sentence with scores := sentence.scores.modify token change }

/-- The sentence with the features of some emissions on its tokens. -/
def emitAll (sentence : Sentence) (emissions : List Emission) : Sentence :=
  { sentence with features := sentence.features.emitAll emissions }

end Sentence

end EntityFeatures

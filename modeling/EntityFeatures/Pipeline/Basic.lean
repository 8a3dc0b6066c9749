import EntityFeatures.Extractor.Annotate

/-!
# Pipelines

A pipeline is the list of extractors that a model uses, with the counter that their
ids are taken from. It begins with the omnipresent feature, which every token has,
so the counter of an empty pipeline stands at one.

A sentence goes through the extractors in order. `Pipeline.annotate` uses the
pipeline as it is; `Pipeline.learn` lets every extractor learn, each going on with
the counter where the one before it stopped.
-/

namespace EntityFeatures

/-- Extractors with the counter of their ids. -/
structure Pipeline where
  extractors : List Extractor := []
  /-- The first id that no feature owns yet. -/
  total : FeatureId := FeatureId.omnipresent + 1
  deriving DecidableEq

/-- The sentence with the omnipresent feature on every word, and no other feature. -/
def Sentence.begin (sentence : Sentence) : Sentence :=
  { sentence with features := List.replicate sentence.size [FeatureId.omnipresent] }

namespace Pipeline

/-- The pipeline with one more extractor at its end. -/
def push (pipeline : Pipeline) (extractor : Extractor) : Pipeline :=
  { pipeline with extractors := pipeline.extractors ++ [extractor] }

/-- Replaces the features of a sentence by those that the extractors find. -/
def annotate (pipeline : Pipeline) (sentence : Sentence) : Sentence :=
  pipeline.extractors.foldl (fun sentence extractor => extractor.annotate sentence) sentence.begin

/-- Lets several extractors learn from a sentence, in order. -/
def learnAll : List Extractor → FeatureId → Sentence → List Extractor × FeatureId × Sentence
  | [], total, sentence => ([], total, sentence)
  | extractor :: rest, total, sentence =>
      let (learned, total, sentence) := extractor.learn total sentence
      let (others, total, sentence) := learnAll rest total sentence
      (learned :: others, total, sentence)

/-- Replaces the features of a sentence, and lets the extractors learn the new ones. -/
def learn (pipeline : Pipeline) (sentence : Sentence) : Pipeline × Sentence :=
  let (extractors, total, sentence) := learnAll pipeline.extractors pipeline.total sentence.begin
  (⟨extractors, total⟩, sentence)

/-- Adds containers to the entities that were recognised in a sentence, if that is asked for. -/
def wrapSpans (pipeline : Pipeline) (spans : List Span) : List Span :=
  pipeline.extractors.foldl (fun spans extractor => extractor.wrapSpans spans) spans

end Pipeline

end EntityFeatures

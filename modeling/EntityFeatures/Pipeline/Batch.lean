import EntityFeatures.Extractor.Scratch
import EntityFeatures.Pipeline.Basic

/-!
# Batches of sentences

A pipeline takes a sentence through its extractors with one scratch text, in
`Pipeline.annotateIn` and `Pipeline.learnIn`. A batch of sentences is annotated by
several workers. Each has a scratch text of its own, which it keeps for all sentences
that it takes up, and the pipeline is only read.

Which worker takes up which sentence, and when, is not for the pipeline to say, so a
batch is worked off along any list of tasks.
-/

namespace EntityFeatures

/-- A worker takes up the sentence at a place. -/
structure Task where
  worker : Nat
  place : Nat
  deriving DecidableEq, Repr

/-- The sentences of a batch, some of which may have been annotated. -/
structure Batch where
  sentences : List Sentence
  /-- What the scratch text of each worker holds. -/
  scratch : Nat → String

namespace Pipeline

/-- Replaces the features of a sentence by those that the extractors find. -/
def annotateIn (pipeline : Pipeline) (sentence : Sentence) : Scratch Sentence :=
  pipeline.extractors.foldlM (fun sentence extractor => extractor.annotateIn sentence)
    sentence.begin

/-- Lets several extractors learn from a sentence, in order. -/
def learnAllIn : List Extractor → FeatureId → Sentence →
    Scratch (List Extractor × FeatureId × Sentence)
  | [], total, sentence => return ([], total, sentence)
  | extractor :: rest, total, sentence => do
      let (learned, total, sentence) ← extractor.learnIn total sentence
      let (others, total, sentence) ← learnAllIn rest total sentence
      return (learned :: others, total, sentence)

/-- Replaces the features of a sentence, and lets the extractors learn the new ones. -/
def learnIn (pipeline : Pipeline) (sentence : Sentence) : Scratch (Pipeline × Sentence) := do
  let (extractors, total, sentence) ←
    learnAllIn pipeline.extractors pipeline.total sentence.begin
  return (⟨extractors, total⟩, sentence)

/-- Annotates one sentence of a batch with the scratch text of the worker. -/
def perform (pipeline : Pipeline) (batch : Batch) (task : Task) : Batch :=
  match batch.sentences[task.place]? with
  | none => batch
  | some sentence =>
      let (annotated, held) := (pipeline.annotateIn sentence).run (batch.scratch task.worker)
      { sentences := batch.sentences.set task.place annotated
        scratch := fun worker => if worker = task.worker then held else batch.scratch worker }

/-- Works a batch off along a list of tasks. -/
def performAll (pipeline : Pipeline) (batch : Batch) (tasks : List Task) : Batch :=
  tasks.foldl pipeline.perform batch

end Pipeline

end EntityFeatures

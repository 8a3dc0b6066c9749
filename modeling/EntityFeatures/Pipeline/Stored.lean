import EntityFeatures.Extractor.Stored
import EntityFeatures.Pipeline.Basic

/-!
# Pipelines in a saved model

A saved pipeline consists of its counter, the number of extractors, and the
extractors, each with its name in front. When the data turn out to be damaged, the
extractors that have been read completely stay in the pipeline.
-/

namespace EntityFeatures

open Model

namespace Pipeline

/-- An extractor with its name in front, as the fields of a saved model. -/
def saveExtractor (extractor : Extractor) : Encoded := do
  let name ← encodeText extractor.name.text
  let rest ← extractor.save
  return name ++ rest

/-- The counter and the extractors as fields of a saved model. -/
def save (pipeline : Pipeline) : Encoded := do
  let total ← encodeWord pipeline.total.toNat
  let extractors ← encodeCounted saveExtractor pipeline.extractors
  return total ++ extractors

/-- The pipeline with another counter and without extractors. -/
def restart (total : FeatureId) (_ : Pipeline) : Pipeline :=
  { total }

/-- Appends a saved extractor. One that cannot be completed is lost. -/
def loadExtractor : Reader Pipeline Unit := do
  let name ← Reader.text
  match Extractor.create? name with
  | none => throw (.unknownExtractor name)
  | some fresh =>
      let extractor ← Reader.build fresh Extractor.load
      Reader.update fun pipeline => pipeline.push extractor

/-- Replaces the pipeline by a saved one. What was read before a fault stays. -/
def load : Reader Pipeline Unit := do
  let total ← Reader.word
  Reader.update (restart total)
  Reader.counted loadExtractor

end Pipeline

end EntityFeatures

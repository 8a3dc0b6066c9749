import EntityFeatures.Pipeline.Basic
import EntityFeatures.Proofs.Feature.Learning

/-!
# Learning as a row of allocations

All that a pipeline can learn from a sentence is some keys, one after the other.
`Pipeline.Allocates` is the step: one extractor, at some place of the pipeline, gets
a new key and takes a block from the common counter, and nothing else changes.
Only the kinds that ask for features by key, `Kind.isKeyed`, ever take such a step.

`Pipeline.reaches_learn` and `Pipeline.reaches_train` say that learning from one
sentence or from many is a row of such steps. A property of pipelines that the step
keeps is therefore kept by any training, whatever the sentences are.
-/

namespace EntityFeatures

namespace Kind

/-- Whether an extractor of the kind asks for its features by key, and so may learn. -/
def isKeyed : Kind → Bool
  | lemmaTerm | lexical _ | capitalization _ | numericValue | earlierLabel => true
  | clusters _ | containers | gazetteers _ | addresses _ => false

theorem requests_of_not_isKeyed {kind : Kind} (unkeyed : ¬kind.isKeyed) (window : Window)
    (sentence : Sentence) : kind.requests window sentence = [] := by
  cases kind with
  | clusters _ | containers | gazetteers _ | addresses _ => rfl
  | lemmaTerm | lexical _ | capitalization _ | numericValue | earlierLabel =>
      exact absurd rfl unkeyed

end Kind

namespace Extractor

theorem learn_of_not_isKeyed {extractor : Extractor} (unkeyed : ¬extractor.kind.isKeyed)
    (total : FeatureId) (sentence : Sentence) :
    extractor.learn total sentence = (extractor, total, extractor.annotate sentence) := by
  have nothing := Kind.requests_of_not_isKeyed unkeyed extractor.window sentence
  simp only [learn, learnEmissions, annotate, emissions, requests, nothing]
  rfl

end Extractor

namespace Pipeline

/-- The extractor at a place gets a new key and takes the block that begins at the counter. -/
inductive Allocates : (place : Nat) → (key : String) → (centre : FeatureId) →
    Pipeline → Pipeline → Prop
  | intro {front back : List Extractor} {extractor : Extractor} {table : KeyTable}
      {total later : FeatureId} {key : String} {centre : FeatureId} :
      extractor.kind.isKeyed →
      Vocabulary.Allocation extractor.window key centre ⟨extractor.table, total⟩ ⟨table, later⟩ →
      Allocates front.length key centre ⟨front ++ extractor :: back, total⟩
        ⟨front ++ { extractor with table } :: back, later⟩

/-- Some allocations in a row lead from one pipeline to the other. -/
def Reaches : Pipeline → Pipeline → Prop :=
  Relation.ReflTransGen fun before after =>
    ∃ place key centre, Allocates place key centre before after

/-- What a pipeline becomes by learning from several sentences. -/
def train (pipeline : Pipeline) (sentences : List Sentence) : Pipeline :=
  sentences.foldl (fun pipeline sentence => (pipeline.learn sentence).1) pipeline

@[simp]
theorem train_nil (pipeline : Pipeline) : pipeline.train [] = pipeline := rfl

@[simp]
theorem train_cons (pipeline : Pipeline) (sentence : Sentence) (sentences : List Sentence) :
    pipeline.train (sentence :: sentences) = (pipeline.learn sentence).1.train sentences := rfl

@[simp]
theorem train_append (pipeline : Pipeline) (first second : List Sentence) :
    pipeline.train (first ++ second) = (pipeline.train first).train second :=
  List.foldl_append

theorem reaches_of_vocabulary {extractor : Extractor} (keyed : extractor.kind.isKeyed)
    {before after : Vocabulary} (reaches : Vocabulary.Reaches extractor.window before after)
    (front back : List Extractor) :
    Reaches ⟨front ++ { extractor with table := before.table } :: back, before.total⟩
      ⟨front ++ { extractor with table := after.table } :: back, after.total⟩ := by
  induction reaches with
  | refl => exact Relation.ReflTransGen.refl
  | @tail middle final _ step ih =>
      rcases step with ⟨key, centre, allocation⟩
      have allocates : Allocates front.length key centre
          ⟨front ++ { extractor with table := middle.table } :: back, middle.total⟩
          ⟨front ++ { extractor with table := final.table } :: back, final.total⟩ :=
        Allocates.intro keyed allocation
      exact ih.tail ⟨front.length, key, centre, allocates⟩

theorem reaches_learn_extractor (extractor : Extractor) (total : FeatureId) (sentence : Sentence)
    (front back : List Extractor) :
    Reaches ⟨front ++ extractor :: back, total⟩
      ⟨front ++ (extractor.learn total sentence).1 :: back,
        (extractor.learn total sentence).2.1⟩ := by
  by_cases keyed : extractor.kind.isKeyed
  · exact reaches_of_vocabulary keyed
      (Vocabulary.reaches_answer extractor.window (extractor.requests sentence)
        ⟨extractor.table, total⟩) front back
  · rw [Extractor.learn_of_not_isKeyed keyed]
    exact Relation.ReflTransGen.refl

theorem reaches_learnAll (front extractors : List Extractor) (total : FeatureId)
    (sentence : Sentence) :
    Reaches ⟨front ++ extractors, total⟩
      ⟨front ++ (learnAll extractors total sentence).1,
        (learnAll extractors total sentence).2.1⟩ := by
  induction extractors generalizing front total sentence with
  | nil => exact Relation.ReflTransGen.refl
  | cons extractor rest ih =>
      have first := reaches_learn_extractor extractor total sentence front rest
      have others := ih (front ++ [(extractor.learn total sentence).1])
        (extractor.learn total sentence).2.1 (extractor.learn total sentence).2.2
      simp only [List.append_assoc, List.singleton_append] at others
      exact first.trans others

theorem reaches_learn (pipeline : Pipeline) (sentence : Sentence) :
    Reaches pipeline (pipeline.learn sentence).1 :=
  reaches_learnAll [] pipeline.extractors pipeline.total sentence.begin

theorem reaches_train (pipeline : Pipeline) (sentences : List Sentence) :
    Reaches pipeline (pipeline.train sentences) := by
  induction sentences generalizing pipeline with
  | nil => exact Relation.ReflTransGen.refl
  | cons sentence rest ih => exact (pipeline.reaches_learn sentence).trans (ih _)

/-- What every allocation keeps is kept by a row of them. -/
theorem Reaches.invariant {Holds : Pipeline → Prop}
    (step : ∀ (place : Nat) (key : String) (centre : FeatureId) (before after : Pipeline),
      Allocates place key centre before after → Holds before → Holds after)
    {before after : Pipeline} (reaches : Reaches before after) (holds : Holds before) :
    Holds after := by
  induction reaches with
  | refl => exact holds
  | tail _ last ih =>
      rcases last with ⟨place, key, centre, allocates⟩
      exact step place key centre _ _ allocates ih

end Pipeline

end EntityFeatures

import EntityFeatures.Pipeline.Batch
import EntityFeatures.Proofs.Extractor.Scratch
import EntityFeatures.Proofs.Feature.Emission
import EntityFeatures.Proofs.Pipeline.Agreement
import EntityFeatures.Proofs.Pipeline.Settlement

/-!
# What extractors find together

The features that a pipeline puts on a token are those that its extractors find alone,
one after the other, behind the omnipresent feature. Nothing that stands in a sentence
before an extractor begins has an influence on what it finds, apart from the words and
the labels of an earlier stage: not the features of the extractors before it, nor
scores, nor the scratch text. The main statement is `Pipeline.composes`.

From this it follows that annotating a sentence again changes nothing, and that it does
not matter which worker takes up which sentence of a batch, in which order, and what
was left in its scratch text. Every sentence has to be taken up at least once; if it is
taken up more often the result is the same.

Addresses are the one kind for which the second annotation is not an instance of the
first. It looks at other scores, namely those that the first has settled, so idempotence
also needs what `Sentence.Settles` says about them.
-/

namespace EntityFeatures

namespace Sentence

/-- The sentences look alike to an extractor. -/
structure Alike (left right : Sentence) : Prop where
  words_eq : right.words = left.words
  previous_eq : right.previous = left.previous
  length_eq : right.features.length = left.features.length

/-- The sentence as it is for an extractor that is used alone. -/
def bare (sentence : Sentence) : Sentence :=
  { sentence.clearFeatures with scores := [] }

theorem alike_begin (sentence : Sentence) {features : FeatureLists}
    (fits : features.length = sentence.size) (scores : List TokenScores) :
    sentence.begin.Alike { sentence with features, scores } :=
  ⟨rfl, rfl, fits.trans List.length_replicate.symm⟩

end Sentence

namespace Extractor

theorem emissions_of_alike {left right : Sentence} (alike : left.Alike right)
    (extractor : Extractor) : extractor.emissions right = extractor.emissions left := by
  rw [emissions, emissions, requests_of_same_words alike.words_eq alike.previous_eq,
    direct_of_same_words alike.words_eq alike.length_eq]

theorem features_settle_emitAll (extractor : Extractor) (sentence : Sentence)
    (emissions : List Emission) :
    (extractor.settle (sentence.emitAll emissions)).features =
      sentence.features.emitAll emissions :=
  (extractor.agrees_settle _).features_eq

theorem alike_settle_emitAll (extractor : Extractor) (sentence : Sentence)
    (emissions : List Emission) :
    sentence.Alike (extractor.settle (sentence.emitAll emissions)) := by
  have settles := extractor.settles_settle_emitAll sentence emissions
  refine ⟨settles.words_eq, settles.previous_eq, ?_⟩
  rw [features_settle_emitAll, FeatureLists.length_emitAll]

theorem features_annotate (extractor : Extractor) (sentence : Sentence) :
    (extractor.annotate sentence).features =
      sentence.features.emitAll (extractor.emissions sentence) :=
  extractor.features_settle_emitAll sentence _

theorem alike_annotate (extractor : Extractor) (sentence : Sentence) :
    sentence.Alike (extractor.annotate sentence) :=
  extractor.alike_settle_emitAll sentence _

/-- What an extractor leaves on the tokens when it is used alone, with nothing in the scratch text. -/
def finds (extractor : Extractor) (sentence : Sentence) : FeatureLists :=
  ((extractor.annotateIn sentence.bare).run "").1.features

theorem finds_eq_emitAll (extractor : Extractor) (sentence : Sentence) :
    extractor.finds sentence = FeatureLists.emitAll (List.replicate sentence.size [])
      (extractor.emissions sentence.begin) := by
  have alike : sentence.begin.Alike sentence.bare :=
    sentence.alike_begin List.length_replicate []
  rw [finds, run_annotateIn, features_annotate, ← emissions_of_alike alike]
  rfl

theorem getElem?_finds (extractor : Extractor) {sentence : Sentence} {token : Nat}
    (inside : token < sentence.size) :
    (extractor.finds sentence)[token]? = some
      ((extractor.emissions sentence.begin).flatMap (Emission.idsOn sentence.size token)) := by
  rw [finds_eq_emitAll, FeatureLists.getElem?_emitAll, List.length_replicate,
    List.getElem?_replicate, if_pos inside]
  rfl

end Extractor

namespace Pipeline

theorem getElem?_features_foldl_annotate (extractors : List Extractor) (sentence : Sentence)
    (token : Nat) :
    (extractors.foldl (fun sentence extractor => extractor.annotate sentence)
        sentence).features[token]? =
      sentence.features[token]?.map (· ++ extractors.flatMap fun extractor =>
        (extractor.emissions sentence).flatMap
          (Emission.idsOn sentence.features.length token)) := by
  induction extractors generalizing sentence with
  | nil => simp
  | cons extractor rest ih =>
      have alike := extractor.alike_annotate sentence
      rw [List.foldl_cons, ih, Extractor.features_annotate, FeatureLists.getElem?_emitAll,
        FeatureLists.length_emitAll, List.flatMap_cons, Option.map_map]
      simp only [Extractor.emissions_of_alike alike, Function.comp_def, List.append_assoc]

theorem getElem?_features_annotate (pipeline : Pipeline) (sentence : Sentence) {token : Nat}
    (inside : token < sentence.size) :
    (pipeline.annotate sentence).features[token]? =
      some (FeatureId.omnipresent :: pipeline.extractors.flatMap fun extractor =>
        (extractor.emissions sentence.begin).flatMap
          (Emission.idsOn sentence.size token)) := by
  rw [annotate, getElem?_features_foldl_annotate]
  simp only [Sentence.begin, List.length_replicate, List.getElem?_replicate, if_pos inside]
  rfl

theorem length_features_annotate (pipeline : Pipeline) (sentence : Sentence) :
    (pipeline.annotate sentence).features.length = sentence.size := by
  have same : ∀ (extractors : List Extractor) (sentence : Sentence),
      (extractors.foldl (fun sentence extractor => extractor.annotate sentence)
        sentence).features.length = sentence.features.length := by
    intro extractors
    induction extractors with
    | nil => intro sentence; rfl
    | cons extractor rest ih =>
        intro sentence
        exact (ih _).trans (extractor.alike_annotate sentence).length_eq
  exact (same pipeline.extractors sentence.begin).trans List.length_replicate

theorem features_annotate_of_alike (pipeline : Pipeline) {left right : Sentence}
    (alike : left.begin.Alike right.begin) :
    (pipeline.annotate right).features = (pipeline.annotate left).features := by
  have same : right.begin.features = left.begin.features := by
    have words_eq : right.words = left.words := alike.words_eq
    rw [Sentence.begin, Sentence.begin, Sentence.size, Sentence.size, words_eq]
  apply List.ext_getElem?
  intro token
  rw [annotate, annotate, getElem?_features_foldl_annotate, getElem?_features_foldl_annotate, same]
  simp only [Extractor.emissions_of_alike alike]

/-- What has been annotated once stays as it is. -/
theorem annotate_annotate (pipeline : Pipeline) (sentence : Sentence) :
    pipeline.annotate (pipeline.annotate sentence) = pipeline.annotate sentence := by
  have once := pipeline.settles_annotate sentence
  have twice := pipeline.settles_annotate (pipeline.annotate sentence)
  ext1
  · exact twice.words_eq
  · apply features_annotate_of_alike
    refine ⟨once.words_eq, once.previous_eq, ?_⟩
    rw [Sentence.begin, Sentence.begin, Sentence.size, once.words_eq]
    simp only [Sentence.size, List.length_replicate]
  · exact twice.previous_eq
  · apply List.ext_getElem?
    intro token
    -- Looking at a word with the same types again is what `outcome_outcome` covers.
    have same : (pipeline.addressTypes? <|> pipeline.addressTypes?) = pipeline.addressTypes? := by
      cases pipeline.addressTypes? <;> rfl
    rw [twice.getElem?_scores, once.getElem?_scores, once.words_eq, Option.map_map,
      AddressTypes.outcome_outcome, same]

/-- The features of a sentence do not depend on what was left in the scratch text. -/
theorem run_annotateIn (pipeline : Pipeline) (sentence : Sentence) (held : String) :
    ((pipeline.annotateIn sentence).run held).1 = pipeline.annotate sentence := by
  rw [annotateIn, annotate]
  generalize sentence.begin = begun
  induction pipeline.extractors generalizing begun held with
  | nil => rfl
  | cons extractor rest ih =>
      have first := extractor.run_annotateIn begun held
      rw [List.foldlM_cons, List.foldl_cons, ← first]
      exact ih ((extractor.annotateIn begun).run held).2 ((extractor.annotateIn begun).run held).1

theorem run_learnAllIn (extractors : List Extractor) (total : FeatureId) (sentence : Sentence)
    (held : String) :
    ((learnAllIn extractors total sentence).run held).1 = learnAll extractors total sentence := by
  induction extractors generalizing total sentence held with
  | nil => rfl
  | cons extractor rest ih =>
      have first := extractor.run_learnIn sentence total held
      have others := ih (extractor.learn total sentence).2.1 (extractor.learn total sentence).2.2
        ((extractor.learnIn total sentence).run held).2
      rw [← first] at others
      simp only [learnAll, ← first, ← others]
      rfl

/-- Nor does it what is learned from a sentence. -/
theorem run_learnIn (pipeline : Pipeline) (sentence : Sentence) (held : String) :
    ((pipeline.learnIn sentence).run held).1 = pipeline.learn sentence := by
  rw [learn, ← run_learnAllIn pipeline.extractors pipeline.total sentence.begin held]
  rfl

theorem sentences_perform (pipeline : Pipeline) (batch : Batch) (task : Task) :
    (pipeline.perform batch task).sentences =
      batch.sentences.modify task.place pipeline.annotate := by
  rw [perform]
  cases found : batch.sentences[task.place]? with
  | none =>
      rw [List.modify_eq_self (List.getElem?_eq_none_iff.mp found)]
  | some sentence =>
      rw [List.modify_eq_set_getElem?, found]
      exact congrArg (batch.sentences.set task.place)
        (pipeline.run_annotateIn sentence (batch.scratch task.worker))

/-- Sentences that were taken up have been annotated, no matter how often and by whom. -/
theorem getElem?_sentences_performAll (pipeline : Pipeline) (batch : Batch) (tasks : List Task)
    (place : Nat) :
    (pipeline.performAll batch tasks).sentences[place]? =
      batch.sentences[place]?.map fun sentence =>
        if place ∈ tasks.map Task.place then pipeline.annotate sentence else sentence := by
  induction tasks generalizing batch with
  | nil => simp [performAll]
  | cons task rest ih =>
      have later := ih (pipeline.perform batch task)
      rw [sentences_perform, List.getElem?_modify, Option.map_eq_map] at later
      change (pipeline.performAll (pipeline.perform batch task) rest).sentences[place]? = _
      rw [later, Option.map_map]
      congr 1
      funext sentence
      simp only [Function.comp_apply, List.map_cons, List.mem_cons]
      by_cases here : place = task.place
      · rw [if_pos here.symm, if_pos (Or.inl here), annotate_annotate, ite_self]
      · simp only [if_neg (Ne.symm here), here, false_or]

/-- The parts from which the features of sentences are put together, for one and for many. -/
structure Composes (pipeline : Pipeline) : Prop where
  /-- The features of a token are those that the extractors find alone, in order. -/
  collected : ∀ (sentence : Sentence) (held : String),
    let annotated := ((pipeline.annotateIn sentence).run held).1
    annotated.features.length = sentence.size ∧
      ∀ token < sentence.size, annotated.features[token]? =
        some (FeatureId.omnipresent :: pipeline.extractors.flatMap fun extractor =>
          (extractor.finds sentence)[token]?.getD [])
  /-- What an extractor finds it appends to the features, whatever these and the scores are. -/
  appended : ∀ extractor ∈ pipeline.extractors, ∀ (sentence : Sentence) (features : FeatureLists)
      (scores : List TokenScores) (held : String), features.length = sentence.size →
    ((extractor.annotateIn { sentence with features, scores }).run held).1.features =
      List.zipWith (· ++ ·) features (extractor.finds sentence)
  /-- Annotating a sentence again changes nothing. -/
  again : ∀ (sentence : Sentence) (held left : String),
    let annotated := ((pipeline.annotateIn sentence).run held).1
    ((pipeline.annotateIn annotated).run left).1 = annotated
  /-- A batch becomes the sentences that are annotated each on its own, by any division of work. -/
  divided : ∀ (batch : Batch) (tasks : List Task) (held : Nat → String),
    (∀ place < batch.sentences.length, ∃ task ∈ tasks, task.place = place) →
    (pipeline.performAll batch tasks).sentences =
      batch.sentences.mapIdx fun place sentence =>
        ((pipeline.annotateIn sentence).run (held place)).1

/--
In every pipeline the extractors only append what they find alone, and so a batch may be
divided among workers as one likes.
-/
theorem composes (pipeline : Pipeline) : Composes pipeline := by
  refine ⟨?_, ?_, ?_, ?_⟩
  · intro sentence held
    rw [run_annotateIn]
    refine ⟨pipeline.length_features_annotate sentence, ?_⟩
    intro token inside
    rw [getElem?_features_annotate pipeline sentence inside]
    simp only [Extractor.getElem?_finds _ inside, Option.getD_some]
  · intro extractor _ sentence features scores held fits
    have alike := sentence.alike_begin fits scores
    rw [Extractor.run_annotateIn, Extractor.features_annotate, Extractor.emissions_of_alike alike,
      FeatureLists.emitAll_eq_zipWith, Extractor.finds_eq_emitAll, fits]
  · intro sentence held left
    simp only [run_annotateIn, annotate_annotate]
  · intro batch tasks held complete
    apply List.ext_getElem?
    intro place
    rw [getElem?_sentences_performAll, List.getElem?_mapIdx]
    by_cases inside : place < batch.sentences.length
    · have taken : place ∈ tasks.map Task.place := List.mem_map.mpr (complete place inside)
      simp only [if_pos taken, run_annotateIn]
    · rw [List.getElem?_eq_none (Nat.not_lt.mp inside)]
      rfl

end Pipeline

end EntityFeatures

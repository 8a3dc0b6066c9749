import EntityFeatures.Proofs.Extractor.LocalFeatures
import EntityFeatures.Proofs.Pipeline.Provenance

/-!
# What a token receives from its neighbourhood

The features that an extractor of a local kind leaves on a token are gathered from the
positions up to the window away. So a word or a label that is farther away has no
influence on them, and the whole sentence is of importance only for where it ends.

What is appended does not depend on what the token has already, and while an extractor
learns it is what the learned extractor finds. The numbers themselves are computed in 32
bits. That nothing wraps around is known of the extractors of a pipeline only, whose ids
were given out in blocks of which every distance has its own.
-/

namespace EntityFeatures

open Pipeline

namespace Extractor

variable {extractor : Extractor} {sentence : Sentence} {token : Nat}

theorem getElem?_emitAll_emissions (isLocal : extractor.kind.isLocal)
    (sized : sentence.features.length = sentence.size) {features : List FeatureId}
    (before : sentence.features[token]? = some features) :
    (sentence.features.emitAll (extractor.emissions sentence))[token]? =
      some (features ++ extractor.pulled sentence token) := by
  have inside : token < sentence.size := by
    rw [← sized]
    exact (List.getElem?_eq_some_iff.mp before).1
  rw [FeatureLists.getElem?_emitAll, before, sized, ← flatMap_idsOn_emissions isLocal sized inside]
  rfl

/-- A known feature near a token is emitted on it. -/
theorem exists_emission (isLocal : extractor.kind.isLocal)
    (inside : token < sentence.size) {position : Nat} {feature : FeatureId}
    (near : position ∈ extractor.neighbours sentence.size token)
    (found : feature ∈ extractor.localAt sentence position)
    (known : feature ≠ FeatureId.unknown) :
    ∃ emission ∈ extractor.emissions sentence, token ∈ emission.targets sentence.size ∧
      emission.feature = feature ∧ emission.anchor = position := by
  by_cases labelled : extractor.kind = .earlierLabel
  · rw [neighbours, labelled] at near
    rw [localAt, labelled] at found
    rcases Window.mem_before.mp near with ⟨behind, close⟩
    refine ⟨⟨feature, position, 1, extractor.window.toNat⟩, ?_,
      Emission.mem_targets.mpr ⟨known, ?_, ?_, inside⟩, rfl, rfl⟩
    · rw [emissions_eq_emittedByLabel labelled]
      exact mem_emittedFrom found
    · dsimp only
      omega
    · dsimp only
      omega
  · have around : position ∈ extractor.window.around sentence.size token := by
      simpa only [neighbours] using near
    have ofWord : feature ∈ foundAt sentence.words extractor.ofWord position := by
      simpa only [localAt] using found
    rcases Window.mem_around.mp around with ⟨-, low, high⟩
    refine ⟨.around feature position extractor.window, ?_,
      Emission.mem_targets.mpr ⟨known, ?_, ?_, inside⟩, rfl, rfl⟩
    · rw [emissions_eq_emittedByWord isLocal labelled]
      exact List.mem_append_left _ (mem_emittedFrom ofWord)
    · dsimp only [Emission.around]
      omega
    · dsimp only [Emission.around]
      omega

/-- What an extractor emits while it learns is what it emits when it has learned. -/
theorem features_learn (extractor : Extractor) (total : FeatureId) (sentence : Sentence) :
    (extractor.learn total sentence).2.2.features =
      sentence.features.emitAll ((extractor.learn total sentence).1.emissions sentence) := by
  have grows := GrowsInto.of_total_le (extractor.learn total sentence).1
    (UInt32.le_refl (extractor.learn total sentence).2.1)
  rw [(emissions_of_growsInto grows).1]
  exact extractor.features_settle_emitAll sentence _

/-- In a pipeline whose ids were given out in blocks no sum of 32 bits wraps around. -/
theorem toNat_shifted (isLocal : extractor.kind.isLocal) {resources : Resources}
    {template : List UInt8} {types : Registry} {pipeline : Pipeline}
    (descends : DescendsFrom resources template types pipeline)
    (mem : extractor ∈ pipeline.extractors) (inside : token < sentence.size) {position : Nat}
    {feature : FeatureId} (near : position ∈ extractor.neighbours sentence.size token)
    (found : feature ∈ extractor.localAt sentence position)
    (known : feature ≠ FeatureId.unknown) :
    ((feature.shifted position token).toNat : Int) = feature.toNat + token - position := by
  rcases List.mem_iff_getElem?.mp mem with ⟨place, placed⟩
  have begun : token < sentence.begin.size := inside
  rcases exists_emission isLocal begun near found known with
    ⟨emission, emitted, target, rfl, anchored⟩
  have numbered : extractor.NumbersEntries := by
    intro entries listed
    rw [listed] at isLocal
    cases isLocal
  have received : emission.idAt token ∈ emission.idsOn sentence.size token :=
    Emission.mem_idsOn.mpr ⟨target, rfl⟩
  have computed := ((descends.accountsFor sentence).accounts place extractor placed numbered
    emission emitted token _ received).computed
  rw [Emission.idAt, anchored] at computed
  exact computed

/-- How an extractor of a local kind depends on the neighbourhood of a token. -/
structure LooksAround (extractor : Extractor) : Prop where
  /-- Every token gets what it receives from its neighbourhood, behind what it has. -/
  annotates : ∀ (sentence : Sentence) (token : Nat) (features : List FeatureId),
    sentence.features.length = sentence.size → sentence.features[token]? = some features →
    (extractor.annotate sentence).features[token]? =
      some (features ++ extractor.pulled sentence token)
  /-- While learning it gets what the learned extractor finds. -/
  learns : ∀ (total : FeatureId) (sentence : Sentence) (token : Nat) (features : List FeatureId),
    sentence.features.length = sentence.size → sentence.features[token]? = some features →
    let (learned, _, annotated) := extractor.learn total sentence
    annotated.features[token]? = some (features ++ learned.pulled sentence token)
  /-- Words and labels that are farther away than the window have no influence. -/
  ignores : ∀ (left right : Sentence) (token : Nat) (features : List FeatureId),
    left.features.length = left.size → right.features.length = right.size →
    right.size = left.size → left.features[token]? = some features →
    right.features[token]? = some features →
    (∀ position, token ≤ position + extractor.window.toNat →
      position ≤ token + extractor.window.toNat →
      right.words[position]? = left.words[position]? ∧
        right.previous[position]? = left.previous[position]?) →
    (extractor.annotate right).features[token]? = (extractor.annotate left).features[token]?
  /-- In a pipeline that has been configured, and then has learned and has been stored at will,
  the ids are the sums of the features and the distances. -/
  computes : ∀ (resources : Resources) (template : List UInt8) (types : Registry)
      (pipeline : Pipeline),
    DescendsFrom resources template types pipeline → extractor ∈ pipeline.extractors →
    extractor.window.blockLength < UInt32.size ∧
      ∀ (sentence : Sentence), ∀ token < sentence.size,
        ∀ position ∈ extractor.neighbours sentence.size token,
        ∀ feature ∈ extractor.localAt sentence position, feature ≠ FeatureId.unknown →
          ((feature.shifted position token).toNat : Int) = feature.toNat + token - position
  /-- The class of terms is the character behind the first mark in the note on the lemma. -/
  notes : extractor.kind = .lemmaTerm → ∀ word : Word,
    (∀ front term back, word.lemmaComments.toList = front ++ '_' :: ';' :: term :: back →
      ¬['_', ';'] <:+: front ++ ['_'] →
      extractor.ofWord word = [extractor.featureAt (String.singleton term)]) ∧
    ((∀ term, ¬['_', ';', term] <:+: word.lemmaComments.toList) → extractor.ofWord word = [])

/--
Emitting every feature on the tokens around it leaves on each token what it would gather
by looking around, in the order of the positions.
-/
theorem looksAround (isLocal : extractor.kind.isLocal) : LooksAround extractor := by
  refine ⟨?annotates, ?learns, ?ignores, ?computes, ?notes⟩
  case annotates =>
    intro sentence token features sized before
    rw [features_annotate]
    exact getElem?_emitAll_emissions isLocal sized before
  case learns =>
    intro total sentence token features sized before
    have stillLocal : (extractor.learn total sentence).1.kind.isLocal := isLocal
    change (extractor.learn total sentence).2.2.features[token]? =
      some (features ++ (extractor.learn total sentence).1.pulled sentence token)
    rw [features_learn]
    exact getElem?_emitAll_emissions stillLocal sized before
  case ignores =>
    intro left right token features leftSized rightSized size_eq leftBefore rightBefore near_eq
    rw [features_annotate, features_annotate,
      getElem?_emitAll_emissions isLocal leftSized leftBefore,
      getElem?_emitAll_emissions isLocal rightSized rightBefore,
      pulled_eq_of_near size_eq near_eq]
  case computes =>
    intro resources template types pipeline descends mem
    refine ⟨(descends.accountsFor {}).blockLength_lt extractor mem, ?_⟩
    intro sentence token inside position near feature found known
    exact toNat_shifted isLocal descends mem inside near found known
  case notes =>
    intro noted word
    constructor
    · intro front term back same first
      have classed := termClass?_eq_some_iff.mpr ⟨front, back, same, first⟩
      rw [ofWord_of_lemmaTerm noted, classed]
      rfl
    · intro unmarked
      rw [ofWord_of_lemmaTerm noted]
      cases classed : termClass? word.lemmaComments.toList with
      | none => rfl
      | some term =>
          rcases termClass?_eq_some_iff.mp classed with ⟨front, back, same, -⟩
          exact absurd ⟨front, back, by simp [same]⟩ (unmarked term)

/-- What six extractors of different kinds leave on the tokens of a sentence. -/
theorem looksAround_praha :
    let words : List Word :=
      [.ofLemma "v" "v", ⟨"Praha", "praha", "praha-1", "_;G", "N"⟩, .ofLemma "17" "17"]
    let sentence : Sentence := { Sentence.ofWords words with previous := [⟨1, 2⟩, {}, {}] }
    let table (entries : List (String × UInt32)) : KeyTable := .ofList entries
    let forms : Extractor := ⟨1, table [("Praha", 5)], .lexical .form⟩
    let clusters : Extractor := ⟨1, table [("praha", 1)], .clusters #[[4], [7, 10]]⟩
    let terms : Extractor := ⟨1, table [("G", 4)], .lemmaTerm⟩
    let capitals : Extractor := ⟨0, table [("f", 1), ("a", 2), ("m", 3)], .capitalization .form⟩
    let numbers : Extractor :=
      ⟨0, table [("H", 1), ("M", 2), ("t", 3), ("d", 4), ("m", 5), ("y", 6)], .numericValue⟩
    let labels : Extractor := ⟨1, table [("1 2", 3)], .earlierLabel⟩
    let extractors := [forms, clusters, terms, capitals, numbers, labels]
    let features : List FeatureLists :=
      [[[4, 2], [5], [6, 0]], [[6, 9], [7, 10], [8, 11]], [[3], [4], [5]], [[], [1, 3], []],
        [[], [], [1, 2, 4]], [[], [4], []]]
    (extractors.all (·.kind.isLocal)) = true ∧
      (extractors.map fun extractor => [0, 1, 2].map (extractor.pulled sentence)) = features ∧
      (extractors.map fun extractor => (extractor.annotate sentence).features) = features ∧
      forms.LooksAround ∧ clusters.LooksAround ∧ terms.LooksAround ∧ capitals.LooksAround ∧
      numbers.LooksAround ∧ labels.LooksAround :=
  ⟨rfl, by decide +kernel, by decide +kernel, looksAround rfl, looksAround rfl, looksAround rfl,
    looksAround rfl, looksAround rfl, looksAround rfl⟩

end Extractor

end EntityFeatures

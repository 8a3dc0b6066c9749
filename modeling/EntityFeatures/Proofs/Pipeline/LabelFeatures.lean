import EntityFeatures.Proofs.Extractor.LabelKeys
import EntityFeatures.Proofs.Extractor.LocalFeatures
import EntityFeatures.Proofs.Pipeline.Provenance
import EntityFeatures.Proofs.Pipeline.Refusal

/-!
# Features tell labels apart

A classifier can make use of the labels of an earlier stage only if different labels have
different features. This takes three things. Different labels have different keys; that is
`PreviousLabel.key_inj`. Different keys of one extractor have different features, because the
features are the centres of blocks that lie side by side, `Pipeline.Ledger.key_eq_of_same`.
And every label of the corpus has to have a feature at all, which is so if no key was refused
in the training.

The empty key, which stands for the border of a sentence, has the window as its feature. Its
number is below the centre of every block, since the first block begins at one.
-/

namespace EntityFeatures

namespace Pipeline

variable {reserved blocks : List Block} {pipeline : Pipeline} {place : Nat}
  {extractor : Extractor}

namespace Ledger

/-- One feature is not given to two keys. -/
theorem key_eq_of_same (ledger : Ledger reserved blocks pipeline)
    (found : pipeline.extractors[place]? = some extractor) (keyed : extractor.kind.isKeyed)
    {left right : String} {feature : FeatureId} (leftKnown : extractor.table[left]? = some feature)
    (rightKnown : extractor.table[right]? = some feature) : left = right := by
  have leftMem := (ledger.mem_iff _).mpr (Owns.entry found keyed leftKnown)
  have rightMem := (ledger.mem_iff _).mpr (Owns.entry found keyed rightKnown)
  have centred (key : String) : Block.Gives
      ⟨place, .key key, extractor.window, feature.toNat⟩ 0 feature.toNat := by
    simp [Block.Gives]
  have same := (ledger.tiles.gives_unique leftMem rightMem (centred left) (centred right)).1
  simpa using congrArg Block.name same

/-- The feature of a key is behind the window, and it is an id that can be emitted. -/
theorem window_lt_of_known (ledger : Ledger reserved blocks pipeline)
    (found : pipeline.extractors[place]? = some extractor) (keyed : extractor.kind.isKeyed)
    {key : String} {feature : FeatureId} (known : extractor.table[key]? = some feature) :
    extractor.window < feature ∧ feature ≠ FeatureId.unknown := by
  have owned : pipeline.Owns reserved ⟨place, .key key, extractor.window, feature.toNat⟩ :=
    Owns.entry found keyed known
  constructor
  · have room := (ledger.tiles.room ((ledger.mem_iff _).mpr owned)).1
    rw [UInt32.lt_iff_toNat_lt]
    dsimp only at room
    omega
  · rintro rfl
    apply ledger.not_gives_unknown owned 0
    simp [Block.Gives]

end Ledger

/-- The labels that the tokens of a corpus were given, as they come. -/
def givenLabels (corpus : List Sentence) : List PreviousLabel :=
  (corpus.flatMap Sentence.previous).filter PreviousLabel.isGiven

end Pipeline

/-- What the features of an extractor of labels say about the tokens of a corpus. -/
structure Extractor.TellsApart (corpus : List Sentence) (extractor : Extractor) : Prop where
  /-- What is emitted for a sentence are the features of its labels. -/
  emits : ∀ sentence, extractor.emissions sentence = extractor.emittedByLabel sentence
  known : ∀ label ∈ Pipeline.givenLabels corpus, ∃ feature, feature ≠ FeatureId.unknown ∧
    extractor.ofLabel label = [feature]
  apart : ∀ left ∈ Pipeline.givenLabels corpus, ∀ right ∈ Pipeline.givenLabels corpus,
    extractor.ofLabel left = extractor.ofLabel right ↔ left = right
  /-- No label whatsoever has the feature of the border. -/
  inside : ∀ label, extractor.table.find extractor.window "" ∉ extractor.ofLabel label

namespace Pipeline

variable {resources : Resources} {template : List UInt8} {types : Registry}

theorem find_ne_border {pipeline : Pipeline}
    (descends : DescendsFrom resources template types pipeline) {extractor : Extractor}
    (mem : extractor ∈ pipeline.extractors) (keyed : extractor.kind.isKeyed) {key : String}
    (nonempty : key ≠ "") :
    extractor.table.find extractor.window key ≠ extractor.window := by
  rcases List.mem_iff_getElem?.mp mem with ⟨place, found⟩
  rcases descends.ledger with ⟨⟨blocks, ledger⟩, sound⟩
  cases known : extractor.table[key]? with
  | some feature =>
      rw [KeyTable.find_of_getElem? _ nonempty known]
      have behind := (ledger.window_lt_of_known found keyed known).1
      exact (UInt32.ne_of_lt behind).symm
  | none =>
      -- A window of which a block fits into the ids is not the largest number.
      have short := (sound place extractor found).blockLength_lt
      have largest : FeatureId.unknown.toNat + 1 = UInt32.size := rfl
      simp only [KeyTable.find, nonempty, known, if_false, Option.getD_none]
      intro same
      rw [← same, Window.blockLength] at short
      omega

theorem mem_requests_of_mem_givenLabels {corpus : List Sentence} {label : PreviousLabel}
    (mem : label ∈ givenLabels corpus) {extractor : Extractor}
    (labelled : extractor.kind = .earlierLabel) :
    label.isGiven ∧ ∃ sentence ∈ corpus, ∃ request ∈ extractor.requests sentence,
      request.key = label.key := by
  rcases List.mem_filter.mp mem with ⟨listed, given⟩
  rcases List.mem_flatMap.mp listed with ⟨sentence, inCorpus, inSentence⟩
  rcases List.mem_iff_getElem?.mp inSentence with ⟨position, found⟩
  refine ⟨given, sentence, inCorpus, .place label.key position 1 extractor.window.toNat, ?_, rfl⟩
  rw [Extractor.requests, labelled]
  apply List.mem_flatMap.mpr
  refine ⟨(label, position), List.mem_zipIdx_iff_getElem?.mpr found, ?_⟩
  simp [given]

theorem tellsApart_train {start : Pipeline}
    (descends : DescendsFrom resources template types start) {corpus : List Sentence}
    (never : ¬start.RunsOut corpus) {extractor : Extractor}
    (mem : extractor ∈ (start.train corpus).extractors)
    (labelled : extractor.kind = .earlierLabel) : extractor.TellsApart corpus := by
  have keyed : extractor.kind.isKeyed := by rw [labelled]; rfl
  have trained := descends.train corpus
  rcases List.mem_iff_getElem?.mp mem with ⟨place, found⟩
  rcases trained.ledger with ⟨⟨blocks, ledger⟩, -⟩
  have inTable : ∀ label ∈ givenLabels corpus, ∃ feature,
      extractor.table[label.key]? = some feature ∧ extractor.ofLabel label = [feature] := by
    intro label listed
    rcases mem_requests_of_mem_givenLabels listed labelled with
      ⟨given, sentence, inCorpus, request, asked, key_eq⟩
    have knows := knows_train never sentence inCorpus extractor mem request asked
    rw [key_eq] at knows
    rcases KeyTable.mem_iff.mp (knows.resolve_left label.key_ne_empty) with ⟨feature, known⟩
    refine ⟨feature, known, ?_⟩
    have labelGiven : label.label ≠ -1 := bne_iff_ne.mp given
    rw [Extractor.ofLabel, if_neg labelGiven, ← Extractor.find_eq_featureAt,
      KeyTable.find_of_getElem? _ label.key_ne_empty known]
  refine ⟨fun sentence => Extractor.emissions_eq_emittedByLabel labelled, ?_, ?_, ?_⟩
  · intro label listed
    rcases inTable label listed with ⟨feature, known, found_eq⟩
    exact ⟨feature, (ledger.window_lt_of_known found keyed known).2, found_eq⟩
  · intro left leftListed right rightListed
    rcases inTable left leftListed with ⟨feature, leftKnown, leftFound⟩
    rcases inTable right rightListed with ⟨other, rightKnown, rightFound⟩
    constructor
    · intro same
      rw [leftFound, rightFound] at same
      rw [List.singleton_inj.mp same] at leftKnown
      exact PreviousLabel.key_inj.mp (ledger.key_eq_of_same found keyed leftKnown rightKnown)
    · rintro rfl
      rfl
  · intro label border
    rw [Extractor.ofLabel] at border
    split at border
    · simp at border
    · have same := List.mem_singleton.mp border
      rw [KeyTable.find, if_pos rfl] at same
      exact find_ne_border trained mem keyed label.key_ne_empty same.symm

/--
Labels are the same if their keys are, and after a training in which no key is refused they
are the same if their features are.
-/
theorem labels_told_apart :
    (∀ left right : PreviousLabel, left.key = right.key ↔ left = right) ∧
      (∀ label : PreviousLabel, label.key ≠ "") ∧
      ∀ (resources : Resources) (template : List UInt8) (types : Registry) (start : Pipeline)
          (corpus : List Sentence),
        DescendsFrom resources template types start → ¬start.RunsOut corpus →
        ∀ extractor ∈ (start.train corpus).extractors, extractor.kind = .earlierLabel →
          extractor.TellsApart corpus := by
  refine ⟨fun _ _ => PreviousLabel.key_inj, PreviousLabel.key_ne_empty, ?_⟩
  intro resources template types start corpus descends never extractor mem labelled
  exact tellsApart_train descends never mem labelled

theorem labels_told_apart_zeros :
    ∃ start : Pipeline,
      let corpus : List Sentence :=
        [⟨[.ofLemma "a" "a", .ofLemma "b" "b"], [], [⟨0, 16⟩, ⟨16, 0⟩], []⟩,
          ⟨[.ofLemma "a" "a"], [], [⟨0, 0⟩], []⟩, ⟨[.ofLemma "a" "a"], [], [⟨0, 16⟩], []⟩]
      DescendsFrom (fun _ => none) (Utf8.encode "PreviousStage 1") ⟨[]⟩ start ∧
        ¬start.RunsOut corpus ∧
        (start.train corpus).extractors.map (fun extractor =>
            (Pipeline.givenLabels corpus).map extractor.ofLabel) =
          [[[2], [5], [8], [2]]] ∧
        ∀ extractor ∈ (start.train corpus).extractors, extractor.kind = .earlierLabel →
          extractor.TellsApart corpus := by
  let corpus : List Sentence :=
    [⟨[.ofLemma "a" "a", .ofLemma "b" "b"], [], [⟨0, 16⟩, ⟨16, 0⟩], []⟩,
      ⟨[.ofLemma "a" "a"], [], [⟨0, 0⟩], []⟩, ⟨[.ofLemma "a" "a"], [], [⟨0, 16⟩], []⟩]
  let template := Utf8.encode "PreviousStage 1"
  have evaluated : ((ofTemplate (fun _ => none) template ⟨[]⟩).1.toOption.map fun start =>
      (decide (start.RunsOut corpus), (start.train corpus).extractors.map fun extractor =>
        (givenLabels corpus).map extractor.ofLabel)) =
      some (false, [[[2], [5], [8], [2]]]) := by
    decide +kernel
  rcases Option.map_eq_some_iff.mp evaluated with ⟨start, found, known⟩
  rcases Prod.mk.inj known with ⟨never, features⟩
  have descends : DescendsFrom (fun _ => none) template ⟨[]⟩ start :=
    .configured (eq_ok_of_toOption found)
  have goesOn := of_decide_eq_false never
  refine ⟨start, descends, goesOn, features, ?_⟩
  exact labels_told_apart.2.2 _ template ⟨[]⟩ start corpus descends goesOn

end Pipeline

end EntityFeatures

import EntityFeatures.Extractor.Annotate
import EntityFeatures.Proofs.Extractor.NumericForms
import EntityFeatures.Proofs.Feature.Gathering

/-!
# Features of single tokens

Most kinds find their features at one token at a time. Five kinds look at the word alone
and emit on the tokens around it; the labels of an earlier stage are emitted behind their
token. `Extractor.ofWord` and `Extractor.ofLabel` are the features of one token, read off
the word or the label and the tables of the extractor, and `Extractor.pulled` is what a
token receives from its neighbourhood.

What an extractor of these kinds emits for a sentence is emitted token by token,
`Extractor.emissions_eq_emittedByWord`. From there `Extractor.flatMap_idsOn_emissions` is
a change of view, which `flatMap_idsOn_around` and `flatMap_idsOn_behind` make. The marks
of the border come from no token and are added at the end.

The class of terms of a note on the lemma stands behind the first mark `_;`. That a mark
is the first means that there is none in what comes before it together with its `_`.
-/

namespace EntityFeatures

/-- What is found at a position of a list, and nothing behind its end. -/
def foundAt {Item : Type} (items : List Item) (featuresOf : Item → List FeatureId)
    (position : Nat) : List FeatureId :=
  (items[position]?.map featuresOf).getD []

/-- The emissions of what is found in a list, item by item. -/
def emittedFrom {Item : Type} (items : List Item) (featuresOf : Item → List FeatureId)
    (place : FeatureId → Nat → Emission) : List Emission :=
  items.zipIdx.flatMap fun found => (featuresOf found.1).map (place · found.2)

namespace Kind

/-- The kinds whose features are those of single tokens. -/
def isLocal : Kind → Bool
  | clusters _ | lemmaTerm | lexical _ | capitalization _ | numericValue | earlierLabel => true
  | containers | gazetteers _ | addresses _ => false

/-- The keys of the capitalization of a text. -/
def caseKeys (text : List Char) : List String :=
  (if text.head?.any isCapital then ["f"] else []) ++
    (if text.any isCapital && !text.any isSmall then ["a"] else []) ++
    if text.any isCapital && text.any isSmall then ["m"] else []

/-- The keys of numbers with what they say about a form, in the order of emission. -/
def numberMeanings : List (String × NumericFeature) :=
  [("H", .hour), ("M", .minute), ("d", .day), ("m", .month), ("y", .year), ("t", .time)]

/-- The keys of what a form may be as a number. -/
def numberKeys (form : String) : List String :=
  (numberMeanings.filter fun meaning => meaning.2.Admits form.toList).map Prod.fst

/-- The keys of a word, for the kinds that have features by key. -/
def keysOf (kind : Kind) (word : Word) : List String :=
  match kind with
  | lexical .form => [word.form]
  | lexical .lemmaId => [word.lemmaId]
  | lexical .rawLemma => [word.rawLemma]
  | lexical .tag => [word.tag]
  | lemmaTerm => (termClass? word.lemmaComments.toList).toList.map String.singleton
  | capitalization .form => caseKeys word.form.toList
  | capitalization .rawLemma => caseKeys word.rawLemma.toList
  | numericValue => numberKeys word.form
  | clusters _ | containers | gazetteers _ | earlierLabel | addresses _ => []

end Kind

namespace Extractor

/-- The feature of a key, known or not; the empty key has the window as its feature. -/
def featureAt (extractor : Extractor) (key : String) : FeatureId :=
  if key = "" then extractor.window else (extractor.table[key]?).getD FeatureId.unknown

/-- The features of a word, known or not: those of the cluster of its lemma, or those of its keys. -/
def ofWord (extractor : Extractor) (word : Word) : List FeatureId :=
  match extractor.kind with
  | .clusters clusters =>
      (extractor.table[word.rawLemma]?.bind fun cluster => clusters[cluster.toNat]?).getD []
  | kind => (kind.keysOf word).map extractor.featureAt

/-- The feature of the label of a token, if it has one. -/
def ofLabel (extractor : Extractor) (previous : PreviousLabel) : List FeatureId :=
  if previous.label = -1 then [] else [extractor.featureAt previous.key]

/-- The features that are found at a position of a sentence. -/
def localAt (extractor : Extractor) (sentence : Sentence) (position : Nat) : List FeatureId :=
  match extractor.kind with
  | .earlierLabel => foundAt sentence.previous extractor.ofLabel position
  | _ => foundAt sentence.words extractor.ofWord position

/-- The positions of which a token receives the features. -/
def neighbours (extractor : Extractor) (size token : Nat) : List Nat :=
  match extractor.kind with
  | .earlierLabel => extractor.window.before token
  | _ => extractor.window.around size token

/-- What a token receives from the border of the sentence, if attributes are looked at. -/
def fromBorder (extractor : Extractor) (size token : Nat) : List FeatureId :=
  match extractor.kind with
  | .lexical _ => borderIds extractor.window size token
  | _ => []

/-- What a token receives from its neighbourhood. -/
def pulled (extractor : Extractor) (sentence : Sentence) (token : Nat) : List FeatureId :=
  gathered (extractor.localAt sentence) (extractor.neighbours sentence.size token) token ++
    extractor.fromBorder sentence.size token

/-- The features of every word, emitted on the tokens around it. -/
def emittedByWord (extractor : Extractor) (sentence : Sentence) : List Emission :=
  emittedFrom sentence.words extractor.ofWord fun feature position =>
    .around feature position extractor.window

/-- The features of every label, emitted on the tokens behind it. -/
def emittedByLabel (extractor : Extractor) (sentence : Sentence) : List Emission :=
  emittedFrom sentence.previous extractor.ofLabel fun feature position =>
    ⟨feature, position, 1, extractor.window.toNat⟩

/-- The emissions for the border of the sentence, if attributes are looked at. -/
def borderMarks (extractor : Extractor) (size : Nat) : List Emission :=
  match extractor.kind with
  | .lexical _ => borderEmissions extractor.window size
  | _ => []

end Extractor

/-! ## The keys of a word -/

/-- The class of terms is the character behind the first mark. -/
theorem termClass?_eq_some_iff {text : List Char} {term : Char} :
    termClass? text = some term ↔
      ∃ front back, text = front ++ '_' :: ';' :: term :: back ∧
        ¬['_', ';'] <:+: front ++ ['_'] := by
  induction text using termClass?.induct with
  | case1 here rest =>
      rw [termClass?, Option.some.injEq]
      constructor
      · rintro rfl
        exact ⟨[], rest, rfl, by decide⟩
      · rintro ⟨front, back, same, first⟩
        rcases front with _ | ⟨_, _ | ⟨_, front⟩⟩
        · cases same
          rfl
        · cases same
        · simp only [List.cons_append, List.cons.injEq] at same
          rcases same with ⟨rfl, rfl, -⟩
          exact absurd ⟨[], front ++ ['_'], rfl⟩ first
  | case2 next rest unmarked ih =>
      rw [termClass?.eq_2 next rest unmarked, ih]
      constructor
      · rintro ⟨front, back, rfl, first⟩
        refine ⟨next :: front, back, rfl, ?_⟩
        rw [List.cons_append, List.infix_cons_iff]
        rintro (⟨behind, same⟩ | later)
        · -- A mark that begins here has a character behind it.
          rcases front with _ | ⟨_, front⟩
          · cases same
          · cases same
            rcases front with _ | ⟨_, front⟩
            · exact unmarked _ _ rfl rfl
            · exact unmarked _ _ rfl rfl
        · exact first later
      · rintro ⟨front, back, same, first⟩
        rcases front with _ | ⟨_, front⟩
        · cases same
          exact absurd rfl (unmarked _ _ rfl)
        · cases same
          exact ⟨front, back, rfl, fun later => first (List.infix_cons later)⟩
  | case3 => simp [termClass?]

theorem CaseFeature.map_key_of (text : String) :
    (CaseFeature.of text).map CaseFeature.key = Kind.caseKeys text.toList := by
  simp only [CaseFeature.of, CaseFeature.all, List.filter_cons, List.filter_nil, CaseFeature.holds,
    Kind.caseKeys]
  split <;> split <;> split <;> rfl

theorem NumericFeature.of_eq_filter (form : String) :
    NumericFeature.of form = NumericFeature.emitted.filter (·.Admits form.toList) := by
  have listed (feature : NumericFeature) : decide (feature.Admits form.toList) =
      decide (feature ∈ NumericFeature.of form) :=
    decide_eq_decide.mpr (NumericFeature.mem_of_iff form feature).symm
  simp only [listed]
  rw [NumericFeature.of]
  split
  next number rest _ =>
    apply List.filter_congr
    intro feature mem
    simp [List.mem_filter, mem]
  next => simp

theorem NumericFeature.map_key_of (form : String) :
    (NumericFeature.of form).map NumericFeature.key = Kind.numberKeys form := by
  have meanings : Kind.numberMeanings =
      NumericFeature.emitted.map fun feature => (feature.key, feature) := rfl
  rw [NumericFeature.of_eq_filter, Kind.numberKeys, meanings, List.filter_map, List.map_map]
  rfl

namespace Kind

variable {kind : Kind}

/-- The requests for the keys of a word at a position. -/
def asksFor (kind : Kind) (window : Window) (position : Int) (word : Word) : List Request :=
  (kind.keysOf word).map fun key => .around key position window

/-- Some keys are asked for in advance, and then those of the words in turn. -/
theorem exists_requests_eq (isLocal : kind.isLocal)
    (unclustered : ∀ clusters, kind ≠ .clusters clusters) (unlabelled : kind ≠ .earlierLabel)
    (window : Window) (sentence : Sentence) :
    ∃ reserved : List String, kind.requests window sentence =
      reserved.map .know ++ requestsByWord (kind.asksFor window) sentence.words := by
  cases kind with
  | containers | gazetteers _ | addresses _ => cases isLocal
  | clusters clusters => exact absurd rfl (unclustered clusters)
  | earlierLabel => exact absurd rfl unlabelled
  | lexical source => exact ⟨[], by cases source <;> rfl⟩
  | lemmaTerm =>
      refine ⟨[], ?_⟩
      rw [requests, termRequests, List.map_nil, List.nil_append]
      congr 1
      funext position word
      rw [asksFor, keysOf]
      cases termClass? word.lemmaComments.toList <;> rfl
  | capitalization source =>
      refine ⟨CaseFeature.keys, congrArg (_ ++ requestsByWord · sentence.words) ?_⟩
      funext position word
      have keys_eq : (capitalization source).keysOf word =
          (CaseFeature.of (source.of word)).map CaseFeature.key := by
        cases source <;> exact (CaseFeature.map_key_of _).symm
      rw [asksFor, keys_eq, List.map_map]
      rfl
  | numericValue =>
      refine ⟨NumericFeature.keys, congrArg (_ ++ requestsByWord · sentence.words) ?_⟩
      funext position word
      rw [asksFor, keysOf, ← NumericFeature.map_key_of, List.map_map]
      rfl

end Kind

/-! ## Emissions token by token -/

theorem KeyTable.answer_asksFor (table : KeyTable) (window : Window) (reserved : List String)
    (kind : Kind) (words : List Word) :
    table.answer window (reserved.map .know ++ requestsByWord (kind.asksFor window) words) =
      emittedFrom words (fun word => (kind.keysOf word).map (table.find window))
        fun feature position => .around feature position window := by
  have nothing : (reserved.map Request.know).flatMap (fun request =>
      request.emissions (table.find window request.key)) = [] := by
    simp [Request.emissions]
  rw [answer, List.flatMap_append, nothing, List.nil_append, requestsByWord, List.flatMap_assoc,
    emittedFrom]
  apply List.flatMap_congr
  rintro ⟨word, position⟩ -
  dsimp only
  rw [Kind.asksFor, List.flatMap_map, List.map_map]
  exact List.map_eq_flatMap.symm

namespace Extractor

variable {extractor : Extractor} {sentence : Sentence} {token : Nat}

theorem find_eq_featureAt (extractor : Extractor) :
    extractor.table.find extractor.window = extractor.featureAt := rfl

theorem answer_requests (isLocal : extractor.kind.isLocal)
    (unclustered : ∀ clusters, extractor.kind ≠ .clusters clusters)
    (unlabelled : extractor.kind ≠ .earlierLabel) :
    extractor.table.answer extractor.window (extractor.requests sentence) =
      extractor.emittedByWord sentence := by
  rcases Kind.exists_requests_eq isLocal unclustered unlabelled extractor.window sentence with
    ⟨reserved, asked⟩
  have keyed : extractor.ofWord = fun word =>
      (extractor.kind.keysOf word).map extractor.featureAt := by
    funext word
    simp only [ofWord]
  rw [requests, asked, KeyTable.answer_asksFor, find_eq_featureAt, emittedByWord, keyed]

theorem ofWord_of_lemmaTerm (noted : extractor.kind = .lemmaTerm) (word : Word) :
    extractor.ofWord word = (termClass? word.lemmaComments.toList).toList.map fun term =>
      extractor.featureAt (String.singleton term) := by
  simp only [ofWord, noted, Kind.keysOf, List.map_map, Function.comp_def]

theorem ofWord_of_clusters {clusters : ClusterTable}
    (clustered : extractor.kind = .clusters clusters) (word : Word) :
    extractor.ofWord word = clusters.featuresOf extractor.table word := by
  simp only [ofWord, clustered, ClusterTable.featuresOf]
  cases extractor.table[word.rawLemma]? <;> rfl

/-- The words come first, and only attributes mark the border behind them. -/
theorem emissions_eq_emittedByWord (isLocal : extractor.kind.isLocal)
    (unlabelled : extractor.kind ≠ .earlierLabel) :
    extractor.emissions sentence = extractor.emittedByWord sentence ++
      extractor.borderMarks sentence.features.length := by
  by_cases clustered : ∃ clusters, extractor.kind = .clusters clusters
  · rcases clustered with ⟨clusters, clustered⟩
    have byWord : extractor.emittedByWord sentence =
        clusters.emissions extractor.table extractor.window sentence := by
      simp only [emittedByWord, emittedFrom, ofWord_of_clusters clustered, ClusterTable.emissions]
    rw [byWord]
    rcases extractor with ⟨window, table, kind⟩
    cases clustered
    exact (List.append_nil _).symm
  · rw [not_exists] at clustered
    rw [emissions, answer_requests isLocal clustered unlabelled]
    congr 1
    rcases extractor with ⟨window, table, kind⟩
    cases kind with
    | clusters clusters => exact absurd rfl (clustered clusters)
    | containers | gazetteers _ | addresses _ => cases isLocal
    | lexical _ | lemmaTerm | capitalization _ | numericValue | earlierLabel => rfl

theorem emissions_eq_emittedByLabel (labelled : extractor.kind = .earlierLabel) :
    extractor.emissions sentence = extractor.emittedByLabel sentence := by
  rcases extractor with ⟨window, table, kind⟩
  cases labelled
  have asked : table.answer window (PreviousLabel.requests window sentence) =
      emittedByLabel ⟨window, table, .earlierLabel⟩ sentence := by
    rw [PreviousLabel.requests, KeyTable.answer, List.flatMap_assoc, emittedByLabel, emittedFrom]
    apply List.flatMap_congr
    rintro ⟨previous, position⟩ -
    dsimp only
    by_cases silent : previous.label = -1
    · simp [ofLabel, PreviousLabel.isGiven, silent]
    · have given : previous.isGiven = true := bne_iff_ne.mpr silent
      rw [if_pos given, ofLabel, if_neg silent]
      rfl
  rw [emissions, requests, Kind.requests, asked]
  exact List.append_nil _

/-! ## From emissions to what a token receives -/

theorem flatMap_idsOn_emittedFrom {Item : Type} (items : List Item)
    (featuresOf : Item → List FeatureId) (place : FeatureId → Nat → Emission)
    (size token : Nat) :
    (emittedFrom items featuresOf place).flatMap (Emission.idsOn size token) =
      (List.range items.length).flatMap fun position =>
        (foundAt items featuresOf position).flatMap fun feature =>
          (place feature position).idsOn size token := by
  rw [emittedFrom, List.flatMap_assoc, flatMap_zipIdx_eq_range]
  apply List.flatMap_congr
  intro position _
  rw [foundAt]
  cases items[position]? with
  | none => rfl
  | some item => simp [List.flatMap_map]

theorem mem_emittedFrom {Item : Type} {items : List Item} {featuresOf : Item → List FeatureId}
    {place : FeatureId → Nat → Emission} {position : Nat} {feature : FeatureId}
    (found : feature ∈ foundAt items featuresOf position) :
    place feature position ∈ emittedFrom items featuresOf place := by
  rw [foundAt] at found
  cases present : items[position]? with
  | none => simp [present] at found
  | some item =>
      rw [present] at found
      apply List.mem_flatMap.mpr
      exact ⟨(item, position), List.mem_zipIdx_iff_getElem?.mpr present, List.mem_map_of_mem found⟩

/-- Emitting token by token is the same as gathering what is near. -/
theorem flatMap_idsOn_emissions (isLocal : extractor.kind.isLocal)
    (sized : sentence.features.length = sentence.size) (inside : token < sentence.size) :
    (extractor.emissions sentence).flatMap (Emission.idsOn sentence.size token) =
      extractor.pulled sentence token := by
  rw [pulled]
  by_cases labelled : extractor.kind = .earlierLabel
  · have vanishes (position : Nat) (behind : sentence.previous.length ≤ position) :
        foundAt sentence.previous extractor.ofLabel position = [] := by
      rw [foundAt, List.getElem?_eq_none behind]
      rfl
    rw [emissions_eq_emittedByLabel labelled, emittedByLabel, flatMap_idsOn_emittedFrom,
      flatMap_idsOn_behind inside vanishes]
    rcases extractor with ⟨window, table, kind⟩
    cases labelled
    exact (List.append_nil _).symm
  · have words : (extractor.emittedByWord sentence).flatMap
          (Emission.idsOn sentence.size token) =
        gathered (foundAt sentence.words extractor.ofWord)
          (extractor.window.around sentence.size token) token := by
      rw [emittedByWord, flatMap_idsOn_emittedFrom]
      exact flatMap_idsOn_around inside
    rw [emissions_eq_emittedByWord isLocal labelled, List.flatMap_append, words, sized]
    rcases extractor with ⟨window, table, kind⟩
    cases kind with
    | containers | gazetteers _ | addresses _ => cases isLocal
    | earlierLabel => exact absurd rfl labelled
    | lexical source => exact congrArg (_ ++ ·) (flatMap_idsOn_borderEmissions inside)
    | clusters _ | lemmaTerm | capitalization _ | numericValue => rfl

theorem near_of_mem_neighbours {size position : Nat}
    (near : position ∈ extractor.neighbours size token) :
    token ≤ position + extractor.window.toNat ∧ position ≤ token + extractor.window.toNat := by
  rw [neighbours] at near
  split at near
  next =>
    rcases Window.mem_before.mp near with ⟨behind, close⟩
    omega
  next => exact (Window.mem_around.mp near).2

/-- What is farther away than the window has no influence on what a token receives. -/
theorem pulled_eq_of_near {left right : Sentence} (size_eq : right.size = left.size)
    (near_eq : ∀ position, token ≤ position + extractor.window.toNat →
      position ≤ token + extractor.window.toNat →
      right.words[position]? = left.words[position]? ∧
        right.previous[position]? = left.previous[position]?) :
    extractor.pulled right token = extractor.pulled left token := by
  have sameFeatures : ∀ position ∈ extractor.neighbours left.size token,
      extractor.localAt right position = extractor.localAt left position := by
    intro position mem
    rcases near_of_mem_neighbours mem with ⟨low, high⟩
    rcases near_eq position low high with ⟨words_eq, previous_eq⟩
    simp only [localAt, foundAt, words_eq, previous_eq]
  rw [pulled, pulled, size_eq, gathered, gathered]
  congr 1
  apply List.flatMap_congr
  intro position mem
  rw [sameFeatures position mem]

end Extractor

end EntityFeatures

import EntityFeatures.Proofs.Extractor.Origin
import EntityFeatures.Proofs.Extractor.Requests
import EntityFeatures.Proofs.Pipeline.Composition
import EntityFeatures.Proofs.Pipeline.Ownership
import EntityFeatures.Proofs.Pipeline.RoundTrip

/-!
# Where the ids on a token come from

An id on a token is the feature that was found at a position, shifted by the distance of
the token. The numbers of 32 bits are added without a check, so that nothing wraps around,
and that no extractor emits an id of another one, depends on how the ids were given out.

`Pipeline.Accounts` is what holds of one emission on one token. Either the id is in a block
of the extractor, or an attribute is missing at the position, and then the ids up to twice
the window are shared by all extractors of attributes. What is emitted for a key is
accounted for by the ledger of the blocks, `Ledger.accounts_of_mem_answer`. What clusters
and gazetteers emit refers to the blocks that they took when the template was read; this is
`Setup.configure_emitsFrom`, and `Pipeline.Sound` carries it through the later life of a
pipeline, since learning does not change these kinds.

`Pipeline.accountsFor_annotate_learn` puts it together for all ids of a sentence. Nothing
can be said there of a gazetteer with more entries than 32 bits can number, as two phrases
would come to share an entry.
-/

namespace EntityFeatures

namespace Extractor

/-- What an extractor without keys emits has the centres of blocks that are owned. -/
def EmitsFrom (owned : BlockName → Nat → Prop) (extractor : Extractor) : Prop :=
  ¬extractor.kind.isKeyed → ∀ (sentence : Sentence), ∀ emission ∈ extractor.direct sentence,
    ∃ (name : BlockName) (position : Nat), (∀ key, name ≠ .key key) ∧ position < sentence.size ∧
      owned name emission.feature.toNat ∧
      emission = .around emission.feature position extractor.window

/-- The entries of a gazetteer are no more than 32 bits can number. -/
def NumbersEntries (extractor : Extractor) : Prop :=
  ∀ entries, extractor.kind = .gazetteers entries → entries.size ≤ UInt32.size

/-- The feature of every role that fits into a phrase is computed without wrapping around. -/
def ComputesRoles (extractor : Extractor) : Prop :=
  ∀ entries, extractor.kind = .gazetteers entries →
    ∀ (lemmas : List String) (start final : Nat) (entry : PhraseEntry),
      start ≤ final → final < lemmas.length →
      entries.find? extractor.table (PhraseSearch.textOf lemmas start final) = some entry →
      ∀ generic ∈ entry.features, ∀ role : PhraseRole, role.shortest ≤ final + 1 - start →
        (role.feature extractor.window generic).toNat =
          generic.toNat + role.index.toNat * extractor.window.blockLength

end Extractor

namespace Setup

variable {resources : Resources} {window : Int32} {arguments : List String} {types : Registry}
  {total : FeatureId} {after : Setup} {name : ExtractorName}

/-- The entries of gazetteers answer for the lines of the files. -/
theorem find?_of_readFiles {window : Window} {reading : PhraseReading}
    (filesRead : PhraseReading.readFiles resources window arguments { total } = .ok () reading)
    (numbered : reading.entries.size ≤ UInt32.size) (phrase : String) :
    (reading.entries.find? reading.phrases phrase).getD {} =
      PhraseFile.entryOf (PhraseFile.markedLines resources window total.toNat arguments) phrase := by
  rcases PhraseReading.readFiles_eq_ok filesRead with ⟨-, added⟩
  rw [added] at numbered ⊢
  exact PhraseFile.find?_addMarked numbered phrase

theorem clusters_emitFrom
    (done : configure resources window arguments ⟨.ofName .brownClusters, types, total⟩ =
      .ok () after) :
    after.extractor.EmitsFrom
      (Order.Takes resources ⟨.brownClusters, window, arguments⟩ total.toNat) := by
  rcases configure_of_clusters done with
    ⟨path, rest, lengths, text, reading, rfl, lengthsRead, textRead, linesRead, extractor_eq⟩
  rcases ClusterReading.readText_eq_ok linesRead with ⟨-, reflects, formsReflect, -⟩
  rw [extractor_eq]
  intro _ sentence emission mem
  rcases ClusterReading.origin_of_mem_emissions reflects formsReflect mem with
    ⟨position, rank, string, inside, emission_eq, listed, centred⟩
  have taken : (Order.reserved resources ⟨.brownClusters, window, path :: rest⟩)[rank]? =
      some (.clusterString string) :=
    getElem?_reserved_clusters rfl rfl lengthsRead textRead listed
  refine ⟨.clusterString string, position, ?_, inside, ⟨rank, taken, centred⟩, emission_eq⟩
  intro key same
  cases same

theorem gazetteers_emitFrom
    (done : configure resources window arguments ⟨.ofName .gazetteers, types, total⟩ =
      .ok () after)
    (numbered : after.extractor.NumbersEntries) :
    after.extractor.EmitsFrom
        (Order.Takes resources ⟨.gazetteers, window, arguments⟩ total.toNat) ∧
      after.extractor.ComputesRoles := by
  rcases configure_of_gazetteers done with ⟨reading, filesRead, total_eq, extractor_eq⟩
  have counted := (PhraseReading.readFiles_eq_ok filesRead).1
  have room := reading.total.toNat_lt_size
  rw [counted] at room
  rw [extractor_eq] at numbered ⊢
  have found := find?_of_readFiles filesRead (numbered reading.entries rfl)
  constructor
  · intro _ sentence emission mem
    have emitted := PhraseSearch.emissions_eq_marks room found sentence
    change emission ∈ reading.entries.emissions reading.phrases (windowOf window) sentence at mem
    rw [emitted] at mem
    rcases List.mem_map.mp mem with ⟨mark, marked, rfl⟩
    rcases PhraseSearch.origin_of_mem_marks marked with
      ⟨file, path, role, inside, fileFound, occurs, feature_eq⟩
    have within := PhraseFile.blocksBefore_add_le resources fileFound
    have centred : (UInt32.ofNat mark.feature).toNat = mark.feature := by
      rw [feature_eq, PhraseFile.featureOf, Window.toNat_ofNat_centre (by omega) room]
    have taken : (Order.reserved resources ⟨.gazetteers, window, arguments⟩)[
        PhraseFile.blocksBefore resources arguments file + role.index.toNat]? =
          some (.phraseRole file role) :=
      getElem?_reserved_phrases rfl fileFound occurs
    rw [List.length_map] at inside
    refine ⟨.phraseRole file role, mark.token, ?_, inside, ⟨_, taken, ?_⟩, rfl⟩
    · intro key same
      cases same
    · change (UInt32.ofNat mark.feature).toNat = _
      rw [centred, feature_eq, PhraseFile.featureOf]
  · intro entries same lemmas start final entry ordered inside listed generic stored role fits
    cases same
    have answer := found (PhraseSearch.textOf lemmas start final)
    rw [listed, Option.getD_some] at answer
    rw [answer] at stored
    exact PhraseFile.feature_eq_of_complete room ordered inside fits stored

theorem configure_emitsFrom
    (done : configure resources window arguments ⟨.ofName name, types, total⟩ = .ok () after)
    (numbered : after.extractor.NumbersEntries) :
    after.extractor.EmitsFrom
        (Order.Takes resources ⟨name, window, arguments⟩ total.toNat) ∧
      after.extractor.ComputesRoles := by
  have sameName : after.extractor.name = (Extractor.ofName name).name :=
    (name_and_window_of_configure done).1
  simp only [Extractor.name, Extractor.ofName, Kind.name_ofName] at sameName
  cases kind : after.extractor.kind with
  | clusters clusters =>
      rw [kind] at sameName
      subst sameName
      refine ⟨clusters_emitFrom done, ?_⟩
      intro entries same
      rw [kind] at same
      cases same
  | gazetteers entries =>
      rw [kind] at sameName
      subst sameName
      exact gazetteers_emitFrom done numbered
  | containers | addresses _ =>
      constructor
      · intro _ sentence emission mem
        rw [Extractor.direct, kind] at mem
        cases mem
      · intro entries same
        rw [kind] at same
        cases same
  | lemmaTerm | lexical _ | capitalization _ | numericValue | earlierLabel =>
      constructor
      · intro unkeyed
        rw [kind] at unkeyed
        exact absurd rfl unkeyed
      · intro entries same
        rw [kind] at same
        cases same

/-- The ids of one feature fit into 32 bits. -/
theorem blockLength_lt_of_configure
    (done : configure resources window arguments ⟨.ofName name, types, total⟩ = .ok () after) :
    after.extractor.window.blockLength < UInt32.size := by
  rcases configure_eq_ok done with ⟨-, -, ⟨behind, fits⟩, -⟩
  rw [FeatureId.blocksEnd?, FeatureId.ofNat?_eq_some_iff] at fits
  have bound := behind.toNat_lt_size
  rw [(name_and_window_of_configure done).2]
  omega

end Setup

namespace Pipeline

variable {resources : Resources} {reserved : List Block}

/-- What is known of an extractor at a place of a pipeline, whatever has been learned. -/
structure Sound (reserved : List Block) (place : Nat) (extractor : Extractor) : Prop where
  blockLength_lt : extractor.window.blockLength < UInt32.size
  computesRoles : extractor.NumbersEntries → extractor.ComputesRoles
  emitsFrom : extractor.NumbersEntries → extractor.EmitsFrom fun name centre =>
    ⟨place, name, extractor.window, centre⟩ ∈ reserved

theorem Sound.of_growsInto {before after : Extractor} {total later : FeatureId} {place : Nat}
    (sound : Sound reserved place before) (grows : before.GrowsInto total after later) :
    Sound reserved place after := by
  rcases before with ⟨window, table, kind⟩
  rcases after with ⟨laterWindow, laterTable, laterKind⟩
  rcases grows with ⟨rfl, rfl, -, table_eq⟩
  by_cases keyed : laterKind.isKeyed
  · refine ⟨sound.blockLength_lt, ?_, fun _ unkeyed => absurd keyed unkeyed⟩
    intro _ entries same
    dsimp only at same
    rw [same] at keyed
    cases keyed
  · cases table_eq keyed
    exact sound

theorem sound_of_configures {orders : List Order} {before after : Pipeline}
    (configures : Configures resources orders before after) :
    ∃ extractors, after.extractors = before.extractors ++ extractors ∧
      ∀ (index : Nat) (extractor : Extractor), extractors[index]? = some extractor →
        Sound (Order.blocks resources before.extractors.length before.total.toNat orders)
          (before.extractors.length + index) extractor := by
  rcases exists_configure_of_configures configures with ⟨extractors, after_eq, -, known⟩
  refine ⟨extractors, after_eq, ?_⟩
  intro index extractor found
  rcases known index extractor found with ⟨order, types, total, setup, -, rfl, done, taken⟩
  refine ⟨Setup.blockLength_lt_of_configure done,
    fun numbered => (Setup.configure_emitsFrom done numbered).2, ?_⟩
  intro numbered unkeyed sentence emission mem
  rcases (Setup.configure_emitsFrom done numbered).1 unkeyed sentence emission mem with
    ⟨name, position, notKey, inside, takes, emission_eq⟩
  exact ⟨name, position, notKey, inside, taken name _ takes, emission_eq⟩

end Pipeline

/-- There is no word at the position, or the word does not have the attribute. -/
def Sentence.Lacks (sentence : Sentence) (source : Attribute) (position : Int) : Prop :=
  position < 0 ∨ sentence.size ≤ position ∨
    ∃ (inside : Nat) (word : Word), position = inside ∧
      sentence.words[inside]? = some word ∧ source.of word = ""

namespace Pipeline

/-- Why an id that a token receives of an emission belongs to the extractor at a place. -/
inductive Justifies (reserved : List Block) (pipeline : Pipeline) (sentence : Sentence)
    (place : Nat) (extractor : Extractor) (emission : Emission) (token : Nat)
    (id : FeatureId) : Prop
  /-- An attribute is missing at the position, which may lie outside the sentence. -/
  | border {source : Attribute} :
      extractor.kind = .lexical source → sentence.Lacks source emission.anchor →
      emission.feature = extractor.window →
      -(extractor.window.toNat : Int) ≤ token - emission.anchor →
      (token : Int) - emission.anchor ≤ extractor.window.toNat →
      id.toNat ≤ 2 * extractor.window.toNat →
      Justifies reserved pipeline sentence place extractor emission token id
  /-- The id is in a block of the extractor, at the distance from a position of the sentence. -/
  | own {block : Block} {position : Nat} :
      pipeline.Owns reserved block → block.owner = place → block.window = extractor.window →
      emission.anchor = position → position < sentence.size →
      block.Gives (token - position) id.toNat → id.toNat < pipeline.total.toNat →
      Justifies reserved pipeline sentence place extractor emission token id

/-- The id is computed without wrapping around, for a reason, and is not the unknown feature. -/
structure Accounts (reserved : List Block) (pipeline : Pipeline) (sentence : Sentence)
    (place : Nat) (extractor : Extractor) (emission : Emission) (token : Nat)
    (id : FeatureId) : Prop where
  computed : (id.toNat : Int) = emission.feature.toNat + token - emission.anchor
  known : id ≠ FeatureId.unknown
  justifies : Justifies reserved pipeline sentence place extractor emission token id

section Emissions

variable {blocks : List Block} {pipeline : Pipeline} {extractor : Extractor}
  {sentence : Sentence} {place token position : Nat} {emission : Emission}

/-- A block that is owned holds the ids of its feature on all tokens within the window. -/
theorem Ledger.accounts_of_owns (ledger : Ledger reserved blocks pipeline) {name : BlockName}
    (owned : pipeline.Owns reserved ⟨place, name, extractor.window, emission.feature.toNat⟩)
    (anchor_eq : emission.anchor = position) (inside : position < sentence.size)
    (low : -(extractor.window.toNat : Int) ≤ token - position)
    (high : (token : Int) - position ≤ extractor.window.toNat) :
    Accounts reserved pipeline sentence place extractor emission token (emission.idAt token) := by
  have room := ledger.tiles.room ((ledger.mem_iff _).mpr owned)
  have bound := pipeline.total.toNat_lt_size
  dsimp only at room
  rw [← anchor_eq] at low high
  rcases Emission.idAt_of_within (by omega) (by omega) low high with ⟨computed, known⟩
  refine ⟨computed, known, .own owned rfl rfl anchor_eq inside ⟨?_, ?_, ?_⟩ (by omega)⟩
  all_goals
    dsimp only
    omega

theorem accounts_of_lacks (fits : extractor.window.blockLength < UInt32.size)
    {source : Attribute} (isLexical : extractor.kind = .lexical source)
    (lacks : sentence.Lacks source emission.anchor)
    (feature_eq : emission.feature = extractor.window)
    (low : -(extractor.window.toNat : Int) ≤ token - emission.anchor)
    (high : (token : Int) - emission.anchor ≤ extractor.window.toNat) :
    Accounts reserved pipeline sentence place extractor emission token (emission.idAt token) := by
  rw [Window.blockLength] at fits
  have feature_toNat := congrArg UInt32.toNat feature_eq
  rcases Emission.idAt_of_within (by omega) (by omega) low high with ⟨computed, known⟩
  exact ⟨computed, known, .border isLexical lacks feature_eq low high (by omega)⟩

/-- What is emitted for a key is accounted for by the border or by the block of the key. -/
theorem Ledger.accounts_of_mem_answer (ledger : Ledger reserved blocks pipeline)
    (found : pipeline.extractors[place]? = some extractor)
    (fits : extractor.window.blockLength < UInt32.size)
    (mem : emission ∈ extractor.table.answer extractor.window (extractor.requests sentence))
    (target : token ∈ emission.targets sentence.size) :
    Accounts reserved pipeline sentence place extractor emission token (emission.idAt token) := by
  rcases KeyTable.mem_answer.mp mem with ⟨key, anchor, left, right, asked, rfl⟩
  rcases Kind.asks_of_mem_requests asked with ⟨position, rfl, asks⟩
  rcases Emission.mem_targets.mp target with ⟨known, low, high, inSentence⟩
  have fromLeft := asks.left_le
  have toRight := asks.le_right
  dsimp only at known low high
  -- The empty key has the window for its feature, and no block.
  by_cases empty : key = ""
  · rcases asks.lexical empty with ⟨source, word, isLexical, worded, lacks⟩
    refine accounts_of_lacks fits isLexical
      (Or.inr (Or.inr ⟨position, word, rfl, worded, lacks⟩)) ?_ ?_ ?_
    · simp [KeyTable.find, empty]
    · dsimp only
      omega
    · dsimp only
      omega
  · cases feature : extractor.table[key]? with
    | none =>
        -- The feature would be unknown, which no token receives.
        rw [KeyTable.find, if_neg empty, feature, Option.getD_none] at known
        exact absurd rfl known
    | some feature =>
        have keyed : extractor.kind.isKeyed := by
          by_contra unkeyed
          rw [Extractor.requests, Kind.requests_of_not_isKeyed unkeyed] at asked
          cases asked
        have behind := asks.behind
        rw [KeyTable.find_of_getElem? _ empty feature]
        refine ledger.accounts_of_owns (Owns.entry found keyed feature) rfl ?_ ?_ ?_
        · omega
        · omega
        · omega

/-- Whatever an extractor emits is accounted for on every token that receives it. -/
theorem Ledger.accounts (ledger : Ledger reserved blocks pipeline)
    (found : pipeline.extractors[place]? = some extractor)
    (sound : Sound reserved place extractor) (numbered : extractor.NumbersEntries)
    (mem : emission ∈ extractor.emissions sentence.begin)
    (target : token ∈ emission.targets sentence.size) :
    Accounts reserved pipeline sentence place extractor emission token (emission.idAt token) := by
  rcases List.mem_append.mp mem with answered | direct
  · exact ledger.accounts_of_mem_answer found sound.blockLength_lt answered target
  · rcases Emission.mem_targets.mp target with ⟨-, low, high, -⟩
    by_cases keyed : extractor.kind.isKeyed
    · cases kind : extractor.kind with
      | lexical source =>
          -- Beside its keys an extractor of attributes marks the borders of the sentence.
          rw [Extractor.direct, kind] at direct
          rcases exists_anchor_of_mem_borderEmissions direct with ⟨anchor, outside, rfl⟩
          simp only [Sentence.begin, List.length_replicate] at outside
          simp only [Emission.around] at low high
          refine accounts_of_lacks sound.blockLength_lt kind ?_ rfl ?_ ?_
          · exact outside.imp_right Or.inl
          · simp only [Emission.around]
            omega
          · simp only [Emission.around]
            omega
      | lemmaTerm | capitalization _ | numericValue | earlierLabel =>
          rw [Extractor.direct, kind] at direct
          cases direct
      | clusters _ | containers | gazetteers _ | addresses _ =>
          rw [kind] at keyed
          cases keyed
    · rcases sound.emitsFrom numbered keyed sentence.begin emission direct with
        ⟨name, position, notKey, inside, owned, emission_eq⟩
      rw [emission_eq] at low high
      simp only [Emission.around] at low high
      refine ledger.accounts_of_owns (Owns.reserved owned notKey) ?_ inside ?_ ?_
      · rw [emission_eq]
        rfl
      · omega
      · omega

end Emissions

section Histories

variable {resources : Resources} {template : List UInt8} {types : Registry}
  {pipeline : Pipeline}

/-- The pipelines that come of a template by learning, by saving them and by reading them back. -/
inductive DescendsFrom (resources : Resources) (template : List UInt8) (types : Registry) :
    Pipeline → Prop
  | configured {pipeline : Pipeline} :
      (ofTemplate resources template types).1 = .ok pipeline →
      DescendsFrom resources template types pipeline
  | learned {pipeline : Pipeline} (sentence : Sentence) :
      DescendsFrom resources template types pipeline →
      DescendsFrom resources template types (pipeline.learn sentence).1
  | restored {pipeline receiver restored : Pipeline} {written rest left : List UInt8} :
      DescendsFrom resources template types pipeline → pipeline.save = .ok written →
      load (receiver, written ++ rest) = .ok () (restored, left) →
      DescendsFrom resources template types restored

theorem DescendsFrom.reachable (descends : DescendsFrom resources template types pipeline) :
    Reachable pipeline := by
  induction descends with
  | configured read => exact .configured read
  | learned sentence _ ih => exact .learned sentence ih
  | restored _ _ done _ => exact .loaded done

theorem DescendsFrom.train (descends : DescendsFrom resources template types pipeline)
    (sentences : List Sentence) :
    DescendsFrom resources template types (pipeline.train sentences) := by
  induction sentences generalizing pipeline with
  | nil => exact descends
  | cons sentence rest ih => exact ih (descends.learned sentence)

/-- A ledger of the blocks, and what is known of the extractors, go with a pipeline for ever. -/
theorem DescendsFrom.ledger (descends : DescendsFrom resources template types pipeline) :
    let layout := Order.blocks resources 0 1 (Order.ofTemplate template)
    (∃ blocks, Ledger layout blocks pipeline) ∧
      ∀ (place : Nat) (extractor : Extractor), pipeline.extractors[place]? = some extractor →
        Sound layout place extractor := by
  intro layout
  induction descends with
  | configured read =>
      rcases sound_of_configures (configures_of_ofTemplate read) with ⟨extractors, same, known⟩
      simp only [List.nil_append, List.length_nil, Nat.zero_add] at same known
      subst same
      exact ⟨⟨layout, Ledger.of_ofTemplate read⟩, known⟩
  | @learned before sentence _ ih =>
      rcases ih with ⟨⟨blocks, ledger⟩, known⟩
      have reaches := before.reaches_learn sentence
      rcases ledger.of_reaches reaches with ⟨more, grown⟩
      refine ⟨⟨blocks ++ more, grown⟩, ?_⟩
      intro place extractor found
      rcases (GrowsInto.of_reaches reaches).exists_before found with ⟨earlier, earlierFound, grows⟩
      exact (known place earlier earlierFound).of_growsInto grows
  | @restored before receiver restored written rest left descends saved done ih =>
      have back := consumes_load descends.reachable.containersBlank saved receiver rest
      rw [back] at done
      cases done
      exact ih

/-- The ids on the tokens of a sentence are all accounted for. -/
structure AccountsFor (reserved : List Block) (pipeline : Pipeline) (sentence : Sentence)
    (features : FeatureLists) : Prop where
  /-- A token has the omnipresent feature and then the ids that the extractors emit on it. -/
  collected : features.length = sentence.size ∧ ∀ token < sentence.size,
    features[token]? = some (FeatureId.omnipresent :: pipeline.extractors.flatMap fun extractor =>
      (extractor.emissions sentence.begin).flatMap (Emission.idsOn sentence.size token))
  accounts : ∀ (place : Nat) (extractor : Extractor),
    pipeline.extractors[place]? = some extractor → extractor.NumbersEntries →
    ∀ emission ∈ extractor.emissions sentence.begin, ∀ (token : Nat),
      ∀ id ∈ emission.idsOn sentence.size token,
        Accounts reserved pipeline sentence place extractor emission token id
  blockLength_lt : ∀ extractor ∈ pipeline.extractors,
    extractor.window.blockLength < UInt32.size
  computesRoles : ∀ extractor ∈ pipeline.extractors,
    extractor.NumbersEntries → extractor.ComputesRoles

theorem DescendsFrom.accountsFor (descends : DescendsFrom resources template types pipeline)
    (sentence : Sentence) :
    AccountsFor (Order.blocks resources 0 1 (Order.ofTemplate template)) pipeline sentence
      (pipeline.annotate sentence).features := by
  rcases descends.ledger with ⟨⟨blocks, ledger⟩, known⟩
  refine ⟨⟨pipeline.length_features_annotate sentence, ?_⟩, ?_, ?_, ?_⟩
  · intro token inside
    exact pipeline.getElem?_features_annotate sentence inside
  · intro place extractor found numbered emission mem token id received
    rcases Emission.mem_idsOn.mp received with ⟨target, rfl⟩
    exact ledger.accounts found (known place extractor found) numbered mem target
  · intro extractor mem
    rcases List.mem_iff_getElem?.mp mem with ⟨place, found⟩
    exact (known place extractor found).blockLength_lt
  · intro extractor mem
    rcases List.mem_iff_getElem?.mp mem with ⟨place, found⟩
    exact (known place extractor found).computesRoles

/--
Whatever a pipeline emits, reading or learning, are ids of the extractor that emits them,
at the distance from a position that it found something at, or one of the least ids where
an attribute is missing. They are computed without wrapping around, and none is unknown.
-/
theorem accountsFor_annotate_learn (descends : DescendsFrom resources template types pipeline)
    (sentence : Sentence) :
    let layout := Order.blocks resources 0 1 (Order.ofTemplate template)
    AccountsFor layout pipeline sentence (pipeline.annotate sentence).features ∧
      AccountsFor layout (pipeline.learn sentence).1 sentence
        (pipeline.learn sentence).2.features := by
  refine ⟨descends.accountsFor sentence, ?_⟩
  -- What is emitted while learning is what the learned pipeline emits.
  have still : GrowsInto (pipeline.learn sentence).1 (pipeline.learn sentence).1 :=
    GrowsInto.of_reaches Relation.ReflTransGen.refl
  have agrees : sentence.begin.Agrees sentence.begin := ⟨_, rfl⟩
  rw [← (learn_of_growsInto agrees still).2.features_eq]
  exact (descends.learned sentence).accountsFor sentence

theorem accountsFor_annotate_learn_new_york :
    ∃ (resources : Resources) (pipeline : Pipeline),
      let template := Utf8.encode "Form 1\nGazetteers 1 cities"
      let sentence := Sentence.ofWords [.ofLemma "a" "New", .ofLemma "b" "York"]
      let layout := Order.blocks resources 0 1 (Order.ofTemplate template)
      DescendsFrom resources template ⟨[]⟩ pipeline ∧
        (∀ extractor ∈ pipeline.extractors, extractor.NumbersEntries) ∧
        (pipeline.learn sentence).2.features =
          [[0, 14, 16, 2, 2, 8, 1, 10], [0, 15, 17, 0, 3, 9, 2, 11]] ∧
        AccountsFor layout (pipeline.learn sentence).1 sentence
          (pipeline.learn sentence).2.features := by
  let resources : Resources := fun path =>
    if path = "cities" then some (Utf8.encode "New York\nPraha") else none
  let template := Utf8.encode "Form 1\nGazetteers 1 cities"
  let sentence := Sentence.ofWords [.ofLemma "a" "New", .ofLemma "b" "York"]
  have evaluated : ((ofTemplate resources template ⟨[]⟩).1.toOption.map fun start =>
      (start.extractors.map Extractor.kind, (start.learn sentence).2.features)) =
        some ([.lexical .form, .gazetteers #[⟨[], true⟩, ⟨[2], false⟩, ⟨[2], false⟩]],
          [[0, 14, 16, 2, 2, 8, 1, 10], [0, 15, 17, 0, 3, 9, 2, 11]]) := by
    decide +kernel
  rcases Option.map_eq_some_iff.mp evaluated with ⟨start, found, known⟩
  rcases Prod.mk.inj known with ⟨kinds, features⟩
  have descends : DescendsFrom resources template ⟨[]⟩ start :=
    .configured (eq_ok_of_toOption found)
  refine ⟨resources, start, descends, ?_, features,
    (accountsFor_annotate_learn descends sentence).2⟩
  intro extractor mem entries same
  have listed : extractor.kind ∈ start.extractors.map Extractor.kind := List.mem_map_of_mem mem
  rw [kinds, same] at listed
  simp only [List.mem_cons, List.not_mem_nil, or_false, reduceCtorEq, false_or] at listed
  cases listed
  decide

end Histories

end Pipeline

end EntityFeatures

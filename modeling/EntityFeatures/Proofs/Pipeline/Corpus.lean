import EntityFeatures.Proofs.Extractor.Requests
import EntityFeatures.Proofs.Feature.Discovery
import EntityFeatures.Proofs.Pipeline.Agreement
import EntityFeatures.Proofs.Pipeline.Layout
import EntityFeatures.Proofs.Pipeline.Settlement
import Mathlib.Algebra.GroupWithZero.Nat

/-!
# What is learned from a corpus

Which keys a pipeline learns from a corpus does not depend on the order in which the
sentences come, or on how often each of them comes, provided that there are ids enough
for all keys. `Kind.vocabulary` are the keys, read off the corpus without any pipeline,
and `Pipeline.train_learns_vocabulary` is the main statement. Only the features of the
keys depend on the order: within an extractor they ascend as the keys come up first.

Several extractors take ids from one counter, each when it meets a new key, and so the
blocks of one extractor are mixed with those of others. The proof keeps two views apart.
Seen from one extractor the training is a history of lookups during which the counter
goes on by itself, as in `Vocabulary.Consults`. Seen from the counter every key of a
table has been paid for with a block, so `Pipeline.train_total` finds the counter from
the sizes of the tables. A key that was refused would mean that the counter had gone
beyond what all keys together need.
-/

namespace EntityFeatures

namespace Kind

/-- The keys that an extractor of a kind may learn from a sentence, in the order of asking. -/
def learnable (kind : Kind) (sentence : Sentence) : List String :=
  match kind with
  | lexical source => (sentence.words.map source.of).filter (· ≠ "")
  | lemmaTerm =>
      sentence.words.filterMap fun word =>
        (termClass? word.lemmaComments.toList).map String.singleton
  | earlierLabel => (sentence.previous.filter PreviousLabel.isGiven).map PreviousLabel.key
  | clusters _ | containers | capitalization _ | gazetteers _ | numericValue | addresses _ => []

/-- The different keys that sentences teach an extractor of a kind, as they come up first. -/
def vocabulary (kind : Kind) (sentences : List Sentence) : List String :=
  (sentences.flatMap kind.learnable).eraseDups

theorem mem_vocabulary {kind : Kind} {sentences : List Sentence} {key : String} :
    key ∈ kind.vocabulary sentences ↔
      ∃ sentence ∈ sentences, key ∈ kind.learnable sentence := by
  rw [vocabulary, List.mem_eraseDups, List.mem_flatMap]

/-- The keys of a corpus are the same however it is put in order. -/
theorem length_vocabulary (kind : Kind) {corpus order : List Sentence}
    (same : ∀ sentence, sentence ∈ order ↔ sentence ∈ corpus) :
    (kind.vocabulary order).length = (kind.vocabulary corpus).length := by
  have keys : ∀ key, key ∈ kind.vocabulary order ↔ key ∈ kind.vocabulary corpus := by
    intro key
    simp only [mem_vocabulary, same]
  have perm := (List.perm_ext_iff_of_nodup (nodup_eraseDups _) (nodup_eraseDups _)).mpr keys
  exact perm.length_eq

end Kind

namespace Extractor

/-- The keys that an extractor asks for in sentences. -/
def asks (extractor : Extractor) (sentences : List Sentence) : List String :=
  sentences.flatMap fun sentence => (extractor.requests sentence).map Request.key

end Extractor

section Requests

variable {window : Window} {sentence : Sentence}

theorem map_key_requests_lexical (source : Attribute) :
    ((Kind.lexical source).requests window sentence).map Request.key =
      sentence.words.map source.of := by
  simp only [Kind.requests, Attribute.requests, List.map_eq_flatMap (f := source.of)]
  apply map_key_requestsByWord
  intro _ _
  rfl

theorem map_key_requests_lemmaTerm :
    (Kind.lemmaTerm.requests window sentence).map Request.key =
      Kind.lemmaTerm.learnable sentence := by
  simp only [Kind.requests, termRequests, Kind.learnable, List.filterMap_eq_flatMap_toList]
  apply map_key_requestsByWord
  intro _ word
  cases termClass? word.lemmaComments.toList <;> rfl

theorem map_key_requests_earlierLabel :
    (Kind.earlierLabel.requests window sentence).map Request.key =
      Kind.earlierLabel.learnable sentence := by
  have keys : (Kind.earlierLabel.requests window sentence).map Request.key =
      sentence.previous.flatMap fun previous =>
        if previous.isGiven then [previous.key] else [] := by
    apply map_key_flatMap_zipIdx
    intro previous _
    dsimp only
    split <;> rfl
  rw [keys, Kind.learnable]
  induction sentence.previous with
  | nil => rfl
  | cons previous rest ih =>
      rw [List.flatMap_cons, ih, List.filter_cons]
      split <;> rfl

/-- A kind that reserves its keys asks for no others. -/
theorem key_mem_of_mem_reserving {Feature : Type} {keyOf : Feature → String} {keys : List String}
    (listed : ∀ feature, keyOf feature ∈ keys) {found : Word → List Feature} {words : List Word}
    {request : Request}
    (mem : request ∈ keys.map Request.know ++ requestsByWord
      (fun position word =>
        (found word).map fun feature => Request.around (keyOf feature) position window) words) :
    request.key ∈ keys := by
  rcases List.mem_append.mp mem with known | placed
  · rcases List.mem_map.mp known with ⟨key, listed, rfl⟩
    exact listed
  · rcases List.mem_flatMap.mp placed with ⟨⟨word, position⟩, -, asked⟩
    rcases List.mem_map.mp asked with ⟨feature, -, rfl⟩
    exact listed feature

theorem key_mem_of_mem_requests {kind : Kind} {request : Request}
    (reserves : kind.name.keys ≠ []) (mem : request ∈ kind.requests window sentence) :
    request.key ∈ kind.name.keys := by
  cases kind with
  | capitalization source =>
      have same : (Kind.capitalization source).name.keys = CaseFeature.keys := by
        cases source <;> rfl
      rw [same]
      refine key_mem_of_mem_reserving (fun feature => ?_) mem
      cases feature <;> decide
  | numericValue =>
      refine key_mem_of_mem_reserving (fun feature => ?_) mem
      cases feature <;> decide
  | lexical source => cases source <;> exact absurd rfl reserves
  | lemmaTerm | earlierLabel | clusters _ | containers | gazetteers _ | addresses _ =>
      exact absurd rfl reserves

theorem learnable_eq_nil {kind : Kind} (closed : ¬kind.isKeyed ∨ kind.name.keys ≠ [])
    (sentence : Sentence) : kind.learnable sentence = [] := by
  cases kind with
  | lexical source => cases source <;> simp [Kind.isKeyed, Kind.name, ExtractorName.keys] at closed
  | lemmaTerm | earlierLabel => simp [Kind.isKeyed, Kind.name, ExtractorName.keys] at closed
  | clusters _ | containers | capitalization _ | gazetteers _ | numericValue | addresses _ => rfl

/-- A kind that reserves no keys may learn all that it asks for, the empty key aside. -/
theorem filter_ne_empty_asked {kind : Kind} (unreserved : kind.name.keys = []) :
    ((kind.requests window sentence).map Request.key).filter (fun key => decide (key ≠ "")) =
      kind.learnable sentence := by
  cases kind with
  | lexical source => rw [map_key_requests_lexical, Kind.learnable]
  | lemmaTerm =>
      rw [map_key_requests_lemmaTerm, List.filter_eq_self]
      intro key mem
      rcases List.mem_filterMap.mp mem with ⟨word, -, term⟩
      rcases Option.map_eq_some_iff.mp term with ⟨character, -, rfl⟩
      simp
  | earlierLabel =>
      rw [map_key_requests_earlierLabel, List.filter_eq_self]
      intro key mem
      rcases List.mem_map.mp mem with ⟨previous, -, rfl⟩
      exact decide_eq_true previous.key_ne_empty
  | capitalization source => cases source <;> cases unreserved
  | numericValue => cases unreserved
  | clusters _ | containers | gazetteers _ | addresses _ => rfl

/-- Of the keys that an extractor asks for, its table lacks those that it may learn. -/
theorem filter_asked_eq_learnable {extractor : Extractor}
    (reserved : extractor.kind.isKeyed → ∀ key,
      key ∈ extractor.table ↔ key ∈ extractor.kind.name.keys) (sentence : Sentence) :
    ((extractor.requests sentence).map Request.key).filter
        (fun key => decide (key ≠ "" ∧ key ∉ extractor.table)) =
      extractor.kind.learnable sentence := by
  by_cases keyed : extractor.kind.isKeyed
  · by_cases reserves : extractor.kind.name.keys = []
    · have nothing : ∀ key, key ∉ extractor.table := by
        intro key
        rw [reserved keyed, reserves]
        exact List.not_mem_nil
      simp only [Extractor.requests, nothing, not_false_eq_true, and_true]
      exact filter_ne_empty_asked reserves
    · rw [learnable_eq_nil (Or.inr reserves), List.filter_eq_nil_iff]
      intro key mem
      rcases List.mem_map.mp mem with ⟨request, asked, rfl⟩
      have known := (reserved keyed _).mpr (key_mem_of_mem_requests reserves asked)
      simp [known]
  · rw [learnable_eq_nil (Or.inl keyed), Extractor.requests, Kind.requests_of_not_isKeyed keyed]
    rfl

theorem missing_asks {extractor : Extractor}
    (reserved : extractor.kind.isKeyed → ∀ key,
      key ∈ extractor.table ↔ key ∈ extractor.kind.name.keys) (sentences : List Sentence) :
    extractor.table.missing (extractor.asks sentences) =
      extractor.kind.vocabulary sentences := by
  rw [KeyTable.missing, Extractor.asks, List.filter_flatMap, Kind.vocabulary]
  simp only [filter_asked_eq_learnable reserved]

end Requests

namespace Extractor

/-- What an extractor has become when sentences were learned from, with the counters. -/
structure LearnsFrom (sentences : List Sentence) (before : Extractor) (total : FeatureId)
    (after : Extractor) (later : FeatureId) : Prop where
  window_eq : after.window = before.window
  kind_eq : after.kind = before.kind
  consults : Vocabulary.Consults before.window ⟨before.table, total⟩ (before.asks sentences)
    ⟨after.table, later⟩

namespace LearnsFrom

variable {before middle after : Extractor} {total between later : FeatureId}
  {first second : List Sentence}

theorem asks_eq (window_eq : after.window = before.window) (kind_eq : after.kind = before.kind)
    (sentences : List Sentence) : after.asks sentences = before.asks sentences := by
  simp only [asks, requests, window_eq, kind_eq]

theorem refl (extractor : Extractor) (total : FeatureId) :
    LearnsFrom [] extractor total extractor total :=
  ⟨rfl, rfl, .start⟩

theorem trans (front : LearnsFrom first before total middle between)
    (back : LearnsFrom second middle between after later) :
    LearnsFrom (first ++ second) before total after later := by
  have further := back.consults
  rw [asks_eq front.window_eq front.kind_eq, front.window_eq] at further
  refine ⟨back.window_eq.trans front.window_eq, back.kind_eq.trans front.kind_eq, ?_⟩
  rw [asks, List.flatMap_append]
  exact front.consults.trans further

end LearnsFrom

end Extractor

namespace Pipeline

variable {total between later : FeatureId}

/-- Others take ids before and after an extractor has its turn with a sentence. -/
theorem forall₂_learnsFrom_learnAll (given : Sentence) (extractors : List Extractor)
    {sentence : Sentence} (words_eq : sentence.words = given.words)
    (previous_eq : sentence.previous = given.previous) (reached : total ≤ between) :
    List.Forall₂
      (fun before after =>
        before.LearnsFrom [given] total after (learnAll extractors between sentence).2.1)
      extractors (learnAll extractors between sentence).1 := by
  induction extractors generalizing sentence between with
  | nil => exact List.Forall₂.nil
  | cons extractor rest ih =>
      have settles := extractor.settles_settle_emitAll sentence
        (extractor.learnEmissions between sentence).1
      have rises := (GrowsInto.of_reaches (reaches_learn_extractor extractor between sentence [] [])).rises
      have risesFurther := (GrowsInto.of_reaches (reaches_learnAll [] rest
        (extractor.learn between sentence).2.1 (extractor.learn between sentence).2.2)).rises
      refine List.Forall₂.cons ⟨rfl, rfl, ?_⟩ ?_
      · have looked := Vocabulary.Consults.of_answer extractor.window
          (extractor.requests sentence) ⟨extractor.table, between⟩
        have waited : Vocabulary.Consults extractor.window ⟨extractor.table, total⟩ []
            ⟨extractor.table, between⟩ := .wait .start reached
        have asked : extractor.asks [given] = (extractor.requests sentence).map Request.key := by
          rw [extractor.requests_of_same_words words_eq previous_eq, Extractor.asks,
            List.flatMap_singleton]
        rw [asked]
        exact .wait (waited.trans looked) risesFurther
      · exact ih (settles.words_eq.trans words_eq) (settles.previous_eq.trans previous_eq)
          (UInt32.le_trans reached rises)

theorem forall₂_learnsFrom_trans {front middle back : List Extractor}
    {first second : List Sentence}
    (early : List.Forall₂ (fun before after => before.LearnsFrom first total after between)
      front middle)
    (late : List.Forall₂ (fun before after => before.LearnsFrom second between after later)
      middle back) :
    List.Forall₂ (fun before after => before.LearnsFrom (first ++ second) total after later)
      front back := by
  induction early generalizing back with
  | nil =>
      cases late
      exact List.Forall₂.nil
  | cons head _ ih =>
      cases late with
      | cons next rest => exact List.Forall₂.cons (head.trans next) (ih rest)

theorem forall₂_learnsFrom_train (start : Pipeline) (sentences : List Sentence) :
    List.Forall₂
      (fun before after =>
        before.LearnsFrom sentences start.total after (start.train sentences).total)
      start.extractors (start.train sentences).extractors := by
  induction sentences generalizing start with
  | nil =>
      apply List.forall₂_same.mpr
      intro extractor _
      exact .refl extractor start.total
  | cons sentence rest ih =>
      have first : List.Forall₂
          (fun before after =>
            before.LearnsFrom [sentence] start.total after (start.learn sentence).1.total)
          start.extractors (start.learn sentence).1.extractors :=
        forall₂_learnsFrom_learnAll sentence start.extractors rfl rfl (UInt32.le_refl _)
      exact forall₂_learnsFrom_trans first (ih (start.learn sentence).1)

/-- What the blocks of all keys take when every key has one. -/
def taken (extractors : List Extractor) : Nat :=
  (extractors.map fun extractor => extractor.window.blockLength * extractor.table.size).sum

/-- The counter goes on with the tables, whoever takes the ids. -/
theorem Reaches.total_add_taken {before after : Pipeline} (reaches : Reaches before after) :
    after.total.toNat + taken before.extractors =
      before.total.toNat + taken after.extractors := by
  induction reaches with
  | refl => rfl
  | tail _ last ih =>
      rcases last with ⟨place, key, centre, allocates⟩
      rcases allocates with @⟨front, back, extractor, table, total, later, _, _, -, allocation⟩
      have longer := allocation.total_eq
      have larger := allocation.size_eq
      simp only [taken, List.map_append, List.map_cons, List.sum_append, List.sum_cons] at ih ⊢
      dsimp only at longer larger
      rw [longer, larger, Nat.mul_succ]
      omega

/-- What the blocks of all keys take that the tables lack and sentences ask for. -/
def wanted (extractors : List Extractor) (sentences : List Sentence) : Nat :=
  (extractors.map fun extractor => extractor.window.blockLength *
    (extractor.table.missing (extractor.asks sentences)).length).sum

/-- The extractor has learned all keys that it was asked for. -/
structure Completes (sentences : List Sentence) (total : FeatureId) (before after : Extractor)
    (later : FeatureId) : Prop where
  window_eq : after.window = before.window
  kind_eq : after.kind = before.kind
  discovers : Vocabulary.Discovers before.window ⟨before.table, total⟩ (before.asks sentences)
    (before.table.missing (before.asks sentences)) ⟨after.table, later⟩

/-- Either no key was refused, or one more block for some extractor is more than was wanted. -/
theorem completes_or_exhausted {sentences : List Sentence} {before after : List Extractor}
    (learns : List.Forall₂
      (fun before after => before.LearnsFrom sentences total after later) before after) :
    List.Forall₂ (fun before after => Completes sentences total before after later) before after ∧
        taken after = taken before + wanted before sentences ∨
      ∃ extractor ∈ before, UInt32.size ≤ later.toNat + extractor.window.blockLength ∧
        taken after + extractor.window.blockLength ≤ taken before + wanted before sentences := by
  induction learns with
  | nil => exact Or.inl ⟨List.Forall₂.nil, rfl⟩
  | @cons extractor grown before after head _ ih =>
      rcases Vocabulary.Discovers.exists_of_consults head.consults with ⟨learned, discovers⟩
      have gained := discovers.size_eq
      have atMost := Nat.mul_le_mul_left extractor.window.blockLength discovers.sublist.length_le
      simp only [taken, wanted, List.map_cons, List.sum_cons, List.mem_cons, head.window_eq] at ih ⊢
      dsimp only at gained atMost
      rw [gained, Nat.mul_add]
      rcases discovers.complete_or_refused with complete | ⟨fewer, full⟩
      · dsimp only at complete
        subst complete
        rcases ih with ⟨completes, paid⟩ | ⟨other, mem, full, short⟩
        · refine Or.inl ⟨List.Forall₂.cons ⟨head.window_eq, head.kind_eq, discovers⟩ completes, ?_⟩
          omega
        · exact Or.inr ⟨other, Or.inr mem, full, by omega⟩
      · have short := Nat.mul_le_mul_left extractor.window.blockLength fewer
        rw [Nat.mul_succ] at short
        dsimp only at short
        refine Or.inr ⟨extractor, Or.inl rfl, full, ?_⟩
        rcases ih with ⟨-, paid⟩ | ⟨_, -, -, less⟩
        · omega
        · omega

/-- When there are ids enough, all keys are learned and the counter pays for nothing else. -/
theorem completes_train (start : Pipeline) (sentences : List Sentence)
    (room : start.total.toNat + wanted start.extractors sentences < UInt32.size) :
    List.Forall₂
        (fun before after => Completes sentences start.total before after
          (start.train sentences).total)
        start.extractors (start.train sentences).extractors ∧
      (start.train sentences).total.toNat =
        start.total.toNat + wanted start.extractors sentences := by
  have paid := (reaches_train start sentences).total_add_taken
  rcases completes_or_exhausted (forall₂_learnsFrom_train start sentences) with
    ⟨completes, gained⟩ | ⟨extractor, -, full, short⟩
  · exact ⟨completes, by omega⟩
  · omega

section Configuration

variable {resources : Resources} {template : List UInt8} {types : Registry} {start : Pipeline}

/-- Every extractor of a template begins with the keys that its name reserves. -/
theorem mem_table_of_configures {orders : List Order} {before after : Pipeline}
    (configures : Configures resources orders before after)
    (known : ∀ extractor ∈ before.extractors, extractor.kind.isKeyed →
      ∀ key, key ∈ extractor.table ↔ key ∈ extractor.kind.name.keys) :
    ∀ extractor ∈ after.extractors, extractor.kind.isKeyed →
      ∀ key, key ∈ extractor.table ↔ key ∈ extractor.kind.name.keys := by
  induction configures with
  | nil => exact known
  | @cons order rest before after types setup done _ ih =>
      apply ih
      intro extractor mem keyed key
      rcases List.mem_append.mp mem with old | new
      · exact known extractor old keyed key
      · rw [List.mem_singleton] at new
        subst new
        have name_eq := (Setup.name_and_window_of_configure done).1
        simp only [Extractor.name, Extractor.ofName, Kind.name_ofName] at name_eq
        rw [name_eq]
        exact ((Setup.configure_reserves done).2 keyed).mem_iff key

/-- How the vocabulary of an extractor has grown by a corpus whose sentences came in some order. -/
structure GrowsByVocabulary (corpus order : List Sentence) (before after : Extractor) :
    Prop where
  window_eq : after.window = before.window
  kind_eq : after.kind = before.kind
  mem_table_iff : ∀ key : String,
    key ∈ after.table ↔ key ∈ before.table ∨ key ∈ before.kind.vocabulary corpus
  /-- The features ascend in the order in which the keys came up first. -/
  ascending : ∃ features : List FeatureId,
    (before.kind.vocabulary order).map (fun key => after.table[key]?) = features.map some ∧
      features.Pairwise (· < ·)

/--
If there are ids enough for all keys of a corpus, a pipeline that was read from a template
learns them, and no others, in whatever order the sentences come and however often. The
counter goes on by exactly what their blocks take.
-/
theorem train_learns_vocabulary (read : (ofTemplate resources template types).1 = .ok start)
    (corpus order : List Sentence) (same : ∀ sentence, sentence ∈ order ↔ sentence ∈ corpus)
    (room : start.total.toNat + (start.extractors.map fun extractor =>
      extractor.window.blockLength * (extractor.kind.vocabulary corpus).length).sum ≤ 4294967295) :
    (start.train order).total.toNat = start.total.toNat + (start.extractors.map fun extractor =>
        extractor.window.blockLength * (extractor.kind.vocabulary corpus).length).sum ∧
      List.Forall₂ (GrowsByVocabulary corpus order) start.extractors
        (start.train order).extractors := by
  have reserved := mem_table_of_configures (configures_of_ofTemplate read)
    (fun extractor mem => by cases mem)
  have wants : wanted start.extractors order = (start.extractors.map fun extractor =>
      extractor.window.blockLength * (extractor.kind.vocabulary corpus).length).sum := by
    rw [wanted]
    congr 1
    apply List.map_congr_left
    intro extractor mem
    rw [missing_asks (reserved extractor mem), extractor.kind.length_vocabulary same]
  have enough : start.total.toNat + wanted start.extractors order < UInt32.size := by
    rw [wants]
    exact Nat.lt_succ_of_le room
  rcases completes_train start order enough with ⟨completes, total_eq⟩
  refine ⟨by rw [total_eq, wants], ?_⟩
  apply List.Forall₂.imp _ ((List.forall₂_and_left _ _).mpr ⟨reserved, completes⟩)
  rintro before after ⟨known, window_eq, kind_eq, discovers⟩
  rw [missing_asks known] at discovers
  refine ⟨window_eq, kind_eq, ?_, ?_⟩
  · intro key
    have gained := discovers.mem_table_iff key
    simp only [Kind.mem_vocabulary, same] at gained ⊢
    exact gained
  · rcases discovers.ascending with ⟨features, found, ascending, -⟩
    exact ⟨features, found, ascending⟩

theorem train_learns_vocabulary_reversed :
    ∃ start : Pipeline,
      let template :=
        Utf8.encode "Form 1\nFormCapitalization 0\nPreviousStage 2\nCzechLemmaTerm 1"
      let dog : Sentence := ⟨[.ofLemma "a" "a", ⟨"dog", "dog", "dog", "_;Z", ""⟩], [], [], []⟩
      let cat : Sentence :=
        ⟨[.ofLemma "a" "a", ⟨"cat", "cat", "cat", "^(Cat)_;G_;Z", ""⟩], [], [⟨1, 0⟩], []⟩
      (ofTemplate (fun _ => none) template ⟨[]⟩).1 = .ok start ∧ start.total.toNat = 4 ∧
        (start.train [cat, dog, cat]).total.toNat = 24 ∧
        List.Forall₂ (GrowsByVocabulary [dog, cat] [cat, dog, cat]) start.extractors
          (start.train [cat, dog, cat]).extractors ∧
        (start.train [cat, dog, cat]).extractors.map (·.table.toList) =
          [[("a", 5), ("cat", 8), ("dog", 19)], [("a", 2), ("f", 1), ("m", 3)], [("1 ", 12)],
            [("G", 16), ("Z", 22)]] := by
  let template := Utf8.encode "Form 1\nFormCapitalization 0\nPreviousStage 2\nCzechLemmaTerm 1"
  let dog : Sentence := ⟨[.ofLemma "a" "a", ⟨"dog", "dog", "dog", "_;Z", ""⟩], [], [], []⟩
  let cat : Sentence :=
    ⟨[.ofLemma "a" "a", ⟨"cat", "cat", "cat", "^(Cat)_;G_;Z", ""⟩], [], [⟨1, 0⟩], []⟩
  have same : ∀ sentence, sentence ∈ [cat, dog, cat] ↔ sentence ∈ [dog, cat] := by
    intro sentence
    rw [List.mem_cons, or_iff_right_of_imp]
    rintro rfl
    exact List.mem_cons_of_mem _ (List.mem_singleton.mpr rfl)
  have evaluated : ((ofTemplate (fun _ => none) template ⟨[]⟩).1.toOption.map fun start =>
      (start.total.toNat,
        (start.extractors.map fun extractor =>
          extractor.window.blockLength * (extractor.kind.vocabulary [dog, cat]).length).sum,
        (start.train [cat, dog, cat]).extractors.map (·.table.toList))) =
      some (4, 20,
        [[("a", 5), ("cat", 8), ("dog", 19)], [("a", 2), ("f", 1), ("m", 3)], [("1 ", 12)],
          [("G", 16), ("Z", 22)]]) := by
    decide +kernel
  rcases Option.map_eq_some_iff.mp evaluated with ⟨start, found, known⟩
  rcases Prod.mk.inj known with ⟨startTotal, known⟩
  rcases Prod.mk.inj known with ⟨wants, tables⟩
  have read := eq_ok_of_toOption found
  have room := Nat.add_le_add (Nat.le_of_eq startTotal) (Nat.le_of_eq wants)
  rcases train_learns_vocabulary read [dog, cat] [cat, dog, cat] same
    (Nat.le_trans room (by decide)) with ⟨total_eq, grows⟩
  rw [wants, startTotal] at total_eq
  exact ⟨start, read, startTotal, total_eq, grows, tables⟩

end Configuration

end Pipeline

end EntityFeatures

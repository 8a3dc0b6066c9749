import EntityFeatures.Pipeline.Basic

/-!
# What an annotation settles

Extractors put features on tokens. Beside that only the extractors of addresses do
anything to a sentence: they settle the scores of tokens that are addresses. The main
statement, `Pipeline.settlesAddresses_annotate_learn`, says what becomes of a sentence
apart from its features, when a pipeline only annotates it and when it learns from it.

Several extractors of addresses may stand anywhere in a pipeline, with different types.
A settled token is never settled again, so the first of them decides alone. That is
why `Sentence.Settles` names one pair of types at most, and why the pairs of two steps
are joined by taking the first that is there.

What the scores of a settled token are is written out in `TokenScores.IsCertain`, bit for
bit, with the type of web addresses or that of mail addresses.

The lists that belong to the tokens may be longer or shorter than the list of words. A
record of scores without a word is left as it is.
-/

namespace EntityFeatures

/-- The token is an entity of the given type on its own, with all probability, and nothing else. -/
structure TokenScores.IsCertain (scores : TokenScores) (entity : EntityId) : Prop where
  decided : scores.decided = true
  unit : scores.unit = ⟨1, entity⟩
  beginning : scores.beginning = ⟨0, EntityId.unknown⟩
  inside : scores.inside = ⟨0, EntityId.unknown⟩
  last : scores.last = ⟨0, EntityId.unknown⟩
  outside : scores.outside = ⟨0, EntityId.unknown⟩

theorem TokenScores.isCertain_certain (entity : EntityId) :
    (TokenScores.certain entity).IsCertain entity :=
  ⟨rfl, rfl, rfl, rfl, rfl, rfl⟩

namespace AddressTypes

/-- The scores of a token whose word, if it has one, has been looked at with these types, if any. -/
def outcome (types? : Option AddressTypes) (word? : Option Word) (scores : TokenScores) :
    TokenScores :=
  match types?, word? with
  | some types, some word => types.decide word scores
  | _, _ => scores

variable {types : AddressTypes} {word : Word} {scores : TokenScores}

theorem outcome_none (word? : Option Word) : outcome none word? = id := rfl

theorem outcome_of_no_word (types? : Option AddressTypes) : outcome types? none = id := by
  cases types? <;> rfl

theorem decide_of_decided (decided : scores.decided) : types.decide word scores = scores :=
  if_pos decided

theorem decide_of_classify? {address : Address} (undecided : ¬scores.decided)
    (isAddress : Address.classify? word.form = some address) :
    types.decide word scores = .certain (types.typeOf address) := by
  rw [decide, if_neg undecided, isAddress]

theorem decide_of_classify?_eq_none (noAddress : Address.classify? word.form = none) :
    types.decide word scores = scores := by
  rw [decide, noAddress, ite_self]

/-- Looking at a word a second time changes nothing, whatever the types are. -/
theorem decide_decide (first second : AddressTypes) (word : Word) (scores : TokenScores) :
    second.decide word (first.decide word scores) = first.decide word scores := by
  by_cases decided : scores.decided
  · rw [decide_of_decided decided, decide_of_decided decided]
  · cases found : Address.classify? word.form with
    | some address =>
        rw [decide_of_classify? decided found]
        exact decide_of_decided rfl
    | none => rw [decide_of_classify?_eq_none found, decide_of_classify?_eq_none found]

theorem outcome_outcome (first second : Option AddressTypes) (word? : Option Word) :
    outcome second word? ∘ outcome first word? = outcome (first <|> second) word? := by
  funext scores
  cases first with
  | none => rfl
  | some first =>
      cases word? with
      | none => rw [outcome_of_no_word, outcome_of_no_word, outcome_of_no_word]; rfl
      | some word =>
          cases second with
          | none => rfl
          | some second => exact decide_decide first second word scores

theorem getElem?_decideAll (types : AddressTypes) (words : List Word) (scores : List TokenScores)
    (token : Nat) :
    (types.decideAll words scores)[token]? =
      scores[token]?.map (outcome (some types) words[token]?) := by
  induction words generalizing scores token with
  | nil =>
      rw [List.getElem?_nil, outcome_of_no_word, Option.map_id]
      cases scores <;> rfl
  | cons word words ih =>
      cases scores with
      | nil => rfl
      | cons first rest =>
          cases token with
          | zero => rfl
          | succ token => exact ih rest token

end AddressTypes

namespace Sentence

variable {first second : Option AddressTypes} {before middle after : Sentence}

/--
One sentence comes of the other by adding features and by looking at its words with
these types, if any.
-/
structure Settles (types? : Option AddressTypes) (before after : Sentence) : Prop where
  words_eq : after.words = before.words
  previous_eq : after.previous = before.previous
  getElem?_scores : ∀ token : Nat, after.scores[token]? =
    before.scores[token]?.map (AddressTypes.outcome types? before.words[token]?)

namespace Settles

theorem of_scores_eq (words_eq : after.words = before.words)
    (previous_eq : after.previous = before.previous) (scores_eq : after.scores = before.scores) :
    Settles none before after := by
  refine ⟨words_eq, previous_eq, ?_⟩
  intro token
  rw [scores_eq, AddressTypes.outcome_none, Option.map_id, id_eq]

theorem trans (front : Settles first before middle) (back : Settles second middle after) :
    Settles (first <|> second) before after := by
  refine ⟨back.words_eq.trans front.words_eq, back.previous_eq.trans front.previous_eq, ?_⟩
  intro token
  rw [back.getElem?_scores, front.getElem?_scores, front.words_eq, Option.map_map,
    AddressTypes.outcome_outcome]

theorem getElem?_of_classify? {types : AddressTypes} {token : Nat} {scores : TokenScores}
    {word : Word} {address : Address} (settles : Settles (some types) before after)
    (found : before.scores[token]? = some scores) (undecided : ¬scores.decided)
    (worded : before.words[token]? = some word)
    (isAddress : Address.classify? word.form = some address) :
    after.scores[token]? = some (.certain (types.typeOf address)) := by
  rw [settles.getElem?_scores, found, worded, Option.map_some]
  exact congrArg some (AddressTypes.decide_of_classify? undecided isAddress)

end Settles

theorem settles_begin (sentence : Sentence) : Settles none sentence sentence.begin :=
  Settles.of_scores_eq rfl rfl rfl

end Sentence

namespace Extractor

/-- The types of an extractor of addresses. -/
def addressTypes? (extractor : Extractor) : Option AddressTypes :=
  match extractor.kind with
  | .addresses types => some types
  | _ => none

theorem settles_settle (extractor : Extractor) (sentence : Sentence) :
    sentence.Settles extractor.addressTypes? (extractor.settle sentence) := by
  rcases extractor with ⟨window, table, kind⟩
  cases kind with
  | addresses types =>
      exact ⟨rfl, rfl, AddressTypes.getElem?_decideAll types sentence.words sentence.scores⟩
  | _ => exact Sentence.Settles.of_scores_eq rfl rfl rfl

/-- Whatever is emitted before, an extractor settles the tokens that it settles. -/
theorem settles_settle_emitAll (extractor : Extractor) (sentence : Sentence)
    (emissions : List Emission) :
    sentence.Settles extractor.addressTypes?
      (extractor.settle (sentence.emitAll emissions)) := by
  have emitted : sentence.Settles none (sentence.emitAll emissions) :=
    Sentence.Settles.of_scores_eq rfl rfl rfl
  exact emitted.trans (extractor.settles_settle _)

end Extractor

namespace Pipeline

/-- The types of the first extractor of addresses, if there is one. -/
def addressTypes? (pipeline : Pipeline) : Option AddressTypes :=
  pipeline.extractors.findSome? Extractor.addressTypes?

theorem findSome?_cons_eq_orElse (extractor : Extractor) (rest : List Extractor) :
    (extractor :: rest).findSome? Extractor.addressTypes? =
      (extractor.addressTypes? <|> rest.findSome? Extractor.addressTypes?) := by
  rw [List.findSome?_cons]
  cases extractor.addressTypes? <;> rfl

theorem settles_foldl_annotate (extractors : List Extractor) (sentence : Sentence) :
    sentence.Settles (extractors.findSome? Extractor.addressTypes?)
      (extractors.foldl (fun sentence extractor => extractor.annotate sentence) sentence) := by
  induction extractors generalizing sentence with
  | nil => exact Sentence.Settles.of_scores_eq rfl rfl rfl
  | cons extractor rest ih =>
      rw [findSome?_cons_eq_orElse]
      exact (extractor.settles_settle_emitAll sentence _).trans (ih _)

theorem settles_learnAll (extractors : List Extractor) (total : FeatureId) (sentence : Sentence) :
    sentence.Settles (extractors.findSome? Extractor.addressTypes?)
      (learnAll extractors total sentence).2.2 := by
  induction extractors generalizing total sentence with
  | nil => exact Sentence.Settles.of_scores_eq rfl rfl rfl
  | cons extractor rest ih =>
      rw [findSome?_cons_eq_orElse]
      exact (extractor.settles_settle_emitAll sentence _).trans (ih _ _)

theorem settles_annotate (pipeline : Pipeline) (sentence : Sentence) :
    sentence.Settles pipeline.addressTypes? (pipeline.annotate sentence) :=
  sentence.settles_begin.trans (settles_foldl_annotate pipeline.extractors sentence.begin)

theorem settles_learn (pipeline : Pipeline) (sentence : Sentence) :
    sentence.Settles pipeline.addressTypes? (pipeline.learn sentence).2 :=
  sentence.settles_begin.trans
    (settles_learnAll pipeline.extractors pipeline.total sentence.begin)

/-- What becomes of a sentence apart from its features, given the types of addresses, if any. -/
structure SettlesAddresses (types? : Option AddressTypes) (before after : Sentence) : Prop where
  words_eq : after.words = before.words
  previous_eq : after.previous = before.previous
  length_eq : after.scores.length = before.scores.length
  /-- What was decided before stays as it was. -/
  decided : ∀ (token : Nat) (scores : TokenScores), before.scores[token]? = some scores →
    scores.decided → after.scores[token]? = some scores
  /-- A web address that was not decided is now an entity of the type of web addresses. -/
  web : ∀ (token : Nat) (scores : TokenScores) (word : Word) (types : AddressTypes),
    before.scores[token]? = some scores → ¬scores.decided → before.words[token]? = some word →
    Address.classify? word.form = some .web → types? = some types →
    ∃ final, after.scores[token]? = some final ∧ final.IsCertain types.web
  /-- A mail address that was not decided is now an entity of the type of mail addresses. -/
  mail : ∀ (token : Nat) (scores : TokenScores) (word : Word) (types : AddressTypes),
    before.scores[token]? = some scores → ¬scores.decided → before.words[token]? = some word →
    Address.classify? word.form = some .mail → types? = some types →
    ∃ final, after.scores[token]? = some final ∧ final.IsCertain types.mail
  /-- No other scores change. -/
  kept : ∀ token : Nat,
    (types? = none ∨ before.words[token]? = none ∨
      ∃ word, before.words[token]? = some word ∧ Address.classify? word.form = none) →
    after.scores[token]? = before.scores[token]?

theorem SettlesAddresses.of_settles {types? : Option AddressTypes} {before after : Sentence}
    (settles : before.Settles types? after) : SettlesAddresses types? before after := by
  refine ⟨settles.words_eq, settles.previous_eq, ?length, ?decided, ?web, ?mail, ?kept⟩
  case length =>
    have same : ∀ token, after.scores.length ≤ token ↔ before.scores.length ≤ token := by
      intro token
      rw [← List.getElem?_eq_none_iff, ← List.getElem?_eq_none_iff, settles.getElem?_scores,
        Option.map_eq_none_iff]
    exact Nat.le_antisymm ((same _).mpr (Nat.le_refl _)) ((same _).mp (Nat.le_refl _))
  case decided =>
    intro token scores found decided
    rw [settles.getElem?_scores, found, Option.map_some, Option.some.injEq]
    cases types? with
    | none => rfl
    | some types =>
        cases before.words[token]? with
        | none => rfl
        | some word => exact AddressTypes.decide_of_decided decided
  case web =>
    rintro token scores word types found undecided worded isWeb rfl
    exact ⟨_, settles.getElem?_of_classify? found undecided worded isWeb,
      TokenScores.isCertain_certain types.web⟩
  case mail =>
    rintro token scores word types found undecided worded isMail rfl
    exact ⟨_, settles.getElem?_of_classify? found undecided worded isMail,
      TokenScores.isCertain_certain types.mail⟩
  case kept =>
    intro token nothing
    rw [settles.getElem?_scores]
    suffices same : AddressTypes.outcome types? before.words[token]? = id by
      rw [same, Option.map_id, id_eq]
    rcases nothing with rfl | noWord | ⟨word, worded, noAddress⟩
    · exact AddressTypes.outcome_none _
    · rw [noWord, AddressTypes.outcome_of_no_word]
    · rw [worded]
      cases types? with
      | none => rfl
      | some types =>
          funext scores
          exact AddressTypes.decide_of_classify?_eq_none noAddress

/--
Whatever the extractors of a pipeline are, and in whatever order, annotating a sentence
and learning from it leave the words and the earlier labels alone, and change the scores
only of undecided addresses, which the first extractor of addresses settles.
-/
theorem settlesAddresses_annotate_learn (pipeline : Pipeline) (sentence : Sentence) :
    SettlesAddresses pipeline.addressTypes? sentence (pipeline.annotate sentence) ∧
      SettlesAddresses pipeline.addressTypes? sentence (pipeline.learn sentence).2 := by
  constructor
  · exact SettlesAddresses.of_settles (pipeline.settles_annotate sentence)
  · exact SettlesAddresses.of_settles (pipeline.settles_learn sentence)

/-- Of two extractors of addresses with types of their own only the first settles anything. -/
theorem settlesAddresses_annotate_learn_two_types :
    let noNumber : Probability := ⟨0x7FF8000000000001⟩
    let undecided : TokenScores := { outside := ⟨noNumber, 9⟩ }
    let decided : TokenScores := { inside := ⟨noNumber, 9⟩, decided := true }
    let settled (entity : EntityId) : TokenScores :=
      { beginning := ⟨⟨0⟩, 0xFFFFFFFF⟩, inside := ⟨⟨0⟩, 0xFFFFFFFF⟩, last := ⟨⟨0⟩, 0xFFFFFFFF⟩
        outside := ⟨⟨0⟩, 0xFFFFFFFF⟩, unit := ⟨⟨0x3FF0000000000000⟩, entity⟩, decided := true }
    let pipeline : Pipeline :=
      ⟨[⟨1, ∅, .lexical .form⟩, ⟨0, ∅, .addresses ⟨3, 4⟩⟩, ⟨0, ∅, .containers⟩,
        ⟨0, ∅, .addresses ⟨5, 6⟩⟩, ⟨0, ∅, .lemmaTerm⟩], 1⟩
    let sentence : Sentence :=
      { words :=
          [.ofLemma "www.praha.cz" "www.praha.cz", .ofLemma "jan@praha.cz" "jan@praha.cz",
            .ofLemma "Praha" "Praha", .ofLemma "www.brno.cz" "www.brno.cz"]
        scores := [undecided, {}, undecided, decided, undecided] }
    let scores : List TokenScores := [settled 3, settled 4, undecided, decided, undecided]
    SettlesAddresses (some ⟨3, 4⟩) sentence (pipeline.annotate sentence) ∧
      SettlesAddresses (some ⟨3, 4⟩) sentence (pipeline.learn sentence).2 ∧
      (pipeline.annotate sentence).scores = scores ∧
      (pipeline.learn sentence).2.scores = scores := by
  intro noNumber undecided decided settled pipeline sentence scores
  rcases settlesAddresses_annotate_learn pipeline sentence with ⟨annotated, learned⟩
  exact ⟨annotated, learned, by decide +kernel, by decide +kernel⟩

end Pipeline

end EntityFeatures

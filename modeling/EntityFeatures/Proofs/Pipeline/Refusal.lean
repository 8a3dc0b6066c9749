import EntityFeatures.Proofs.Extractor.Requests
import EntityFeatures.Proofs.Pipeline.Agreement
import EntityFeatures.Proofs.Pipeline.Settlement

/-!
# Training in which no key is refused

A key that is new is refused when its block does not fit into the ids that are left. Training
goes on as if nothing had happened, and the key stays unknown. `Pipeline.RunsOut` says that
this happens somewhere in a training: at some sentence, with some extractor, for some key
that it asks for.

If it never happens, then every key that any extractor has asked for is in its table at the
end, `Pipeline.knows_train`. A key that was found or learned once is never lost again.
-/

namespace EntityFeatures

/-- The key has a feature: it is the empty one or in the table. -/
def KeyTable.Knows (table : KeyTable) (key : String) : Prop :=
  key = "" ∨ key ∈ table

namespace Vocabulary

variable {window : Window} {before after : Vocabulary}

/-- One of the keys that are asked for is new, and its block does not fit. -/
def Refuses (window : Window) : List Request → Vocabulary → Prop
  | [], _ => False
  | request :: rest, vocabulary =>
      vocabulary.allocate? window request.key = none ∨
        Refuses window rest (vocabulary.learn window request.key).2

instance Refuses.decidable (window : Window) : (requests : List Request) →
    (vocabulary : Vocabulary) → Decidable (Refuses window requests vocabulary)
  | [], _ => inferInstanceAs (Decidable False)
  | request :: rest, vocabulary =>
      have := Refuses.decidable window rest (vocabulary.learn window request.key).2
      inferInstanceAs (Decidable (_ ∨ _))

theorem GrowsInto.knows {key : String} (grows : GrowsInto window before after)
    (knows : before.table.Knows key) : after.table.Knows key := by
  rcases knows with empty | known
  · exact Or.inl empty
  · rcases KeyTable.mem_iff.mp known with ⟨feature, found⟩
    exact Or.inr (KeyTable.mem_iff.mpr ⟨feature, grows.kept key feature found⟩)

theorem knows_learn {key : String} (allowed : before.allocate? window key ≠ none) :
    (before.learn window key).2.table.Knows key := by
  rcases learn_cases window key before with
    ⟨empty | known | refused, learned⟩ | ⟨centre, after, allocation, learned⟩
  · exact Or.inl empty
  · rw [learned]
    exact Or.inr known
  · have noEnd := FeatureId.blocksEnd?_one_eq_none_iff.mpr refused
    rw [learned]
    by_contra unknown
    simp only [KeyTable.Knows, not_or] at unknown
    apply allowed
    simp [allocate?, unknown, noEnd]
  · rw [learned]
    exact Or.inr allocation.mem_table

theorem knows_answer {requests : List Request} (never : ¬Refuses window requests before) :
    ∀ request ∈ requests, (answer window requests before).2.table.Knows request.key := by
  induction requests generalizing before with
  | nil => simp
  | cons first rest ih =>
      rcases not_or.mp never with ⟨allowed, neverLater⟩
      intro request mem
      rcases List.mem_cons.mp mem with rfl | later
      · have grows := GrowsInto.of_reaches
          (reaches_answer window rest (before.learn window request.key).2)
        exact grows.knows (knows_learn allowed)
      · exact ih neverLater request later

/-- For keys that all have their features nothing is learned. -/
theorem answer_snd_of_knows {requests : List Request}
    (known : ∀ request ∈ requests, before.table.Knows request.key) :
    (answer window requests before).2 = before := by
  induction requests with
  | nil => rfl
  | cons first rest ih =>
      rcases List.forall_mem_cons.mp known with ⟨here, later⟩
      have settled : Settled window first.key before := here.imp_right Or.inl
      simp only [answer, learn_of_settled settled]
      exact ih later

end Vocabulary

/-- A key is refused while the extractor learns from the sentence. -/
def Extractor.Refuses (extractor : Extractor) (total : FeatureId) (sentence : Sentence) : Prop :=
  Vocabulary.Refuses extractor.window (extractor.requests sentence) ⟨extractor.table, total⟩

instance (extractor : Extractor) (total : FeatureId) (sentence : Sentence) :
    Decidable (extractor.Refuses total sentence) :=
  inferInstanceAs (Decidable (Vocabulary.Refuses _ _ _))

namespace Pipeline

/-- A key is refused while one of the extractors has its turn with the sentence. -/
def AnyRefuses : List Extractor → FeatureId → Sentence → Prop
  | [], _, _ => False
  | extractor :: rest, total, sentence =>
      extractor.Refuses total sentence ∨
        AnyRefuses rest (extractor.learn total sentence).2.1 (extractor.learn total sentence).2.2

instance AnyRefuses.decidable : (extractors : List Extractor) → (total : FeatureId) →
    (sentence : Sentence) → Decidable (AnyRefuses extractors total sentence)
  | [], _, _ => inferInstanceAs (Decidable False)
  | extractor :: rest, total, sentence =>
      have := AnyRefuses.decidable rest (extractor.learn total sentence).2.1
        (extractor.learn total sentence).2.2
      inferInstanceAs (Decidable (_ ∨ _))

/-- Somewhere in the training a key is refused. -/
def RunsOut : Pipeline → List Sentence → Prop
  | _, [] => False
  | pipeline, sentence :: rest =>
      AnyRefuses pipeline.extractors pipeline.total sentence.begin ∨
        RunsOut (pipeline.learn sentence).1 rest

instance RunsOut.decidable : (pipeline : Pipeline) → (corpus : List Sentence) →
    Decidable (pipeline.RunsOut corpus)
  | _, [] => inferInstanceAs (Decidable False)
  | pipeline, sentence :: rest =>
      have := RunsOut.decidable (pipeline.learn sentence).1 rest
      inferInstanceAs (Decidable (_ ∨ _))

theorem knows_learnAll {extractors : List Extractor} {total : FeatureId} {sentence : Sentence}
    (never : ¬AnyRefuses extractors total sentence) :
    ∀ learned ∈ (learnAll extractors total sentence).1,
      ∀ request ∈ learned.requests sentence, learned.table.Knows request.key := by
  induction extractors generalizing total sentence with
  | nil => simp [learnAll]
  | cons extractor rest ih =>
      rcases not_or.mp never with ⟨allowed, neverLater⟩
      intro learned mem
      rcases List.mem_cons.mp mem with rfl | later
      · exact Vocabulary.knows_answer allowed
      · have settles := extractor.settles_settle_emitAll sentence
          (extractor.learnEmissions total sentence).1
        have same : learned.requests sentence =
            learned.requests (extractor.learn total sentence).2.2 :=
          (learned.requests_of_same_words settles.words_eq settles.previous_eq).symm
        rw [same]
        exact ih neverLater learned later

/-- A training in which no key is refused leaves no key without a feature. -/
theorem knows_train {start : Pipeline} {corpus : List Sentence} (never : ¬start.RunsOut corpus) :
    ∀ sentence ∈ corpus, ∀ extractor ∈ (start.train corpus).extractors,
      ∀ request ∈ extractor.requests sentence, extractor.table.Knows request.key := by
  induction corpus generalizing start with
  | nil => simp
  | cons first rest ih =>
      rcases not_or.mp never with ⟨allowed, neverLater⟩
      intro sentence mem extractor found request asked
      rcases List.mem_cons.mp mem with rfl | later
      · have grows := GrowsInto.of_reaches (reaches_train (start.learn sentence).1 rest)
        rcases List.mem_iff_getElem?.mp found with ⟨place, placed⟩
        rcases grows.exists_before placed with ⟨earlier, earlierPlaced, grown⟩
        have sameRequests : extractor.requests sentence = earlier.requests sentence := by
          simp only [Extractor.requests, grown.window_eq, grown.kind_eq]
        rw [sameRequests] at asked
        have early : earlier ∈ (start.learn sentence).1.extractors :=
          List.mem_of_getElem? earlierPlaced
        have begun : earlier.requests sentence = earlier.requests sentence.begin :=
          earlier.requests_of_same_words rfl rfl
        rw [begun] at asked
        exact grown.vocabulary.knows (knows_learnAll allowed earlier early request asked)
      · exact ih neverLater sentence later extractor found request asked

end Pipeline

end EntityFeatures

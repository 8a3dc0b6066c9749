import Mathlib.Data.List.Forall2
import EntityFeatures.Proofs.Extractor.Requests
import EntityFeatures.Proofs.Pipeline.Learning

/-!
# Training and annotation agree

While a pipeline is trained, a sentence gets the features that its keys have at that
time. The trained pipeline, which only reads its tables, gives the same sentence the
same features, and there is nothing left to be learned from it. The main statement
is `Pipeline.train_agrees`.

The proof compares two moments. `Pipeline.GrowsInto` says how a pipeline may have
changed in between: every extractor has kept its window, its kind and its keys, and
every key that it has gained would have fitted before. So an extractor that was
refused a block at the earlier moment is refused it for ever, although one with a
smaller window may still get blocks.

Sentences are compared up to their scores, since no extractor looks at the scores to
find features.
-/

namespace EntityFeatures

namespace Sentence

/-- The sentences differ in their scores at most. -/
def Agrees (left right : Sentence) : Prop :=
  ∃ scores, right = { left with scores }

theorem Agrees.features_eq {left right : Sentence} (agrees : Agrees left right) :
    right.features = left.features := by
  rcases agrees with ⟨scores, rfl⟩
  rfl

theorem Agrees.trans {left middle right : Sentence} (first : Agrees left middle)
    (second : Agrees middle right) : Agrees left right := by
  rcases first with ⟨_, rfl⟩
  rcases second with ⟨scores, rfl⟩
  exact ⟨scores, rfl⟩

theorem Agrees.symm {left right : Sentence} (agrees : Agrees left right) :
    Agrees right left := by
  rcases agrees with ⟨_, rfl⟩
  exact ⟨left.scores, rfl⟩

theorem Agrees.emitAll {left right : Sentence} (agrees : Agrees left right)
    (emissions : List Emission) : Agrees (left.emitAll emissions) (right.emitAll emissions) := by
  rcases agrees with ⟨scores, rfl⟩
  exact ⟨scores, rfl⟩

end Sentence

namespace Extractor

theorem requests_of_agrees {left right : Sentence} (agrees : left.Agrees right)
    (extractor : Extractor) : extractor.requests right = extractor.requests left := by
  rcases agrees with ⟨scores, rfl⟩
  exact requests_of_same_words rfl rfl extractor

theorem direct_of_agrees {left right : Sentence} (agrees : left.Agrees right)
    (extractor : Extractor) : extractor.direct right = extractor.direct left := by
  rcases agrees with ⟨scores, rfl⟩
  exact direct_of_same_words rfl rfl extractor

theorem agrees_settle (extractor : Extractor) (sentence : Sentence) :
    sentence.Agrees (extractor.settle sentence) := by
  rcases extractor with ⟨window, table, kind⟩
  cases kind with
  | addresses types => exact ⟨_, rfl⟩
  | _ => exact ⟨_, rfl⟩

/-- An extractor whose features come from its keys emits nothing else out of its table. -/
theorem direct_of_isKeyed {extractor : Extractor} (keyed : extractor.kind.isKeyed)
    (table : KeyTable) (sentence : Sentence) :
    direct { extractor with table } sentence = extractor.direct sentence := by
  rcases extractor with ⟨window, old, kind⟩
  cases kind with
  | clusters _ | containers | gazetteers _ | addresses _ => cases keyed
  | lemmaTerm | lexical _ | capitalization _ | numericValue | earlierLabel => rfl

/--
How an extractor may change while the pipeline that it belongs to learns, with the
counters before and after.
-/
structure GrowsInto (before : Extractor) (total : FeatureId) (after : Extractor)
    (later : FeatureId) : Prop where
  window_eq : after.window = before.window
  kind_eq : after.kind = before.kind
  vocabulary : Vocabulary.GrowsInto before.window ⟨before.table, total⟩ ⟨after.table, later⟩
  table_eq : ¬before.kind.isKeyed → after.table = before.table

namespace GrowsInto

variable {before middle after : Extractor} {total between later : FeatureId}

theorem of_total_le (extractor : Extractor) (rises : total ≤ later) :
    GrowsInto extractor total extractor later :=
  ⟨rfl, rfl, Vocabulary.GrowsInto.of_total_le rises, fun _ => rfl⟩

theorem trans (first : GrowsInto before total middle between)
    (second : GrowsInto middle between after later) : GrowsInto before total after later := by
  have grows := second.vocabulary
  rw [first.window_eq] at grows
  refine ⟨second.window_eq.trans first.window_eq, second.kind_eq.trans first.kind_eq,
    first.vocabulary.trans grows, ?_⟩
  intro unkeyed
  have still : ¬middle.kind.isKeyed := by rwa [first.kind_eq]
  rw [second.table_eq still, first.table_eq unkeyed]

end GrowsInto

theorem agrees_settle_emitAll (first second : Extractor) {left right : Sentence}
    (agrees : left.Agrees right) (emissions : List Emission) :
    (first.settle (left.emitAll emissions)).Agrees (second.settle (right.emitAll emissions)) := by
  have before := (first.agrees_settle (left.emitAll emissions)).symm
  have after := second.agrees_settle (right.emitAll emissions)
  exact (before.trans (agrees.emitAll emissions)).trans after

theorem emissions_of_agrees {left right : Sentence} (agrees : left.Agrees right)
    (extractor : Extractor) : extractor.emissions right = extractor.emissions left := by
  simp only [emissions, requests_of_agrees agrees, direct_of_agrees agrees]

/-- An extractor whose keys have settled emits what it emitted when it learned them. -/
theorem emissions_of_growsInto {extractor final : Extractor} {total later : FeatureId}
    {sentence : Sentence}
    (grows : GrowsInto (extractor.learn total sentence).1 (extractor.learn total sentence).2.1
      final later) :
    final.emissions sentence = (extractor.learnEmissions total sentence).1 ∧
      final.learnEmissions later sentence = (final.emissions sentence, final, later) := by
  by_cases keyed : extractor.kind.isKeyed
  · rcases final with ⟨window, table, kind⟩
    rcases grows with ⟨sameWindow, sameKind, grows, -⟩
    change window = extractor.window at sameWindow
    change kind = extractor.kind at sameKind
    subst sameWindow sameKind
    change Vocabulary.GrowsInto extractor.window (Vocabulary.answer extractor.window
      (extractor.requests sentence) ⟨extractor.table, total⟩).2 ⟨table, later⟩ at grows
    rcases Vocabulary.answer_of_growsInto _ _ grows with ⟨learns, reads⟩
    have emits := direct_of_isKeyed keyed table sentence
    have emitted : emissions ⟨extractor.window, table, extractor.kind⟩ sentence =
        (extractor.learnEmissions total sentence).1 := by
      rw [emissions, emits]
      exact congrArg (· ++ extractor.direct sentence) reads
    refine ⟨emitted, ?_⟩
    rw [emitted]
    simp only [learnEmissions, requests] at learns ⊢
    rw [learns, emits]
  · -- Without requests nothing can have been learned, here or later.
    rw [learn_of_not_isKeyed keyed] at grows
    have same : final = extractor := by
      rcases final with ⟨window, table, kind⟩
      rcases grows with ⟨rfl, rfl, -, sameTable⟩
      exact congrArg (fun table => (⟨_, table, _⟩ : Extractor)) (sameTable keyed)
    subst same
    have nothing := Kind.requests_of_not_isKeyed keyed final.window sentence
    constructor
    · simp only [emissions, learnEmissions, requests, nothing]
      rfl
    · simp only [emissions, learnEmissions, requests, nothing]
      rfl

/--
An extractor that has grown since it learned from a sentence finds the same features
again, reading or learning, and learns nothing.
-/
theorem learn_of_growsInto {extractor final : Extractor} {total later : FeatureId}
    {sentence other : Sentence} (agrees : sentence.Agrees other)
    (grows : GrowsInto (extractor.learn total sentence).1 (extractor.learn total sentence).2.1
      final later) :
    final.learn later other = (final, later, final.annotate other) ∧
      (extractor.learn total sentence).2.2.Agrees (final.annotate other) := by
  rcases emissions_of_growsInto grows with ⟨emitted, learned⟩
  have again : final.learnEmissions later other = (final.emissions other, final, later) := by
    rw [emissions_of_agrees agrees, ← learned]
    simp only [learnEmissions, requests_of_agrees agrees, direct_of_agrees agrees]
  constructor
  · simp only [learn, again, annotate]
  · rw [annotate, emissions_of_agrees agrees, emitted]
    exact agrees_settle_emitAll extractor final agrees _

end Extractor

namespace Pipeline

/-- How a pipeline may change by learning. -/
structure GrowsInto (before after : Pipeline) : Prop where
  rises : before.total ≤ after.total
  extractors : List.Forall₂
    (fun extractor later => extractor.GrowsInto before.total later after.total)
    before.extractors after.extractors

namespace GrowsInto

variable {before middle after : Pipeline} {total between later : FeatureId}

theorem forall₂_of_total_le (extractors : List Extractor) (rises : total ≤ later) :
    List.Forall₂ (fun extractor grown => extractor.GrowsInto total grown later)
      extractors extractors := by
  apply List.forall₂_same.mpr
  intro extractor _
  exact Extractor.GrowsInto.of_total_le extractor rises

theorem forall₂_trans {front back last : List Extractor}
    (first : List.Forall₂ (fun extractor grown => extractor.GrowsInto total grown between) front back)
    (second : List.Forall₂ (fun extractor grown => extractor.GrowsInto between grown later) back last) :
    List.Forall₂ (fun extractor grown => extractor.GrowsInto total grown later) front last := by
  induction first generalizing last with
  | nil =>
      cases second
      exact List.Forall₂.nil
  | cons head _ ih =>
      cases second with
      | cons next rest => exact List.Forall₂.cons (head.trans next) (ih rest)

theorem refl (pipeline : Pipeline) : GrowsInto pipeline pipeline :=
  ⟨UInt32.le_refl _, forall₂_of_total_le pipeline.extractors (UInt32.le_refl _)⟩

theorem trans (first : GrowsInto before middle) (second : GrowsInto middle after) :
    GrowsInto before after :=
  ⟨UInt32.le_trans first.rises second.rises, forall₂_trans first.extractors second.extractors⟩

theorem of_allocates {place : Nat} {key : String} {centre : FeatureId}
    (allocates : Allocates place key centre before after) : GrowsInto before after := by
  rcases allocates with ⟨keyed, allocation⟩
  have grows := Vocabulary.GrowsInto.of_allocation allocation
  refine ⟨grows.rises, List.rel_append ?_ (List.Forall₂.cons ?_ ?_)⟩
  · exact forall₂_of_total_le _ grows.rises
  · exact ⟨rfl, rfl, grows, fun unkeyed => absurd keyed unkeyed⟩
  · exact forall₂_of_total_le _ grows.rises

theorem of_reaches (reaches : Reaches before after) : GrowsInto before after := by
  apply reaches.invariant _ (refl before)
  intro place key centre middle after allocates grows
  exact grows.trans (of_allocates allocates)

theorem names_eq (grows : GrowsInto before after) :
    after.extractors.map Extractor.name = before.extractors.map Extractor.name := by
  rcases before with ⟨earlier, total⟩
  rcases after with ⟨extractors, later⟩
  rcases grows with ⟨-, grow⟩
  dsimp only at grow ⊢
  induction grow with
  | nil => rfl
  | cons head _ ih =>
      rw [List.map_cons, List.map_cons, ih, Extractor.name, Extractor.name, head.kind_eq]

theorem exists_before (grows : GrowsInto before after) {place : Nat} {extractor : Extractor}
    (found : after.extractors[place]? = some extractor) :
    ∃ earlier, before.extractors[place]? = some earlier ∧
      earlier.GrowsInto before.total extractor after.total := by
  rcases before with ⟨earlier, total⟩
  rcases after with ⟨extractors, later⟩
  rcases grows with ⟨-, grow⟩
  dsimp only at grow found ⊢
  induction grow generalizing place with
  | nil => simp at found
  | cons head _ ih =>
      cases place with
      | zero =>
          cases found
          exact ⟨_, rfl, head⟩
      | succ place => exact ih found

end GrowsInto

theorem learnAll_of_growsInto {extractors finals : List Extractor} {total later : FeatureId}
    {sentence other : Sentence} (agrees : sentence.Agrees other)
    (grows : List.Forall₂
      (fun extractor final =>
        extractor.GrowsInto (learnAll extractors total sentence).2.1 final later)
      (learnAll extractors total sentence).1 finals) :
    learnAll finals later other =
        (finals, later, finals.foldl (fun sentence final => final.annotate sentence) other) ∧
      (learnAll extractors total sentence).2.2.Agrees
        (finals.foldl (fun sentence final => final.annotate sentence) other) := by
  induction extractors generalizing finals total sentence other with
  | nil =>
      cases grows
      exact ⟨rfl, agrees⟩
  | cons extractor rest ih =>
      rcases finals with _ | ⟨final, finals⟩
      · cases grows
      · rcases List.forall₂_cons.mp grows with ⟨first, others⟩
        have rises := GrowsInto.of_reaches (reaches_learnAll [] rest
          (extractor.learn total sentence).2.1 (extractor.learn total sentence).2.2)
        have grown := (Extractor.GrowsInto.of_total_le _ rises.rises).trans first
        rcases Extractor.learn_of_growsInto agrees grown with ⟨learned, agreesNext⟩
        rcases ih agreesNext others with ⟨learnedOthers, agreesLast⟩
        refine ⟨?_, agreesLast⟩
        simp only [learnAll, learned, learnedOthers, List.foldl_cons]

/-- What a pipeline has learned from a sentence it finds again for ever, and has nothing to add. -/
theorem learn_of_growsInto {pipeline final : Pipeline} {sentence other : Sentence}
    (agrees : sentence.begin.Agrees other.begin)
    (grows : GrowsInto (pipeline.learn sentence).1 final) :
    final.learn other = (final, final.annotate other) ∧
      (pipeline.learn sentence).2.Agrees (final.annotate other) := by
  rcases learnAll_of_growsInto agrees grows.extractors with ⟨learned, agreesAfter⟩
  refine ⟨?_, agreesAfter⟩
  simp only [learn, learned, annotate]

/--
Whatever a pipeline is trained on before a sentence and after it, the trained
pipeline finds for this sentence, its features and scores aside, exactly the features
that it had in the training, and is not changed by learning from it again.
-/
theorem train_agrees (start : Pipeline) (before : List Sentence) (given : Sentence)
    (after : List Sentence) (features : FeatureLists) (scores : List TokenScores) :
    let final := start.train (before ++ given :: after)
    let again : Sentence := ⟨given.words, features, given.previous, scores⟩
    (final.annotate again).features = ((start.train before).learn given).2.features ∧
      (final.learn again).1 = final := by
  intro final again
  have grows : GrowsInto ((start.train before).learn given).1 final := by
    apply GrowsInto.of_reaches
    simp only [final, train_append, train_cons]
    exact reaches_train _ after
  have agrees : given.begin.Agrees again.begin := ⟨scores, rfl⟩
  rcases learn_of_growsInto agrees grows with ⟨learned, same⟩
  refine ⟨same.features_eq, ?_⟩
  rw [learned]

end Pipeline

end EntityFeatures

import Mathlib.Logic.Relation
import EntityFeatures.Feature.Request

/-!
# What a vocabulary can learn

Looking a key up while learning does one of two things. Either the key is settled
and nothing changes, or the key is new and gets the block that begins at the counter.
`Vocabulary.Allocation` is the second case with all that it says, and
`Vocabulary.Settled` names the three reasons for the first: the key is the empty
one, it is in the table, or its block does not fit into the ids that are left.

A key stays settled and keeps its feature while a vocabulary grows, also when others
take ids from the same counter. `Vocabulary.GrowsInto` is this growth. It allows a
new key only where its block fits into the ids left at the beginning, which is what
makes a refusal final: the counter never goes back.
-/

namespace EntityFeatures

namespace FeatureId

theorem exists_blockCentre?_and_blocksEnd? {total : FeatureId} {window : Window}
    (fits : total.toNat + window.blockLength < UInt32.size) :
    ∃ centre behind, total.blockCentre? window 0 = some centre ∧
      total.blocksEnd? window 1 = some behind ∧
      centre.toNat = total.toNat + window.toNat ∧
      behind.toNat = total.toNat + window.blockLength := by
  simp only [blockCentre?, blocksEnd?, ofNat?_eq_some_iff]
  have centreFits : total.toNat + window.toNat < UInt32.size := by
    simp only [Window.blockLength] at fits
    omega
  refine ⟨UInt32.ofNat (total.toNat + window.toNat),
    UInt32.ofNat (total.toNat + window.blockLength), ?_, ?_, ?_, ?_⟩
  all_goals simp only [UInt32.toNat_ofNat_of_lt' fits, UInt32.toNat_ofNat_of_lt' centreFits]
  all_goals omega

theorem blocksEnd?_one_eq_none_iff {total : FeatureId} {window : Window} :
    total.blocksEnd? window 1 = none ↔ UInt32.size ≤ total.toNat + window.blockLength := by
  simp [blocksEnd?, ofNat?_eq_none_iff]

end FeatureId

namespace KeyTable

theorem mem_iff {table : KeyTable} {key : String} :
    key ∈ table ↔ ∃ feature, table[key]? = some feature := by
  rw [← Std.ExtTreeMap.isSome_getElem?_iff_mem, Option.isSome_iff_exists]

theorem find_of_getElem? {table : KeyTable} {key : String} {feature : FeatureId}
    (window : Window) (nonempty : key ≠ "") (known : table[key]? = some feature) :
    table.find window key = feature := by
  simp [find, nonempty, known]

end KeyTable

namespace Vocabulary

variable {window : Window} {key : String} {before middle after : Vocabulary}

/-- There is nothing to be learned about the key. -/
def Settled (window : Window) (key : String) (vocabulary : Vocabulary) : Prop :=
  key = "" ∨ key ∈ vocabulary.table ∨
    UInt32.size ≤ vocabulary.total.toNat + window.blockLength

/-- A new key gets the block that begins at the counter. -/
structure Allocation (window : Window) (key : String) (centre : FeatureId)
    (before after : Vocabulary) : Prop where
  nonempty : key ≠ ""
  new : before.table[key]? = none
  centre_eq : centre.toNat = before.total.toNat + window.toNat
  total_eq : after.total.toNat = before.total.toNat + window.blockLength
  table_eq : after.table = before.table.insert key centre

theorem learn_of_settled (settled : Settled window key before) :
    before.learn window key = (before.table.find window key, before) := by
  rcases settled with rfl | known | refused
  · simp [KeyTable.find]
  · by_cases empty : key = ""
    · subst empty
      simp [KeyTable.find]
    · rcases KeyTable.mem_iff.mp known with ⟨feature, found⟩
      rw [learn_of_getElem? empty found, KeyTable.find_of_getElem? window empty found]
  · by_cases empty : key = ""
    · subst empty
      simp [KeyTable.find]
    · cases found : before.table[key]? with
      | some feature =>
          rw [learn_of_getElem? empty found, KeyTable.find_of_getElem? window empty found]
      | none =>
          have noEnd := FeatureId.blocksEnd?_one_eq_none_iff.mpr refused
          simp [learn, allocate?, KeyTable.find, empty, found, noEnd]

theorem exists_allocation_of_not_settled (unsettled : ¬Settled window key before) :
    ∃ centre after, Allocation window key centre before after ∧
      before.learn window key = (centre, after) := by
  simp only [Settled, not_or, Nat.not_le] at unsettled
  rcases unsettled with ⟨nonempty, unknown, fits⟩
  rcases FeatureId.exists_blockCentre?_and_blocksEnd? fits with
    ⟨centre, behind, centreFound, endFound, centre_eq, behind_eq⟩
  have new : before.table[key]? = none := by simpa using unknown
  refine ⟨centre, ⟨before.table.insert key centre, behind⟩,
    ⟨nonempty, new, centre_eq, behind_eq, rfl⟩, ?_⟩
  simp [learn, allocate?, nonempty, new, centreFound, endFound]

/-- What looking a key up can do, all outcomes included. -/
theorem learn_cases (window : Window) (key : String) (before : Vocabulary) :
    (Settled window key before ∧
        before.learn window key = (before.table.find window key, before)) ∨
      ∃ centre after, Allocation window key centre before after ∧
        before.learn window key = (centre, after) := by
  by_cases settled : Settled window key before
  · exact Or.inl ⟨settled, learn_of_settled settled⟩
  · exact Or.inr (exists_allocation_of_not_settled settled)

namespace Allocation

variable {centre : FeatureId}

theorem mem_table (allocation : Allocation window key centre before after) :
    key ∈ after.table := by
  simp [allocation.table_eq]

theorem getElem?_table (allocation : Allocation window key centre before after)
    (other : String) :
    after.table[other]? = if other = key then some centre else before.table[other]? := by
  rw [allocation.table_eq, Std.ExtTreeMap.getElem?_insert]
  by_cases same : other = key
  · simp [same]
  · simp [same, Ne.symm same]

theorem find_eq (allocation : Allocation window key centre before after) :
    after.table.find window key = centre := by
  apply KeyTable.find_of_getElem? window allocation.nonempty
  simp [allocation.getElem?_table]

theorem total_lt (allocation : Allocation window key centre before after) :
    before.total.toNat < after.total.toNat := by
  have longer := allocation.total_eq
  simp only [Window.blockLength] at longer
  omega

end Allocation

theorem settled_learn (window : Window) (key : String) (before : Vocabulary) :
    Settled window key (before.learn window key).2 := by
  rcases learn_cases window key before with ⟨settled, learned⟩ | ⟨centre, after, allocation, learned⟩
  · rw [learned]
    exact settled
  · rw [learned]
    exact Or.inr (Or.inl allocation.mem_table)

theorem learn_fst (window : Window) (key : String) (before : Vocabulary) :
    (before.learn window key).1 = (before.learn window key).2.table.find window key := by
  rcases learn_cases window key before with ⟨-, learned⟩ | ⟨centre, after, allocation, learned⟩
  · rw [learned]
  · rw [learned]
    exact allocation.find_eq.symm

/--
A vocabulary that keeps what it has and takes new keys only while their blocks
fit. The counter may also rise because others take ids from it.
-/
structure GrowsInto (window : Window) (before after : Vocabulary) : Prop where
  rises : before.total ≤ after.total
  kept : ∀ (key : String) (feature : FeatureId),
    before.table[key]? = some feature → after.table[key]? = some feature
  gained : ∀ key : String, key ∉ before.table → key ∈ after.table →
    before.total.toNat + window.blockLength < UInt32.size

namespace GrowsInto

theorem refl (window : Window) (vocabulary : Vocabulary) :
    GrowsInto window vocabulary vocabulary := by
  refine ⟨UInt32.le_refl _, fun _ _ known => known, ?_⟩
  intro key new known
  exact absurd known new

theorem trans (first : GrowsInto window before middle) (second : GrowsInto window middle after) :
    GrowsInto window before after := by
  refine ⟨UInt32.le_trans first.rises second.rises, ?_, ?_⟩
  · intro key feature known
    exact second.kept key feature (first.kept key feature known)
  · intro key new known
    by_cases already : key ∈ middle.table
    · exact first.gained key new already
    · have fits := second.gained key already known
      have rises := UInt32.le_iff_toNat_le.mp first.rises
      omega

theorem of_total_le {table : KeyTable} {total later : FeatureId} (rises : total ≤ later) :
    GrowsInto window ⟨table, total⟩ ⟨table, later⟩ := by
  refine ⟨rises, fun _ _ known => known, ?_⟩
  intro key new known
  exact absurd known new

theorem of_allocation {centre : FeatureId} (allocation : Allocation window key centre before after) :
    GrowsInto window before after := by
  refine ⟨UInt32.le_iff_toNat_le.mpr (Nat.le_of_lt allocation.total_lt), ?_, ?_⟩
  · intro other feature known
    rw [allocation.getElem?_table, if_neg, known]
    rintro rfl
    rw [allocation.new] at known
    cases known
  · intro other new known
    have longer := allocation.total_eq
    have bound := after.total.toNat_lt_size
    omega

theorem settled (grows : GrowsInto window before after) (settled : Settled window key before) :
    Settled window key after := by
  rcases settled with empty | known | refused
  · exact Or.inl empty
  · rcases KeyTable.mem_iff.mp known with ⟨feature, found⟩
    exact Or.inr (Or.inl (KeyTable.mem_iff.mpr ⟨feature, grows.kept key feature found⟩))
  · have rises := UInt32.le_iff_toNat_le.mp grows.rises
    exact Or.inr (Or.inr (by omega))

theorem find_eq (grows : GrowsInto window before after) (settled : Settled window key before) :
    after.table.find window key = before.table.find window key := by
  by_cases empty : key = ""
  · simp [KeyTable.find, empty]
  · cases found : before.table[key]? with
    | some feature =>
        rw [KeyTable.find_of_getElem? window empty found,
          KeyTable.find_of_getElem? window empty (grows.kept key feature found)]
    | none =>
        have new : key ∉ before.table := by simpa using found
        have absent : after.table[key]? = none := by
          apply Std.ExtTreeMap.getElem?_eq_none
          intro known
          have fits := grows.gained key new known
          rcases settled with isEmpty | already | refused
          · exact empty isEmpty
          · exact new already
          · omega
        simp [KeyTable.find, empty, found, absent]

end GrowsInto

/-- Some vocabularies in a row, each with one more key than the one before. -/
def Reaches (window : Window) : Vocabulary → Vocabulary → Prop :=
  Relation.ReflTransGen fun before after =>
    ∃ key centre, Allocation window key centre before after

theorem reaches_learn (window : Window) (key : String) (before : Vocabulary) :
    Reaches window before (before.learn window key).2 := by
  rcases learn_cases window key before with ⟨-, learned⟩ | ⟨centre, after, allocation, learned⟩
  · rw [learned]
    exact Relation.ReflTransGen.refl
  · rw [learned]
    exact Relation.ReflTransGen.single ⟨key, centre, allocation⟩

theorem GrowsInto.of_reaches (reaches : Reaches window before after) :
    GrowsInto window before after := by
  induction reaches with
  | refl => exact refl window before
  | tail _ step ih =>
      rcases step with ⟨key, centre, allocation⟩
      exact ih.trans (of_allocation allocation)

theorem reaches_answer (window : Window) (requests : List Request) (before : Vocabulary) :
    Reaches window before (answer window requests before).2 := by
  induction requests generalizing before with
  | nil => exact Relation.ReflTransGen.refl
  | cons request rest ih =>
      exact (reaches_learn window request.key before).trans (ih _)

/--
A vocabulary that has grown out of the one that answered gives the same answers,
whether or not it is allowed to learn, and has nothing to learn from them.
-/
theorem answer_of_growsInto (requests : List Request) (before : Vocabulary)
    (grows : GrowsInto window (answer window requests before).2 after) :
    answer window requests after = ((answer window requests before).1, after) ∧
      after.table.answer window requests = (answer window requests before).1 := by
  induction requests generalizing before with
  | nil => exact ⟨rfl, rfl⟩
  | cons request rest ih =>
      rcases ih (before.learn window request.key).2 grows with ⟨learns, reads⟩
      -- The key has settled at once, and all that is learned later leaves it alone.
      have later : GrowsInto window (before.learn window request.key).2 after :=
        (GrowsInto.of_reaches (reaches_answer window rest _)).trans grows
      have settled := settled_learn window request.key before
      have same : after.table.find window request.key = (before.learn window request.key).1 := by
        rw [later.find_eq settled, ← learn_fst]
      constructor
      · simp only [answer, learn_of_settled (later.settled settled), learns, same]
      · simp only [answer, KeyTable.answer, List.flatMap_cons, same]
        rw [← reads]
        rfl

end Vocabulary

end EntityFeatures

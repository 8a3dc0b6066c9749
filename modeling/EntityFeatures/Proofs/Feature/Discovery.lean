import Mathlib.Data.List.Perm.Subperm
import EntityFeatures.Proofs.Feature.Ranking

/-!
# Keys in the order in which they come up

A vocabulary is looked into many times, and between two times others may take ids
from the same counter. `Vocabulary.Consults` is such a history, with the keys that were
looked up. What it leaves behind, `Vocabulary.Discovers`, is known from the keys alone
as long as no key was refused: the vocabulary has gained the keys that it did not have,
each once, and their features ascend in the order in which the keys came up first.

Some keys may have been refused. That is why the keys that were gained are only known
to be in the right order at first, as a part of `KeyTable.missing`, and every key that
was looked up is known to be settled. Together this leaves two cases, which
`Discovers.complete_or_refused` tells apart by counting.
-/

namespace EntityFeatures

namespace KeyTable

/-- The keys among those looked up that a table does not have, in the order of coming up first. -/
def missing (table : KeyTable) (keys : List String) : List String :=
  (keys.filter fun key => decide (key ≠ "" ∧ key ∉ table)).eraseDups

theorem mem_missing {table : KeyTable} {keys : List String} {key : String} :
    key ∈ table.missing keys ↔ key ∈ keys ∧ key ≠ "" ∧ key ∉ table := by
  rw [missing, List.mem_eraseDups, List.mem_filter, decide_eq_true_iff]

theorem nodup_missing (table : KeyTable) (keys : List String) : (table.missing keys).Nodup :=
  nodup_eraseDups _

theorem missing_concat (table : KeyTable) (keys : List String) (key : String) :
    table.missing (keys ++ [key]) =
      if key = "" ∨ key ∈ table ∨ key ∈ keys then table.missing keys
      else table.missing keys ++ [key] := by
  by_cases new : key ≠ "" ∧ key ∉ table
  · have last : [key].filter (fun key => decide (key ≠ "" ∧ key ∉ table)) = [key] := by
      simp [new]
    rw [missing, List.filter_append, last, eraseDups_concat, missing]
    simp [new]
  · have last : [key].filter (fun key => decide (key ≠ "" ∧ key ∉ table)) = [] := by
      simpa using new
    have known : key = "" ∨ key ∈ table ∨ key ∈ keys := by
      simp only [ne_eq, not_and_or, not_not] at new
      exact new.elim Or.inl fun old => Or.inr (Or.inl old)
    rw [missing, List.filter_append, last, List.append_nil, if_pos known, missing]

end KeyTable

namespace Vocabulary

variable {window : Window} {before middle after : Vocabulary} {keys more learned : List String}

theorem Allocation.size_eq {key : String} {centre : FeatureId}
    (allocation : Allocation window key centre before after) :
    after.table.size = before.table.size + 1 := by
  have absent : key ∉ before.table := by
    intro known
    rcases KeyTable.mem_iff.mp known with ⟨feature, found⟩
    rw [allocation.new] at found
    cases found
  simp [allocation.table_eq, Std.ExtTreeMap.size_insert, absent]

/-- Keys are looked up one after the other, while others may take ids. -/
inductive Consults (window : Window) (before : Vocabulary) : List String → Vocabulary → Prop
  | start : Consults window before [] before
  | wait {keys : List String} {table : KeyTable} {total later : FeatureId} :
      Consults window before keys ⟨table, total⟩ → total ≤ later →
      Consults window before keys ⟨table, later⟩
  | look {keys : List String} {key : String} {middle : Vocabulary} :
      Consults window before keys middle →
      Consults window before (keys ++ [key]) (middle.learn window key).2

namespace Consults

theorem trans (first : Consults window before keys middle)
    (second : Consults window middle more after) : Consults window before (keys ++ more) after := by
  induction second with
  | start => rwa [List.append_nil]
  | wait _ rises ih => exact wait ih rises
  | look _ ih =>
      rw [← List.append_assoc]
      exact look ih

theorem of_answer (window : Window) (requests : List Request) (before : Vocabulary) :
    Consults window before (requests.map Request.key) (answer window requests before).2 := by
  induction requests generalizing before with
  | nil => exact start
  | cons request rest ih =>
      have first : Consults window before [request.key] (before.learn window request.key).2 :=
        look start
      exact first.trans (ih _)

end Consults

/-- What a vocabulary has gained when keys were looked up in it. -/
structure Discovers (window : Window) (before : Vocabulary) (keys learned : List String)
    (after : Vocabulary) : Prop where
  sublist : learned.Sublist (before.table.missing keys)
  kept : ∀ key, key ∉ learned → after.table[key]? = before.table[key]?
  size_eq : after.table.size = before.table.size + learned.length
  /-- The features of the keys ascend, and they are behind the counter. -/
  ascending : ∃ features : List FeatureId,
    learned.map (fun key => after.table[key]?) = features.map some ∧
      features.Pairwise (· < ·) ∧ ∀ feature ∈ features, feature < after.total
  settled : ∀ key ∈ keys, Settled window key after

namespace Discovers

theorem mem_table (discovers : Discovers window before keys learned after) {key : String}
    (mem : key ∈ learned) : key ∈ after.table := by
  rcases discovers.ascending with ⟨features, known, -, -⟩
  have found : after.table[key]? ∈ features.map some := known ▸ List.mem_map_of_mem mem
  rcases List.mem_map.mp found with ⟨feature, -, same⟩
  exact KeyTable.mem_iff.mpr ⟨feature, same.symm⟩

theorem mem_table_iff (discovers : Discovers window before keys learned after) (key : String) :
    key ∈ after.table ↔ key ∈ before.table ∨ key ∈ learned := by
  by_cases mem : key ∈ learned
  · simp [mem, discovers.mem_table mem]
  · simp only [mem, or_false, KeyTable.mem_iff, discovers.kept key mem]

theorem start (window : Window) (before : Vocabulary) : Discovers window before [] [] before := by
  refine ⟨List.nil_sublist _, fun _ _ => rfl, rfl, ⟨[], rfl, List.Pairwise.nil, ?_⟩, ?_⟩
  · intro feature mem
    cases mem
  · intro key mem
    cases mem

theorem wait {table : KeyTable} {total later : FeatureId}
    (discovers : Discovers window before keys learned ⟨table, total⟩) (rises : total ≤ later) :
    Discovers window before keys learned ⟨table, later⟩ := by
  rcases discovers.ascending with ⟨features, known, ordered, below⟩
  refine ⟨discovers.sublist, discovers.kept, discovers.size_eq,
    ⟨features, known, ordered, ?_⟩, ?_⟩
  · intro feature mem
    exact UInt32.lt_of_lt_of_le (below feature mem) rises
  · intro key mem
    exact (GrowsInto.of_total_le rises).settled (discovers.settled key mem)

/-- Looking up a key that is settled finds nothing new. -/
theorem look_settled {key : String} (discovers : Discovers window before keys learned middle)
    (settled : Settled window key middle) :
    Discovers window before (keys ++ [key]) learned middle := by
  refine ⟨?_, discovers.kept, discovers.size_eq, discovers.ascending, ?_⟩
  · rw [KeyTable.missing_concat]
    split
    · exact discovers.sublist
    · exact discovers.sublist.trans (List.sublist_append_left _ _)
  · intro other mem
    rcases List.mem_append.mp mem with early | last
    · exact discovers.settled other early
    · rw [List.mem_singleton.mp last]
      exact settled

/-- A key that is allocated has never come up before, since it would have settled. -/
theorem look_allocation {key : String} {centre : FeatureId}
    (discovers : Discovers window before keys learned middle)
    (unsettled : ¬Settled window key middle)
    (allocation : Allocation window key centre middle after) :
    Discovers window before (keys ++ [key]) (learned ++ [key]) after := by
  have new : key ∉ middle.table := fun known => unsettled (Or.inr (Or.inl known))
  have early : key ∉ keys := fun mem => unsettled (discovers.settled key mem)
  rw [discovers.mem_table_iff, not_or] at new
  have grows := GrowsInto.of_allocation allocation
  refine ⟨?_, ?_, ?_, ?_, ?_⟩
  · have fresh : ¬(key = "" ∨ key ∈ before.table ∨ key ∈ keys) := by
      simp only [not_or]
      exact ⟨allocation.nonempty, new.1, early⟩
    rw [KeyTable.missing_concat, if_neg fresh]
    exact discovers.sublist.append (List.Sublist.refl [key])
  · intro other absent
    rw [List.mem_append, List.mem_singleton, not_or] at absent
    rw [allocation.getElem?_table, if_neg absent.2, discovers.kept other absent.1]
  · rw [allocation.size_eq, discovers.size_eq, List.length_append, List.length_singleton,
      Nat.add_assoc]
  · rcases discovers.ascending with ⟨features, known, ordered, below⟩
    refine ⟨features ++ [centre], ?_, ?_, ?_⟩
    · have same : learned.map (fun other => after.table[other]?) =
          learned.map fun other => middle.table[other]? := by
        apply List.map_congr_left
        intro other mem
        rw [allocation.getElem?_table, if_neg]
        rintro rfl
        exact new.2 mem
      rw [List.map_append, List.map_append, same, known, List.map_singleton, List.map_singleton,
        allocation.getElem?_table, if_pos rfl]
    · rw [List.pairwise_append]
      refine ⟨ordered, List.pairwise_singleton _ _, ?_⟩
      intro feature mem last isLast
      rw [List.mem_singleton.mp isLast, UInt32.lt_iff_toNat_lt, allocation.centre_eq]
      have bound := UInt32.lt_iff_toNat_lt.mp (below feature mem)
      omega
    · intro feature mem
      rcases List.mem_append.mp mem with old | last
      · exact UInt32.lt_of_lt_of_le (below feature old) grows.rises
      · rw [List.mem_singleton.mp last, UInt32.lt_iff_toNat_lt, allocation.centre_eq,
          allocation.total_eq, Window.blockLength]
        omega
  · intro other mem
    rcases List.mem_append.mp mem with old | last
    · exact grows.settled (discovers.settled other old)
    · rw [List.mem_singleton.mp last]
      exact Or.inr (Or.inl allocation.mem_table)

theorem exists_of_consults (consults : Consults window before keys after) :
    ∃ learned, Discovers window before keys learned after := by
  induction consults with
  | start => exact ⟨[], start window before⟩
  | wait _ rises ih =>
      rcases ih with ⟨learned, discovers⟩
      exact ⟨learned, discovers.wait rises⟩
  | @look keys key middle _ ih =>
      rcases ih with ⟨learned, discovers⟩
      by_cases settled : Settled window key middle
      · rw [learn_of_settled settled]
        exact ⟨learned, discovers.look_settled settled⟩
      · rcases exists_allocation_of_not_settled settled with ⟨centre, after, allocation, found⟩
        rw [found]
        exact ⟨learned ++ [key], discovers.look_allocation settled allocation⟩

/-- Either all keys that were missing have been learned, or there is no room for another one. -/
theorem complete_or_refused (discovers : Discovers window before keys learned after) :
    learned = before.table.missing keys ∨
      learned.length < (before.table.missing keys).length ∧
        UInt32.size ≤ after.total.toNat + window.blockLength := by
  by_cases complete : ∀ key ∈ before.table.missing keys, key ∈ learned
  · have atLeast := (List.subperm_of_subset (KeyTable.nodup_missing before.table keys)
      complete).length_le
    exact Or.inl (discovers.sublist.eq_of_length_le atLeast)
  · simp only [not_forall] at complete
    rcases complete with ⟨key, missing, absent⟩
    rcases KeyTable.mem_missing.mp missing with ⟨asked, nonempty, new⟩
    refine Or.inr ⟨?_, ?_⟩
    · apply Nat.lt_of_le_of_ne discovers.sublist.length_le
      intro sameLength
      rw [discovers.sublist.eq_of_length sameLength] at absent
      exact absent missing
    · rcases discovers.settled key asked with empty | known | full
      · exact absurd empty nonempty
      · rcases (discovers.mem_table_iff key).mp known with old | gained
        · exact absurd old new
        · exact absurd gained absent
      · exact full

end Discovers

end Vocabulary

end EntityFeatures

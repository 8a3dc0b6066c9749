import EntityFeatures.Proofs.Feature.Ranking

/-!
# Keys that are reserved in advance

Some extractors take the blocks of all their keys when they are configured. A
reservation that succeeds gives the keys consecutive blocks in the order in which
they are listed: the key of rank `n` has the block number `n` behind the ids that
were taken before. Nothing else happens to the table or to the counter.

A reservation fails at the first key whose block does not fit, and then the keys before it
have their blocks (`Vocabulary.reserve_outcome`).
-/

namespace EntityFeatures

namespace Vocabulary

variable {window : Window} {before after : Vocabulary}

theorem allocation_of_allocate? {key : String} {feature : FeatureId} (nonempty : key ≠ "")
    (new : before.table[key]? = none)
    (allocated : before.allocate? window key = some (feature, after)) :
    Allocation window key feature before after := by
  simp only [allocate?, if_neg nonempty, new] at allocated
  cases centreFound : before.total.blockCentre? window 0 with
  | none => simp [centreFound] at allocated
  | some centre =>
      cases endFound : before.total.blocksEnd? window 1 with
      | none => simp [centreFound, endFound] at allocated
      | some behind =>
          rw [centreFound, endFound] at allocated
          cases allocated
          rw [FeatureId.blockCentre?, FeatureId.ofNat?_eq_some_iff] at centreFound
          rw [FeatureId.blocksEnd?, FeatureId.ofNat?_eq_some_iff] at endFound
          refine ⟨nonempty, new, ?_, ?_, rfl⟩
          · rw [centreFound]
            omega
          · rw [endFound]
            omega

/-- A table that numbers its keys by blocks goes on with the block of the new key. -/
theorem Allocation.ranks {key : String} {centre : FeatureId} {keys : List String} {first : Nat}
    (allocation : Allocation window key centre before after)
    (ranks : before.table.Ranks keys (window.centre first))
    (total_eq : before.total.toNat = first + window.blockLength * keys.length) :
    after.table.Ranks (keys ++ [key]) (window.centre first) ∧
      after.total.toNat = first + window.blockLength * (keys ++ [key]).length := by
  constructor
  · rw [allocation.table_eq]
    apply ranks.insert (ranks.getElem?_eq_none_iff.mp allocation.new)
    rw [allocation.centre_eq, total_eq, Window.centre]
  · rw [allocation.total_eq, total_eq, List.length_append, List.length_singleton, Nat.mul_succ]
    omega

theorem reserve_eq_true {front keys : List String} {first : Nat}
    (ranks : before.table.Ranks front (window.centre first))
    (total_eq : before.total.toNat = first + window.blockLength * front.length)
    (distinct : (front ++ keys).Nodup) (nonempty : "" ∉ keys)
    (done : reserve window keys before = (true, after)) :
    after.table.Ranks (front ++ keys) (window.centre first) ∧
      after.total.toNat = first + window.blockLength * (front ++ keys).length := by
  induction keys generalizing front before with
  | nil =>
      cases done
      rw [List.append_nil]
      exact ⟨ranks, total_eq⟩
  | cons key rest ih =>
      simp only [List.mem_cons, not_or] at nonempty
      have new : key ∉ front := by
        intro inFront
        exact (List.nodup_append.mp distinct).2.2 key inFront key (List.mem_cons_self ..) rfl
      simp only [reserve] at done
      cases allocated : before.allocate? window key with
      | none =>
          rw [allocated] at done
          cases done
      | some grown =>
          rcases grown with ⟨centre, middle⟩
          rw [allocated] at done
          have allocation := allocation_of_allocate? (Ne.symm nonempty.1)
            (ranks.getElem?_eq_none_iff.mpr new) allocated
          rcases allocation.ranks ranks total_eq with ⟨grownRanks, grownTotal⟩
          rw [List.append_cons] at distinct ⊢
          exact ih grownRanks grownTotal distinct nonempty.2 done

theorem allocate?_eq_none {key : String} (nonempty : key ≠ "") (new : before.table[key]? = none)
    (full : UInt32.size ≤ before.total.toNat + window.blockLength) :
    before.allocate? window key = none := by
  simp [allocate?, nonempty, new, FeatureId.blocksEnd?_one_eq_none_iff.mpr full]

theorem exists_allocate?_eq_some {key : String} (nonempty : key ≠ "")
    (new : before.table[key]? = none)
    (fits : before.total.toNat + window.blockLength < UInt32.size) :
    ∃ centre after, before.allocate? window key = some (centre, after) := by
  rcases FeatureId.exists_blockCentre?_and_blocksEnd? fits with
    ⟨centre, behind, centreFound, endFound, -, -⟩
  exact ⟨centre, _, by simp [allocate?, nonempty, new, centreFound, endFound]; rfl⟩

/-- New keys all get their blocks, or the first so many of them do whose blocks fit. -/
theorem reserve_outcome (window : Window) (before : Vocabulary) {keys : List String}
    (distinct : keys.Nodup) (nonempty : "" ∉ keys)
    (new : ∀ key ∈ keys, before.table[key]? = none) :
    (before.total.toNat + window.blockLength * keys.length < UInt32.size ∧
        ∃ after, reserve window keys before = (true, after)) ∨
      ∃ taken after, taken < keys.length ∧ reserve window keys before = (false, after) ∧
        after.total.toNat = before.total.toNat + window.blockLength * taken ∧
        UInt32.size ≤ before.total.toNat + window.blockLength * (taken + 1) := by
  induction keys generalizing before with
  | nil => exact Or.inl ⟨before.total.toNat_lt_size, before, rfl⟩
  | cons key rest ih =>
      rw [List.nodup_cons] at distinct
      simp only [List.mem_cons, not_or] at nonempty
      have isNew := new key (List.mem_cons_self ..)
      simp only [reserve]
      by_cases fits : before.total.toNat + window.blockLength < UInt32.size
      · rcases exists_allocate?_eq_some (Ne.symm nonempty.1) isNew fits with
          ⟨centre, middle, allocated⟩
        have allocation := allocation_of_allocate? (Ne.symm nonempty.1) isNew allocated
        -- A key that came up twice would be known the second time and take no block.
        have stillNew : ∀ other ∈ rest, middle.table[other]? = none := by
          intro other mem
          have differs : other ≠ key := fun same => distinct.1 (same ▸ mem)
          rw [allocation.getElem?_table, if_neg differs]
          exact new other (List.mem_cons_of_mem _ mem)
        rw [allocated]
        rcases ih middle distinct.2 nonempty.2 stillNew with
          ⟨restFits, after, done⟩ | ⟨taken, after, fewer, failed, total_eq, full⟩
        · refine Or.inl ⟨?_, after, done⟩
          rw [allocation.total_eq] at restFits
          rw [List.length_cons, Nat.mul_succ]
          omega
        · refine Or.inr ⟨taken + 1, after, Nat.succ_lt_succ fewer, failed, ?_, ?_⟩
          · rw [total_eq, allocation.total_eq, Nat.mul_succ]
            omega
          · rw [allocation.total_eq] at full
            rw [Nat.mul_succ]
            omega
      · rw [allocate?_eq_none (Ne.symm nonempty.1) isNew (Nat.not_lt.mp fits)]
        refine Or.inr ⟨0, before, Nat.succ_pos _, rfl, rfl, ?_⟩
        rw [Nat.zero_add, Nat.mul_one]
        exact Nat.not_lt.mp fits

end Vocabulary

end EntityFeatures

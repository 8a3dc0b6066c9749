import Mathlib.Data.List.Induction
import EntityFeatures.Proofs.Feature.Learning
import EntityFeatures.Proofs.Feature.Tiling

/-!
# Tables that number their keys

Wherever a table is filled key by key, a new key gets a number that depends on how
many keys there are already. `KeyTable.Ranks` says what such a table looks like: its
keys are those of a list without repetitions, and the number of a key is a function
of its place in the list. The function is the identity when the table leads to
entries, and `Window.centre` when it leads to features.

The list itself is most often the list of what came up, without what came up before.
-/

namespace EntityFeatures

theorem getElem?_concat_eq_some_iff {Item : Type} {items : List Item} {last item : Item}
    {rank : Nat} :
    (items ++ [last])[rank]? = some item ↔
      items[rank]? = some item ∨ rank = items.length ∧ item = last := by
  rw [List.getElem?_append]
  split
  next inside =>
    constructor
    · exact Or.inl
    · rintro (found | ⟨rfl, -⟩)
      · exact found
      · omega
  next outside =>
    rw [List.getElem?_singleton]
    constructor
    · intro found
      split at found
      next here =>
        cases found
        exact Or.inr ⟨by omega, rfl⟩
      next => cases found
    · rintro (found | ⟨rfl, rfl⟩)
      · exact absurd (List.getElem?_eq_some_iff.mp found).1 outside
      · rw [if_pos (Nat.sub_self _)]

namespace KeyTable

/-- The keys of the table are those of the list, each numbered by its place. -/
structure Ranks (table : KeyTable) (keys : List String) (numbered : Nat → Nat) : Prop where
  nodup : keys.Nodup
  size_eq : table.size = keys.length
  mem_iff : ∀ key : String, key ∈ table ↔ key ∈ keys
  toNat_eq : ∀ (rank : Nat) (key : String) (number : UInt32),
    keys[rank]? = some key → table[key]? = some number → number.toNat = numbered rank

namespace Ranks

variable {table later : KeyTable} {keys more : List String} {numbered : Nat → Nat}
  {key : String} {number : UInt32}

theorem empty (numbered : Nat → Nat) : Ranks ∅ [] numbered := by
  refine ⟨List.nodup_nil, by simp, by simp, ?_⟩
  intro rank key number found
  simp at found

theorem getElem?_eq_none_iff (ranks : table.Ranks keys numbered) :
    table[key]? = none ↔ key ∉ keys := by
  rw [← ranks.mem_iff]
  simp

theorem mem_of_getElem? (ranks : table.Ranks keys numbered) (known : table[key]? = some number) :
    key ∈ keys :=
  (ranks.mem_iff key).mp (KeyTable.mem_iff.mpr ⟨number, known⟩)

theorem exists_number (ranks : table.Ranks keys numbered) {rank : Nat}
    (found : keys[rank]? = some key) :
    ∃ number, table[key]? = some number ∧ number.toNat = numbered rank := by
  have mem := (ranks.mem_iff key).mpr (List.mem_of_getElem? found)
  rcases KeyTable.mem_iff.mp mem with ⟨number, known⟩
  exact ⟨number, known, ranks.toNat_eq rank key number found known⟩

theorem exists_rank (ranks : table.Ranks keys numbered) (known : table[key]? = some number) :
    ∃ rank, keys[rank]? = some key ∧ number.toNat = numbered rank := by
  rcases List.mem_iff_getElem?.mp (ranks.mem_of_getElem? known) with ⟨rank, found⟩
  exact ⟨rank, found, ranks.toNat_eq rank key number found known⟩

theorem getElem?_eq_some_iff (ranks : table.Ranks keys numbered) :
    table[key]? = some number ↔ ∃ rank, keys[rank]? = some key ∧ number.toNat = numbered rank := by
  refine ⟨ranks.exists_rank, ?_⟩
  rintro ⟨rank, found, value⟩
  rcases ranks.exists_number found with ⟨other, known, otherValue⟩
  rw [known, UInt32.toNat_inj.mp (otherValue.trans value.symm)]

theorem insert (ranks : table.Ranks keys numbered) (new : key ∉ keys)
    (value : number.toNat = numbered keys.length) :
    Ranks (table.insert key number) (keys ++ [key]) numbered := by
  have absent : key ∉ table := by rwa [ranks.mem_iff]
  refine ⟨?_, ?_, ?_, ?_⟩
  · rw [List.nodup_append]
    refine ⟨ranks.nodup, by simp, ?_⟩
    intro other inKeys last isLast same
    rw [List.mem_singleton.mp isLast] at same
    exact new (same ▸ inKeys)
  · simp [Std.ExtTreeMap.size_insert, absent, ranks.size_eq]
  · intro other
    rw [Std.ExtTreeMap.mem_insert, ranks.mem_iff, List.mem_append, List.mem_singleton,
      Std.LawfulEqCmp.compare_eq_iff_eq, eq_comm, or_comm]
  · intro rank other otherNumber found known
    rw [Std.ExtTreeMap.getElem?_insert] at known
    rcases getElem?_concat_eq_some_iff.mp found with inFront | ⟨rfl, rfl⟩
    · have differs : ¬compare key other = .eq := by
        rw [Std.LawfulEqCmp.compare_eq_iff_eq]
        rintro rfl
        exact new (List.mem_of_getElem? inFront)
      rw [if_neg differs] at known
      exact ranks.toNat_eq rank other otherNumber inFront known
    · simp only [Std.ReflCmp.compare_self, if_true, Option.some.injEq] at known
      rw [← known, value]

theorem getElem?_of_append (ranks : table.Ranks keys numbered)
    (grown : later.Ranks (keys ++ more) numbered) (known : table[key]? = some number) :
    later[key]? = some number := by
  rcases ranks.exists_rank known with ⟨rank, found, value⟩
  rw [grown.getElem?_eq_some_iff]
  refine ⟨rank, ?_, value⟩
  rwa [List.getElem?_append_left (List.getElem?_eq_some_iff.mp found).1]

/-- Numbers that grow with the rank leave room for so many keys only. -/
theorem length_le (ranks : table.Ranks keys numbered) (grows : ∀ rank, rank ≤ numbered rank) :
    keys.length ≤ UInt32.size := by
  rcases keys.eq_nil_or_concat with rfl | ⟨front, last, rfl⟩
  · simp
  · rw [List.concat_eq_append] at ranks ⊢
    have found : (front ++ [last])[front.length]? = some last := by simp
    rcases ranks.exists_number found with ⟨number, -, value⟩
    have bound := number.toNat_lt_size
    have atLeast := grows front.length
    simp only [List.length_append, List.length_singleton]
    omega

end Ranks

end KeyTable

theorem Window.le_centre (window : Window) (first rank : Nat) : rank ≤ window.centre first rank := by
  have steps := Nat.mul_le_mul_right rank window.blockLength_pos
  simp only [centre]
  omega

theorem eraseDups_concat {Item : Type} [BEq Item] [LawfulBEq Item] (items : List Item)
    (item : Item) :
    (items ++ [item]).eraseDups =
      if item ∈ items then items.eraseDups else items.eraseDups ++ [item] := by
  rw [List.eraseDups_append, List.removeAll]
  by_cases known : item ∈ items
  · simp [known]
  · simp [known, List.eraseDups_cons]

theorem nodup_eraseDups {Item : Type} [BEq Item] [LawfulBEq Item] (items : List Item) :
    items.eraseDups.Nodup := by
  induction items using List.reverseRecOn with
  | nil => exact List.nodup_nil
  | append_singleton items item ih =>
      rw [eraseDups_concat]
      split
      · exact ih
      next new =>
        refine List.nodup_append.mpr ⟨ih, by simp, ?_⟩
        intro other mem last isLast same
        rw [List.mem_singleton.mp isLast] at same
        exact new (List.mem_eraseDups.mp (same ▸ mem))

theorem eraseDups_of_forall_eq {Item : Type} [BEq Item] [LawfulBEq Item] {items : List Item}
    {item : Item} (nonempty : items ≠ []) (same : ∀ other ∈ items, other = item) :
    items.eraseDups = [item] := by
  cases items with
  | nil => exact absurd rfl nonempty
  | cons first rest =>
      have none : rest.filter (fun other => !other == first) = [] := by
        rw [List.filter_eq_nil_iff]
        intro other mem
        rw [same other (List.mem_cons_of_mem _ mem), same first (List.mem_cons_self ..)]
        simp
      rw [List.eraseDups_cons, none, same first (List.mem_cons_self ..)]
      rfl

theorem eraseDups_append_of_disjoint {Item : Type} [BEq Item] [LawfulBEq Item]
    {front back : List Item} (disjoint : ∀ item ∈ back, item ∉ front) :
    (front ++ back).eraseDups = front.eraseDups ++ back.eraseDups := by
  have kept : back.removeAll front = back := by
    rw [List.removeAll, List.filter_eq_self]
    intro item mem
    simpa using disjoint item mem
  rw [List.eraseDups_append, kept]

end EntityFeatures

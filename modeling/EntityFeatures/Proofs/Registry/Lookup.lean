import Mathlib.Data.List.Nodup
import EntityFeatures.Proofs.Feature.Ranking
import EntityFeatures.Registry

/-!
# Looking types up by name

The number of a name is the last place at which it stands. So a name leads to the number of
a place if and only if it stands there and nowhere behind, and if it may be a name at all:
`Registry.resolve_eq_iff`. A registry in which numbers and names lead to each other is one
without repetitions, all of whose names may be names, `Registry.isBijective_iff`.

All this is about registries that are not so large that a place is the number that stands
for no type.
-/

namespace EntityFeatures

namespace Registry

variable {registry : Registry} {name other : String} {id : EntityId}

theorem lastIndex?_concat (name : String) (index : Nat) (names : List String) (last : String) :
    lastIndex? name index (names ++ [last]) =
      if last = name then some (index + names.length) else lastIndex? name index names := by
  induction names generalizing index with
  | nil => simp [lastIndex?]
  | cons first rest ih =>
      simp only [List.cons_append, lastIndex?, ih, List.length_cons]
      by_cases same : last = name
      · simp [same, Nat.add_assoc, Nat.add_comm 1]
      · simp [same]

theorem find?_push (registry : Registry) (name other : String) :
    (registry.push name).find? other =
      if name = other then some (UInt32.ofNat registry.size) else registry.find? other := by
  simp only [find?, push, lastIndex?_concat, Nat.zero_add, size]
  split <;> rfl

/-- The last place of a name is one at which it stands, and there is none behind it. -/
theorem lastIndex?_eq_some_iff {names : List String} {place : Nat} :
    lastIndex? name 0 names = some place ↔
      names[place]? = some name ∧ ∀ later, place < later → names[later]? ≠ some name := by
  induction names using List.reverseRecOn with
  | nil => simp [lastIndex?]
  | append_singleton names last ih =>
      rw [lastIndex?_concat, Nat.zero_add]
      simp only [getElem?_concat_eq_some_iff, ne_eq, not_or]
      split
      next same =>
        subst same
        constructor
        · intro found
          cases found
          refine ⟨Or.inr ⟨rfl, rfl⟩, ?_⟩
          intro later behind
          refine ⟨?_, fun here => absurd here.1 (Nat.ne_of_gt behind)⟩
          rw [List.getElem?_eq_none (Nat.le_of_lt behind)]
          simp
        · rintro ⟨inFront | ⟨rfl, -⟩, none⟩
          · have inside := (List.getElem?_eq_some_iff.mp inFront).1
            exact absurd ⟨rfl, rfl⟩ (none _ inside).2
          · rfl
      next differs =>
        have differs : name ≠ last := fun same => differs same.symm
        simp only [differs, and_false, or_false, not_false_eq_true, and_true]
        exact ih

theorem lastIndex?_eq_none_iff {names : List String} :
    lastIndex? name 0 names = none ↔ name ∉ names := by
  induction names using List.reverseRecOn with
  | nil => simp [lastIndex?]
  | append_singleton names last ih =>
      rw [lastIndex?_concat, List.mem_append, List.mem_singleton]
      split
      next same => simp [same]
      next differs => simp [ih, Ne.symm differs]

theorem find?_eq_none_iff : registry.find? name = none ↔ name ∉ registry.names := by
  rw [find?, Option.map_eq_none_iff, lastIndex?_eq_none_iff]

theorem resolve_false (registry : Registry) (name : String) :
    registry.resolve name false =
      (if isEntityName name then (registry.find? name).getD EntityId.unknown
        else EntityId.unknown, registry) := by
  rw [resolve]
  split
  · cases registry.find? name <;> rfl
  · rfl

theorem find?_eq_some_iff (fits : registry.size ≤ UInt32.size) :
    registry.find? name = some id ↔ registry.name? id = some name ∧
      ∀ later, id.toNat < later → registry.names[later]? ≠ some name := by
  rw [find?, Option.map_eq_some_iff]
  constructor
  · rintro ⟨place, found, rfl⟩
    have known := lastIndex?_eq_some_iff.mp found
    have inside : place < registry.size := (List.getElem?_eq_some_iff.mp known.1).1
    rwa [name?, UInt32.toNat_ofNat_of_lt' (Nat.lt_of_lt_of_le inside fits)]
  · intro known
    exact ⟨id.toNat, lastIndex?_eq_some_iff.mpr known, UInt32.ofNat_toNat⟩

/-- Without repetitions no name stands in two places. -/
theorem not_behind_of_nodup (nodup : registry.names.Nodup) (named : registry.name? id = some name)
    (later : Nat) (behind : id.toNat < later) : registry.names[later]? ≠ some name := by
  intro same
  have inside := (List.getElem?_eq_some_iff.mp same).1
  exact List.nodup_iff_getElem?_ne_getElem?.mp nodup _ _ behind inside (named.trans same.symm)

theorem find?_eq_some_iff_of_nodup (fits : registry.size ≤ UInt32.size)
    (nodup : registry.names.Nodup) :
    registry.find? name = some id ↔ registry.name? id = some name := by
  rw [find?_eq_some_iff fits]
  exact and_iff_left_of_imp (not_behind_of_nodup nodup)

/-- A name leads to a number if it stands there and nowhere behind, and may be a name. -/
theorem resolve_eq_iff (fits : registry.size ≤ EntityId.unknown.toNat)
    (inside : id.toNat < registry.size) :
    (registry.resolve name false).1 = id ↔ isEntityName name ∧ registry.name? id = some name ∧
      ∀ later, id.toNat < later → registry.names[later]? ≠ some name := by
  have isKnown : EntityId.unknown ≠ id := by
    rintro rfl
    exact absurd inside (Nat.not_lt.mpr fits)
  have small := Nat.le_trans fits (Nat.le_of_lt EntityId.unknown.toNat_lt_size)
  rw [← find?_eq_some_iff small, resolve_false]
  by_cases wellFormed : isEntityName name
  · cases found : registry.find? name with
    | none => simp [wellFormed, isKnown]
    | some other => simp [wellFormed]
  · simp [wellFormed, isKnown]

/-- Numbers and names lead to each other. -/
def IsBijective (registry : Registry) : Prop :=
  ∀ (id : EntityId) (name : String), registry.name? id = some name ↔
    id.toNat < registry.size ∧ (registry.resolve name false).1 = id

theorem isBijective_iff (fits : registry.size ≤ EntityId.unknown.toNat) :
    registry.IsBijective ↔
      registry.names.Nodup ∧ ∀ name ∈ registry.names, isEntityName name := by
  constructor
  · intro bijective
    have resolves {place : Nat} {name : String} (placed : registry.names[place]? = some name) :
        isEntityName name ∧ ∀ later, place < later → registry.names[later]? ≠ some name := by
      have inside : place < registry.size := (List.getElem?_eq_some_iff.mp placed).1
      have largest := EntityId.unknown.toNat_lt_size
      have same : (UInt32.ofNat place).toNat = place := UInt32.toNat_ofNat_of_lt' (by omega)
      have named : registry.name? (UInt32.ofNat place) = some name := by rwa [name?, same]
      rcases (bijective _ _).mp named with ⟨bound, resolved⟩
      have known := (resolve_eq_iff fits bound).mp resolved
      rw [same] at known
      exact ⟨known.1, known.2.2⟩
    constructor
    · apply List.nodup_iff_getElem?_ne_getElem?.mpr
      intro place later behind inside same
      have present := List.getElem?_eq_getElem (Nat.lt_trans behind inside)
      exact (resolves present).2 later behind (same.symm.trans present)
    · intro name mem
      rcases List.mem_iff_getElem?.mp mem with ⟨place, placed⟩
      exact (resolves placed).1
  · rintro ⟨nodup, wellFormed⟩ id name
    constructor
    · intro named
      have inside : id.toNat < registry.size := (List.getElem?_eq_some_iff.mp named).1
      have mayBe := wellFormed name (List.mem_of_getElem? named)
      refine ⟨inside, (resolve_eq_iff fits inside).mpr ⟨mayBe, named, ?_⟩⟩
      exact not_behind_of_nodup nodup named
    · rintro ⟨inside, resolved⟩
      exact ((resolve_eq_iff fits inside).mp resolved).2.1

end Registry

end EntityFeatures

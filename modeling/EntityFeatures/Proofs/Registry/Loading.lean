import EntityFeatures.Proofs.Registry.Indexed

/-!
# What is known of a registry that was read

A registry that is read takes the names as they come. There is no list of names that it would
not take, so a name may be repeated, and a text may be among the names that could not have been
added. What follows from this for looking types up is `Registry.LooksUpLast`: the name of a
number leads back to the number if and only if it may be a name and comes nowhere behind. The
numbers for which this is not so keep their names, but no name leads to them.

So a registry that was read is a bijection exactly if its names are such as could have been
added one after the other. The table of numbers is none the wiser: it is filled from the same
names and has the last number of each.
-/

namespace EntityFeatures

open Model
open Model.Reader

namespace Registry

/-- To which numbers the names of a registry lead. -/
structure LooksUpLast (registry : Registry) : Prop where
  fits : registry.size ≤ EntityId.unknown.toNat
  resolves : ∀ (id : EntityId) (name : String), registry.name? id = some name →
    ((registry.resolve name false).1 = id ↔
      isEntityName name ∧ ∀ later, id.toNat < later → registry.names[later]? ≠ some name)
  bijective_iff : registry.IsBijective ↔
    registry.names.Nodup ∧ ∀ name ∈ registry.names, isEntityName name

/-- The registry has this many names. -/
def HasSize (count : Nat) (registry : Registry) : Prop :=
  registry.size = count

theorem hasSize_empty : empty.HasSize 0 := rfl

theorem HasSize.push {registry : Registry} {count : Nat} (sized : registry.HasSize count)
    (name : String) : (registry.push name).HasSize (count + 1) := by
  rw [HasSize, size, Registry.push, List.length_append, List.length_singleton]
  exact congrArg (· + 1) sized

/-- The number of the names was read from four bytes. -/
theorem size_le_of_load {before after : Registry} {data rest : List UInt8}
    (done : load (before, data) = .ok () (after, rest)) :
    after.size ≤ EntityId.unknown.toNat := by
  have ensures : Ensures (fun _ => True) load fun _ registry =>
      ∃ count < UInt32.size, registry.HasSize count := by
    apply Ensures.restart (fun _ => hasSize_empty)
    intro count
    refine Ensures.bind Ensures.text fun name => ?_
    apply Ensures.update
    rintro registry ⟨-, sized⟩
    exact sized.push name
  rcases ensures _ _ _ done trivial with ⟨count, few, sized⟩
  have largest : EntityId.unknown.toNat + 1 = UInt32.size := rfl
  change after.size = count at sized
  omega

theorem LooksUpLast.of_load {before after : Registry} {data rest : List UInt8}
    (done : load (before, data) = .ok () (after, rest)) : after.LooksUpLast := by
  have fits := size_le_of_load done
  refine ⟨fits, ?_, isBijective_iff fits⟩
  intro id name named
  rw [resolve_eq_iff fits (List.getElem?_eq_some_iff.mp named).1]
  exact and_congr_right fun _ => and_iff_right named

/--
Whatever the data were, each name of a registry that was read leads to the last of its
numbers, and so it does with two tables.
-/
theorem looksUpLast_of_load {before after : Registry} {data rest : List UInt8}
    (done : load (before, data) = .ok () (after, rest)) :
    after.LooksUpLast ∧ ∀ tables : IndexedRegistry, tables.registry = before →
      ∃ filled, IndexedRegistry.load (tables, data) = .ok () (filled, rest) ∧
        filled.registry = after ∧ filled.IsSound := by
  refine ⟨LooksUpLast.of_load done, ?_⟩
  rintro tables rfl
  rcases IndexedRegistry.mirrors_load.exists_of_eq_ok done with ⟨filled, loaded, same⟩
  exact ⟨filled, loaded, same, IndexedRegistry.isSound_of_load loaded⟩

theorem looksUpLast_of_load_two_names :
    load (⟨["A"]⟩, [2, 0, 0, 0, 1, 80, 1, 71, 9]) = .ok () (⟨["P", "G"]⟩, [9]) ∧
      LooksUpLast ⟨["P", "G"]⟩ ∧ IsBijective ⟨["P", "G"]⟩ := by
  have done : load (⟨["A"]⟩, [2, 0, 0, 0, 1, 80, 1, 71, 9]) = .ok () (⟨["P", "G"]⟩, [9]) :=
    eq_ok_of_reached? (by decide +kernel)
  have looksUp := (looksUpLast_of_load done).1
  exact ⟨done, looksUp, looksUp.bijective_iff.mpr (by decide +kernel)⟩

/-- A repeated name, an empty name and a name with a blank in it are read without an error. -/
theorem load_inconsistent_names :
    (load (empty, [2, 0, 0, 0, 1, 80, 1, 80]) = .ok () (⟨["P", "P"]⟩, []) ∧
        name? ⟨["P", "P"]⟩ 0 = some "P" ∧ (resolve ⟨["P", "P"]⟩ "P" false).1 = 1) ∧
      (load (empty, [1, 0, 0, 0, 0]) = .ok () (⟨[""]⟩, []) ∧
        name? ⟨[""]⟩ 0 = some "" ∧ (resolve ⟨[""]⟩ "" false).1 = EntityId.unknown) ∧
      load (empty, [1, 0, 0, 0, 3, 97, 32, 98]) = .ok () (⟨["a b"]⟩, []) ∧
        name? ⟨["a b"]⟩ 0 = some "a b" ∧
        (resolve ⟨["a b"]⟩ "a b" false).1 = EntityId.unknown := by
  refine ⟨⟨eq_ok_of_reached? ?_, ?_⟩, ⟨eq_ok_of_reached? ?_, ?_⟩, eq_ok_of_reached? ?_, ?_⟩
  all_goals decide +kernel

end Registry

end EntityFeatures

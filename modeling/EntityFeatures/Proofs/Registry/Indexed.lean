import EntityFeatures.Proofs.Model.Capacity
import EntityFeatures.Proofs.Model.Projection
import EntityFeatures.Proofs.Pipeline.Truncation
import EntityFeatures.Proofs.Registry.Lookup
import EntityFeatures.Registry.Indexed

/-!
# Two tables that agree

The second table of an `IndexedRegistry` is of no use unless it says the same as the first.
`IndexedRegistry.IsSound` is the invariant: it has for every name what going through the
names would find. It does not depend on what the names are, so a name that is pushed twice
or that could not be resolved does no harm to it.

Therefore the two tables can be replaced by the list of the names. Both resolve a name in the
same way, `IndexedRegistry.IsSound.resolve`, and both read the same data with the same
outcome, `IndexedRegistry.mirrors_load`. What was written is read back as it was, with the
table that was not written, `IndexedRegistry.IsSound.consumes_load`.
-/

namespace EntityFeatures

open Model
open Model.Reader

namespace IndexedRegistry

variable {tables other : IndexedRegistry}

/-- The second table leads to what is found in the first. -/
def IsSound (tables : IndexedRegistry) : Prop :=
  ∀ name : String, tables.numbers[name]? = tables.registry.find? name

theorem isSound_empty : empty.IsSound := by
  intro name
  simp [empty, Registry.empty, Registry.find?, Registry.lastIndex?]

theorem IsSound.push (sound : tables.IsSound) (name : String) : (tables.push name).IsSound := by
  intro other
  simp only [IndexedRegistry.push, Registry.find?_push, Std.ExtTreeMap.getElem?_insert,
    Std.LawfulEqCmp.compare_eq_iff_eq, sound other]
  rfl

/-- A name is resolved as if there were one table, and the tables go on to agree. -/
theorem IsSound.resolve (sound : tables.IsSound) (name : String) (add : Bool) :
    (tables.resolve name add).1 = (tables.registry.resolve name add).1 ∧
      (tables.resolve name add).2.registry = (tables.registry.resolve name add).2 ∧
      (tables.resolve name add).2.IsSound := by
  simp only [IndexedRegistry.resolve, Registry.resolve, sound name]
  split
  · cases tables.registry.find? name with
    | some id => exact ⟨rfl, rfl, sound⟩
    | none =>
        cases add with
        | true => exact ⟨rfl, rfl, sound.push name⟩
        | false => exact ⟨rfl, rfl, sound⟩
  · exact ⟨rfl, rfl, sound⟩

/-- Nothing but the names is in sound tables. -/
theorem IsSound.eq_of_registry_eq (sound : tables.IsSound) (otherSound : other.IsSound)
    (same : tables.registry = other.registry) : tables = other := by
  rcases tables with ⟨registry, numbers⟩
  rcases other with ⟨_, others⟩
  cases same
  have numbers_eq : numbers = others := by
    apply Std.ExtTreeMap.ext_getElem?
    intro name
    exact (sound name).trans (otherSound name).symm
  rw [numbers_eq]

theorem mirrors_load : Mirrors registry Registry.load load := by
  have emptied : Mirrors registry (Reader.update fun _ => .empty) (Reader.update fun _ => empty) :=
    Mirrors.update fun _ => rfl
  refine Mirrors.bind emptied fun _ => Mirrors.counted (Mirrors.bind Mirrors.text fun name => ?_)
  exact Mirrors.update fun _ => rfl

/-- Whatever the data are, the tables that were filled agree. -/
theorem isSound_of_load {before after : IndexedRegistry} {data rest : List UInt8}
    (done : load (before, data) = .ok () (after, rest)) : after.IsSound := by
  have ensures : Ensures (fun _ => True) load fun _ target =>
      ∃ rounds < UInt32.size, target.IsSound := by
    apply Ensures.restart (fun _ => isSound_empty)
    intro round
    refine Ensures.bind Ensures.text fun name => ?_
    apply Ensures.update
    rintro target ⟨-, sound⟩
    exact sound.push name
  rcases ensures _ _ _ done trivial with ⟨_, _, sound⟩
  exact sound

theorem IsSound.consumes_load (sound : tables.IsSound) {written : List UInt8}
    (encoded : tables.save = .ok written) (before : IndexedRegistry) :
    Consumes load written () before tables := by
  intro rest
  rcases mirrors_load.exists_of_eq_ok (Registry.consumes_load encoded before.registry rest) with
    ⟨filled, done, same⟩
  rw [done, (isSound_of_load done).eq_of_registry_eq sound same]

end IndexedRegistry

end EntityFeatures

import EntityFeatures.Feature.Emission

/-!
# What emissions leave on a token

Emissions are put into the lists of the tokens one after the other, and each list only
ever becomes longer at its end. What is appended to the list of a token is known from
the emissions and from how many tokens there are: `Emission.idsOn` are the ids that one
emission has for the token, and `FeatureLists.getElem?_emitAll` collects them for
several. So it does not matter what stood in the lists before, and
`FeatureLists.emitAll_eq_zipWith` says this for all tokens at once.
-/

namespace EntityFeatures

theorem toNat_ofInt {number : Int} (low : 0 ≤ number) (high : number < UInt32.size) :
    ((UInt32.ofInt number).toNat : Int) = number := by
  have whole : number % 2 ^ 32 = number := Int.emod_eq_of_lt low high
  have small : number.toNat < UInt32.size := by omega
  rw [UInt32.ofInt, whole, UInt32.toNat_ofNat_of_lt' small, Int.toNat_of_nonneg low]

namespace Emission

/-- The ids that a token receives from an emission in a sentence of `size` tokens. -/
def idsOn (size token : Nat) (emission : Emission) : List FeatureId :=
  if token ∈ emission.targets size then [emission.idAt token] else []

theorem mem_idsOn {size token : Nat} {emission : Emission} {id : FeatureId} :
    id ∈ emission.idsOn size token ↔ token ∈ emission.targets size ∧ id = emission.idAt token := by
  rw [idsOn]
  split
  next target => simp [target]
  next other => simp [other]

/-- An id that 32 bits can hold is computed exactly. -/
theorem toNat_idAt {emission : Emission} {token : Nat}
    (low : 0 ≤ (emission.feature.toNat : Int) + token - emission.anchor)
    (high : (emission.feature.toNat : Int) + token - emission.anchor < UInt32.size) :
    ((emission.idAt token).toNat : Int) = emission.feature.toNat + token - emission.anchor :=
  toNat_ofInt low high

/-- Within a window that has its block below the largest id, ids are exact and never unknown. -/
theorem idAt_of_within {emission : Emission} {window : Window} {token : Nat}
    (behind : window.toNat ≤ emission.feature.toNat)
    (room : emission.feature.toNat + window.toNat + 1 < UInt32.size)
    (low : -(window.toNat : Int) ≤ token - emission.anchor)
    (high : (token : Int) - emission.anchor ≤ window.toNat) :
    ((emission.idAt token).toNat : Int) = emission.feature.toNat + token - emission.anchor ∧
      emission.idAt token ≠ FeatureId.unknown := by
  have computed : ((emission.idAt token).toNat : Int) =
      emission.feature.toNat + token - emission.anchor :=
    toNat_idAt (by omega) (by omega)
  refine ⟨computed, ?_⟩
  intro unknown
  rw [unknown] at computed
  have largest : FeatureId.unknown.toNat + 1 = UInt32.size := rfl
  omega

end Emission

namespace FeatureLists

theorem getElem?_emitAll (lists : FeatureLists) (emissions : List Emission) (token : Nat) :
    (lists.emitAll emissions)[token]? =
      lists[token]?.map (· ++ emissions.flatMap (Emission.idsOn lists.length token)) := by
  induction emissions generalizing lists with
  | nil => simp [emitAll]
  | cons emission rest ih =>
      have later := ih (lists.emit emission)
      rw [length_emit, getElem?_emit] at later
      rw [List.flatMap_cons, Emission.idsOn]
      change ((lists.emit emission).emitAll rest)[token]? = _
      rw [later]
      split
      next => simp only [Option.map_map, Function.comp_def, List.append_assoc]
      next => rw [List.nil_append]

/-- What a token had before stays in front of what several emissions append. -/
theorem emitAll_eq_zipWith (lists : FeatureLists) (emissions : List Emission) :
    lists.emitAll emissions =
      List.zipWith (· ++ ·) lists (emitAll (List.replicate lists.length []) emissions) := by
  apply List.ext_getElem?
  intro token
  rw [List.getElem?_zipWith, getElem?_emitAll, getElem?_emitAll, List.length_replicate,
    List.getElem?_replicate]
  by_cases inside : token < lists.length
  · rw [if_pos inside, List.getElem?_eq_getElem inside]
    rfl
  · rw [if_neg inside, List.getElem?_eq_none (Nat.not_lt.mp inside)]
    rfl

end FeatureLists

end EntityFeatures

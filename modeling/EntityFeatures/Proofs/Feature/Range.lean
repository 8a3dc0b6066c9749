import Mathlib.Data.List.Forall2
import EntityFeatures.Proofs.Feature.Emission

/-!
# Which tokens an emission reaches

The range of an emission is given by signed numbers. Its anchor may lie outside the
sentence, and the range may reach over either end, be empty or be turned around. All of
this comes down to one condition on a token: it is not before the sentence nor before the
range, and not behind either of them. A token that meets it receives exactly one id, the
feature and the distance modulo the number of ids, and no other list changes.

Positions are integers here, so no sum of them can overflow, and the statements hold for all
ranges. What a token receives of several emissions is known from the emissions one by one,
`FeatureLists.getElem?_emitAll`. That is why their order only decides the order of the ids
within a list, `FeatureLists.forall₂_perm_emitAll`, and why a range may be cut in two at any
place, `FeatureLists.emit_emit_of_cut`.
-/

namespace EntityFeatures

namespace Emission

variable {emission : Emission} {size token : Nat}

/-- The id of a token is counted modulo the number of ids. -/
theorem toNat_idAt_emod (emission : Emission) (token : Nat) :
    ((emission.idAt token).toNat : Int) =
      (emission.feature.toNat + token - emission.anchor) % (UInt32.size : Int) := by
  have low : 0 ≤ (emission.feature.toNat + token - emission.anchor) % (UInt32.size : Int) :=
    Int.emod_nonneg _ (by decide)
  have high : (emission.feature.toNat + token - emission.anchor) % (UInt32.size : Int) <
      UInt32.size :=
    Int.emod_lt_of_pos _ (by decide)
  rw [← toNat_ofInt low high]
  simp [idAt, UInt32.ofInt]

/-- The tokens that receive a known feature, by the bounds of the sentence and of the range. -/
theorem mem_targets_iff_between (known : emission.feature ≠ FeatureId.unknown) :
    token ∈ emission.targets size ↔
      max 0 (emission.anchor + emission.left) ≤ (token : Int) ∧
        (token : Int) ≤ min ((size : Int) - 1) (emission.anchor + emission.right) := by
  simp only [mem_targets, known, ne_eq, not_false_eq_true, true_and]
  omega

theorem lt_size_of_mem_targets (target : token ∈ emission.targets size) : token < size := by
  rcases mem_targets.mp target with ⟨_, _, _, inside⟩
  exact inside

/-- The targets of a range are those of its two parts, and no token is in both. -/
theorem mem_targets_of_cut {middle : Int} (low : emission.left - 1 ≤ middle)
    (high : middle ≤ emission.right) (size token : Nat) :
    (token ∈ emission.targets size ↔
      token ∈ targets { emission with right := middle } size ∨
        token ∈ targets { emission with left := middle + 1 } size) ∧
      ¬(token ∈ targets { emission with right := middle } size ∧
        token ∈ targets { emission with left := middle + 1 } size) := by
  simp only [mem_targets]
  constructor
  · constructor
    · rintro ⟨known, behindLeft, beforeRight, inside⟩
      by_cases inFront : (token : Int) ≤ emission.anchor + middle
      · exact Or.inl ⟨known, behindLeft, inFront, inside⟩
      · exact Or.inr ⟨known, by omega, beforeRight, inside⟩
    · rintro (⟨known, behindLeft, beforeMiddle, inside⟩ |
        ⟨known, behindMiddle, beforeRight, inside⟩)
      · exact ⟨known, behindLeft, by omega, inside⟩
      · exact ⟨known, by omega, beforeRight, inside⟩
  · rintro ⟨⟨_, _, beforeMiddle, _⟩, ⟨_, behindMiddle, _, _⟩⟩
    omega

end Emission

namespace FeatureLists

/-- In whatever order emissions are made, every list has the same ids, if not in the same order. -/
theorem forall₂_perm_emitAll {emissions others : List Emission} (perm : emissions.Perm others)
    (lists : FeatureLists) :
    List.Forall₂ List.Perm (lists.emitAll emissions) (lists.emitAll others) := by
  rw [List.forall₂_iff_get]
  refine ⟨by simp, ?_⟩
  intro token inside otherInside
  have before : token < lists.length := by simpa using inside
  have list := getElem?_emitAll lists emissions token
  have otherList := getElem?_emitAll lists others token
  simp only [List.getElem?_eq_getElem inside, List.getElem?_eq_getElem before, Option.map_some,
    Option.some.injEq] at list
  simp only [List.getElem?_eq_getElem otherInside, List.getElem?_eq_getElem before,
    Option.map_some, Option.some.injEq] at otherList
  simp only [List.get_eq_getElem, list, otherList]
  apply List.Perm.append_left
  exact perm.flatMap_right _

/-- The two parts of a range, one after the other, leave what the whole leaves. -/
theorem emit_emit_of_cut {emission : Emission} {middle : Int} (low : emission.left - 1 ≤ middle)
    (high : middle ≤ emission.right) (lists : FeatureLists) :
    (lists.emit { emission with right := middle }).emit { emission with left := middle + 1 } =
      lists.emit emission := by
  apply List.ext_getElem?
  intro token
  rcases Emission.mem_targets_of_cut low high lists.length token with ⟨whole, notBoth⟩
  simp only [getElem?_emit, length_emit]
  by_cases first : token ∈ Emission.targets { emission with right := middle } lists.length
  · have notSecond :
        token ∉ Emission.targets { emission with left := middle + 1 } lists.length :=
      fun second => notBoth ⟨first, second⟩
    simp only [notSecond, first, whole.mpr (Or.inl first), if_true, if_false]
    rfl
  · by_cases second : token ∈ Emission.targets { emission with left := middle + 1 } lists.length
    · simp only [first, second, whole.mpr (Or.inr second), if_true, if_false]
      rfl
    · have outside : token ∉ emission.targets lists.length := by
        intro target
        exact (whole.mp target).elim first second
      simp only [first, second, outside, if_false]

/--
A known feature is put on the tokens of the sentence that lie in the range, one id for each,
and nowhere else. Two emissions may be made in either order, and one in two parts.
-/
theorem emit_projects (lists : FeatureLists) (emission : Emission)
    (known : emission.feature ≠ FeatureId.unknown) :
    (lists.emit emission).length = lists.length ∧
    (∀ token ∈ emission.targets lists.length, token < lists.length) ∧
    (∀ (token : Nat) (list : List FeatureId), lists[token]? = some list →
      (lists.emit emission)[token]? = some
        (if max 0 (emission.anchor + emission.left) ≤ (token : Int) ∧
            (token : Int) ≤ min ((lists.length : Int) - 1) (emission.anchor + emission.right) then
          list ++ [emission.idAt token]
        else list)) ∧
    (∀ token : Nat, ((emission.idAt token).toNat : Int) =
      (emission.feature.toNat + token - emission.anchor) % (UInt32.size : Int)) ∧
    (∀ other : Emission, List.Forall₂ List.Perm
      ((lists.emit emission).emit other) ((lists.emit other).emit emission)) ∧
    ∀ middle : Int, emission.left - 1 ≤ middle → middle ≤ emission.right →
      (lists.emit { emission with right := middle }).emit { emission with left := middle + 1 } =
        lists.emit emission := by
  refine ⟨length_emit lists emission, fun _ => Emission.lt_size_of_mem_targets, ?_,
    Emission.toNat_idAt_emod emission, ?_, fun _ low high => emit_emit_of_cut low high lists⟩
  · intro token list found
    rw [getElem?_emit, found]
    simp only [Emission.mem_targets_iff_between known, Option.map_some]
    split <;> rfl
  · intro other
    exact forall₂_perm_emitAll (List.Perm.swap other emission []) lists

/-- The range reaches over the end, and two of the ids wrap around. -/
theorem emit_projects_beyond_end :
    (0 : FeatureId) ≠ FeatureId.unknown ∧
      FeatureLists.emit (FeatureLists.emit [[7], [], [9]] ⟨0, 2, -2, -1⟩) ⟨0, 2, 0, 5⟩ =
        [[7, 4294967294], [4294967295], [9, 0]] := by
  have known : (0 : FeatureId) ≠ FeatureId.unknown := by decide
  refine ⟨known, ?_⟩
  rcases emit_projects [[7], [], [9]] ⟨0, 2, -2, 5⟩ known with ⟨_, _, _, _, _, cut⟩
  have whole := cut (-1) (by decide) (by decide)
  rw [show (0 : Int) = -1 + 1 from rfl, whole]
  decide

end FeatureLists

end EntityFeatures

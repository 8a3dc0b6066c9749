import Mathlib.Tactic.SplitIfs
import EntityFeatures.Proofs.Text.Encoding

/-!
# The order of texts

Texts are compared character by character, and the keys of a saved table are sorted that
way. Seen from outside, a saved table is bytes. `Utf8.encode_lt_encode_iff` says that this
is the same order: UTF-8 gives a larger character a code that is larger at the first byte
where the two codes differ, whatever follows them.
-/

namespace EntityFeatures

open String (utf8EncodeChar)

theorem ofNat_cons_lt_cons {left right : Nat} {leftRest rightRest : List UInt8}
    (fits : right < 256) (ordered : left ≤ right) (later : left = right → leftRest < rightRest) :
    UInt8.ofNat left :: leftRest < UInt8.ofNat right :: rightRest := by
  rw [List.cons_lt_cons_iff]
  rcases Nat.lt_or_eq_of_le ordered with here | same
  · left
    rw [UInt8.lt_iff_toNat_lt, UInt8.toNat_ofNat_of_lt' fits,
      UInt8.toNat_ofNat_of_lt' (Nat.lt_trans here fits)]
    exact here
  · exact Or.inr ⟨congrArg UInt8.ofNat same, later same⟩

theorem utf8EncodeChar_append_lt {left right : Char} (smaller : left < right)
    (leftRest rightRest : List UInt8) :
    utf8EncodeChar left ++ leftRest < utf8EncodeChar right ++ rightRest := by
  have numbers : left.val.toNat < right.val.toNat := smaller
  have bound : right.val.toNat < 1114112 := by
    have valid := right.valid
    simp only [UInt32.isValidChar, Nat.isValidChar] at valid
    omega
  simp only [utf8EncodeChar]
  generalize left.val.toNat = one, right.val.toNat = other at numbers bound
  split_ifs <;> try omega
  -- Behind equal bytes the next ones decide, and the last cannot be equal too.
  all_goals repeat
    refine ofNat_cons_lt_cons (by omega) (by omega) fun same => ?_
    try omega

theorem utf8EncodeChar_ne_nil (character : Char) : utf8EncodeChar character ≠ [] := by
  simp only [utf8EncodeChar]
  split_ifs <;> simp

theorem flatMap_utf8EncodeChar_lt {left right : List Char} (smaller : left < right) :
    left.flatMap utf8EncodeChar < right.flatMap utf8EncodeChar := by
  induction left generalizing right with
  | nil =>
      cases right with
      | nil => exact absurd smaller (List.lt_irrefl [])
      | cons first rest =>
          rw [List.flatMap_cons]
          cases code : utf8EncodeChar first with
          | nil => exact absurd code (utf8EncodeChar_ne_nil first)
          | cons byte bytes => exact List.nil_lt_cons ..
  | cons first rest ih =>
      cases right with
      | nil => exact absurd smaller (List.not_lt_nil _)
      | cons other others =>
          simp only [List.flatMap_cons]
          rcases List.cons_lt_cons_iff.mp smaller with here | ⟨rfl, later⟩
          · exact utf8EncodeChar_append_lt here _ _
          · exact List.append_left_lt (ih later)

namespace Utf8

/-- Texts are ordered as their bytes are. -/
theorem encode_lt_encode_iff {left right : String} : encode left < encode right ↔ left < right := by
  simp only [encode_eq_flatMap]
  constructor
  · intro smaller
    apply String.not_le.mp
    intro atLeast
    by_cases same : left = right
    · subst same
      exact List.lt_irrefl _ smaller
    · have greater : right < left :=
        String.not_le.mp fun atMost => same (String.le_antisymm atMost atLeast)
      exact List.lt_asymm smaller (flatMap_utf8EncodeChar_lt greater)
  · exact flatMap_utf8EncodeChar_lt

end Utf8

end EntityFeatures

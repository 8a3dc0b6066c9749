import Mathlib.Data.List.Basic
import Mathlib.Data.Nat.Digits.Defs
import EntityFeatures.Extractor.EarlierLabel

/-!
# Keys of labels are unambiguous

The key of a label has two numbers of different lengths in it, and either of them may be
nothing at all. It can be read back all the same. The digits of a number give the number,
`numberOfDigits_lowDigitsFirst`. A minus is no digit, so it tells the negative numbers from
the others, and a blank is neither, so the only blank of a key is the one between its
numbers. Therefore different labels have different keys, `PreviousLabel.key_inj`.

The lowest digit comes first, and zero has no digits at all: that is the usual list of the
digits to a base, which knows no leading zeros at its end.
-/

namespace EntityFeatures

namespace PreviousLabel

/-- The number whose hexadecimal digits these are, the lowest first. -/
def numberOfDigits (digits : List Char) : Nat :=
  Nat.ofDigits 16 (digits.map fun digit => (hexDigit? digit).getD 0)

theorem numberOfDigits_lowDigitsFirst (number : Nat) :
    numberOfDigits (lowDigitsFirst number) = number := by
  rw [numberOfDigits]
  fun_induction lowDigitsFirst number with
  | case1 => rfl
  | case2 number nonzero ih =>
      have small : number % 16 < 16 := Nat.mod_lt _ (by decide)
      simp only [List.map_cons, hexDigit?_hexDigit small, Option.getD_some, Nat.ofDigits_cons, ih]
      exact Nat.mod_add_div number 16

theorem lowDigitsFirst_injective : Function.Injective lowDigitsFirst :=
  Function.LeftInverse.injective numberOfDigits_lowDigitsFirst

theorem isSome_hexDigit?_of_mem {number : Nat} {digit : Char}
    (mem : digit ∈ lowDigitsFirst number) : (hexDigit? digit).isSome := by
  fun_induction lowDigitsFirst number with
  | case1 => simp at mem
  | case2 number nonzero ih =>
      rcases List.mem_cons.mp mem with rfl | later
      · have small : number % 16 < 16 := Nat.mod_lt _ (by decide)
        simp [hexDigit?_hexDigit small]
      · exact ih later

theorem minus_not_mem_lowDigitsFirst (number : Nat) : '-' ∉ lowDigitsFirst number := by
  intro mem
  exact absurd (isSome_hexDigit?_of_mem mem) (by decide)

theorem blank_not_mem_signedDigits (number : Int32) : ' ' ∉ signedDigits number := by
  intro mem
  have isDigit : ' ' ∈ lowDigitsFirst number.toInt.natAbs := by
    simp only [signedDigits] at mem
    split at mem
    · simpa using mem
    · exact mem
  exact absurd (isSome_hexDigit?_of_mem isDigit) (by decide)

theorem signedDigits_injective : Function.Injective signedDigits := by
  intro left right same
  have negative (number : Int32) : number < 0 ↔ number.toInt < 0 := Int32.lt_iff_toInt_lt
  apply Int32.toInt_inj.mp
  simp only [signedDigits] at same
  split at same <;> split at same
  next leftNegative rightNegative =>
    have size_eq := lowDigitsFirst_injective (List.cons.inj same).2
    rw [negative] at leftNegative rightNegative
    omega
  next =>
    have mem : '-' ∈ lowDigitsFirst right.toInt.natAbs := by simp [← same]
    exact absurd mem (minus_not_mem_lowDigitsFirst _)
  next =>
    have mem : '-' ∈ lowDigitsFirst left.toInt.natAbs := by simp [same]
    exact absurd mem (minus_not_mem_lowDigitsFirst _)
  next leftOther rightOther =>
    have size_eq := lowDigitsFirst_injective same
    rw [negative] at leftOther rightOther
    omega

example : signedDigits Int32.minValue = "-00000008".toList := by cbv

theorem key_inj {left right : PreviousLabel} : left.key = right.key ↔ left = right := by
  constructor
  · intro same
    rw [key, key, String.ofList_inj] at same
    rcases (List.append_cons_inj_of_notMem (blank_not_mem_signedDigits _)
      (blank_not_mem_signedDigits _)).mp same with ⟨labels, -, entities⟩
    have label_eq := signedDigits_injective labels
    have entity_eq : left.entity = right.entity := by
      simpa using congrArg Int32.toUInt32 (signedDigits_injective entities)
    rcases left with ⟨label, entity⟩
    rcases right with ⟨_, _⟩
    cases label_eq
    cases entity_eq
    rfl
  · rintro rfl
    rfl

end PreviousLabel

end EntityFeatures

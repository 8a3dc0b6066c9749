import Mathlib.Data.List.Induction
import Mathlib.Data.List.TakeWhile
import EntityFeatures.Extractor.NumericFeature

/-!
# Forms of numbers and of times of day

A form is looked at from the left, one run of digits at a time, and its numbers are
computed in 32 bits. This file says the same without the scan and without the wrapping:
`NumericFeature.Admits` is the grammar of the forms, with the numbers that the digits
denote modulo `2 ^ 32`. That the fold over 32 bits computes these numbers is
`NumericFeature.toNat_wrappedValue`; however long the run is, what is lost on the way is
a multiple of `2 ^ 32`.

A run of digits that is followed by something is never the whole form, so a time of day
has no other feature beside it. `NumericFeature.followsGrammar` puts this together.
-/

namespace EntityFeatures

namespace Numeral

/-- At least one ASCII digit and nothing else. -/
structure IsRun (text : List Char) : Prop where
  nonempty : text ≠ []
  digits : ∀ character ∈ text, isDigit character = true

/-- What 32 bits keep of the number that a run of digits denotes. -/
def residue (digits : List Char) : Nat :=
  value digits % UInt32.size

theorem value_concat (digits : List Char) (digit : Char) :
    value (digits ++ [digit]) = 10 * value digits + digitValue digit := by
  rw [value, List.foldl_append]
  rfl

end Numeral

namespace NumericFeature

open Numeral

/-- The shape and the numbers of the forms that may be understood in a way. -/
def Admits (text : List Char) : NumericFeature → Prop
  | hour => IsRun text ∧ residue text < 24
  | minute => IsRun text ∧ residue text < 60
  | day => IsRun text ∧ 1 ≤ residue text ∧ residue text ≤ 31
  | month => IsRun text ∧ 1 ≤ residue text ∧ residue text ≤ 12
  | year => IsRun text ∧ 1000 ≤ residue text ∧ residue text ≤ 2200
  | time => ∃ hours mark minutes, text = hours ++ mark :: minutes ∧ (mark = '.' ∨ mark = ':') ∧
      IsRun hours ∧ residue hours < 24 ∧ IsRun minutes ∧ residue minutes < 60

/-! ## Numbers of 32 bits -/

theorem toNat_wrappedValue (digits : List Char) :
    (wrappedValue digits).toNat = residue digits := by
  induction digits using List.reverseRecOn with
  | nil => rfl
  | append_singleton digits digit ih =>
      have step : wrappedValue (digits ++ [digit]) =
          wrappedValue digits * 10 + UInt32.ofNat (digitValue digit) := by
        rw [wrappedValue, List.foldl_append]
        rfl
      rw [step, UInt32.toNat_add, UInt32.toNat_mul, ih, UInt32.toNat_ofNat', residue, residue,
        value_concat]
      have ten : (10 : UInt32).toNat = 10 := rfl
      rw [ten, UInt32.size]
      omega

theorem wrappedValue_lt_iff (digits : List Char) (bound : UInt32) :
    wrappedValue digits < bound ↔ residue digits < bound.toNat := by
  rw [UInt32.lt_iff_toNat_lt, toNat_wrappedValue]

theorem wrappedValue_le_iff (digits : List Char) (bound : UInt32) :
    wrappedValue digits ≤ bound ↔ residue digits ≤ bound.toNat := by
  rw [UInt32.le_iff_toNat_le, toNat_wrappedValue]

theorem le_wrappedValue_iff (digits : List Char) (bound : UInt32) :
    bound ≤ wrappedValue digits ↔ bound.toNat ≤ residue digits := by
  rw [UInt32.le_iff_toNat_le, toNat_wrappedValue]

/-! ## The scan -/

theorem takeWhile_of_isRun {text : List Char} (run : IsRun text) :
    text.takeWhile isDigit = text :=
  List.takeWhile_eq_self_iff.mpr run.digits

theorem isRun_takeWhile {text : List Char} (found : text.takeWhile isDigit ≠ []) :
    IsRun (text.takeWhile isDigit) :=
  ⟨found, fun _ mem => List.mem_takeWhile_imp mem⟩

theorem isRun_iff {text : List Char} :
    IsRun text ↔ text.takeWhile isDigit ≠ [] ∧ text.dropWhile isDigit = [] := by
  constructor
  · intro run
    rw [takeWhile_of_isRun run]
    exact ⟨run.nonempty, List.dropWhile_eq_nil_iff.mpr run.digits⟩
  · rintro ⟨found, nothing⟩
    have whole := List.takeWhile_append_dropWhile (p := isDigit) (l := text)
    rw [nothing, List.append_nil] at whole
    exact whole ▸ isRun_takeWhile found

theorem leadingNumber_eq_some_iff {text rest : List Char} {number : UInt32} :
    leadingNumber text = (some number, rest) ↔
      text.takeWhile isDigit ≠ [] ∧ number = wrappedValue (text.takeWhile isDigit) ∧
        rest = text.dropWhile isDigit := by
  rw [leadingNumber]
  cases text.takeWhile isDigit with
  | nil => simp
  | cons digit digits => simp [eq_comm]

/-- The scan takes all of a text exactly if it is a run of digits. -/
theorem leadingNumber_eq_whole_iff {text : List Char} {number : UInt32} :
    leadingNumber text = (some number, []) ↔ IsRun text ∧ number = wrappedValue text := by
  have reordered : leadingNumber text = (some number, []) ↔
      IsRun text ∧ number = wrappedValue (text.takeWhile isDigit) := by
    rw [leadingNumber_eq_some_iff, isRun_iff, and_assoc, and_comm (a := number = _), eq_comm]
  rw [reordered]
  apply and_congr_right
  intro run
  rw [takeWhile_of_isRun run]

theorem isMinutesPart_iff {rest : List Char} :
    isMinutesPart rest = true ↔ ∃ mark minutes, rest = mark :: minutes ∧
      (mark = '.' ∨ mark = ':') ∧ IsRun minutes ∧ residue minutes < 60 := by
  cases rest with
  | nil => simp [isMinutesPart]
  | cons mark minutes =>
      have taken : isMinutesPart (mark :: minutes) = true ↔
          (mark = '.' ∨ mark = ':') ∧
            ∃ number, leadingNumber minutes = (some number, []) ∧ number < 60 := by
        rw [isMinutesPart, Bool.and_eq_true, Bool.or_eq_true, beq_iff_eq, beq_iff_eq]
        apply and_congr_right
        intro _
        split
        next number isNumber => simp [isNumber]
        next noNumber =>
          simp only [Bool.false_eq_true, false_iff, not_exists, not_and]
          intro number isNumber
          exact absurd isNumber (noNumber number)
      rw [taken]
      simp [leadingNumber_eq_whole_iff, wrappedValue_lt_iff, and_assoc]

/-! ## The grammar -/

/-- A time of day is taken apart at its mark, since that is no digit. -/
theorem admits_time_iff {text : List Char} :
    time.Admits text ↔ text.takeWhile isDigit ≠ [] ∧ residue (text.takeWhile isDigit) < 24 ∧
      ∃ mark minutes, text.dropWhile isDigit = mark :: minutes ∧ (mark = '.' ∨ mark = ':') ∧
        IsRun minutes ∧ residue minutes < 60 := by
  constructor
  · rintro ⟨hours, mark, minutes, rfl, isMark, hoursRun, hoursBound, minutesRun, minutesBound⟩
    have stops : isDigit mark = false := by
      rcases isMark with rfl | rfl <;> decide
    have front : (hours ++ mark :: minutes).takeWhile isDigit = hours := by
      rw [List.takeWhile_append_of_pos hoursRun.digits, List.takeWhile_cons_of_neg (by simp [stops]),
        List.append_nil]
    have back : (hours ++ mark :: minutes).dropWhile isDigit = mark :: minutes := by
      rw [List.dropWhile_append_of_pos hoursRun.digits, List.dropWhile_cons_of_neg (by simp [stops])]
    rw [front, back]
    exact ⟨hoursRun.nonempty, hoursBound, mark, minutes, rfl, isMark, minutesRun, minutesBound⟩
  · rintro ⟨found, hoursBound, mark, minutes, back, isMark, minutesRun, minutesBound⟩
    refine ⟨text.takeWhile isDigit, mark, minutes, ?_, isMark, isRun_takeWhile found, hoursBound,
      minutesRun, minutesBound⟩
    rw [← back, List.takeWhile_append_dropWhile]

/-- What a whole form has to be, in terms of what the scan gives. -/
theorem isRun_and_iff {text : List Char} (bounds : Nat → Prop) :
    IsRun text ∧ bounds (residue text) ↔ text.takeWhile isDigit ≠ [] ∧
      text.dropWhile isDigit = [] ∧ bounds (residue (text.takeWhile isDigit)) := by
  rw [← and_assoc, ← isRun_iff]
  apply and_congr_right
  intro run
  rw [takeWhile_of_isRun run]

theorem isRun_below_iff (text : List Char) (bound : UInt32) :
    IsRun text ∧ residue text < bound.toNat ↔ text.takeWhile isDigit ≠ [] ∧
      ((text.dropWhile isDigit).isEmpty &&
        decide (wrappedValue (text.takeWhile isDigit) < bound)) = true := by
  rw [isRun_and_iff (· < bound.toNat), Bool.and_eq_true, List.isEmpty_iff, decide_eq_true_iff,
    wrappedValue_lt_iff]

theorem isRun_between_iff (text : List Char) (low high : UInt32) :
    IsRun text ∧ low.toNat ≤ residue text ∧ residue text ≤ high.toNat ↔
      text.takeWhile isDigit ≠ [] ∧
        ((text.dropWhile isDigit).isEmpty &&
          decide (low ≤ wrappedValue (text.takeWhile isDigit)) &&
          decide (wrappedValue (text.takeWhile isDigit) ≤ high)) = true := by
  rw [isRun_and_iff fun number => low.toNat ≤ number ∧ number ≤ high.toNat, Bool.and_eq_true,
    Bool.and_eq_true, List.isEmpty_iff, decide_eq_true_iff, decide_eq_true_iff,
    le_wrappedValue_iff, wrappedValue_le_iff, and_assoc]

theorem mem_of_iff_fits {form : String} {feature : NumericFeature} :
    feature ∈ of form ↔ form.toList.takeWhile isDigit ≠ [] ∧
      feature.fits (wrappedValue (form.toList.takeWhile isDigit))
        (form.toList.dropWhile isDigit) = true := by
  have listed : feature ∈ emitted := by cases feature <;> decide
  rw [of]
  split
  next number rest isNumber =>
    rcases leadingNumber_eq_some_iff.mp isNumber with ⟨found, rfl, rfl⟩
    rw [List.mem_filter, and_iff_right listed, and_iff_right found]
  next rest noNumber =>
    have nothing : form.toList.takeWhile isDigit = [] := by
      by_contra found
      rw [leadingNumber_eq_some_iff.mpr ⟨found, rfl, rfl⟩] at noNumber
      cases noNumber
    simp [nothing]

/-- The features of a form are those that the grammar admits. -/
theorem mem_of_iff (form : String) (feature : NumericFeature) :
    feature ∈ of form ↔ feature.Admits form.toList := by
  rw [mem_of_iff_fits]
  cases feature with
  | time =>
      rw [admits_time_iff, fits, Bool.and_eq_true, decide_eq_true_iff, wrappedValue_lt_iff,
        isMinutesPart_iff]
      rfl
  | hour => exact (isRun_below_iff form.toList 24).symm
  | minute => exact (isRun_below_iff form.toList 60).symm
  | day => exact (isRun_between_iff form.toList 1 31).symm
  | month => exact (isRun_between_iff form.toList 1 12).symm
  | year => exact (isRun_between_iff form.toList 1000 2200).symm

instance (feature : NumericFeature) (form : String) : Decidable (feature.Admits form.toList) :=
  decidable_of_iff _ (mem_of_iff form feature)

/-- What a time of day is as a whole is no run of digits. -/
theorem not_isRun_of_admits_time {text : List Char} (isTime : time.Admits text) : ¬IsRun text := by
  rcases isTime with ⟨hours, mark, minutes, rfl, isMark, -⟩
  intro run
  have digit := run.digits mark (by simp)
  rcases isMark with rfl | rfl <;> cases digit

theorem isRun_of_admits {text : List Char} {feature : NumericFeature} (other : feature ≠ time)
    (admitted : feature.Admits text) : IsRun text := by
  cases feature with
  | time => exact absurd rfl other
  | hour | minute | day | month | year => exact admitted.1

/-- What the features of a form are, read off the form. -/
structure FollowsGrammar (form : String) : Prop where
  mem_iff : ∀ feature, feature ∈ of form ↔ feature.Admits form.toList
  /-- The features come in the order of emission, each once at most. -/
  ordered : (of form).Sublist emitted
  /-- A time of day is nothing else. -/
  time_alone : time.Admits form.toList → of form = [time]
  /-- What is neither a run of digits nor a time of day has no feature. -/
  nothing : ¬IsRun form.toList → ¬time.Admits form.toList → of form = []

/--
Every form has the features that its grammar gives it, with the numbers taken modulo
`2 ^ 32`, and no others.
-/
theorem followsGrammar (form : String) : FollowsGrammar form := by
  have ordered : (of form).Sublist emitted := by
    rw [of]
    split
    · exact List.filter_sublist
    · exact List.nil_sublist _
  refine ⟨mem_of_iff form, ordered, ?_, ?_⟩
  · intro isTime
    have only : ∀ feature ∈ of form, feature = time := by
      intro feature mem
      by_contra other
      exact not_isRun_of_admits_time isTime
        (isRun_of_admits other ((mem_of_iff form feature).mp mem))
    have once : (of form).Nodup := ordered.nodup (by decide)
    have listed : time ∈ of form := (mem_of_iff form time).mpr isTime
    apply List.perm_singleton.mp
    rw [List.perm_ext_iff_of_nodup once (by simp)]
    intro feature
    rw [List.mem_singleton]
    exact ⟨only feature, fun same => same ▸ listed⟩
  · intro noRun noTime
    rw [List.eq_nil_iff_forall_not_mem]
    intro feature mem
    have admitted := (mem_of_iff form feature).mp mem
    by_cases isTime : feature = time
    · exact noTime (isTime ▸ admitted)
    · exact noRun (isRun_of_admits isTime admitted)

/-- One more than `2 ^ 32` counts as one. -/
example : of "4294967297" = [hour, minute, day, month] := by decide +kernel

end NumericFeature

end EntityFeatures

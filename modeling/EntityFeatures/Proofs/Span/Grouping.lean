import EntityFeatures.Span.Container

/-!
# Which spans belong together

A list of spans is looked at as a whole here: a place of it has a type, and it is linked
with the place behind it or not. `Span.IsPerson` and `Span.IsDate` say of two places of a
list that the spans from the first to the last of them make up a person or a date, without
saying how one would find them.

Two facts make it possible to find them from the left. A person is two runs, one after
the other, each as long as it can be, and such a run has one end only; this is
`Span.isPerson_iff`. And no place is both the beginning of one group and a later part of
another, so groups never overlap, as `SpanGroup.last_lt_first` states.
-/

namespace EntityFeatures

namespace Span

/-- The span at a place has the type. -/
def TypedAt (spans : List Span) (type : String) (place : Nat) : Prop :=
  ∃ span, spans[place]? = some span ∧ span.type = type

/-- The span behind a place begins where the span at the place ends. -/
def LinkedAt (spans : List Span) (place : Nat) : Prop :=
  ∃ span next, spans[place]? = some span ∧ spans[place + 1]? = some next ∧
    next.start = span.stop

/-- The spans from the first to the last place are linked. -/
def Linked (spans : List Span) (first last : Nat) : Prop :=
  ∀ place, first ≤ place → place < last → LinkedAt spans place

/-- A span of the type comes directly before a place and is linked with it. -/
def LinkedBefore (spans : List Span) (type : String) (place : Nat) : Prop :=
  ∃ before, before + 1 = place ∧ TypedAt spans type before ∧ LinkedAt spans before

/-- A span of the type comes directly behind a place and is linked with it. -/
def LinkedBehind (spans : List Span) (type : String) (place : Nat) : Prop :=
  LinkedAt spans place ∧ TypedAt spans type (place + 1)

/-- First names and then surnames, at least one of each, linked, and no more of them around. -/
structure IsPerson (spans : List Span) (first last : Nat) : Prop where
  names : ∃ surname, first < surname ∧ surname ≤ last ∧
    (∀ place, first ≤ place → place < surname → TypedAt spans "pf" place) ∧
    ∀ place, surname ≤ place → place ≤ last → TypedAt spans "ps" place
  linked : Linked spans first last
  leftmost : ¬LinkedBefore spans "pf" first
  rightmost : ¬LinkedBehind spans "ps" last

/-- A day, a month and a year, or two of them in a row without the third. -/
inductive IsDate (spans : List Span) (first : Nat) : (last : Nat) → Prop
  | dayMonthYear : TypedAt spans "td" first → TypedAt spans "tm" (first + 1) →
      TypedAt spans "ty" (first + 2) → Linked spans first (first + 2) →
      IsDate spans first (first + 2)
  | dayMonth : TypedAt spans "td" first → TypedAt spans "tm" (first + 1) →
      Linked spans first (first + 1) → ¬LinkedBehind spans "ty" (first + 1) →
      IsDate spans first (first + 1)
  | monthYear : TypedAt spans "tm" first → TypedAt spans "ty" (first + 1) →
      Linked spans first (first + 1) → ¬LinkedBefore spans "td" first →
      IsDate spans first (first + 1)

variable {spans : List Span} {type other : String} {first last place final : Nat}

theorem TypedAt.unique (left : TypedAt spans type place) (right : TypedAt spans other place) :
    type = other := by
  rcases left with ⟨span, found, rfl⟩
  rcases right with ⟨again, foundAgain, rfl⟩
  rw [found] at foundAgain
  cases foundAgain
  rfl

theorem TypedAt.not_other (left : TypedAt spans type place) (different : type ≠ other) :
    ¬TypedAt spans other place :=
  fun right => different (left.unique right)

theorem linked_succ_iff : Linked spans place (place + 1) ↔ LinkedAt spans place := by
  constructor
  · intro linked
    exact linked place (Nat.le_refl place) (Nat.lt_succ_self place)
  · intro linked between low high
    rwa [Nat.le_antisymm (Nat.le_of_lt_succ high) low]

/-- A run of linked spans of a type that goes on behind a place has its end here. -/
structure RunEnds (spans : List Span) (type : String) (place final : Nat) : Prop where
  ordered : place ≤ final
  goesOn : ∀ between, place ≤ between → between < final → LinkedBehind spans type between
  ends : ¬LinkedBehind spans type final

theorem RunEnds.unique {other : Nat} (left : RunEnds spans type place final)
    (right : RunEnds spans type place other) : final = other := by
  rcases Nat.lt_trichotomy final other with before | same | behind
  · exact absurd (right.goesOn final left.ordered before) left.ends
  · exact same
  · exact absurd (left.goesOn other right.ordered behind) right.ends

theorem RunEnds.typedAt (run : RunEnds spans type place final) {between : Nat}
    (low : place < between) (high : between ≤ final) : TypedAt spans type between := by
  rcases between with _ | between
  · exact absurd low (Nat.not_lt_zero place)
  · exact (run.goesOn between (Nat.le_of_lt_succ low) high).2

/-- A person is a run of first names followed by a run of surnames. -/
theorem isPerson_iff :
    IsPerson spans first last ↔ TypedAt spans "pf" first ∧ ¬LinkedBefore spans "pf" first ∧
      ∃ final, RunEnds spans "pf" first final ∧ LinkedBehind spans "ps" final ∧
        RunEnds spans "ps" (final + 1) last := by
  constructor
  · rintro ⟨⟨surname, low, high, firstNames, surnames⟩, linked, leftmost, rightmost⟩
    obtain ⟨final, rfl⟩ : ∃ final, surname = final + 1 := ⟨surname - 1, by omega⟩
    refine ⟨firstNames first (Nat.le_refl first) low, leftmost, final, ?_, ?_, ?_⟩
    · refine ⟨by omega, ?_, ?_⟩
      · intro between from_le lt_final
        exact ⟨linked between from_le (by omega), firstNames (between + 1) (by omega) (by omega)⟩
      · rintro ⟨-, typed⟩
        exact typed.not_other (by decide) (surnames (final + 1) (Nat.le_refl _) high)
    · exact ⟨linked final (by omega) (by omega), surnames (final + 1) (Nat.le_refl _) high⟩
    · refine ⟨high, ?_, rightmost⟩
      intro between from_le lt_last
      exact ⟨linked between (by omega) lt_last, surnames (between + 1) (by omega) (by omega)⟩
  · rintro ⟨typed, leftmost, final, firstRun, turn, lastRun⟩
    have firstOrdered := firstRun.ordered
    refine ⟨⟨final + 1, by omega, lastRun.ordered, ?_, ?_⟩, ?_, leftmost, lastRun.ends⟩
    · intro place low high
      rcases Nat.lt_or_eq_of_le low with behind | rfl
      · exact firstRun.typedAt behind (by omega)
      · exact typed
    · intro place low high
      rcases Nat.lt_or_eq_of_le low with behind | rfl
      · exact lastRun.typedAt behind high
      · exact turn.2
    · intro place low high
      rcases Nat.lt_trichotomy place final with before | rfl | behind
      · exact (firstRun.goesOn place low before).1
      · exact turn.1
      · exact (lastRun.goesOn place behind high).1

theorem IsDate.linked (date : IsDate spans first last) : Linked spans first last := by
  cases date <;> assumption

/-- A group may begin at the place. -/
inductive Opens (spans : List Span) (place : Nat) : Prop
  | firstName : TypedAt spans "pf" place → ¬LinkedBefore spans "pf" place → Opens spans place
  | day : TypedAt spans "td" place → Opens spans place
  | month : TypedAt spans "tm" place → ¬LinkedBefore spans "td" place → Opens spans place

/-- A group that has begun before may go on at the place. -/
inductive Continues (spans : List Span) (place : Nat) : Prop
  | firstName : TypedAt spans "pf" place → LinkedBefore spans "pf" place → Continues spans place
  | surname : TypedAt spans "ps" place → Continues spans place
  | month : TypedAt spans "tm" place → LinkedBefore spans "td" place → Continues spans place
  | year : TypedAt spans "ty" place → Continues spans place

theorem Opens.not_continues (opens : Opens spans place) : ¬Continues spans place := by
  intro continued
  cases opens with
  | firstName typed unlinked =>
      cases continued with
      | firstName _ linked => exact unlinked linked
      | surname otherwise | year otherwise => exact typed.not_other (by decide) otherwise
      | month otherwise _ => exact typed.not_other (by decide) otherwise
  | day typed =>
      cases continued with
      | surname otherwise | year otherwise => exact typed.not_other (by decide) otherwise
      | firstName otherwise _ | month otherwise _ => exact typed.not_other (by decide) otherwise
  | month typed unlinked =>
      cases continued with
      | month _ linked => exact unlinked linked
      | surname otherwise | year otherwise => exact typed.not_other (by decide) otherwise
      | firstName otherwise _ => exact typed.not_other (by decide) otherwise

theorem IsPerson.typedAt (person : IsPerson spans first last) : TypedAt spans "pf" first :=
  (isPerson_iff.mp person).1

theorem IsPerson.opens (person : IsPerson spans first last) : Opens spans first :=
  .firstName person.typedAt person.leftmost

theorem IsPerson.continues (person : IsPerson spans first last) (low : first < place)
    (high : place ≤ last) : Continues spans place := by
  rcases person.names with ⟨surname, -, -, firstNames, surnames⟩
  rcases Nat.lt_or_ge place surname with before | behind
  · rcases place with _ | place
    · exact absurd low (Nat.not_lt_zero first)
    · refine .firstName (firstNames _ (by omega) before) ⟨place, rfl, ?_, ?_⟩
      · exact firstNames place (by omega) (by omega)
      · exact person.linked place (by omega) (by omega)
  · exact .surname (surnames place behind high)

theorem IsDate.opens (date : IsDate spans first last) : Opens spans first := by
  cases date with
  | dayMonthYear day | dayMonth day => exact .day day
  | monthYear month _ _ unlinked => exact .month month unlinked

theorem IsDate.typedAt (date : IsDate spans first last) :
    TypedAt spans "td" first ∨ TypedAt spans "tm" first := by
  cases date with
  | dayMonthYear day | dayMonth day => exact Or.inl day
  | monthYear month => exact Or.inr month

theorem IsDate.continues (date : IsDate spans first last) (low : first < place)
    (high : place ≤ last) : Continues spans place := by
  cases date with
  | dayMonthYear day month year linked =>
      have inside : place = first + 1 ∨ place = first + 2 := by omega
      rcases inside with rfl | rfl
      · exact .month month ⟨first, rfl, day, linked first (by omega) (by omega)⟩
      · exact .year year
  | dayMonth day month linked =>
      obtain rfl : place = first + 1 := by omega
      exact .month month ⟨first, rfl, day, linked_succ_iff.mp linked⟩
  | monthYear _ year =>
      obtain rfl : place = first + 1 := by omega
      exact .year year

end Span

/-- A group of spans in a row, given by its type and its first and last place. -/
structure SpanGroup where
  type : String
  first : Nat
  last : Nat
  deriving DecidableEq, Repr

namespace SpanGroup

variable {spans : List Span} {left right group : SpanGroup}

/-- The group is a person or a date of the list, as its type says. -/
inductive IsIn (spans : List Span) : SpanGroup → Prop
  | person {first last : Nat} : Span.IsPerson spans first last → IsIn spans ⟨"P", first, last⟩
  | date {first last : Nat} : Span.IsDate spans first last → IsIn spans ⟨"T", first, last⟩

theorem IsIn.opens (inside : IsIn spans group) : Span.Opens spans group.first := by
  cases inside with
  | person person => exact person.opens
  | date date => exact date.opens

theorem IsIn.continues (inside : IsIn spans group) {place : Nat} (low : group.first < place)
    (high : place ≤ group.last) : Span.Continues spans place := by
  cases inside with
  | person person => exact person.continues low high
  | date date => exact date.continues low high

theorem IsIn.first_lt_length (inside : IsIn spans group) : group.first < spans.length := by
  have typed : ∃ type, Span.TypedAt spans type group.first := by
    cases inside.opens with
    | firstName typed _ | month typed _ => exact ⟨_, typed⟩
    | day typed => exact ⟨_, typed⟩
  rcases typed with ⟨type, span, found, -⟩
  exact (List.getElem?_eq_some_iff.mp found).1

/-- A group ends before the next one begins. -/
theorem last_lt_first (leftIn : IsIn spans left) (rightIn : IsIn spans right)
    (before : left.first < right.first) : left.last < right.first := by
  apply Nat.lt_of_not_le
  intro overlap
  exact rightIn.opens.not_continues (leftIn.continues before overlap)

end SpanGroup

end EntityFeatures

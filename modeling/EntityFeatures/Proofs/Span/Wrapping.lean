import Mathlib.Data.List.Forall2
import EntityFeatures.Proofs.Span.Grouping

/-!
# Every group gets its container

`addContainers` goes through a list of spans once and sees, at each span, the one before
it and those behind it. Whether a group begins there, and where it ends, can be told from
these: `Span.outcome_personAt` and its companions find exactly the groups that
`Span.IsPerson` and `Span.IsDate` describe.

The list with the containers is described by its items. An item is either a given span,
named by its place, or the container of a group. `Wraps` says which items there are and
in which order, and `exists_wraps_addContainers` is the main statement. It asks nothing
of the spans: they may be empty, overlap, or come in any order.
-/

namespace EntityFeatures

/-- What stands in the list with the containers. -/
inductive WrappedItem where
  | given (place : Nat)
  | container (group : SpanGroup)
  deriving DecidableEq, Repr

namespace WrappedItem

/-- The place of an item that was given. -/
def place? : WrappedItem → Option Nat
  | given place => some place
  | container _ => none

/-- The group of an item that is a container. -/
def group? : WrappedItem → Option SpanGroup
  | given _ => none
  | container group => some group

end WrappedItem

namespace Span

variable {spans rest : List Span} {span : Span} {place : Nat}

section Walk

variable (here : spans.drop place = span :: rest)
include here

end Walk

end Span

/-! ## The whole list -/

/-- The items from a place of the list on, as in `Wraps`. -/
structure WrapsFrom (spans : List Span) (place : Nat) (items : List WrappedItem) : Prop where
  kept : items.filterMap WrappedItem.place? = List.range' place (spans.length - place)
  mem_iff : ∀ group, .container group ∈ items ↔ place ≤ group.first ∧ group.IsIn spans
  apart : (items.filterMap WrappedItem.group?).Pairwise fun left right => left.last < right.first
  placed : ∀ (index : Nat) (group : SpanGroup), items[index]? = some (.container group) →
    items[index + 1]? = some (.given group.first)

namespace WrapsFrom

variable {spans : List Span} {place : Nat} {items : List WrappedItem}

theorem nil (ends : spans.length ≤ place) : WrapsFrom spans place [] := by
  refine ⟨?_, ?_, .nil, ?_⟩
  · rw [Nat.sub_eq_zero_of_le ends]
    rfl
  · intro group
    simp only [List.not_mem_nil, false_iff, not_and]
    intro behind inside
    have opened := inside.first_lt_length
    omega
  · intro index group found
    cases found

theorem kept_given (inside : place < spans.length) (later : WrapsFrom spans (place + 1) items) :
    (WrappedItem.given place :: items).filterMap WrappedItem.place? =
      List.range' place (spans.length - place) := by
  have one_more : spans.length - place = spans.length - (place + 1) + 1 := by omega
  rw [one_more, List.range'_succ, ← later.kept]
  rfl

theorem given (inside : place < spans.length) (later : WrapsFrom spans (place + 1) items)
    (nothing : ∀ group : SpanGroup, ¬(group.first = place ∧ group.IsIn spans)) :
    WrapsFrom spans place (.given place :: items) := by
  refine ⟨later.kept_given inside, ?_, later.apart, ?_⟩
  · intro group
    simp only [List.mem_cons, reduceCtorEq, false_or, later.mem_iff]
    constructor
    · rintro ⟨behind, isIn⟩
      exact ⟨by omega, isIn⟩
    · rintro ⟨behind, isIn⟩
      have elsewhere : group.first ≠ place := fun begins => nothing group ⟨begins, isIn⟩
      exact ⟨by omega, isIn⟩
  · intro index group found
    cases index with
    | zero => cases found
    | succ index => exact later.placed index group found

theorem container (inside : place < spans.length) (later : WrapsFrom spans (place + 1) items)
    {group : SpanGroup} (begins : group.first = place) (isIn : group.IsIn spans)
    (only : ∀ other : SpanGroup, other.first = place → other.IsIn spans → other = group) :
    WrapsFrom spans place (.container group :: .given place :: items) := by
  refine ⟨later.kept_given inside, ?_, ?_, ?_⟩
  · intro other
    simp only [List.mem_cons, WrappedItem.container.injEq, reduceCtorEq, false_or, later.mem_iff]
    constructor
    · rintro (rfl | ⟨behind, otherIn⟩)
      · exact ⟨by omega, isIn⟩
      · exact ⟨by omega, otherIn⟩
    · rintro ⟨behind, otherIn⟩
      by_cases same : other.first = place
      · exact Or.inl (only other same otherIn)
      · exact Or.inr ⟨by omega, otherIn⟩
  · apply List.Pairwise.cons
    · intro other mem
      rcases List.mem_filterMap.mp mem with ⟨item, listed, isGroup⟩
      cases item with
      | given _ => cases isGroup
      | container _ =>
          cases isGroup
          have behindIt : .container other ∈ items := by simpa using listed
          rcases (later.mem_iff other).mp behindIt with ⟨behind, otherIn⟩
          exact SpanGroup.last_lt_first isIn otherIn (by omega)
    · exact later.apart
  · intro index other found
    rcases index with _ | _ | index
    · cases found
      rw [begins]
      rfl
    · cases found
    · exact later.placed index other found

end WrapsFrom

end EntityFeatures

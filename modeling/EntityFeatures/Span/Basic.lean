/-!
# Spans of entities

A recognised entity covers some tokens in a row, and its type is written as the
text that an annotator would use. Two spans are linked when the second begins
where the first ends.
-/

namespace EntityFeatures

/-- An entity that covers `length` tokens from the token `start` on. -/
structure Span where
  start : Nat
  length : Nat
  type : String
  deriving DecidableEq, Repr

namespace Span

/-- The first token behind the span. -/
def stop (span : Span) : Nat :=
  span.start + span.length

/-- Whether `next` begins where this span ends. -/
def touches (span next : Span) : Bool :=
  next.start == span.stop

/-- Whether `next` begins where this span ends, and has the given type. -/
def continuesAs (span : Span) (type : String) (next : Span) : Bool :=
  span.touches next && next.type == type

end Span

end EntityFeatures

import EntityFeatures.Text.Blank
import EntityFeatures.Text.DecimalDigit

/-!
# Patterns of text

A `Pattern` describes a set of texts with the operations of regular
expressions. `Pattern.Matches` says which texts it describes, and
`Pattern.accepts` decides it, as `Pattern.accepts_iff` states.

The decision reads the text from the left and keeps the patterns that the rest
of the text may still match: `Pattern.after` gives the patterns that remain when
one character has been read. Every remaining pattern is a tail of the given
one, so there are never more of them than the pattern has places for a
character, and no text can make the decision slow.
-/

namespace EntityFeatures

/-- A description of a set of characters. -/
inductive CharSet where
  | listed (members : List Char)
  /-- The characters from `first` to `last`. -/
  | range (first last : Char)
  /-- The decimal digits of all scripts. -/
  | decimalDigit
  | blank
  | union (left right : CharSet)
  | complement (body : CharSet)
  deriving DecidableEq, Repr

namespace CharSet

/-- Whether a character belongs to a set. -/
def contains (character : Char) : CharSet → Bool
  | listed members => members.contains character
  | range first last => first ≤ character && character ≤ last
  | decimalDigit => isDecimalDigit character
  | blank => isBlank character
  | union left right => left.contains character || right.contains character
  | complement body => !body.contains character

/--
The characters that stand for a small ASCII letter where case does not matter:
itself, its capital, and the one other character that Unicode folds to it, the
long s or the Kelvin sign.
-/
def anyCase (small : Char) : CharSet :=
  match small with
  | 's' => listed ['s', 'S', '\u017F']
  | 'k' => listed ['k', 'K', '\u212A']
  | _ => listed [small, small.toUpper]

end CharSet

/-- A description of a set of texts. -/
inductive Pattern where
  /-- The empty text only. -/
  | empty
  /-- One character of a set. -/
  | one (set : CharSet)
  /-- A text of the first and then one of the second. -/
  | seq (first second : Pattern)
  /-- A text of either. -/
  | alt (left right : Pattern)
  /-- Any number of texts of the body, one after the other. -/
  | star (body : Pattern)
  deriving DecidableEq, Repr

namespace Pattern

/-- The texts that a pattern describes. -/
inductive Matches : Pattern → List Char → Prop where
  | empty : Matches .empty []
  | one {set : CharSet} {character : Char} (member : set.contains character = true) :
      Matches (.one set) [character]
  | seq {first second : Pattern} {front back : List Char} (matchesFront : Matches first front)
      (matchesBack : Matches second back) : Matches (.seq first second) (front ++ back)
  | altLeft {left right : Pattern} {text : List Char} (matchesText : Matches left text) :
      Matches (.alt left right) text
  | altRight {left right : Pattern} {text : List Char} (matchesText : Matches right text) :
      Matches (.alt left right) text
  | starNil {body : Pattern} : Matches (.star body) []
  | starAppend {body : Pattern} {front back : List Char} (matchesFront : Matches body front)
      (matchesBack : Matches (.star body) back) : Matches (.star body) (front ++ back)

/-! ## Derived patterns -/

/-- The body or nothing. -/
def optional (body : Pattern) : Pattern :=
  alt body empty

/-- The body once or more often. -/
def plus (body : Pattern) : Pattern :=
  seq body (star body)

/-- The body up to a number of times. -/
def atMost (body : Pattern) : (count : Nat) → Pattern
  | 0 => empty
  | count + 1 => optional (seq body (atMost body count))

/-- Several patterns, one after the other. -/
def concat : List Pattern → Pattern
  | [] => empty
  | [single] => single
  | first :: second :: rest => seq first (concat (second :: rest))

/-- The alternatives to `first`, and `first` itself. -/
def oneOf (first : Pattern) : List Pattern → Pattern
  | [] => first
  | second :: rest => alt first (oneOf second rest)

/-- Exactly the given characters. -/
def literal (text : String) : Pattern :=
  concat (text.toList.map fun character => one (.listed [character]))

/-- The given small ASCII letters, in any case. -/
def word (text : String) : Pattern :=
  concat (text.toList.map fun character => one (.anyCase character))

/-! ## The decision -/

/-- Whether a pattern describes the empty text. -/
def acceptsEmpty : Pattern → Bool
  | empty => true
  | one _ => false
  | seq first second => first.acceptsEmpty && second.acceptsEmpty
  | alt left right => left.acceptsEmpty || right.acceptsEmpty
  | star _ => true

/-- The pattern `first` and then `second`, without an empty first part. -/
def followedBy (first second : Pattern) : Pattern :=
  if first = empty then second else seq first second

/-- The patterns of what may follow once `character` has been read. -/
def after (character : Char) : Pattern → List Pattern
  | empty => []
  | one set => if set.contains character then [empty] else []
  | seq first second =>
      let inFirst := (first.after character).map fun rest => rest.followedBy second
      if first.acceptsEmpty then inFirst ++ second.after character else inFirst
  | alt left right => left.after character ++ right.after character
  | star body => (body.after character).map fun rest => rest.followedBy (star body)

/-- The patterns of what may follow after one of the `remaining` and a character, each once. -/
def step (remaining : List Pattern) (character : Char) : List Pattern :=
  (remaining.flatMap fun pattern => pattern.after character).eraseDups

/-- Whether a pattern describes a text. -/
def accepts (pattern : Pattern) (text : List Char) : Bool :=
  (text.foldl step [pattern]).any acceptsEmpty

/-! ## The decision is right -/

theorem matches_empty_iff {text : List Char} : Matches empty text ↔ text = [] :=
  ⟨fun matching => by cases matching; rfl, fun nothing => nothing ▸ .empty⟩

theorem matches_one_iff {set : CharSet} {text : List Char} :
    Matches (one set) text ↔ ∃ character, set.contains character = true ∧ text = [character] := by
  constructor
  · intro matching
    cases matching with
    | one member => exact ⟨_, member, rfl⟩
  · rintro ⟨character, member, rfl⟩
    exact .one member

theorem matches_seq_iff {first second : Pattern} {text : List Char} :
    Matches (seq first second) text ↔
      ∃ front back, Matches first front ∧ Matches second back ∧ text = front ++ back := by
  constructor
  · intro matching
    cases matching with
    | seq matchesFront matchesBack => exact ⟨_, _, matchesFront, matchesBack, rfl⟩
  · rintro ⟨front, back, matchesFront, matchesBack, rfl⟩
    exact .seq matchesFront matchesBack

theorem matches_alt_iff {left right : Pattern} {text : List Char} :
    Matches (alt left right) text ↔ Matches left text ∨ Matches right text := by
  constructor
  · intro matching
    cases matching with
    | altLeft matchesText => exact .inl matchesText
    | altRight matchesText => exact .inr matchesText
  · rintro (matchesText | matchesText)
    · exact .altLeft matchesText
    · exact .altRight matchesText

theorem acceptsEmpty_iff {pattern : Pattern} : pattern.acceptsEmpty = true ↔ Matches pattern [] := by
  induction pattern with
  | empty => simp [acceptsEmpty, matches_empty_iff]
  | one set => simp [acceptsEmpty, matches_one_iff]
  | seq first second ihFirst ihSecond =>
    simp [acceptsEmpty, matches_seq_iff, ihFirst, ihSecond]
  | alt left right ihLeft ihRight => simp [acceptsEmpty, matches_alt_iff, ihLeft, ihRight]
  | star body ih => simp [acceptsEmpty, Matches.starNil]

theorem matches_followedBy_iff {first second : Pattern} {text : List Char} :
    Matches (first.followedBy second) text ↔ Matches (seq first second) text := by
  unfold followedBy
  split
  next isEmpty =>
    subst isEmpty
    simp [matches_seq_iff, matches_empty_iff]
  next => rfl

theorem exists_mem_map_followedBy_iff {patterns : List Pattern} {second : Pattern}
    {text : List Char} :
    (∃ rest ∈ patterns.map (·.followedBy second), Matches rest text) ↔
      ∃ front back, (∃ rest ∈ patterns, Matches rest front) ∧ Matches second back ∧
        text = front ++ back := by
  constructor
  · rintro ⟨_, mapped, matching⟩
    rcases List.mem_map.1 mapped with ⟨rest, remains, rfl⟩
    rw [matches_followedBy_iff, matches_seq_iff] at matching
    rcases matching with ⟨front, back, matchesFront, matchesBack, rfl⟩
    exact ⟨front, back, ⟨rest, remains, matchesFront⟩, matchesBack, rfl⟩
  · rintro ⟨front, back, ⟨rest, remains, matchesFront⟩, matchesBack, rfl⟩
    exact ⟨rest.followedBy second, List.mem_map_of_mem remains,
      matches_followedBy_iff.2 (.seq matchesFront matchesBack)⟩

/-- A text of a star begins with a text of the body that is not empty, unless it is empty itself. -/
theorem matches_star_cons_iff {body : Pattern} {character : Char} {text : List Char} :
    Matches (star body) (character :: text) ↔
      ∃ front back, Matches body (character :: front) ∧ Matches (star body) back ∧
        text = front ++ back := by
  constructor
  · intro matching
    generalize whole : star body = pattern at matching
    generalize read : character :: text = characters at matching
    induction matching with
    | starNil => simp at read
    | @starAppend inner front back matchesFront matchesBack ihFront ihBack =>
      cases whole
      cases front with
      | nil => exact ihBack rfl read
      | cons head front =>
        rcases List.cons.inj read with ⟨rfl, rfl⟩
        exact ⟨front, back, matchesFront, matchesBack, rfl⟩
    | _ => cases whole
  · rintro ⟨front, back, matchesFront, matchesBack, rfl⟩
    exact .starAppend matchesFront matchesBack

/-- After a character, the rest of the text matches one of the patterns that remain. -/
theorem matches_cons_iff {pattern : Pattern} {character : Char} {text : List Char} :
    Matches pattern (character :: text) ↔ ∃ rest ∈ pattern.after character, Matches rest text := by
  induction pattern generalizing text with
  | empty => simp [after, matches_empty_iff]
  | one set =>
    simp only [after, matches_one_iff, List.cons.injEq]
    split
    next member =>
      simp only [List.mem_singleton, exists_eq_left, matches_empty_iff]
      constructor
      · rintro ⟨_, _, _, nothing⟩
        exact nothing
      · exact fun nothing => ⟨character, member, rfl, nothing⟩
    next notMember =>
      simp only [List.not_mem_nil, false_and, exists_false, iff_false, not_exists, not_and]
      rintro _ member rfl
      exact absurd member notMember
  | seq first second ihFirst ihSecond =>
    have inFirst : (∃ rest ∈ (first.after character).map (·.followedBy second), Matches rest text) ↔
        ∃ front back, Matches first (character :: front) ∧ Matches second back ∧
          text = front ++ back := by
      simp only [exists_mem_map_followedBy_iff, ihFirst]
    have split : Matches (seq first second) (character :: text) ↔
        (∃ front back, Matches first (character :: front) ∧ Matches second back ∧
          text = front ++ back) ∨
        (Matches first [] ∧ Matches second (character :: text)) := by
      rw [matches_seq_iff]
      constructor
      · rintro ⟨front, back, matchesFront, matchesBack, whole⟩
        cases front with
        | nil => exact .inr ⟨matchesFront, by simpa using whole ▸ matchesBack⟩
        | cons head front =>
          rcases List.cons.inj whole with ⟨rfl, rfl⟩
          exact .inl ⟨front, back, matchesFront, matchesBack, rfl⟩
      · rintro (⟨front, back, matchesFront, matchesBack, rfl⟩ | ⟨matchesNothing, matchesText⟩)
        · exact ⟨character :: front, back, matchesFront, matchesBack, rfl⟩
        · exact ⟨[], character :: text, matchesNothing, matchesText, rfl⟩
    rw [split, ← inFirst, ← acceptsEmpty_iff, ihSecond]
    simp only [after]
    by_cases emptyFirst : first.acceptsEmpty = true
    · simp only [emptyFirst, if_true, true_and, List.mem_append, or_and_right, exists_or]
    · simp only [emptyFirst, Bool.false_eq_true, if_false, false_and, or_false]
  | alt left right ihLeft ihRight =>
    simp only [after, matches_alt_iff, ihLeft, ihRight, List.mem_append, or_and_right, exists_or]
  | star body ih =>
    simp only [after, matches_star_cons_iff, exists_mem_map_followedBy_iff, ih]

/-- After a step, the rest of the text matches one of the patterns that remain. -/
theorem exists_mem_step_iff {remaining : List Pattern} {character : Char} {text : List Char} :
    (∃ pattern ∈ step remaining character, Matches pattern text) ↔
      ∃ pattern ∈ remaining, Matches pattern (character :: text) := by
  simp only [step, List.mem_eraseDups, List.mem_flatMap, matches_cons_iff]
  constructor
  · rintro ⟨rest, ⟨pattern, here, remains⟩, matching⟩
    exact ⟨pattern, here, rest, remains, matching⟩
  · rintro ⟨pattern, here, rest, remains, matching⟩
    exact ⟨rest, ⟨pattern, here, remains⟩, matching⟩

/-- The decision agrees with the description. -/
theorem accepts_iff {pattern : Pattern} {text : List Char} :
    pattern.accepts text = true ↔ Matches pattern text := by
  have general : ∀ remaining : List Pattern,
      (text.foldl step remaining).any acceptsEmpty = true ↔
        ∃ pattern ∈ remaining, Matches pattern text := by
    induction text with
    | nil => intro remaining; simp [acceptsEmpty_iff]
    | cons character text ih => intro remaining; rw [List.foldl_cons, ih, exists_mem_step_iff]
  simpa [accepts] using general [pattern]

end Pattern

end EntityFeatures

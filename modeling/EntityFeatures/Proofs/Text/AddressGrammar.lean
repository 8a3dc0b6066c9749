import EntityFeatures.Text.Address

/-!
# The grammars of addresses and the short way past them

`Address.classify?` decides two grammars one after the other, unless a token holds
neither a full stop nor the mark that ends a scheme. That this short way never changes
the answer is a fact about the grammars: every text of either grammar holds one of the
two. And no text of either holds a blank, although the host and the path of a web
address may hold nearly everything.

Both facts are about single characters, and so they can be computed from a pattern.
`Pattern.avoids` finds that a character stands in no text of a pattern, and
`Pattern.requires` that it stands in every one. The mark of a scheme is three characters
in a row, which no such computation finds; there the pattern is taken apart by hand.

The main statement is `Address.classifies_classify?`.
-/

namespace EntityFeatures

namespace Pattern

/-- Whether no place of a pattern takes the character. -/
def avoids (character : Char) : Pattern → Bool
  | empty => true
  | one set => !set.contains character
  | seq first second => first.avoids character && second.avoids character
  | alt left right => left.avoids character && right.avoids character
  | star body => body.avoids character

/-- Whether every way through a pattern passes a place that takes this character only. -/
def requires (character : Char) : Pattern → Bool
  | empty => false
  | one set => set == .listed [character]
  | seq first second => first.requires character || second.requires character
  | alt left right => left.requires character && right.requires character
  | star _ => false

variable {pattern : Pattern} {character : Char} {text : List Char}

theorem not_mem_of_avoids (matching : Matches pattern text)
    (avoided : pattern.avoids character = true) : character ∉ text := by
  induction matching with
  | empty | starNil => exact List.not_mem_nil
  | @one set other member =>
      intro mem
      rw [List.mem_singleton] at mem
      subst mem
      simp [avoids, member] at avoided
  | seq _ _ ihFront ihBack =>
      rw [avoids, Bool.and_eq_true] at avoided
      rw [List.mem_append, not_or]
      exact ⟨ihFront avoided.1, ihBack avoided.2⟩
  | altLeft _ ih =>
      rw [avoids, Bool.and_eq_true] at avoided
      exact ih avoided.1
  | altRight _ ih =>
      rw [avoids, Bool.and_eq_true] at avoided
      exact ih avoided.2
  | starAppend _ _ ihFront ihBack =>
      rw [List.mem_append, not_or]
      exact ⟨ihFront avoided, ihBack avoided⟩

theorem mem_of_requires (matching : Matches pattern text)
    (required : pattern.requires character = true) : character ∈ text := by
  induction matching with
  | empty | starNil | starAppend => cases required
  | @one set other member =>
      rw [requires, beq_iff_eq] at required
      subst required
      rw [CharSet.contains, List.contains_iff_mem, List.mem_singleton] at member
      exact List.mem_singleton.mpr member.symm
  | seq _ _ ihFront ihBack =>
      rw [requires, Bool.or_eq_true] at required
      rw [List.mem_append]
      exact required.imp ihFront ihBack
  | altLeft _ ih =>
      rw [requires, Bool.and_eq_true] at required
      exact ih required.1
  | altRight _ ih =>
      rw [requires, Bool.and_eq_true] at required
      exact ih required.2

theorem eq_of_matches_concat_map {characters : List Char}
    (matching : Matches (concat (characters.map fun character => one (.listed [character]))) text) :
    text = characters := by
  induction characters generalizing text with
  | nil => exact matches_empty_iff.mp matching
  | cons first rest ih =>
      have single : ∀ {front : List Char}, Matches (one (.listed [first])) front →
          front = [first] := by
        intro front matchesFront
        rcases matches_one_iff.mp matchesFront with ⟨character, member, rfl⟩
        rw [CharSet.contains, List.contains_iff_mem, List.mem_singleton] at member
        rw [member]
      cases rest with
      | nil => exact single matching
      | cons second rest =>
          rcases matches_seq_iff.mp matching with ⟨front, back, matchesFront, matchesBack, rfl⟩
          rw [single matchesFront, ih matchesBack]
          rfl

theorem eq_of_matches_literal {literalText : String} (matching : Matches (literal literalText) text) :
    text = literalText.toList :=
  eq_of_matches_concat_map matching

end Pattern

/-- The blank characters one by one. -/
def blankCharacters : List Char :=
  blankRanges.flatMap fun (first, last) =>
    (List.range' first (last + 1 - first)).map Char.ofNat

theorem mem_blankCharacters {character : Char} (blank : isBlank character = true) :
    character ∈ blankCharacters := by
  rw [isBlank, List.any_eq_true] at blank
  rcases blank with ⟨⟨first, last⟩, listed, inside⟩
  rw [Bool.and_eq_true, decide_eq_true_iff, decide_eq_true_iff] at inside
  rw [blankCharacters, List.mem_flatMap]
  refine ⟨(first, last), listed, ?_⟩
  rw [List.mem_map]
  refine ⟨character.toNat, ?_, Char.ofNat_toNat character⟩
  rw [List.mem_range'_1]
  omega

namespace Address

open Pattern

variable {text : List Char}

/-- The mark that ends a scheme. -/
def schemeMark : List Char :=
  [':', '/', '/']

theorem mentionsScheme_iff : mentionsScheme text = true ↔ schemeMark <:+: text := by
  induction text with
  | nil => decide
  | cons first rest ih =>
      rw [List.infix_cons_iff, ← ih, mentionsScheme.eq_def]
      split
      next read =>
        rw [read]
        exact iff_of_true rfl (Or.inl ⟨_, rfl⟩)
      next other tail noMark read =>
        cases read
        have elsewhere : ¬schemeMark <+: first :: rest := by
          rintro ⟨back, whole⟩
          rcases List.cons.inj whole with ⟨rfl, rfl⟩
          exact noMark back rfl rfl
        rw [or_iff_right elsewhere]
      next read => cases read

theorem full_stop_mem_of_mail (matching : Matches mailAddress text) : '.' ∈ text :=
  mem_of_requires matching (by decide +kernel)

theorem schemeMark_infix_of_hostWithScheme (matching : Matches hostWithScheme text) :
    schemeMark <:+: text := by
  rcases matches_seq_iff.mp matching with ⟨front, rest, -, matchesRest, rfl⟩
  rcases matches_seq_iff.mp matchesRest with ⟨mark, back, matchesMark, -, rfl⟩
  have isMark : mark = schemeMark := (eq_of_matches_literal matchesMark).trans (by decide)
  exact ⟨front, back, by rw [isMark, List.append_assoc]⟩

/-- A web address without a scheme has a host with a full stop in it. -/
theorem marked_of_web (matching : Matches webAddress text) :
    '.' ∈ text ∨ schemeMark <:+: text := by
  rcases matches_seq_iff.mp matching with ⟨host, rest, matchesHost, -, rfl⟩
  rcases matches_alt_iff.mp matchesHost with withScheme | withoutScheme
  · right
    exact (schemeMark_infix_of_hostWithScheme withScheme).trans (List.prefix_append host rest).isInfix
  · left
    exact List.mem_append_left rest (mem_of_requires withoutScheme (by decide +kernel))

theorem not_matches_of_unmarked (noStop : '.' ∉ text) (noMark : ¬schemeMark <:+: text) :
    ¬Matches mailAddress text ∧ ¬Matches webAddress text := by
  constructor
  · intro matching
    exact noStop (full_stop_mem_of_mail matching)
  · intro matching
    exact (marked_of_web matching).elim noStop noMark

theorem mailAddress_avoids_blanks :
    (blankCharacters.all fun character => mailAddress.avoids character) = true := by
  decide +kernel

theorem webAddress_avoids_blanks :
    (blankCharacters.all fun character => webAddress.avoids character) = true := by
  decide +kernel

theorem not_matches_of_blank {character : Char} (mem : character ∈ text)
    (blank : isBlank character = true) :
    ¬Matches mailAddress text ∧ ¬Matches webAddress text := by
  have listed := mem_blankCharacters blank
  constructor
  · intro matching
    exact not_mem_of_avoids matching (List.all_eq_true.mp mailAddress_avoids_blanks _ listed) mem
  · intro matching
    exact not_mem_of_avoids matching (List.all_eq_true.mp webAddress_avoids_blanks _ listed) mem

/-- The short way is taken past no text of a grammar, so it may as well not be there. -/
theorem classify?_eq (form : String) :
    classify? form =
      if mailAddress.accepts form.toList then some .mail
      else if webAddress.accepts form.toList then some .web
      else none := by
  rw [classify?]
  split
  next unmarked =>
    rw [Bool.and_eq_true, Bool.not_eq_true', Bool.not_eq_true', ← Bool.not_eq_true,
      ← Bool.not_eq_true, List.contains_iff_mem, mentionsScheme_iff] at unmarked
    rcases not_matches_of_unmarked unmarked.1 unmarked.2 with ⟨noMail, noWeb⟩
    rw [← accepts_iff] at noMail noWeb
    rw [if_neg noMail, if_neg noWeb]
  next => rfl

theorem classify?_cases (form : String) :
    Matches mailAddress form.toList ∧ classify? form = some .mail ∨
      ¬Matches mailAddress form.toList ∧ Matches webAddress form.toList ∧
        classify? form = some .web ∨
      ¬Matches mailAddress form.toList ∧ ¬Matches webAddress form.toList ∧
        classify? form = none := by
  simp only [classify?_eq, ← accepts_iff]
  by_cases mail : mailAddress.accepts form.toList = true
  · exact Or.inl ⟨mail, if_pos mail⟩
  · rw [if_neg mail]
    by_cases web : webAddress.accepts form.toList = true
    · exact Or.inr (Or.inl ⟨mail, web, if_pos web⟩)
    · exact Or.inr (Or.inr ⟨mail, web, if_neg web⟩)

/-- What a token is, by the two grammars. -/
structure Classifies (form : String) (address? : Option Address) : Prop where
  mail_iff : address? = some .mail ↔ Matches mailAddress form.toList
  web_iff : address? = some .web ↔
    Matches webAddress form.toList ∧ ¬Matches mailAddress form.toList
  none_iff : address? = none ↔
    ¬Matches mailAddress form.toList ∧ ¬Matches webAddress form.toList
  /-- Without a full stop and without the mark of a scheme there is no address. -/
  unmarked : '.' ∉ form.toList → ¬schemeMark <:+: form.toList →
    ¬Matches mailAddress form.toList ∧ ¬Matches webAddress form.toList
  /-- An address holds no blank. -/
  blank : ∀ character ∈ form.toList, isBlank character = true → address? = none

/--
Every token is classified by the two grammars, of which the one of mail addresses comes
first.
-/
theorem classifies_classify? (form : String) : Classifies form (classify? form) := by
  refine ⟨?mail, ?web, ?neither, not_matches_of_unmarked, ?blank⟩
  case mail =>
    rcases classify?_cases form with ⟨mail, same⟩ | ⟨noMail, web, same⟩ | ⟨noMail, noWeb, same⟩
    · simp [same, mail]
    · simp [same, noMail]
    · simp [same, noMail]
  case web =>
    rcases classify?_cases form with ⟨mail, same⟩ | ⟨noMail, web, same⟩ | ⟨noMail, noWeb, same⟩
    · simp [same, mail]
    · simp [same, noMail, web]
    · simp [same, noWeb]
  case neither =>
    rcases classify?_cases form with ⟨mail, same⟩ | ⟨noMail, web, same⟩ | ⟨noMail, noWeb, same⟩
    · simp [same, mail]
    · simp [same, web]
    · simp [same, noMail, noWeb]
  case blank =>
    intro character mem blank
    rcases not_matches_of_blank mem blank with ⟨noMail, noWeb⟩
    rcases classify?_cases form with ⟨mail, -⟩ | ⟨-, web, -⟩ | ⟨-, -, same⟩
    · exact absurd mail noMail
    · exact absurd web noWeb
    · exact same

end Address

end EntityFeatures

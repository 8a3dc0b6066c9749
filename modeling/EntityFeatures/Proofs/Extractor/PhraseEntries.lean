import EntityFeatures.Proofs.Extractor.PhraseFile
import EntityFeatures.Proofs.Feature.Ranking
import EntityFeatures.Proofs.Text.Phrases

/-!
# The entries of phrases

A line is read phrase by phrase: of each initial part it is noted that the part goes
on, and of the whole that it is complete in the file. `PhraseNote.entryOf` is the
entry of a phrase that results from all notes, whatever their order, and
`PhraseReading.Reflects` says that the table and the entries hold exactly these, one
for every phrase that is noted.

The notes of whole lines are then known from the words on the lines. A phrase is
complete in the files that have a line of its fields, and it goes on if its fields
are followed by others on some line. That is why a phrase with one more word has an
entry only if the phrase goes on, `PhraseFile.entryOf_join`, and nothing is missed by
a search that stops where no entry goes on.
-/

namespace EntityFeatures

/-- What is noted about a phrase when a line is read. -/
structure PhraseNote where
  phrase : String
  /-- The generic feature of the file in which the phrase is complete, unless it goes on. -/
  complete? : Option FeatureId
  deriving DecidableEq

namespace PhraseNote

/-- What the note changes in the entry of the phrase. -/
def change (note : PhraseNote) : PhraseEntry → PhraseEntry :=
  match note.complete? with
  | some feature => PhraseEntry.complete feature
  | none => PhraseEntry.extend

/-- The feature of the file if the note says that this phrase is complete there. -/
def featureFor? (phrase : String) (note : PhraseNote) : Option FeatureId :=
  if note.phrase = phrase then note.complete? else none

/-- The entry of a phrase after all these notes. -/
def entryOf (notes : List PhraseNote) (phrase : String) : PhraseEntry where
  features := (notes.filterMap (featureFor? phrase)).eraseDups
  goesOn := decide (⟨phrase, none⟩ ∈ notes)

variable {notes : List PhraseNote} {phrase : String}

theorem entryOf_concat (notes : List PhraseNote) (note : PhraseNote) (phrase : String) :
    entryOf (notes ++ [note]) phrase =
      if note.phrase = phrase then note.change (entryOf notes phrase)
      else entryOf notes phrase := by
  rcases note with ⟨noted, complete?⟩
  by_cases same : noted = phrase
  · subst same
    cases complete? with
    | none =>
        simp [entryOf, change, featureFor?, PhraseEntry.extend]
    | some feature =>
        have added : [PhraseNote.mk noted (some feature)].filterMap (featureFor? noted) =
            [feature] := by
          simp [featureFor?]
        simp only [entryOf, change, PhraseEntry.complete, List.filterMap_append, added,
          eraseDups_concat, List.contains_iff_mem, List.mem_eraseDups]
        split <;> simp
  · have differs : ¬phrase = noted := fun equal => same equal.symm
    simp [entryOf, featureFor?, same, differs]

theorem entryOf_of_not_mem (absent : phrase ∉ notes.map PhraseNote.phrase) :
    entryOf notes phrase = {} := by
  have others : ∀ note ∈ notes, note.phrase ≠ phrase := by
    intro note mem same
    exact absent (same ▸ List.mem_map_of_mem mem)
  have noFeature : notes.filterMap (featureFor? phrase) = [] := by
    rw [List.filterMap_eq_nil_iff]
    intro note mem
    rw [featureFor?, if_neg (others note mem)]
  have notOn : ⟨phrase, none⟩ ∉ notes := fun mem => others _ mem rfl
  simp [entryOf, noFeature, notOn]

end PhraseNote

namespace PhraseReading

variable {notes : List PhraseNote} {reading : PhraseReading} {phrase : String}

/-- Changes the entry of a phrase by what is noted about it. -/
def addNote (reading : PhraseReading) (note : PhraseNote) : PhraseReading :=
  reading.modify note.change note.phrase

/-- The table and the entries once these notes have been made, in this order. -/
structure Reflects (notes : List PhraseNote) (reading : PhraseReading) : Prop where
  ranks : reading.phrases.Ranks (notes.map PhraseNote.phrase).eraseDups id
  size_eq : reading.entries.size = (notes.map PhraseNote.phrase).eraseDups.length
  getElem?_entries : ∀ (rank : Nat) (phrase : String),
    (notes.map PhraseNote.phrase).eraseDups[rank]? = some phrase →
      reading.entries[rank]? = some (PhraseNote.entryOf notes phrase)

theorem Reflects.empty (total : FeatureId) : Reflects [] { total } := by
  refine ⟨KeyTable.Ranks.empty _, rfl, ?_⟩
  intro rank phrase found
  simp at found

theorem Reflects.addNote_of_mem {note : PhraseNote} (reflects : Reflects notes reading)
    (known : note.phrase ∈ notes.map PhraseNote.phrase) :
    Reflects (notes ++ [note]) (reading.addNote note) := by
  have same : ((notes ++ [note]).map PhraseNote.phrase).eraseDups =
      (notes.map PhraseNote.phrase).eraseDups := by
    rw [List.map_append, List.map_singleton, eraseDups_concat, if_pos known]
  rcases List.mem_iff_getElem?.mp (List.mem_eraseDups.mpr known) with ⟨place, placed⟩
  rcases reflects.ranks.exists_number placed with ⟨number, numbered, value⟩
  rw [addNote, modify, numbered]
  refine ⟨?_, ?_, ?_⟩
  · rw [same]
    exact reflects.ranks
  · rw [same, Array.size_modify, reflects.size_eq]
  · intro rank phrase found
    rw [same] at found
    have before := reflects.getElem?_entries rank phrase found
    rw [Array.getElem?_modify, before, PhraseNote.entryOf_concat, value]
    by_cases here : place = rank
    · subst here
      rw [placed, Option.some.injEq] at found
      simp [found]
    · have differs : note.phrase ≠ phrase := by
        rintro rfl
        have inside := (List.getElem?_eq_some_iff.mp placed).1
        exact here ((List.getElem?_inj inside reflects.ranks.nodup).mp (placed.trans found.symm))
      simp [here, differs]

theorem Reflects.addNote_of_not_mem {note : PhraseNote} (reflects : Reflects notes reading)
    (room : reading.entries.size < UInt32.size)
    (new : note.phrase ∉ notes.map PhraseNote.phrase) :
    Reflects (notes ++ [note]) (reading.addNote note) := by
  have longer : ((notes ++ [note]).map PhraseNote.phrase).eraseDups =
      (notes.map PhraseNote.phrase).eraseDups ++ [note.phrase] := by
    rw [List.map_append, List.map_singleton, eraseDups_concat, if_neg new]
  have unlisted : note.phrase ∉ (notes.map PhraseNote.phrase).eraseDups := by
    rwa [List.mem_eraseDups]
  rw [addNote, modify, reflects.ranks.getElem?_eq_none_iff.mpr unlisted]
  refine ⟨?_, ?_, ?_⟩
  · rw [longer]
    apply reflects.ranks.insert unlisted
    rw [UInt32.toNat_ofNat_of_lt' room, reflects.size_eq, id_eq]
  · rw [longer, Array.size_push, reflects.size_eq, List.length_append, List.length_singleton]
  · intro rank phrase found
    rw [longer] at found
    rw [PhraseNote.entryOf_concat, Array.getElem?_push, reflects.size_eq]
    rcases getElem?_concat_eq_some_iff.mp found with inFront | ⟨rfl, rfl⟩
    · have bound := (List.getElem?_eq_some_iff.mp inFront).1
      have differs : note.phrase ≠ phrase := by
        rintro rfl
        exact unlisted (List.mem_of_getElem? inFront)
      rw [if_neg (Nat.ne_of_lt bound), if_neg differs]
      exact reflects.getElem?_entries rank phrase inFront
    · rw [if_pos rfl, if_pos rfl, PhraseNote.entryOf_of_not_mem new]

theorem size_le_addNote (reading : PhraseReading) (note : PhraseNote) :
    reading.entries.size ≤ (reading.addNote note).entries.size := by
  rw [addNote, modify]
  split <;> simp

theorem size_le_foldl_addNote (reading : PhraseReading) (notes : List PhraseNote) :
    reading.entries.size ≤ (notes.foldl addNote reading).entries.size := by
  induction notes generalizing reading with
  | nil => exact Nat.le_refl _
  | cons note rest ih => exact Nat.le_trans (size_le_addNote reading note) (ih _)

theorem Reflects.foldl_addNote {more : List PhraseNote} (reflects : Reflects notes reading)
    (room : (more.foldl addNote reading).entries.size ≤ UInt32.size) :
    Reflects (notes ++ more) (more.foldl addNote reading) := by
  induction more generalizing notes reading with
  | nil => rwa [List.append_nil]
  | cons note rest ih =>
      rw [List.append_cons]
      apply ih _ room
      by_cases known : note.phrase ∈ notes.map PhraseNote.phrase
      · exact reflects.addNote_of_mem known
      · apply reflects.addNote_of_not_mem _ known
        -- Entries are never taken away, so what fits at the end has fitted before.
        have grown : (reading.addNote note).entries.size ≤ UInt32.size :=
          Nat.le_trans (size_le_foldl_addNote _ rest) room
        have unlisted : note.phrase ∉ (notes.map PhraseNote.phrase).eraseDups := by
          rwa [List.mem_eraseDups]
        rw [addNote, modify, reflects.ranks.getElem?_eq_none_iff.mpr unlisted,
          Array.size_push] at grown
        exact grown

theorem Reflects.find?_of_mem (reflects : Reflects notes reading) (mem : phrase ∈ reading.phrases) :
    reading.entries.find? reading.phrases phrase = some (PhraseNote.entryOf notes phrase) := by
  rcases KeyTable.mem_iff.mp mem with ⟨number, numbered⟩
  rcases reflects.ranks.exists_rank numbered with ⟨rank, found, value⟩
  rw [PhraseTable.find?, numbered]
  dsimp only
  rw [value, id_eq, reflects.getElem?_entries rank phrase found]

/-- A phrase without an entry is one that nothing is noted about. -/
theorem Reflects.find?_getD (reflects : Reflects notes reading) (phrase : String) :
    (reading.entries.find? reading.phrases phrase).getD {} = PhraseNote.entryOf notes phrase := by
  cases numbered : reading.phrases[phrase]? with
  | none =>
      have absent := reflects.ranks.getElem?_eq_none_iff.mp numbered
      rw [List.mem_eraseDups] at absent
      rw [PhraseTable.find?, numbered, PhraseNote.entryOf_of_not_mem absent, Option.getD_none]
  | some number =>
      rw [reflects.find?_of_mem (KeyTable.mem_iff.mpr ⟨number, numbered⟩), Option.getD_some]

end PhraseReading

namespace PhraseNote

open Text PhraseTable

/-- The notes about a phrase and its initial parts, given by these parts. -/
def ofParts (feature : FeatureId) : List String → List PhraseNote
  | [] => []
  | [phrase] => [⟨phrase, some feature⟩]
  | part :: next :: rest => ⟨part, none⟩ :: ofParts feature (next :: rest)

theorem foldl_addNote_ofParts (feature : FeatureId) (parts : List String)
    (reading : PhraseReading) :
    (ofParts feature parts).foldl PhraseReading.addNote reading =
      PhraseReading.addPhrases feature parts reading := by
  induction parts generalizing reading with
  | nil => rfl
  | cons part rest ih =>
      cases rest with
      | nil => rfl
      | cons next rest =>
          rw [ofParts, List.foldl_cons, ih]
          rfl

/-- The notes about the lines of files, marked with the features of the files. -/
def ofMarked (marked : List (FeatureId × String)) : List PhraseNote :=
  marked.flatMap fun (feature, line) => ofParts feature (phrasesOf (wordsOf line))

theorem foldl_addNote_ofMarked (reading : PhraseReading) (marked : List (FeatureId × String)) :
    (ofMarked marked).foldl PhraseReading.addNote reading = reading.addMarked marked := by
  induction marked generalizing reading with
  | nil => rfl
  | cons first rest ih =>
      rw [ofMarked, List.flatMap_cons, List.foldl_append, foldl_addNote_ofParts, ← ofMarked, ih]
      rfl

section Parts

variable {words rest : List String} {front phrase : String} {feature : FeatureId}

theorem filterMap_ofParts_phrasesFrom (single : ∀ word ∈ rest, ' ' ∉ word.toList) :
    (ofParts feature (front :: phrasesFrom front rest)).filterMap (featureFor? phrase) =
      if fields ' ' phrase = fields ' ' front ++ rest then [feature] else [] := by
  induction rest generalizing front with
  | nil =>
      rw [phrasesFrom, ofParts, List.append_nil]
      by_cases same : front = phrase
      · simp [featureFor?, same]
      · have differ : fields ' ' phrase ≠ fields ' ' front :=
          fun equal => same (fields_injective equal).symm
        simp [featureFor?, same, differ]
  | cons word rest ih =>
      have others : ∀ other ∈ rest, ' ' ∉ other.toList :=
        fun other mem => single other (List.mem_cons_of_mem _ mem)
      have here := fields_of_not_mem (single word (List.mem_cons_self ..))
      have goesOn : featureFor? phrase ⟨front, none⟩ = none := by
        simp [featureFor?]
      rw [phrasesFrom, ofParts, List.filterMap_cons_none goesOn, ih others, fields_join, here,
        ← List.append_cons]

/-- A line makes its phrase complete, and no other. -/
theorem filterMap_ofParts (single : ∀ word ∈ words, ' ' ∉ word.toList) :
    (ofParts feature (phrasesOf words)).filterMap (featureFor? phrase) =
      if fields ' ' phrase = words then [feature] else [] := by
  cases words with
  | nil =>
      rw [if_neg (fields_ne_nil phrase)]
      rfl
  | cons word rest =>
      have here := fields_of_not_mem (single word (List.mem_cons_self ..))
      rw [phrasesOf, filterMap_ofParts_phrasesFrom
        fun other mem => single other (List.mem_cons_of_mem _ mem), here, List.singleton_append]

theorem mem_ofParts_phrasesFrom (single : ∀ word ∈ rest, ' ' ∉ word.toList) :
    ⟨phrase, none⟩ ∈ ofParts feature (front :: phrasesFrom front rest) ↔
      ∃ taken left, left ≠ [] ∧ taken ++ left = rest ∧
        fields ' ' phrase = fields ' ' front ++ taken := by
  -- The words that are taken move from the rest to the front, one at each step.
  induction rest generalizing front with
  | nil =>
      rw [phrasesFrom, ofParts]
      constructor
      · intro mem
        simp at mem
      · rintro ⟨taken, left, nonempty, none, -⟩
        exact absurd (List.append_eq_nil_iff.mp none).2 nonempty
  | cons word rest ih =>
      have others : ∀ other ∈ rest, ' ' ∉ other.toList :=
        fun other mem => single other (List.mem_cons_of_mem _ mem)
      have here := fields_of_not_mem (single word (List.mem_cons_self ..))
      rw [phrasesFrom, ofParts, List.mem_cons, ih others, fields_join, here]
      constructor
      · rintro (same | ⟨taken, left, nonempty, rfl, same⟩)
        · cases same
          exact ⟨[], word :: rest, List.cons_ne_nil _ _, rfl, (List.append_nil _).symm⟩
        · exact ⟨word :: taken, left, nonempty, rfl, by rw [same, ← List.append_cons]⟩
      · rintro ⟨taken, left, nonempty, cut, same⟩
        cases taken with
        | nil =>
            left
            rw [List.append_nil] at same
            rw [fields_injective same]
        | cons first taken =>
            right
            cases cut
            exact ⟨taken, left, nonempty, rfl, by rw [same, List.append_cons]⟩

/-- The parts of a line that go on are those that other words of the line follow. -/
theorem mem_ofParts (single : ∀ word ∈ words, ' ' ∉ word.toList) :
    ⟨phrase, none⟩ ∈ ofParts feature (phrasesOf words) ↔
      ∃ left, left ≠ [] ∧ fields ' ' phrase ++ left = words := by
  cases words with
  | nil =>
      constructor
      · intro mem
        cases mem
      · rintro ⟨left, nonempty, none⟩
        exact absurd (List.append_eq_nil_iff.mp none).2 nonempty
  | cons word rest =>
      have here := fields_of_not_mem (single word (List.mem_cons_self ..))
      rw [phrasesOf, mem_ofParts_phrasesFrom
        fun other mem => single other (List.mem_cons_of_mem _ mem), here]
      constructor
      · rintro ⟨taken, left, nonempty, rfl, same⟩
        exact ⟨left, nonempty, by rw [same]; rfl⟩
      · rintro ⟨left, nonempty, cut⟩
        cases fieldsEq : fields ' ' phrase with
        | nil => exact absurd fieldsEq (fields_ne_nil phrase)
        | cons first taken =>
            rw [fieldsEq] at cut
            cases cut
            exact ⟨taken, left, nonempty, rfl, rfl⟩

end Parts

end PhraseNote

namespace PhraseFile

open Text PhraseTable

variable {marked : List (FeatureId × String)} {phrase word : String}

/-- The entry of a phrase once these lines have been read. -/
def entryOf (marked : List (FeatureId × String)) (phrase : String) : PhraseEntry :=
  PhraseNote.entryOf (PhraseNote.ofMarked marked) phrase

/-- The features of a phrase in marked lines, one for each line. -/
def featuresIn (marked : List (FeatureId × String)) (text : String) : List FeatureId :=
  (marked.filter fun entry => fields ' ' text = wordsOf entry.2).map Prod.fst

theorem featuresIn_append (front back : List (FeatureId × String)) (text : String) :
    featuresIn (front ++ back) text = featuresIn front text ++ featuresIn back text := by
  rw [featuresIn, List.filter_append, List.map_append, ← featuresIn, ← featuresIn]

theorem find?_addMarked {total : FeatureId}
    (room : (({ total } : PhraseReading).addMarked marked).entries.size ≤ UInt32.size)
    (phrase : String) :
    ((({ total } : PhraseReading).addMarked marked).entries.find?
      (({ total } : PhraseReading).addMarked marked).phrases phrase).getD {} =
        entryOf marked phrase := by
  rw [← PhraseNote.foldl_addNote_ofMarked] at room ⊢
  exact ((PhraseReading.Reflects.empty total).foldl_addNote room).find?_getD phrase

/-- A phrase is complete in the files that have a line of its fields. -/
theorem features_entryOf (marked : List (FeatureId × String)) (phrase : String) :
    (entryOf marked phrase).features = (featuresIn marked phrase).eraseDups := by
  have listed : (PhraseNote.ofMarked marked).filterMap (PhraseNote.featureFor? phrase) =
      featuresIn marked phrase := by
    induction marked with
    | nil => rfl
    | cons first rest ih =>
        rw [PhraseNote.ofMarked, List.flatMap_cons, List.filterMap_append, ← PhraseNote.ofMarked,
          ih, PhraseNote.filterMap_ofParts fun word => not_mem_of_mem_wordsOf, featuresIn,
          featuresIn, List.filter_cons]
        split
        next same => simp [same]
        next differs => simp [differs]
  rw [entryOf, PhraseNote.entryOf, listed]

/-- A phrase goes on if its fields are followed by others on a line. -/
theorem goesOn_entryOf :
    (entryOf marked phrase).goesOn = true ↔
      ∃ entry ∈ marked, ∃ left, left ≠ [] ∧ fields ' ' phrase ++ left = wordsOf entry.2 := by
  rw [entryOf, PhraseNote.entryOf, decide_eq_true_eq, PhraseNote.ofMarked, List.mem_flatMap]
  constructor
  · rintro ⟨entry, mem, noted⟩
    exact ⟨entry, mem, (PhraseNote.mem_ofParts fun word => not_mem_of_mem_wordsOf).mp noted⟩
  · rintro ⟨entry, mem, follows⟩
    exact ⟨entry, mem, (PhraseNote.mem_ofParts fun word => not_mem_of_mem_wordsOf).mpr follows⟩

/-- Behind a phrase that does not go on there is no other. -/
theorem entryOf_join (ends : (entryOf marked phrase).goesOn = false) :
    entryOf marked (join phrase word) = {} := by
  have never : ∀ entry ∈ marked, ∀ left, left ≠ [] →
      fields ' ' phrase ++ left ≠ wordsOf entry.2 := by
    intro entry mem left nonempty same
    have goesOn := goesOn_entryOf.mpr ⟨entry, mem, left, nonempty, same⟩
    rw [ends] at goesOn
    cases goesOn
  have noFeature : (entryOf marked (join phrase word)).features = [] := by
    rw [features_entryOf]
    have noLine : featuresIn marked (join phrase word) = [] := by
      rw [featuresIn, List.map_eq_nil_iff, List.filter_eq_nil_iff]
      intro entry mem complete
      rw [decide_eq_true_eq, fields_join] at complete
      exact never entry mem _ (fields_ne_nil word) complete
    rw [noLine]
    rfl
  have notOn : (entryOf marked (join phrase word)).goesOn = false := by
    rw [Bool.eq_false_iff, ne_eq, goesOn_entryOf]
    rintro ⟨entry, mem, left, -, follows⟩
    rw [fields_join, List.append_assoc] at follows
    refine never entry mem _ ?_ follows
    exact List.append_ne_nil_of_left_ne_nil (fields_ne_nil word) left
  rcases entryEq : entryOf marked (join phrase word) with ⟨features, goesOn⟩
  rw [entryEq] at noFeature notOn
  dsimp only at noFeature notOn
  rw [noFeature, notOn]

end PhraseFile

end EntityFeatures

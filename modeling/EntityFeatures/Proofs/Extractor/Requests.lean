import Mathlib.Data.List.Basic
import EntityFeatures.Extractor.Annotate

/-!
# What extractors ask for

The kinds that have features by key differ in the keys that they ask for and in the
tokens that they name. Two things hold of all of them. A request stays within the window
around a position, and if that is not a position of the sentence the request concerns
only what lies behind it. And the empty key is asked for only by the lexical kinds, for
a word that does not have the attribute. `Kind.asks_of_mem_requests` says so.
-/

namespace EntityFeatures

section Words

variable {requestsOf : Int → Word → List Request} {words : List Word}

theorem map_key_flatMap_zipIdx {Item : Type} {requestsOf : Item × Nat → List Request}
    {keysOf : Item → List String}
    (keys_eq : ∀ item place, (requestsOf (item, place)).map Request.key = keysOf item)
    (items : List Item) :
    (items.zipIdx.flatMap requestsOf).map Request.key = items.flatMap keysOf := by
  rw [List.map_flatMap, ← List.zipIdx_map_fst 0 items, List.flatMap_map, List.zipIdx_map_fst]
  apply List.flatMap_congr
  rintro ⟨item, place⟩ -
  exact keys_eq item place

theorem map_key_requestsByWord {keysOf : Word → List String}
    (keys_eq : ∀ position word, (requestsOf position word).map Request.key = keysOf word)
    (words : List Word) :
    (requestsByWord requestsOf words).map Request.key = words.flatMap keysOf := by
  apply map_key_flatMap_zipIdx
  intro word place
  exact keys_eq place word

theorem mem_requestsByWord {request : Request} :
    request ∈ requestsByWord requestsOf words ↔
      ∃ (position : Nat) (word : Word), words[position]? = some word ∧
        request ∈ requestsOf position word := by
  simp only [requestsByWord, List.mem_flatMap, Prod.exists, List.mem_zipIdx_iff_getElem?]
  exact exists_comm

end Words

theorem PreviousLabel.key_ne_empty (previous : PreviousLabel) : previous.key ≠ "" := by
  rw [PreviousLabel.key, ne_eq, ← String.toList_inj]
  simp

theorem KeyTable.mem_answer {table : KeyTable} {window : Window} {requests : List Request}
    {emission : Emission} :
    emission ∈ table.answer window requests ↔
      ∃ key anchor left right, .place key anchor left right ∈ requests ∧
        emission = ⟨table.find window key, anchor, left, right⟩ := by
  rw [KeyTable.answer, List.mem_flatMap]
  constructor
  · rintro ⟨request, asked, mem⟩
    cases request with
    | know key => cases mem
    | place key anchor left right =>
        exact ⟨key, anchor, left, right, asked, List.mem_singleton.mp mem⟩
  · rintro ⟨key, anchor, left, right, asked, rfl⟩
    exact ⟨_, asked, List.mem_singleton.mpr rfl⟩

theorem exists_anchor_of_mem_borderEmissions {window : Window} {size : Nat} {emission : Emission}
    (mem : emission ∈ borderEmissions window size) :
    ∃ anchor : Int, (anchor < 0 ∨ size ≤ anchor) ∧ emission = .around window anchor window := by
  rw [borderEmissions] at mem
  split at mem
  next => cases mem
  next =>
    rcases List.mem_flatMap.mp mem with ⟨distance, -, mem⟩
    simp only [List.mem_cons, List.not_mem_nil, or_false] at mem
    rcases mem with rfl | rfl
    · exact ⟨_, Or.inl (by omega), rfl⟩
    · exact ⟨_, Or.inr (by omega), rfl⟩

namespace Extractor

variable {left right : Sentence}

theorem requests_of_same_words (words_eq : right.words = left.words)
    (previous_eq : right.previous = left.previous) (extractor : Extractor) :
    extractor.requests right = extractor.requests left := by
  rcases left with ⟨words, features, previous, scores⟩
  rcases right with ⟨_, others, _, otherScores⟩
  cases words_eq
  cases previous_eq
  rcases extractor with ⟨window, table, kind⟩
  cases kind <;> rfl

theorem direct_of_same_words (words_eq : right.words = left.words)
    (length_eq : right.features.length = left.features.length) (extractor : Extractor) :
    extractor.direct right = extractor.direct left := by
  rcases left with ⟨words, features, previous, scores⟩
  rcases right with ⟨_, others, otherPrevious, otherScores⟩
  cases words_eq
  rcases extractor with ⟨window, table, kind⟩
  cases kind with
  | lexical source =>
      rw [direct, direct, length_eq]
  | _ => rfl

end Extractor

namespace Kind

variable {kind : Kind} {window : Window} {sentence : Sentence} {key : String}
  {anchor left right : Int}

/-- A kind asks for a key around a position of the sentence, or behind one that is not. -/
structure Asks (kind : Kind) (window : Window) (sentence : Sentence) (position : Nat)
    (key : String) (left right : Int) : Prop where
  left_le : -(window.toNat : Int) ≤ left
  le_right : right ≤ window.toNat
  behind : sentence.size ≤ position → 1 ≤ left
  lexical : key = "" → ∃ source word, kind = .lexical source ∧
    sentence.words[position]? = some word ∧ source.of word = ""

theorem Asks.around {position : Nat} {word : Word}
    (worded : sentence.words[position]? = some word)
    (lexical : key = "" → ∃ source, kind = .lexical source ∧ source.of word = "") :
    Asks kind window sentence position key (-(window.toNat : Int)) window.toNat := by
  refine ⟨Int.le_refl _, Int.le_refl _, ?_, ?_⟩
  · intro outside
    exact absurd (List.getElem?_eq_some_iff.mp worded).1 (Nat.not_lt.mpr outside)
  · intro empty
    rcases lexical empty with ⟨source, same, none⟩
    exact ⟨source, word, same, worded, none⟩

theorem asks_of_mem_reserving {Feature : Type} {keyOf : Feature → String} {keys : List String}
    (nonempty : ∀ feature, keyOf feature ≠ "") {found : Word → List Feature}
    (mem : .place key anchor left right ∈ keys.map Request.know ++ requestsByWord
      (fun position word =>
        (found word).map fun feature => Request.around (keyOf feature) position window)
      sentence.words) :
    ∃ position : Nat, anchor = position ∧ Asks kind window sentence position key left right := by
  rcases List.mem_append.mp mem with known | placed
  · rcases List.mem_map.mp known with ⟨_, -, same⟩
    cases same
  · rcases mem_requestsByWord.mp placed with ⟨position, word, worded, asked⟩
    rcases List.mem_map.mp asked with ⟨feature, -, same⟩
    cases same
    exact ⟨position, rfl, Asks.around worded fun empty => absurd empty (nonempty feature)⟩

theorem asks_of_mem_requests (mem : .place key anchor left right ∈ kind.requests window sentence) :
    ∃ position : Nat, anchor = position ∧ Asks kind window sentence position key left right := by
  cases kind with
  | lexical source =>
      simp only [requests, Attribute.requests] at mem
      rcases mem_requestsByWord.mp mem with ⟨position, word, worded, asked⟩
      cases List.mem_singleton.mp asked
      exact ⟨position, rfl, Asks.around worded fun none => ⟨source, rfl, none⟩⟩
  | lemmaTerm =>
      simp only [requests, termRequests] at mem
      rcases mem_requestsByWord.mp mem with ⟨position, word, worded, asked⟩
      split at asked
      next term _ =>
        cases List.mem_singleton.mp asked
        exact ⟨position, rfl, Asks.around worded fun empty => by simp at empty⟩
      next => cases asked
  | capitalization source =>
      exact asks_of_mem_reserving (fun feature => by cases feature <;> decide) mem
  | numericValue =>
      exact asks_of_mem_reserving (fun feature => by cases feature <;> decide) mem
  | earlierLabel =>
      rcases List.mem_flatMap.mp mem with ⟨⟨previous, position⟩, -, asked⟩
      dsimp only at asked
      split at asked
      next =>
        cases List.mem_singleton.mp asked
        refine ⟨position, rfl, by omega, Int.le_refl _, fun _ => Int.le_refl _, ?_⟩
        exact fun empty => absurd empty previous.key_ne_empty
      next => cases asked
  | clusters _ | containers | gazetteers _ | addresses _ => cases mem

end Kind

end EntityFeatures

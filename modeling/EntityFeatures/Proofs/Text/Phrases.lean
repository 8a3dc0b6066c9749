import EntityFeatures.Extractor.PhraseTable

/-!
# Phrases as lists of words

A text is cut at its blanks into fields and put together again from them, and
neither loses anything: `Text.intercalate_fields` and `Text.fields_intercalate`. The
fields of a text are never none at all, and those of two texts with a blank between
them are those of one and then those of the other.

So the initial parts of a phrase, which a gazetteer lists by appending word after
word, are the texts whose fields are an initial part of the words of the phrase.
-/

namespace EntityFeatures

namespace Text

theorem fields_ne_nil (text : String) : fields ' ' text ≠ [] := by
  simp [fields]

theorem intercalate_fields (text : String) : " ".intercalate (fields ' ' text) = text := by
  apply String.toList_injective
  rw [String.toList_intercalate, fields, List.map_map]
  have same : String.toList ∘ String.ofList = id := by
    funext characters
    exact String.toList_ofList
  rw [same, List.map_id]
  exact List.intercalate_splitOn ' '

theorem fields_injective {left right : String} (same : fields ' ' left = fields ' ' right) :
    left = right := by
  rw [← intercalate_fields left, same, intercalate_fields]

theorem fields_of_not_mem {word : String} (single : ' ' ∉ word.toList) :
    fields ' ' word = [word] := by
  rw [fields, List.splitOn_eq_singleton single, List.map_singleton, String.ofList_toList]

theorem fields_join (front word : String) :
    fields ' ' (PhraseTable.join front word) = fields ' ' front ++ fields ' ' word := by
  simp only [fields, PhraseTable.join, String.toList_append]
  rw [← List.map_append, ← List.splitOn_append_cons_self]
  simp

theorem fields_intercalate_eq_flatMap {texts : List String} (nonempty : texts ≠ []) :
    fields ' ' (" ".intercalate texts) = texts.flatMap (fields ' ') := by
  induction texts with
  | nil => exact absurd rfl nonempty
  | cons text rest ih =>
      cases rest with
      | nil => rw [String.intercalate_singleton, List.flatMap_singleton]
      | cons next rest =>
          have later := ih (List.cons_ne_nil _ _)
          have joined := fields_join text (" ".intercalate (next :: rest))
          rw [later, ← List.flatMap_cons] at joined
          rw [String.intercalate_cons_cons]
          exact joined

theorem fields_intercalate {words : List String} (nonempty : words ≠ [])
    (single : ∀ word ∈ words, ' ' ∉ word.toList) :
    fields ' ' (" ".intercalate words) = words := by
  rw [fields_intercalate_eq_flatMap nonempty]
  clear nonempty
  induction words with
  | nil => rfl
  | cons word rest ih =>
      have here := fields_of_not_mem (single word (List.mem_cons_self ..))
      have later := ih fun other mem => single other (List.mem_cons_of_mem _ mem)
      rw [List.flatMap_cons, here, later, List.singleton_append]

theorem length_le_length_fields (texts : List String) :
    texts.length ≤ (fields ' ' (" ".intercalate texts)).length := by
  by_cases nonempty : texts = []
  · simp [nonempty]
  · rw [fields_intercalate_eq_flatMap nonempty]
    clear nonempty
    induction texts with
    | nil => exact Nat.le_refl _
    | cons text rest ih =>
        have some := List.length_pos_iff.mpr (fields_ne_nil text)
        rw [List.flatMap_cons, List.length_append, List.length_cons]
        omega

theorem join_intercalate {front : List String} (nonempty : front ≠ []) (word : String) :
    PhraseTable.join (" ".intercalate front) word = " ".intercalate (front ++ [word]) := by
  induction front with
  | nil => exact absurd rfl nonempty
  | cons first rest ih =>
      cases rest with
      | nil => rfl
      | cons next rest =>
          have later := ih (List.cons_ne_nil _ _)
          rw [List.cons_append, List.cons_append, String.intercalate_cons_cons,
            String.intercalate_cons_cons, ← List.cons_append, ← later]
          simp only [PhraseTable.join, String.append_assoc]

theorem not_mem_of_mem_splitOn {text piece : List Char} {separator : Char}
    (mem : piece ∈ text.splitOn separator) : separator ∉ piece := by
  induction text generalizing piece with
  | nil =>
      rw [List.splitOn_nil, List.mem_singleton] at mem
      simp [mem]
  | cons first rest ih =>
      rw [List.splitOn_cons_eq_if_modifyHead] at mem
      split at mem
      next =>
        rcases List.mem_cons.mp mem with rfl | later
        · simp
        · exact ih later
      next other =>
        rcases pieces : rest.splitOn separator with _ | ⟨head, tail⟩
        · exact absurd pieces (List.splitOn_ne_nil separator rest)
        · rw [pieces, List.modifyHead_cons] at mem
          rw [pieces] at ih
          rcases List.mem_cons.mp mem with rfl | later
          · have inHead := ih (List.mem_cons_self ..)
            simp only [List.mem_cons, not_or]
            refine ⟨?_, inHead⟩
            rintro rfl
            simp at other
          · exact ih (List.mem_cons_of_mem _ later)

end Text

namespace PhraseTable

open Text

theorem not_mem_of_mem_wordsOf {line word : String} (mem : word ∈ wordsOf line) :
    ' ' ∉ word.toList := by
  rw [wordsOf, List.mem_filter, fields, List.mem_map] at mem
  rcases mem with ⟨⟨piece, isPiece, rfl⟩, -⟩
  rw [String.toList_ofList]
  exact not_mem_of_mem_splitOn isPiece

end PhraseTable

end EntityFeatures

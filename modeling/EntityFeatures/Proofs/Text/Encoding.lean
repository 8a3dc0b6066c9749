import EntityFeatures.Text.Fields
import EntityFeatures.Text.Utf8

/-!
# The lines of encoded text

Templates are cut into lines as bytes, before it is known whether a line is text.
When the whole is text, `Text.byteLines_encode` says that the lines are those of the
text. The reason is that UTF-8 keeps the ASCII characters apart: a byte below 128
occurs in the code of no other character than the one that it is.

The second half is about lines that are put together. A text that ends its last line
can be followed by anything, and the lines of both stay what they were.
-/

namespace EntityFeatures

open String (utf8EncodeChar)

/-- A character is one byte below 128, or all its bytes are at least 128. -/
theorem utf8EncodeChar_eq_or_forall (character : Char) :
    (character.toNat ≤ 127 ∧ utf8EncodeChar character = [UInt8.ofNat character.toNat]) ∨
      (127 < character.toNat ∧ ∀ byte ∈ utf8EncodeChar character, 128 ≤ byte.toNat) := by
  have number : character.val.toNat = character.toNat := rfl
  simp only [utf8EncodeChar, number]
  split
  next small => exact Or.inl ⟨small, rfl⟩
  next large =>
    refine Or.inr ⟨by omega, fun byte mem => ?_⟩
    split at mem
    · simp only [List.mem_cons, List.not_mem_nil, or_false] at mem
      rcases mem with rfl | rfl <;> simp only [UInt8.toNat_ofNat'] <;> omega
    · split at mem
      · simp only [List.mem_cons, List.not_mem_nil, or_false] at mem
        rcases mem with rfl | rfl | rfl <;> simp only [UInt8.toNat_ofNat'] <;> omega
      · simp only [List.mem_cons, List.not_mem_nil, or_false] at mem
        rcases mem with rfl | rfl | rfl | rfl <;> simp only [UInt8.toNat_ofNat'] <;> omega

variable {mark : Char}

theorem utf8EncodeChar_ascii (ascii : mark.toNat ≤ 127) :
    utf8EncodeChar mark = [UInt8.ofNat mark.toNat] := by
  rcases utf8EncodeChar_eq_or_forall mark with ⟨-, code⟩ | ⟨large, -⟩
  · exact code
  · omega

/-- The byte of an ASCII character stands in the code of that character only. -/
theorem mem_utf8EncodeChar_ascii (ascii : mark.toNat ≤ 127) {character : Char} :
    UInt8.ofNat mark.toNat ∈ utf8EncodeChar character ↔ character = mark := by
  have value : (UInt8.ofNat mark.toNat).toNat = mark.toNat := by
    rw [UInt8.toNat_ofNat']
    omega
  constructor
  · intro mem
    rcases utf8EncodeChar_eq_or_forall character with ⟨small, code⟩ | ⟨-, bounds⟩
    · rw [code, List.mem_singleton] at mem
      have same := congrArg UInt8.toNat mem
      rw [value, UInt8.toNat_ofNat', Nat.mod_eq_of_lt (by omega)] at same
      apply Char.ext
      apply UInt32.toNat_inj.mp
      exact same.symm
    · have large := bounds _ mem
      omega
  · rintro rfl
    simp [utf8EncodeChar_ascii ascii]

namespace Utf8

theorem encode_ofList (characters : List Char) :
    encode (String.ofList characters) = characters.flatMap utf8EncodeChar := by
  simp [encode, String.toByteArray_ofList, List.utf8Encode]

theorem encode_eq_flatMap (text : String) :
    encode text = text.toList.flatMap utf8EncodeChar := by
  have known := encode_ofList text.toList
  rwa [String.ofList_toList] at known

end Utf8

namespace Text

theorem splitOn_append_of_not_mem {Symbol : Type} [BEq Symbol] [LawfulBEq Symbol]
    {separator : Symbol} {front : List Symbol} (absent : separator ∉ front) (rest : List Symbol) :
    (front ++ rest).splitOn separator = (rest.splitOn separator).modifyHead (front ++ ·) := by
  induction front with
  | nil => cases pieces : rest.splitOn separator <;> simp [pieces]
  | cons first others ih =>
      simp only [List.mem_cons, not_or] at absent
      have other : (first == separator) = false := by simpa using Ne.symm absent.1
      simp only [List.cons_append, List.splitOn_cons_eq_if_modifyHead, other,
        Bool.false_eq_true, if_false, ih absent.2, List.modifyHead_modifyHead]
      rfl

theorem splitOn_flatMap_encode (ascii : mark.toNat ≤ 127) (text : List Char) :
    (text.flatMap utf8EncodeChar).splitOn (UInt8.ofNat mark.toNat) =
      (text.splitOn mark).map fun piece => piece.flatMap utf8EncodeChar := by
  induction text with
  | nil => simp
  | cons first rest ih =>
      by_cases separator : first = mark
      · subst separator
        have code := utf8EncodeChar_ascii ascii
        simp [List.splitOn_cons_eq_if_modifyHead, code, ih]
      · have absent : UInt8.ofNat mark.toNat ∉ utf8EncodeChar first := by
          simpa [mem_utf8EncodeChar_ascii ascii] using separator
        rw [List.flatMap_cons, splitOn_append_of_not_mem absent, ih,
          List.splitOn_cons_eq_if_modifyHead, if_neg (by simpa using separator)]
        cases rest.splitOn mark <;> simp

theorem dropReturn_flatMap_encode (ascii : mark.toNat ≤ 127) (line : List Char) :
    dropReturn (UInt8.ofNat mark.toNat) (line.flatMap utf8EncodeChar) =
      (dropReturn mark line).flatMap utf8EncodeChar := by
  rcases List.eq_nil_or_concat line with rfl | ⟨front, last, rfl⟩
  · rfl
  by_cases marked : last = mark
  · subst marked
    simp [dropReturn, utf8EncodeChar_ascii ascii]
  · have kept : (utf8EncodeChar last).getLast? ≠ some (UInt8.ofNat mark.toNat) := by
      intro ends
      have mem := List.mem_of_getLast? ends
      exact marked ((mem_utf8EncodeChar_ascii ascii).mp mem)
    have some : (utf8EncodeChar last).getLast?.isSome := by simp
    simp [dropReturn, marked, List.getLast?_append, Option.or_of_isSome some, kept]

theorem isEmpty_flatMap_encode (line : List Char) :
    (line.flatMap utf8EncodeChar).isEmpty = line.isEmpty := by
  cases line with
  | nil => rfl
  | cons first rest => simp

theorem linesOfPieces_encode (pieces : List (List Char)) :
    linesOfPieces 0x0D (pieces.map fun piece => piece.flatMap utf8EncodeChar) =
      (linesOfPieces '\r' pieces).map fun line => line.flatMap utf8EncodeChar := by
  have drop (line : List Char) : dropReturn (UInt8.ofNat '\r'.toNat)
      (line.flatMap utf8EncodeChar) = (dropReturn '\r' line).flatMap utf8EncodeChar :=
    dropReturn_flatMap_encode (by decide) line
  induction pieces with
  | nil => rfl
  | cons piece rest ih =>
      cases rest with
      | nil =>
          have same := isEmpty_flatMap_encode piece
          by_cases empty : piece.isEmpty <;> simp [linesOfPieces, same, empty]
      | cons next rest =>
          have ended := drop piece
          simp only [List.map_cons] at ih ⊢
          simp only [linesOfPieces, List.map_cons, ih]
          exact congrArg (· :: _) ended

/-- The lines of a text as bytes are the lines of the text. -/
theorem byteLines_encode (text : String) :
    byteLines (Utf8.encode text) = (lines text).map Utf8.encode := by
  have newline : UInt8.ofNat '\n'.toNat = 0x0A := by decide
  have pieces : (text.toList.flatMap utf8EncodeChar).splitOn (UInt8.ofNat '\n'.toNat) =
      (text.toList.splitOn '\n').map fun piece => piece.flatMap utf8EncodeChar :=
    splitOn_flatMap_encode (by decide) text.toList
  rw [newline] at pieces
  rw [byteLines, linesOf, Utf8.encode_eq_flatMap, pieces, linesOfPieces_encode, lines, linesOf,
    List.map_map]
  apply List.map_congr_left
  intro line _
  exact (Utf8.encode_ofList line).symm

/-! ## Lines put together -/

/-- Every line of a text is ended: it is empty, or its last character is a newline. -/
def EndsLines (text : String) : Prop :=
  text = "" ∨ ∃ front, text = front ++ "\n"

theorem linesOfPieces_append {Symbol : Type} (carriageReturn : Symbol) [BEq Symbol]
    (front : List (List Symbol)) {rest : List (List Symbol)} (nonempty : rest ≠ []) :
    linesOfPieces carriageReturn (front ++ rest) =
      front.map (dropReturn carriageReturn) ++ linesOfPieces carriageReturn rest := by
  induction front with
  | nil => rfl
  | cons piece others ih =>
      cases others with
      | nil =>
          cases rest with
          | nil => exact absurd rfl nonempty
          | cons next rest => rfl
      | cons next others =>
          simp only [List.cons_append, List.map_cons] at ih ⊢
          simp only [linesOfPieces, ih]

/-- What follows a text that ends its lines does not change them. -/
theorem lines_append {front : String} (ended : EndsLines front) (rest : String) :
    lines (front ++ rest) = lines front ++ lines rest := by
  rcases ended with rfl | ⟨begun, rfl⟩
  · simp [lines, linesOf, linesOfPieces]
  · have joined (after : List Char) : linesOf '\n' '\r' (begun.toList ++ '\n' :: after) =
        (begun.toList.splitOn '\n').map (dropReturn '\r') ++ linesOf '\n' '\r' after := by
      simp only [linesOf, List.splitOn_append_cons_self]
      exact linesOfPieces_append _ _ (List.splitOn_ne_nil _ _)
    have newline : "\n".toList = ['\n'] := rfl
    simp only [lines, String.toList_append, newline, List.append_assoc, List.singleton_append,
      joined, List.map_append]
    simp [linesOf, linesOfPieces]

end Text

end EntityFeatures

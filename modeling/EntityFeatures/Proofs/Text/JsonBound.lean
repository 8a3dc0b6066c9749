import EntityFeatures.Text.Json

/-!
# The bound of the JSON reader

Values may stand in values to any depth, and the reader goes down with a bound that becomes
smaller at each step. The bound is no limit on what can be read: one that is at least twice
as large as the text is long is never used up. So a larger bound gives the same answer,
`Json.value?_eq_of_le`, and it is not the bound that makes `Json.parse?` refuse a text,
`Json.parse?_eq_of_le`.

A step either leaves a character behind or goes from the items of an array, or the members
of an object, to the first of them. The second kind of step is never taken twice in a row,
which is why twice the length is enough. That characters are left behind is
`Json.takesAtLeast_nested`, with one lemma for each of the smaller readers before it.
-/

namespace EntityFeatures

namespace Json

/-- What a reader leaves of a text is shorter than the text by at least this many characters. -/
def TakesAtLeast {Result : Type} (count : Nat)
    (reader : List Char → Option (Result × List Char)) : Prop :=
  ∀ text result rest, reader text = some (result, rest) → rest.length + count ≤ text.length

/-- To do something with the result takes no more and no less. -/
theorem TakesAtLeast.map {Result Other : Type} {count : Nat}
    {reader : List Char → Option (Result × List Char)} (takes : TakesAtLeast count reader)
    (change : Result → Other) :
    TakesAtLeast count fun text =>
      (reader text).map fun (result, rest) => (change result, rest) := by
  intro text result rest found
  rcases Option.map_eq_some_iff.mp found with ⟨⟨inner, left⟩, read, same⟩
  cases same
  exact takes text inner rest read

/-! ## Readers that do not go down -/

theorem length_skipSpaces_le (text : List Char) : (skipSpaces text).length ≤ text.length :=
  (List.dropWhile_suffix isSpace).length_le

theorem length_of_skipSpaces {text rest : List Char} {first : Char}
    (skipped : skipSpaces text = first :: rest) : rest.length + 1 ≤ text.length := by
  have shorter := length_skipSpaces_le text
  rw [skipped] at shorter
  exact shorter

theorem length_of_skipSpaces_word (word : List Char) {text rest : List Char}
    (skipped : skipSpaces text = word ++ rest) (nonempty : word ≠ []) :
    rest.length + 1 ≤ text.length := by
  have shorter := length_skipSpaces_le text
  have positive := List.length_pos_iff.mpr nonempty
  rw [skipped, List.length_append] at shorter
  omega

/-- One more piece in front leaves as much as the pieces behind it. -/
theorem length_of_pieces?_bind {piece : Piece} {text rest : List Char} {pieces : List Piece}
    (later : ∀ pieces rest, pieces? text = some (pieces, rest) → rest.length + 1 ≤ text.length)
    (found : (pieces? text >>= fun (pieces, rest) => pure (piece :: pieces, rest)) =
      some (pieces, rest)) : rest.length + 1 ≤ text.length := by
  rcases Option.bind_eq_some_iff.mp found with ⟨⟨others, left⟩, read, same⟩
  cases same
  exact later others _ read

theorem takesAtLeast_pieces? : TakesAtLeast 1 pieces? := by
  intro text pieces behind found
  induction text using pieces?.induct generalizing pieces behind with
  | case1 rest =>
      rw [pieces?] at found
      cases found
      exact Nat.le_refl _
  | case2 first second third fourth rest ih =>
      rw [pieces?] at found
      rcases Option.bind_eq_some_iff.mp found with ⟨unit, -, found⟩
      have shorter := length_of_pieces?_bind ih found
      simp only [List.length_cons]
      omega
  | case3 letter rest noCode ih =>
      rw [pieces?] at found
      · rcases Option.bind_eq_some_iff.mp found with ⟨character, -, found⟩
        have shorter := length_of_pieces?_bind ih found
        simp only [List.length_cons]
        omega
      · exact noCode
  | case4 character rest noQuote noCode noEscape control =>
      rw [pieces?, if_pos control] at found
      · cases found
      all_goals assumption
  | case5 character rest noQuote noCode noEscape plain ih =>
      rw [pieces?, if_neg plain] at found
      · exact Nat.le_succ_of_le (length_of_pieces?_bind ih found)
      all_goals assumption
  | case6 =>
      rw [pieces?] at found
      cases found

theorem takesAtLeast_string? : TakesAtLeast 1 string? := by
  intro text result rest found
  simp only [string?, bind, Option.bind_eq_some_iff, pure, Option.some.injEq,
    Prod.mk.injEq] at found
  rcases found with ⟨⟨pieces, left⟩, read, -, rfl⟩
  exact takesAtLeast_pieces? text pieces left read

theorem takesAtLeast_digits? : TakesAtLeast 1 digits? := by
  intro text result rest found
  simp only [digits?, Option.ite_none_left_eq_some, Option.some.injEq, Prod.mk.injEq] at found
  rcases found with ⟨some, rfl, rfl⟩
  have whole := congrArg List.length
    (List.takeWhile_append_dropWhile (p := Numeral.isDigit) (l := text))
  have positive : 0 < (text.takeWhile Numeral.isDigit).length := by
    rw [List.length_pos_iff]
    simpa using some
  rw [List.length_append] at whole
  omega

theorem takesAtLeast_integer? : TakesAtLeast 1 integer? := by
  intro text result rest found
  simp only [integer?, bind, Option.bind_eq_some_iff] at found
  rcases found with ⟨⟨digits, left⟩, read, accepted⟩
  dsimp only at accepted
  split at accepted
  · cases accepted
  · cases accepted
    exact takesAtLeast_digits? text result rest read

theorem takesAtLeast_fraction? : TakesAtLeast 0 fraction? := by
  intro text result rest found
  unfold fraction? at found
  split at found
  next digits =>
    have shorter := takesAtLeast_digits?.map (fun _ => true) digits result rest found
    simp only [List.length_cons]
    omega
  next =>
    cases found
    exact Nat.le_refl _

theorem length_skipSign_le (text : List Char) : (skipSign text).length ≤ text.length := by
  unfold skipSign
  split <;> simp

theorem TakesAtLeast.skipSign {Result : Type} {count : Nat}
    {reader : List Char → Option (Result × List Char)} (takes : TakesAtLeast count reader) :
    TakesAtLeast count fun text => reader (skipSign text) := by
  intro text result rest found
  exact Nat.le_trans (takes (Json.skipSign text) result rest found) (length_skipSign_le text)

theorem takesAtLeast_exponent? : TakesAtLeast 0 exponent? := by
  have behindMark := (takesAtLeast_digits?.map fun _ => true).skipSign
  intro text result rest found
  unfold exponent? at found
  split at found
  next exponent =>
    have shorter := behindMark exponent result rest found
    simp only [List.length_cons]
    omega
  next exponent =>
    have shorter := behindMark exponent result rest found
    simp only [List.length_cons]
    omega
  next =>
    cases found
    exact Nat.le_refl _

theorem takesAtLeast_unsigned? : TakesAtLeast 1 unsigned? := by
  intro text result rest found
  simp only [unsigned?, bind, Option.bind_eq_some_iff, pure, Option.some.injEq,
    Prod.mk.injEq] at found
  rcases found with ⟨⟨digits, left⟩, readInteger, ⟨_, behind⟩, readFraction, ⟨_, last⟩,
    readExponent, -, rfl⟩
  have integer := takesAtLeast_integer? _ _ _ readInteger
  have fraction := takesAtLeast_fraction? _ _ _ readFraction
  have exponent := takesAtLeast_exponent? _ _ _ readExponent
  dsimp only at fraction exponent ⊢
  omega

theorem takesAtLeast_number? : TakesAtLeast 1 number? := by
  intro text result rest found
  unfold number? at found
  split at found
  next unsigned =>
    have shorter := takesAtLeast_unsigned?.map (fun _ => otherNumber) unsigned result rest found
    exact Nat.le_succ_of_le shorter
  next => exact takesAtLeast_unsigned? text result rest found

/-! ## Values in values -/

section Step

variable {bound : Nat}

theorem takesAtLeast_value?_succ (items : TakesAtLeast 1 (items? bound))
    (members : TakesAtLeast 1 (members? bound)) : TakesAtLeast 1 (value? (bound + 1)) := by
  intro text result rest found
  rw [value?] at found
  split at found
  next inside quoted =>
    have shorter := takesAtLeast_string?.map string inside result rest found
    have opened := length_of_skipSpaces quoted
    omega
  next inside bracket =>
    have opened := length_of_skipSpaces bracket
    split at found
    next behind closing =>
      cases found
      have closed := length_of_skipSpaces closing
      omega
    next =>
      have shorter := items.map array (skipSpaces inside) result rest found
      have skipped := length_skipSpaces_le inside
      omega
  next inside brace =>
    have opened := length_of_skipSpaces brace
    split at found
    next behind closing =>
      cases found
      have closed := length_of_skipSpaces closing
      omega
    next =>
      have shorter := members.map object (skipSpaces inside) result rest found
      have skipped := length_skipSpaces_le inside
      omega
  next letters =>
    cases found
    exact length_of_skipSpaces_word ['t', 'r', 'u', 'e'] letters (by simp)
  next letters =>
    cases found
    exact length_of_skipSpaces_word ['f', 'a', 'l', 's', 'e'] letters (by simp)
  next letters =>
    cases found
    exact length_of_skipSpaces_word ['n', 'u', 'l', 'l'] letters (by simp)
  next =>
    have shorter := takesAtLeast_number? _ result rest found
    have skipped := length_skipSpaces_le text
    omega

theorem takesAtLeast_items?_succ (values : TakesAtLeast 1 (value? bound))
    (items : TakesAtLeast 1 (items? bound)) : TakesAtLeast 1 (items? (bound + 1)) := by
  intro text result rest found
  simp only [items?, bind, Option.bind_eq_some_iff] at found
  rcases found with ⟨⟨item, left⟩, readItem, found⟩
  have first := values text item left readItem
  dsimp only at found
  split at found
  next behind closing =>
    cases found
    have closed := length_of_skipSpaces closing
    omega
  next more comma =>
    have goesOn := length_of_skipSpaces comma
    rcases Option.bind_eq_some_iff.mp found with ⟨⟨others, last⟩, readOthers, same⟩
    cases same
    have later := items more others last readOthers
    dsimp only
    omega
  next => cases found

theorem takesAtLeast_members?_succ (values : TakesAtLeast 1 (value? bound))
    (members : TakesAtLeast 1 (members? bound)) : TakesAtLeast 1 (members? (bound + 1)) := by
  intro text result rest found
  rw [members?] at found
  split at found
  next inside quoted =>
    have opened := length_of_skipSpaces quoted
    rcases Option.bind_eq_some_iff.mp found with ⟨⟨name, left⟩, readName, found⟩
    have named := takesAtLeast_string? inside name left readName
    dsimp only at found
    split at found
    next inside colon =>
      have separated := length_of_skipSpaces colon
      rcases Option.bind_eq_some_iff.mp found with ⟨⟨value, behind⟩, readValue, found⟩
      have first := values inside value behind readValue
      dsimp only at found
      split at found
      next behind closing =>
        cases found
        have closed := length_of_skipSpaces closing
        omega
      next more comma =>
        have goesOn := length_of_skipSpaces comma
        rcases Option.bind_eq_some_iff.mp found with ⟨⟨others, last⟩, readOthers, same⟩
        cases same
        have later := members more others last readOthers
        dsimp only
        omega
      next => cases found
    next => cases found
  next => cases found

end Step

/-- Every value takes a character, and so do items and members, whatever the bound is. -/
theorem takesAtLeast_nested (bound : Nat) :
    TakesAtLeast 1 (value? bound) ∧ TakesAtLeast 1 (items? bound) ∧
      TakesAtLeast 1 (members? bound) := by
  induction bound with
  | zero =>
      refine ⟨?_, ?_, ?_⟩ <;>
      · intro text result rest found
        cases found
  | succ bound ih =>
      rcases ih with ⟨values, items, members⟩
      exact ⟨takesAtLeast_value?_succ items members, takesAtLeast_items?_succ values items,
        takesAtLeast_members?_succ values members⟩

/-! ## The bound is never used up -/

/-- One more does not change what becomes of a text, if the bound is large enough for it. -/
structure Suffices (bound : Nat) (text : List Char) : Prop where
  value : 2 * text.length + 2 ≤ bound → value? (bound + 1) text = value? bound text
  items : 2 * text.length + 3 ≤ bound → items? (bound + 1) text = items? bound text
  members : 2 * text.length + 3 ≤ bound → members? (bound + 1) text = members? bound text

theorem value?_succ_eq {bound : Nat} (enough : ∀ text, Suffices bound text) {text : List Char}
    (large : 2 * text.length + 2 ≤ bound + 1) :
    value? (bound + 2) text = value? (bound + 1) text := by
  rw [value?, value?]
  split
  next => rfl
  next inside bracket =>
    have opened := length_of_skipSpaces bracket
    have skipped := length_skipSpaces_le inside
    split
    next => rfl
    next => rw [(enough (skipSpaces inside)).items (by omega)]
  next inside brace =>
    have opened := length_of_skipSpaces brace
    have skipped := length_skipSpaces_le inside
    split
    next => rfl
    next => rw [(enough (skipSpaces inside)).members (by omega)]
  all_goals rfl

theorem items?_succ_eq {bound : Nat} (enough : ∀ text, Suffices bound text) {text : List Char}
    (large : 2 * text.length + 3 ≤ bound + 1) :
    items? (bound + 2) text = items? (bound + 1) text := by
  rw [items?, items?, (enough text).value (by omega)]
  apply Option.bind_congr
  rintro ⟨item, left⟩ readItem
  have first := (takesAtLeast_nested bound).1 text item left readItem
  dsimp only
  split
  next => rfl
  next more comma =>
    have goesOn := length_of_skipSpaces comma
    rw [(enough more).items (by omega)]
  next => rfl

theorem members?_succ_eq {bound : Nat} (enough : ∀ text, Suffices bound text) {text : List Char}
    (large : 2 * text.length + 3 ≤ bound + 1) :
    members? (bound + 2) text = members? (bound + 1) text := by
  rw [members?, members?]
  split
  next inside quoted =>
    have opened := length_of_skipSpaces quoted
    apply Option.bind_congr
    rintro ⟨name, left⟩ readName
    have named := takesAtLeast_string? inside name left readName
    dsimp only
    split
    next inside colon =>
      have separated := length_of_skipSpaces colon
      rw [(enough inside).value (by omega)]
      apply Option.bind_congr
      rintro ⟨value, behind⟩ readValue
      have first := (takesAtLeast_nested bound).1 inside value behind readValue
      dsimp only
      split
      next => rfl
      next more comma =>
        have goesOn := length_of_skipSpaces comma
        rw [(enough more).members (by omega)]
      next => rfl
    next => rfl
  next => rfl

theorem suffices_bound (bound : Nat) (text : List Char) : Suffices bound text := by
  induction bound generalizing text with
  | zero => refine ⟨?_, ?_, ?_⟩ <;> omega
  | succ bound ih => exact ⟨value?_succ_eq ih, items?_succ_eq ih, members?_succ_eq ih⟩

/-- A bound of twice the length, and two more, is as good as any larger one. -/
theorem value?_eq_of_le {text : List Char} {bound larger : Nat}
    (enough : 2 * text.length + 2 ≤ bound) (le : bound ≤ larger) :
    value? larger text = value? bound text := by
  induction le with
  | refl => rfl
  | @step larger le ih => rw [(suffices_bound larger text).value (Nat.le_trans enough le), ih]

/-- With any bound that is large enough a text is read as the same value. -/
theorem parse?_eq_of_le {text : String} {bound : Nat}
    (enough : 2 * text.toList.length + 2 ≤ bound) :
    parse? text = (value? bound text.toList).bind fun (value, rest) =>
      if (skipSpaces rest).isEmpty then some value else none := by
  rw [value?_eq_of_le (Nat.le_refl _) enough]
  rfl

end Json

end EntityFeatures

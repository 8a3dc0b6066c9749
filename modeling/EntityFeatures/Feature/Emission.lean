import EntityFeatures.Feature.Block

/-!
# Emission of features

A feature that is found at one position of a sentence is emitted on the tokens
around it. The distance of the token from the position is added to the id, so
that the classifier tells "the word before is X" from "the word after is X".

An `Emission` says what is to be put where. Its position may lie outside the
sentence, and its range may be cut off at either end or be empty.
`FeatureLists.emit` puts one emission into the lists of the tokens, and
`FeatureLists.emitAll` several, each at the end of the lists. The theorem
`FeatureLists.getElem?_emit` gives the list of every token afterwards.
-/

namespace EntityFeatures

/-- A feature and the tokens that it is put on. -/
structure Emission where
  feature : FeatureId
  /-- The position at which the feature was found. -/
  anchor : Int
  /-- The first token that receives it, counted from the position. -/
  left : Int
  /-- The last token that receives it, counted from the position. -/
  right : Int
  deriving DecidableEq, Repr

namespace Emission

/-- The emission on all tokens up to the window away. -/
def around (feature : FeatureId) (anchor : Int) (window : Window) : Emission :=
  ⟨feature, anchor, -(window.toNat : Int), window.toNat⟩

/-- The first token of a sentence that may receive the feature. -/
def start (emission : Emission) : Nat :=
  (emission.anchor + emission.left).toNat

/-- The first token behind those of a sentence of `size` tokens that may receive the feature. -/
def stop (emission : Emission) (size : Nat) : Nat :=
  (min (emission.anchor + emission.right + 1) size).toNat

/-- The tokens of a sentence of `size` tokens that receive the feature, in ascending order. -/
def targets (emission : Emission) (size : Nat) : List Nat :=
  if emission.feature = FeatureId.unknown then []
  else List.range' emission.start (emission.stop size - emission.start)

/-- The id that a token receives: the feature and the distance of the token. -/
def idAt (emission : Emission) (token : Nat) : FeatureId :=
  UInt32.ofInt (emission.feature.toNat + token - emission.anchor)

theorem mem_targets {emission : Emission} {size token : Nat} :
    token ∈ emission.targets size ↔
      emission.feature ≠ FeatureId.unknown ∧ emission.anchor + emission.left ≤ token ∧
        (token : Int) ≤ emission.anchor + emission.right ∧ token < size := by
  unfold targets start stop
  split
  next unknown => simp [unknown]
  next known =>
    simp only [List.mem_range'_1, known, ne_eq, not_false_eq_true, true_and]
    omega

theorem nodup_targets (emission : Emission) (size : Nat) : (emission.targets size).Nodup := by
  unfold targets
  split
  · simp
  · exact List.nodup_range'

end Emission

/-- The features of every token of a sentence, in the order in which they were emitted. -/
abbrev FeatureLists := List (List FeatureId)

namespace FeatureLists

/-- Appends the id that the token receives to the list of the token. -/
def put (emission : Emission) (lists : FeatureLists) (token : Nat) : FeatureLists :=
  lists.modify token (· ++ [emission.idAt token])

/-- Puts a feature on the tokens that receive it. -/
def emit (lists : FeatureLists) (emission : Emission) : FeatureLists :=
  (emission.targets lists.length).foldl (put emission) lists

/-- Puts several features on the tokens that receive them, one after the other. -/
def emitAll (lists : FeatureLists) (emissions : List Emission) : FeatureLists :=
  emissions.foldl emit lists

@[simp]
theorem length_put (emission : Emission) (lists : FeatureLists) (token : Nat) :
    (lists.put emission token).length = lists.length := by
  simp [put]

theorem length_foldl_put (emission : Emission) (tokens : List Nat) (lists : FeatureLists) :
    (tokens.foldl (put emission) lists).length = lists.length := by
  induction tokens generalizing lists with
  | nil => rfl
  | cons token rest ih => simp [ih]

@[simp]
theorem length_emit (lists : FeatureLists) (emission : Emission) :
    (lists.emit emission).length = lists.length :=
  length_foldl_put emission _ lists

theorem getElem?_foldl_put (emission : Emission) {tokens : List Nat} (distinct : tokens.Nodup)
    (lists : FeatureLists) (token : Nat) :
    (tokens.foldl (put emission) lists)[token]? =
      if token ∈ tokens then lists[token]?.map (· ++ [emission.idAt token]) else lists[token]? := by
  induction tokens generalizing lists with
  | nil => simp
  | cons first rest ih =>
    rw [List.nodup_cons] at distinct
    rw [List.foldl_cons, ih distinct.2, put, List.getElem?_modify]
    by_cases here : first = token
    · subst here
      simp [distinct.1]
    · simp [here, Ne.symm here]

/-- After an emission the tokens that receive the feature have one more id, and no other changes. -/
theorem getElem?_emit (lists : FeatureLists) (emission : Emission) (token : Nat) :
    (lists.emit emission)[token]? =
      if token ∈ emission.targets lists.length then
        lists[token]?.map (· ++ [emission.idAt token])
      else lists[token]? :=
  getElem?_foldl_put emission (emission.nodup_targets lists.length) lists token

@[simp]
theorem length_emitAll (lists : FeatureLists) (emissions : List Emission) :
    (lists.emitAll emissions).length = lists.length := by
  unfold emitAll
  induction emissions generalizing lists with
  | nil => rfl
  | cons emission rest ih => simp [ih]

end FeatureLists

end EntityFeatures

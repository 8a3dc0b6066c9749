import Mathlib.Data.List.Basic
import Mathlib.Data.List.Induction
import EntityFeatures.Extractor.Attribute
import EntityFeatures.Proofs.Feature.Emission

/-!
# What a token gathers

A feature is put on the tokens around its position; seen from one token, the features of
the positions around it come together. `gathered` is this second view: for every position
near the token, in ascending order, the known features that were found there, each with
the distance of the token added to it.

Every emission goes through many lists, and every list receives of many emissions, so the
two views are the same sum in two orders. What makes it one list operation is that the
emissions of a position that is not near contribute nothing. The positions that are looked
at may therefore be cut down to those near the token, `flatMap_range_eq_range'`, and there
every known feature contributes one id, `flatMap_idsOn_of_reaches`.

The border marks of a sentence come from positions outside. What a token receives of them
depends on its place and on the length of the sentence only: `borderIds`.
-/

namespace EntityFeatures

/-- The id that a token receives of a feature that was found at a position. -/
def FeatureId.shifted (feature : FeatureId) (position token : Nat) : FeatureId :=
  UInt32.ofInt (feature.toNat + token - position)

/-- What a token receives of the features that were found at some positions. -/
def gathered (featuresAt : Nat → List FeatureId) (positions : List Nat) (token : Nat) :
    List FeatureId :=
  positions.flatMap fun position =>
    ((featuresAt position).filter (· ≠ FeatureId.unknown)).map fun feature =>
      feature.shifted position token

namespace Window

/-- The positions of a sentence that are up to the window away from a token, in order. -/
def around (window : Window) (size token : Nat) : List Nat :=
  List.range' (token - window.toNat)
    (min size (token + window.toNat + 1) - (token - window.toNat))

/-- The positions before a token that are up to the window away from it, in order. -/
def before (window : Window) (token : Nat) : List Nat :=
  List.range' (token - window.toNat) (token - (token - window.toNat))

theorem mem_around {window : Window} {size token position : Nat} :
    position ∈ window.around size token ↔
      position < size ∧ token ≤ position + window.toNat ∧ position ≤ token + window.toNat := by
  rw [around, List.mem_range'_1]
  omega

theorem mem_before {window : Window} {token position : Nat} :
    position ∈ window.before token ↔ position < token ∧ token ≤ position + window.toNat := by
  rw [before, List.mem_range'_1]
  omega

end Window

/-- What the border of a sentence of `size` tokens leaves on a token. -/
def borderIds (window : Window) (size token : Nat) : List FeatureId :=
  if window = FeatureId.unknown then []
  else
    (List.range' 1 window.toNat).flatMap fun distance =>
      (if token + distance ≤ window.toNat then
        [UInt32.ofNat (window.toNat + (token + distance))] else []) ++
      if size - 1 + distance ≤ token + window.toNat then
        [UInt32.ofNat (window.toNat + token - (size - 1 + distance))] else []

/-! ## Cutting down the positions -/

section Positions

variable {Item : Type} {f : Nat → List Item} {low high count more : Nat}

theorem flatMap_range_of_vanishing (enough : count ≤ more)
    (vanishes : ∀ position, count ≤ position → position < more → f position = []) :
    (List.range more).flatMap f = (List.range count).flatMap f := by
  induction enough with
  | refl => rfl
  | @step more enough ih =>
      have earlier := ih fun position low high => vanishes position low (Nat.lt_succ_of_lt high)
      have last := vanishes more enough (Nat.lt_succ_self more)
      rw [List.range_succ, List.flatMap_append, earlier, List.flatMap_singleton, last,
        List.append_nil]

theorem flatMap_range_eq_range' (ordered : low ≤ high) (enough : high ≤ count)
    (below : ∀ position, position < low → f position = [])
    (above : ∀ position, high ≤ position → position < count → f position = []) :
    (List.range count).flatMap f = (List.range' low (high - low)).flatMap f := by
  have parts : List.range high = List.range low ++ List.range' low (high - low) := by
    have split := List.range'_append_1 (s := 0) (m := low) (n := high - low)
    rw [Nat.zero_add, Nat.add_sub_of_le ordered] at split
    rw [List.range_eq_range', List.range_eq_range', split]
  have nothing : (List.range low).flatMap f = [] := by
    rw [List.flatMap_eq_nil_iff]
    intro position mem
    exact below position (List.mem_range.mp mem)
  rw [flatMap_range_of_vanishing enough above, parts, List.flatMap_append, nothing,
    List.nil_append]

/-- Going through a list with places is going through the places. -/
theorem flatMap_zipIdx_eq_range {Source : Type} (items : List Source)
    (g : Source × Nat → List Item) :
    items.zipIdx.flatMap g =
      (List.range items.length).flatMap fun place =>
        (items[place]?.map fun item => g (item, place)).getD [] := by
  induction items using List.reverseRecOn with
  | nil => rfl
  | append_singleton items last ih =>
      have earlier : (List.range items.length).flatMap (fun place =>
            ((items ++ [last])[place]?.map fun item => g (item, place)).getD []) =
          (List.range items.length).flatMap fun place =>
            (items[place]?.map fun item => g (item, place)).getD [] := by
        apply List.flatMap_congr
        intro place mem
        rw [List.getElem?_append_left (List.mem_range.mp mem)]
      rw [List.zipIdx_append, List.flatMap_append, ih, List.length_append, List.length_singleton,
        List.range_succ, List.flatMap_append, earlier]
      simp

end Positions

/-! ## What one position contributes -/

section Contributions

variable {left right : Int} {size token position : Nat} {features : List FeatureId}

/-- The feature is put on the token, if it is known. -/
theorem flatMap_idsOn_of_reaches (inside : token < size) (low : position + left ≤ token)
    (high : (token : Int) ≤ position + right) :
    (features.flatMap fun feature => Emission.idsOn size token ⟨feature, position, left, right⟩) =
      (features.filter (· ≠ FeatureId.unknown)).map fun feature =>
        feature.shifted position token := by
  induction features with
  | nil => rfl
  | cons feature rest ih =>
      rw [List.flatMap_cons, ih, Emission.idsOn]
      simp only [Emission.mem_targets, low, high, inside, and_true]
      by_cases known : feature ≠ FeatureId.unknown
      · rw [if_pos known, List.filter_cons_of_pos (by simpa using known)]
        rfl
      · rw [if_neg known, List.filter_cons_of_neg (by simpa using known)]
        rfl

theorem flatMap_idsOn_of_not_reaches
    (away : (token : Int) < position + left ∨ position + right < token) :
    (features.flatMap fun feature => Emission.idsOn size token ⟨feature, position, left, right⟩) =
      [] := by
  rw [List.flatMap_eq_nil_iff]
  intro feature _
  rw [Emission.idsOn, if_neg]
  rw [Emission.mem_targets]
  dsimp only
  omega

end Contributions

/-! ## Both views -/

section Views

variable {window : Window} {size token : Nat} {featuresAt : Nat → List FeatureId}

/-- What is put on the tokens around its position is gathered around the token. -/
theorem flatMap_idsOn_around (inside : token < size) :
    ((List.range size).flatMap fun position =>
        (featuresAt position).flatMap fun feature =>
          Emission.idsOn size token (.around feature position window)) =
      gathered featuresAt (window.around size token) token := by
  have ordered : token - window.toNat ≤ min size (token + window.toNat + 1) := by omega
  rw [flatMap_range_eq_range' ordered (Nat.min_le_left _ _)]
  · apply List.flatMap_congr
    intro position mem
    rcases Window.mem_around.mp mem with ⟨-, low, high⟩
    exact flatMap_idsOn_of_reaches inside (by omega) (by omega)
  · intro position near
    exact flatMap_idsOn_of_not_reaches (by omega)
  · intro position far inner
    exact flatMap_idsOn_of_not_reaches (by omega)

/-- What is put on the tokens behind its position is gathered before the token. -/
theorem flatMap_idsOn_behind {count : Nat} (inside : token < size)
    (vanishes : ∀ position, count ≤ position → featuresAt position = []) :
    ((List.range count).flatMap fun position =>
        (featuresAt position).flatMap fun feature =>
          Emission.idsOn size token ⟨feature, position, 1, window.toNat⟩) =
      gathered featuresAt (window.before token) token := by
  -- There may be fewer positions than come before the token.
  rw [← flatMap_range_of_vanishing (Nat.le_max_left count token),
    flatMap_range_eq_range' (Nat.sub_le token window.toNat) (Nat.le_max_right count token)]
  · apply List.flatMap_congr
    intro position mem
    rcases Window.mem_before.mp mem with ⟨low, high⟩
    exact flatMap_idsOn_of_reaches inside (by omega) (by omega)
  · intro position near
    exact flatMap_idsOn_of_not_reaches (by omega)
  · intro position far inner
    exact flatMap_idsOn_of_not_reaches (by omega)
  · intro position far inner
    rw [vanishes position far, List.flatMap_nil]

theorem ofInt_natCast (number : Nat) : UInt32.ofInt number = UInt32.ofNat number := by
  have whole : ((number : Int) % 2 ^ 32).toNat = number % 2 ^ 32 := by omega
  rw [UInt32.ofInt, whole]
  exact UInt32.ofNat_mod_size

theorem idsOn_eq_ite {emission : Emission} {reached : Prop} [Decidable reached] {number : Nat}
    (target : token ∈ emission.targets size ↔ reached)
    (shifts : reached → (emission.feature.toNat + token - emission.anchor : Int) = number) :
    emission.idsOn size token = if reached then [UInt32.ofNat number] else [] := by
  by_cases reaches : reached
  · rw [Emission.idsOn, if_pos (target.mpr reaches), if_pos reaches, Emission.idAt,
      shifts reaches, ofInt_natCast]
  · rw [Emission.idsOn, if_neg (mt target.mp reaches), if_neg reaches]

/-- What the border of a sentence puts on its tokens depends on their places only. -/
theorem flatMap_idsOn_borderEmissions (inside : token < size) :
    (borderEmissions window size).flatMap (Emission.idsOn size token) =
      borderIds window size token := by
  have filled : size ≠ 0 := Nat.ne_of_gt (Nat.zero_lt_of_lt inside)
  rw [borderEmissions, borderIds]
  by_cases unknown : window = FeatureId.unknown
  · rw [if_pos (Or.inr unknown), if_pos unknown, List.flatMap_nil]
  · rw [if_neg (by simp [filled, unknown]), if_neg unknown, List.flatMap_assoc,
      List.range'_eq_map_range, List.flatMap_map]
    apply List.flatMap_congr
    intro distance _
    rw [List.flatMap_cons, List.flatMap_singleton]
    congr 1
    · apply idsOn_eq_ite
      · simp only [Emission.mem_targets, Emission.around]
        grind
      · dsimp only [Emission.around]
        omega
    · apply idsOn_eq_ite
      · simp only [Emission.mem_targets, Emission.around]
        grind
      · dsimp only [Emission.around]
        omega

end Views

end EntityFeatures

import EntityFeatures.Extractor.PhraseTable

/-!
# Blocks side by side

Ids are compared here as natural numbers, so that a counter which wrapped around
would be seen. A `Block` is what an extractor of a pipeline owns: the ids up to a
window away from a centre, under a name that tells what they stand for.

`Tiles` says that blocks lie side by side in the order of a list, from one number to
another. Everything else about them follows by induction on the list: each id in
between is given by one block, at one distance from its centre, and no id outside is
given by any. `Block.row` are the blocks that come of taking several at once.
-/

namespace EntityFeatures

/-- The middle of the block number `rank` when the block number zero begins at `first`. -/
def Window.centre (window : Window) (first rank : Nat) : Nat :=
  first + window.blockLength * rank + window.toNat

namespace Window

theorem centre_zero (window : Window) (first : Nat) :
    window.centre first 0 = first + window.toNat := by
  simp [centre]

theorem centre_succ (window : Window) (first rank : Nat) :
    window.centre first (rank + 1) = window.centre (first + window.blockLength) rank := by
  simp only [centre, Nat.mul_succ]
  omega

theorem blockLength_pos (window : Window) : 0 < window.blockLength :=
  Nat.succ_pos _

theorem centre_add_lt {window : Window} {first rank count : Nat} (inside : rank < count) :
    window.centre first rank + window.toNat < first + window.blockLength * count := by
  have steps := Nat.mul_le_mul_left window.blockLength (Nat.succ_le_of_lt inside)
  have length : window.blockLength = 2 * window.toNat + 1 := rfl
  rw [Nat.mul_succ] at steps
  simp only [centre]
  omega

/-- The centres of a row that fits are ids. -/
theorem toNat_ofNat_centre {window : Window} {first rank count : Nat} (inside : rank < count)
    (room : first + window.blockLength * count < UInt32.size) :
    (UInt32.ofNat (window.centre first rank)).toNat = window.centre first rank := by
  have before : _ < first + window.blockLength * count := centre_add_lt inside
  apply UInt32.toNat_ofNat_of_lt'
  omega

theorem centre_lt_centre {window : Window} {first left right : Nat} (less : left < right) :
    window.centre first left + window.blockLength ≤ window.centre first right := by
  have steps := Nat.mul_le_mul_left window.blockLength (Nat.succ_le_of_lt less)
  rw [Nat.mul_succ] at steps
  simp only [centre]
  omega

theorem centre_injective {window : Window} {first left right : Nat}
    (same : window.centre first left = window.centre first right) : left = right := by
  have positive := window.blockLength_pos
  rcases Nat.lt_trichotomy left right with less | equal | greater
  · have apart : _ ≤ window.centre first right := centre_lt_centre less
    omega
  · exact equal
  · have apart : _ ≤ window.centre first left := centre_lt_centre greater
    omega

/--
A row that goes too far: its blocks do not fit, or nothing but the centre of one more block,
where there is a further look-up that takes no block.
-/
def Overrun (window : Window) (first blocks : Nat) (lookup : Prop) : Prop :=
  UInt32.size ≤ first + window.blockLength * blocks ∨
    lookup ∧ UInt32.size ≤ window.centre first blocks

theorem not_overrun_zero (window : Window) {first : Nat} (bound : first < UInt32.size) :
    ¬window.Overrun first 0 False := by
  rintro (large | ⟨never, -⟩)
  · rw [Nat.mul_zero, Nat.add_zero] at large
    omega
  · exact never

end Window

/-- What a block stands for. -/
inductive BlockName where
  /-- A key in the table of an extractor. -/
  | key (key : String)
  /-- A label or an initial part of one in a file of clusters. -/
  | clusterString (string : String)
  /-- A role in the phrases of the gazetteer with this number. -/
  | phraseRole (file : Nat) (role : PhraseRole)
  deriving DecidableEq, Repr

/-- The ids that the extractor at a place of a pipeline owns under a name. -/
structure Block where
  owner : Nat
  name : BlockName
  window : Window
  centre : Nat
  deriving DecidableEq, Repr

namespace Block

/-- The id is the one at this distance from the centre of the block. -/
def Gives (block : Block) (distance : Int) (id : Nat) : Prop :=
  -(block.window.toNat : Int) ≤ distance ∧ distance ≤ block.window.toNat ∧
    (id : Int) = block.centre + distance

/-- Blocks side by side, the first of which begins at `first`. -/
def row (owner : Nat) (window : Window) (first : Nat) (names : List BlockName) : List Block :=
  names.zipIdx.map fun (name, rank) => ⟨owner, name, window, window.centre first rank⟩

theorem mem_row {owner : Nat} {window : Window} {first : Nat} {names : List BlockName}
    {block : Block} :
    block ∈ row owner window first names ↔
      block.owner = owner ∧ block.window = window ∧
        ∃ rank, names[rank]? = some block.name ∧ block.centre = window.centre first rank := by
  simp only [row, List.mem_map, Prod.exists, List.mem_zipIdx_iff_getElem?]
  constructor
  · rintro ⟨name, rank, found, rfl⟩
    exact ⟨rfl, rfl, rank, found, rfl⟩
  · rintro ⟨rfl, rfl, rank, found, centred⟩
    exact ⟨block.name, rank, found, by rw [← centred]⟩

theorem row_cons (owner : Nat) (window : Window) (first : Nat) (name : BlockName)
    (names : List BlockName) :
    row owner window first (name :: names) =
      ⟨owner, name, window, first + window.toNat⟩ ::
        row owner window (first + window.blockLength) names := by
  simp only [row, List.zipIdx_cons', List.map_cons, List.map_map, Window.centre_zero]
  congr 2
  funext ⟨name, rank⟩
  simp [Window.centre_succ]

end Block

/-- The blocks lie side by side, in this order, from the first number up to the last. -/
inductive Tiles : Nat → List Block → Nat → Prop
  | nil (first : Nat) : Tiles first [] first
  | cons {first stop : Nat} {block : Block} {rest : List Block} :
      block.centre = first + block.window.toNat →
      Tiles (first + block.window.blockLength) rest stop → Tiles first (block :: rest) stop

namespace Tiles

variable {first middle stop id : Nat} {blocks front back : List Block} {left right block : Block}
  {distance leftDistance rightDistance : Int}

theorem le (tiles : Tiles first blocks stop) : first ≤ stop := by
  induction tiles with
  | nil => exact Nat.le_refl _
  | cons _ _ ih => exact Nat.le_trans (Nat.le_add_right _ _) ih

theorem append (ahead : Tiles first front middle) (behind : Tiles middle back stop) :
    Tiles first (front ++ back) stop := by
  induction ahead with
  | nil => exact behind
  | cons centred _ ih => exact cons centred (ih behind)

theorem row (owner : Nat) (window : Window) (first : Nat) (names : List BlockName) :
    Tiles first (Block.row owner window first names)
      (first + window.blockLength * names.length) := by
  induction names generalizing first with
  | nil => exact nil first
  | cons name names ih =>
      rw [Block.row_cons, List.length_cons, Nat.mul_succ, Nat.add_comm (_ * _), ← Nat.add_assoc]
      exact cons rfl (ih (first + window.blockLength))

theorem bounds (tiles : Tiles first blocks stop) (mem : block ∈ blocks)
    (gives : block.Gives distance id) : first ≤ id ∧ id < stop := by
  induction tiles with
  | nil => cases mem
  | cons centred rest ih =>
      have ends := rest.le
      simp only [Window.blockLength] at ends ih
      rcases List.mem_cons.mp mem with rfl | later
      · rcases gives with ⟨low, high, value⟩
        omega
      · have inRest := ih later
        omega

/-- The ids of a block are between the numbers that the blocks lie between. -/
theorem room (tiles : Tiles first blocks stop) (mem : block ∈ blocks) :
    first + block.window.toNat ≤ block.centre ∧ block.centre + block.window.toNat < stop := by
  induction tiles with
  | nil => cases mem
  | cons centred rest ih =>
      have ends := rest.le
      simp only [Window.blockLength] at ends ih
      rcases List.mem_cons.mp mem with rfl | later
      · omega
      · have inRest := ih later
        omega

theorem exists_gives (tiles : Tiles first blocks stop) (low : first ≤ id) (high : id < stop) :
    ∃ block ∈ blocks, ∃ distance, block.Gives distance id := by
  induction tiles with
  | nil => omega
  | @cons first stop block rest centred _ ih =>
      by_cases here : id < first + block.window.blockLength
      · simp only [Window.blockLength] at here
        refine ⟨block, List.mem_cons_self .., (id : Int) - block.centre, ?_, ?_, ?_⟩ <;> omega
      · rcases ih (Nat.not_lt.mp here) high with ⟨other, mem, distance, gives⟩
        exact ⟨other, List.mem_cons_of_mem _ mem, distance, gives⟩

theorem gives_unique (tiles : Tiles first blocks stop) (leftMem : left ∈ blocks)
    (rightMem : right ∈ blocks) (leftGives : left.Gives leftDistance id)
    (rightGives : right.Gives rightDistance id) : left = right ∧ leftDistance = rightDistance := by
  have same : left = right := by
    induction tiles with
    | nil => cases leftMem
    | cons centred rest ih =>
        have apart : ∀ {other : Block} {distance : Int}, other ∈ _ → other.Gives distance id →
            _ ≤ id := fun mem gives => (rest.bounds mem gives).1
        simp only [Window.blockLength] at apart
        rcases List.mem_cons.mp leftMem with rfl | leftLater
        · rcases List.mem_cons.mp rightMem with rfl | rightLater
          · rfl
          · have behind := apart rightLater rightGives
            rcases leftGives with ⟨low, high, value⟩
            omega
        · rcases List.mem_cons.mp rightMem with rfl | rightLater
          · have behind := apart leftLater leftGives
            rcases rightGives with ⟨low, high, value⟩
            omega
          · exact ih leftLater rightLater
  refine ⟨same, ?_⟩
  subst same
  rcases leftGives with ⟨-, -, leftValue⟩
  rcases rightGives with ⟨-, -, rightValue⟩
  omega

end Tiles

end EntityFeatures

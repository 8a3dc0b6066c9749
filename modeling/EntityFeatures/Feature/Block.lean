/-!
# Feature ids and their blocks

A feature is known to a classifier by its id, a number of 32 bits. Ids are
handed out in blocks. A feature that is emitted on the tokens up to `window`
positions away owns `2 * window + 1` consecutive ids, one for each distance,
and is named by the id in the middle of its block.

All ids of a model come from one counter. `FeatureId.blockCentre?` and
`FeatureId.blocksEnd?` say where the next blocks would lie, and refuse when an
id would no longer fit into 32 bits. The largest number stands for no feature
at all and is never the centre of a block, because a block ends below the value
of the counter after it.
-/

namespace EntityFeatures

/-- The number by which a classifier knows a feature. -/
abbrev FeatureId := UInt32

/-- How many positions away from its token a feature is emitted, in either direction. -/
abbrev Window := UInt32

/-- How many ids a feature of this window owns: one for each distance. -/
def Window.blockLength (window : Window) : Nat :=
  2 * window.toNat + 1

namespace FeatureId

/-- The id that stands for no feature. -/
def unknown : FeatureId := 4294967295

/-- The feature that every token has. -/
def omnipresent : FeatureId := 0

/-- A number as an id, if 32 bits can hold it. -/
def ofNat? (number : Nat) : Option FeatureId :=
  if number < UInt32.size then some (UInt32.ofNat number) else none

/-- The middle of the block number `index` when the block number zero begins at `first`. -/
def blockCentre? (first : FeatureId) (window : Window) (index : Nat) : Option FeatureId :=
  ofNat? (first.toNat + window.blockLength * index + window.toNat)

/-- The first id behind `count` blocks that begin at `first`. -/
def blocksEnd? (first : FeatureId) (window : Window) (count : Nat) : Option FeatureId :=
  ofNat? (first.toNat + window.blockLength * count)

theorem ofNat?_eq_some_iff {number : Nat} {id : FeatureId} :
    ofNat? number = some id ↔ id.toNat = number := by
  unfold ofNat?
  constructor
  · intro found
    split at found
    next fits => simp_all [← Option.some.inj found]
    next => simp at found
  · rintro rfl
    have bound : id.toNat < UInt32.size := id.toNat_lt_size
    simp [bound]

theorem ofNat?_eq_none_iff {number : Nat} : ofNat? number = none ↔ UInt32.size ≤ number := by
  simp [ofNat?]

end FeatureId

end EntityFeatures

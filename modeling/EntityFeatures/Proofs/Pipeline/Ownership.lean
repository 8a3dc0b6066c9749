import EntityFeatures.Proofs.Pipeline.Agreement
import EntityFeatures.Proofs.Pipeline.Layout

/-!
# Who owns an id

Every id below the counter, the omnipresent one aside, belongs to one block of one
extractor. The blocks are those of the keys in the tables, for the kinds that have
features by key, and those that clusters and gazetteers took when the template was
read. `Pipeline.Owns` says which blocks a pipeline owns, from its tables and from the
layout of the template, and `Pipeline.TiledBy` collects what holds of them.

The invariant behind it, `Pipeline.Ledger`, is a list of all blocks in the order in
which they were taken. It begins as the layout of the template, and every allocation
adds one block at its end. When the ids run out nothing is allocated, so nothing has
to be said about that case.
-/

namespace EntityFeatures

namespace Pipeline

/-- The blocks of a pipeline, given those that were taken when its template was read. -/
inductive Owns (reserved : List Block) (pipeline : Pipeline) : Block → Prop
  | entry {place : Nat} {extractor : Extractor} {key : String} {feature : FeatureId} :
      pipeline.extractors[place]? = some extractor → extractor.kind.isKeyed →
      extractor.table[key]? = some feature →
      Owns reserved pipeline ⟨place, .key key, extractor.window, feature.toNat⟩
  | reserved {block : Block} :
      block ∈ reserved → (∀ key, block.name ≠ .key key) → Owns reserved pipeline block

theorem Owns.of_entry {reserved : List Block} {pipeline : Pipeline} {place centre : Nat}
    {extractor : Extractor} {key : String} {feature : FeatureId} {window : Window}
    (found : pipeline.extractors[place]? = some extractor) (keyed : extractor.kind.isKeyed)
    (known : extractor.table[key]? = some feature) (window_eq : extractor.window = window)
    (value : feature.toNat = centre) :
    pipeline.Owns reserved ⟨place, .key key, window, centre⟩ := by
  subst window_eq value
  exact entry found keyed known

/-- All blocks of a pipeline in the order in which they were taken. -/
structure Ledger (reserved blocks : List Block) (pipeline : Pipeline) : Prop where
  tiles : Tiles 1 blocks pipeline.total.toNat
  mem_iff : ∀ block, block ∈ blocks ↔ pipeline.Owns reserved block

namespace Ledger

variable {reserved blocks : List Block} {pipeline : Pipeline}

theorem given_iff (ledger : Ledger reserved blocks pipeline) (id : Nat) :
    1 ≤ id ∧ id < pipeline.total.toNat ↔
      ∃ block distance, pipeline.Owns reserved block ∧ block.Gives distance id := by
  constructor
  · rintro ⟨low, high⟩
    rcases ledger.tiles.exists_gives low high with ⟨block, mem, distance, gives⟩
    exact ⟨block, distance, (ledger.mem_iff block).mp mem, gives⟩
  · rintro ⟨block, distance, owned, gives⟩
    exact ledger.tiles.bounds ((ledger.mem_iff block).mpr owned) gives

/-- The counter is an id, so it is at most the largest one, which is the unknown feature. -/
theorem not_gives_unknown (ledger : Ledger reserved blocks pipeline) {block : Block}
    (owned : pipeline.Owns reserved block) (distance : Int) :
    ¬block.Gives distance FeatureId.unknown.toNat := by
  intro gives
  have below := (ledger.given_iff _).mpr ⟨block, distance, owned, gives⟩
  have bound := pipeline.total.toNat_lt
  have largest : FeatureId.unknown.toNat = 4294967295 := rfl
  omega

end Ledger

section Configuration

variable {resources : Resources} {reserved : List Block} {pipeline : Pipeline}

theorem getElem?_keys_iff {order : Order} {rank : Nat} {key : String} :
    (order.reserved resources)[rank]? = some (.key key) ↔ order.name.keys[rank]? = some key := by
  rcases order with ⟨name, window, arguments⟩
  cases name <;> simp [Order.reserved, ExtractorName.keys]

theorem isKeyed_of_getElem?_keys {kind : Kind} {rank : Nat} {key : String}
    (found : kind.name.keys[rank]? = some key) : kind.isKeyed := by
  cases kind with
  | clusters _ | containers | gazetteers _ | addresses _ => simp [Kind.name, ExtractorName.keys] at found
  | lemmaTerm | lexical _ | capitalization _ | numericValue | earlierLabel => rfl

theorem getElem?_push_iff {place : Nat} {extractor new : Extractor} :
    (pipeline.push new).extractors[place]? = some extractor ↔
      pipeline.extractors[place]? = some extractor ∨
        place = pipeline.extractors.length ∧ extractor = new :=
  getElem?_concat_eq_some_iff

theorem owns_iff_of_configure {order : Order} {types : Registry} {setup : Setup} {block : Block}
    (done : Setup.configure resources order.window order.arguments
      ⟨.ofName order.name, types, pipeline.total⟩ = .ok () setup) :
    Owns (reserved ++ order.row resources pipeline.extractors.length pipeline.total.toNat)
        { pipeline.push setup.extractor with total := setup.total } block ↔
      Owns reserved pipeline block ∨
        block ∈ order.row resources pipeline.extractors.length pipeline.total.toNat := by
  rcases Setup.configure_reserves done with ⟨-, ranks⟩
  rcases Setup.name_and_window_of_configure done with ⟨name_eq, window_eq⟩
  simp only [Extractor.name, Extractor.ofName, Kind.name_ofName] at name_eq
  constructor
  · rintro (⟨found, keyed, known⟩ | ⟨inReserved, unkeyed⟩)
    · rcases getElem?_push_iff.mp found with old | ⟨rfl, rfl⟩
      · exact Or.inl (Owns.entry old keyed known)
      · rcases (ranks keyed).exists_rank known with ⟨rank, ranked, value⟩
        refine Or.inr (Block.mem_row.mpr ⟨rfl, window_eq, rank, ?_, value⟩)
        exact getElem?_keys_iff.mpr ranked
    · rcases List.mem_append.mp inReserved with old | new
      · exact Or.inl (Owns.reserved old unkeyed)
      · exact Or.inr new
  · rintro ((⟨found, keyed, known⟩ | ⟨inReserved, unkeyed⟩) | new)
    · exact Owns.entry (getElem?_push_iff.mpr (Or.inl found)) keyed known
    · exact Owns.reserved (List.mem_append_left _ inReserved) unkeyed
    · have inBoth := List.mem_append_right reserved new
      rcases Block.mem_row.mp new with ⟨owner_eq, blockWindow_eq, rank, named, centred⟩
      rcases block with ⟨owner, name, window, centre⟩
      dsimp only at owner_eq blockWindow_eq named centred
      subst owner_eq blockWindow_eq centred
      cases name with
      | key key =>
          have ranked := getElem?_keys_iff.mp named
          have keyed : setup.extractor.kind.isKeyed := by
            rw [← name_eq] at ranked
            exact isKeyed_of_getElem?_keys ranked
          rcases (ranks keyed).exists_number ranked with ⟨feature, known, value⟩
          exact Owns.of_entry (getElem?_push_iff.mpr (Or.inr ⟨rfl, rfl⟩)) keyed known window_eq
            value
      | clusterString _ => exact Owns.reserved inBoth (fun _ same => by cases same)
      | phraseRole _ _ => exact Owns.reserved inBoth (fun _ same => by cases same)

theorem Ledger.configure {order : Order} {types : Registry} {setup : Setup}
    (ledger : Ledger reserved reserved pipeline)
    (done : Setup.configure resources order.window order.arguments
      ⟨.ofName order.name, types, pipeline.total⟩ = .ok () setup) :
    let taken := reserved ++
      order.row resources pipeline.extractors.length pipeline.total.toNat
    Ledger taken taken { pipeline.push setup.extractor with total := setup.total } := by
  constructor
  · dsimp only
    rw [(Setup.configure_reserves done).1]
    exact ledger.tiles.append (Tiles.row ..)
  · intro block
    rw [List.mem_append, ledger.mem_iff, owns_iff_of_configure done]

theorem Ledger.of_configures {orders : List Order} {after : Pipeline}
    (configures : Configures resources orders pipeline after)
    (ledger : Ledger reserved reserved pipeline) :
    let taken := reserved ++
      Order.blocks resources pipeline.extractors.length pipeline.total.toNat orders
    Ledger taken taken after := by
  induction configures generalizing reserved with
  | nil => simpa [Order.blocks] using ledger
  | cons done _ ih =>
      have next := ih (ledger.configure done)
      simp only [push, List.length_append, List.length_singleton, List.append_assoc,
        (Setup.configure_reserves done).1] at next
      exact next

theorem Ledger.empty : Ledger [] [] {} := by
  refine ⟨Tiles.nil 1, ?_⟩
  intro block
  constructor
  · intro mem
    cases mem
  · rintro (⟨found, -, -⟩ | ⟨mem, -⟩)
    · cases found
    · cases mem

theorem Ledger.of_ofTemplate {template : List UInt8} {types : Registry} {start : Pipeline}
    (read : (ofTemplate resources template types).1 = .ok start) :
    let layout := Order.blocks resources 0 1 (Order.ofTemplate template)
    Ledger layout layout start :=
  Ledger.of_configures (configures_of_ofTemplate read) Ledger.empty

end Configuration

section Learning

variable {reserved blocks : List Block} {before after : Pipeline} {place : Nat} {key : String}
  {centre : FeatureId}

theorem getElem?_append_cons_self (front back : List Extractor) (extractor : Extractor) :
    (front ++ extractor :: back)[front.length]? = some extractor := by
  simp

theorem getElem?_append_cons_of_ne {front : List Extractor} {place : Nat}
    (other : place ≠ front.length) (back : List Extractor) (old new : Extractor) :
    (front ++ new :: back)[place]? = (front ++ old :: back)[place]? := by
  rw [List.getElem?_append, List.getElem?_append]
  split
  · rfl
  next outside =>
    cases distance : place - front.length with
    | zero => omega
    | succ distance => rfl

theorem owns_iff_of_allocates (allocates : Allocates place key centre before after) :
    ∃ window : Window, centre.toNat = before.total.toNat + window.toNat ∧
      after.total.toNat = before.total.toNat + window.blockLength ∧
      ∀ block, after.Owns reserved block ↔
        before.Owns reserved block ∨ block = ⟨place, .key key, window, centre.toNat⟩ := by
  rcases allocates with @⟨front, back, extractor, table, total, later, _, _, keyed, allocation⟩
  have here := getElem?_append_cons_self front back
  refine ⟨extractor.window, allocation.centre_eq, allocation.total_eq, fun block => ?_⟩
  constructor
  · rintro (@⟨place, other, otherKey, feature, found, otherKeyed, known⟩ | ⟨mem, unkeyed⟩)
    · by_cases same : place = front.length
      · subst same
        rw [here] at found
        cases found
        rw [allocation.getElem?_table] at known
        split at known
        next isKey =>
          cases known
          exact Or.inr (by rw [isKey])
        next => exact Or.inl (Owns.of_entry (here extractor) keyed known rfl rfl)
      · rw [getElem?_append_cons_of_ne same back extractor] at found
        exact Or.inl (Owns.entry found otherKeyed known)
    · exact Or.inl (Owns.reserved mem unkeyed)
  · rintro ((@⟨place, other, otherKey, feature, found, otherKeyed, known⟩ | ⟨mem, unkeyed⟩) | rfl)
    · by_cases same : place = front.length
      · subst same
        rw [here] at found
        cases found
        refine Owns.of_entry (here { extractor with table }) keyed ?_ rfl rfl
        exact (Vocabulary.GrowsInto.of_allocation allocation).kept otherKey feature known
      · rw [getElem?_append_cons_of_ne same back { extractor with table }] at found
        exact Owns.entry found otherKeyed known
    · exact Owns.reserved mem unkeyed
    · refine Owns.of_entry (here { extractor with table }) keyed ?_ rfl rfl
      exact allocation.getElem?_table key ▸ if_pos rfl

theorem Ledger.of_allocates (allocates : Allocates place key centre before after)
    (ledger : Ledger reserved blocks before) : ∃ more, Ledger reserved (blocks ++ more) after := by
  rcases owns_iff_of_allocates allocates with ⟨window, centre_eq, total_eq, owns_iff⟩
  refine ⟨[⟨place, .key key, window, centre.toNat⟩], ?_, ?_⟩
  · rw [total_eq]
    exact ledger.tiles.append (Tiles.cons centre_eq (Tiles.nil _))
  · intro block
    rw [List.mem_append, List.mem_singleton, ledger.mem_iff, owns_iff]

theorem Ledger.of_reaches (reaches : Reaches before after)
    (ledger : Ledger reserved blocks before) : ∃ more, Ledger reserved (blocks ++ more) after := by
  apply reaches.invariant _ ⟨[], by rwa [List.append_nil]⟩
  rintro place key centre middle after allocates ⟨more, grown⟩
  rcases grown.of_allocates allocates with ⟨last, final⟩
  exact ⟨more ++ last, by rwa [← List.append_assoc]⟩

end Learning

section Tiling

variable {resources : Resources} {template : List UInt8} {types : Registry}
  {start pipeline : Pipeline}

/-- What holds of the blocks of a pipeline that was made from a template of these orders. -/
structure TiledBy (resources : Resources) (orders : List Order) (pipeline : Pipeline) : Prop where
  /-- There is one extractor for each order. -/
  names_eq : pipeline.extractors.map Extractor.name = orders.map Order.name
  /-- The ids that blocks give are those between the omnipresent one and the counter. -/
  given_iff : ∀ id : Nat, 1 ≤ id ∧ id < pipeline.total.toNat ↔
    ∃ block distance, pipeline.Owns (Order.blocks resources 0 1 orders) block ∧
      block.Gives distance id
  /-- No id is given by two blocks, or at two distances. -/
  given_once : ∀ (id : Nat) (left right : Block) (leftDistance rightDistance : Int),
    pipeline.Owns (Order.blocks resources 0 1 orders) left →
    pipeline.Owns (Order.blocks resources 0 1 orders) right →
    left.Gives leftDistance id → right.Gives rightDistance id →
    left = right ∧ leftDistance = rightDistance
  /-- An extractor has one block under a name. -/
  named_once : ∀ left right : Block,
    pipeline.Owns (Order.blocks resources 0 1 orders) left →
    pipeline.Owns (Order.blocks resources 0 1 orders) right →
    left.owner = right.owner → left.name = right.name → left = right
  /-- A block is as wide as the window of its owner, and the unknown feature is not in it. -/
  inside : ∀ block, pipeline.Owns (Order.blocks resources 0 1 orders) block →
    ∃ extractor, pipeline.extractors[block.owner]? = some extractor ∧
      extractor.window = block.window ∧
      ∀ distance, ¬block.Gives distance FeatureId.unknown.toNat
  /-- Clusters and gazetteers emit from their own blocks. -/
  refers : ∀ (place : Nat) (order : Order) (extractor : Extractor),
    orders[place]? = some order → pipeline.extractors[place]? = some extractor →
    extractor.RefersTo resources order fun name centre =>
      pipeline.Owns (Order.blocks resources 0 1 orders) ⟨place, name, extractor.window, centre⟩

theorem owns_injective {orders : List Order} {left right : Block}
    (leftOwned : pipeline.Owns (Order.blocks resources 0 1 orders) left)
    (rightOwned : pipeline.Owns (Order.blocks resources 0 1 orders) right)
    (owner_eq : left.owner = right.owner) (name_eq : left.name = right.name) : left = right := by
  cases leftOwned with
  | entry leftFound leftKeyed leftKnown =>
      cases rightOwned with
      | entry rightFound rightKeyed rightKnown =>
          dsimp only at owner_eq name_eq
          cases name_eq
          subst owner_eq
          rw [leftFound] at rightFound
          cases rightFound
          rw [leftKnown] at rightKnown
          cases rightKnown
          rfl
      | reserved _ unkeyed => exact absurd name_eq.symm (unkeyed _)
  | reserved leftMem leftUnkeyed =>
      cases rightOwned with
      | entry => exact absurd name_eq (leftUnkeyed _)
      | reserved rightMem _ => exact Order.blocks_injective leftMem rightMem owner_eq name_eq

/-- The extractors of a template when it has been read, and where each of them comes from. -/
theorem exists_configure_of_configures {orders : List Order} {before after : Pipeline}
    (configures : Configures resources orders before after) :
    ∃ extractors, after.extractors = before.extractors ++ extractors ∧
      extractors.map Extractor.name = orders.map Order.name ∧
      ∀ (index : Nat) (extractor : Extractor), extractors[index]? = some extractor →
        ∃ (order : Order) (types : Registry) (total : FeatureId) (setup : Setup),
          orders[index]? = some order ∧ setup.extractor = extractor ∧
          Setup.configure resources order.window order.arguments
            ⟨.ofName order.name, types, total⟩ = .ok () setup ∧
          ∀ name centre, order.Takes resources total.toNat name centre →
            ⟨before.extractors.length + index, name, extractor.window, centre⟩ ∈
              Order.blocks resources before.extractors.length before.total.toNat orders := by
  induction configures with
  | nil => exact ⟨[], by simp, rfl, by simp⟩
  | @cons order rest before after types setup done _ ih =>
      rcases ih with ⟨extractors, after_eq, names_eq, known⟩
      rcases Setup.name_and_window_of_configure done with ⟨name_eq, window_eq⟩
      simp only [Extractor.name, Extractor.ofName, Kind.name_ofName] at name_eq
      simp only [push, List.length_append, List.length_singleton] at known
      rw [(Setup.configure_reserves done).1] at known
      refine ⟨setup.extractor :: extractors, ?_, ?_, ?_⟩
      · rw [after_eq, push, List.append_assoc, List.singleton_append]
      · rw [List.map_cons, List.map_cons, names_eq, Extractor.name, name_eq]
      · intro index extractor found
        cases index with
        | zero =>
            cases found
            refine ⟨order, types, before.total, setup, rfl, rfl, done, ?_⟩
            rintro name centre ⟨rank, named, centred⟩
            exact List.mem_append_left _ (Order.mem_row.mpr ⟨rfl, window_eq, rank, named, centred⟩)
        | succ index =>
            rcases known index extractor found with
              ⟨other, otherTypes, total, otherSetup, ordered, same, otherDone, taken⟩
            refine ⟨other, otherTypes, total, otherSetup, ordered, same, otherDone, ?_⟩
            intro name centre takes
            have mem := taken name centre takes
            rw [Nat.add_right_comm, Nat.add_assoc] at mem
            exact List.mem_append_right _ mem

theorem extractors_of_configures {orders : List Order} {before after : Pipeline}
    (configures : Configures resources orders before after) :
    ∃ extractors, after.extractors = before.extractors ++ extractors ∧
      extractors.map Extractor.name = orders.map Order.name ∧
      ∀ (index : Nat) (order : Order) (extractor : Extractor), orders[index]? = some order →
        extractors[index]? = some extractor → extractor.window = Setup.windowOf order.window ∧
          extractor.RefersTo resources order fun name centre =>
            ⟨before.extractors.length + index, name, extractor.window, centre⟩ ∈
              Order.blocks resources before.extractors.length before.total.toNat orders := by
  rcases exists_configure_of_configures configures with ⟨extractors, after_eq, names_eq, known⟩
  refine ⟨extractors, after_eq, names_eq, ?_⟩
  intro index order extractor ordered found
  rcases known index extractor found with ⟨other, types, total, setup, same, rfl, done, taken⟩
  rw [ordered] at same
  cases same
  refine ⟨(Setup.name_and_window_of_configure done).2, (Setup.configure_refers done).imp ?_⟩
  intro name centre _ takes
  exact taken name centre takes

theorem refersTo_of_growsInto {order : Order} {owned : BlockName → Nat → Prop}
    {before after : Extractor} {total later : FeatureId}
    (grows : before.GrowsInto total after later)
    (refers : before.RefersTo resources order owned) : after.RefersTo resources order owned := by
  rcases before with ⟨window, table, kind⟩
  rcases after with ⟨laterWindow, laterTable, laterKind⟩
  rcases grows with ⟨rfl, rfl, -, table_eq⟩
  cases laterKind with
  | clusters clusters =>
      have same : laterTable = table := table_eq (by simp [Kind.isKeyed])
      subst same
      exact refers
  | gazetteers entries => exact refers
  | _ => trivial

/--
From any template that can be read, and after any training, the ids from the
omnipresent one to the counter are the disjoint union of the blocks of the extractors,
each as wide as the window of its owner; and the counter never goes back.
-/
theorem tiledBy_train (read : (ofTemplate resources template types).1 = .ok start)
    (sentences more : List Sentence) :
    (start.train sentences).TiledBy resources (Order.ofTemplate template) ∧
      (start.train sentences).total ≤ (start.train (sentences ++ more)).total := by
  have reaches := reaches_train start sentences
  have grows := GrowsInto.of_reaches reaches
  rcases (Ledger.of_ofTemplate read).of_reaches reaches with ⟨learned, ledger⟩
  rcases extractors_of_configures (configures_of_ofTemplate read) with
    ⟨extractors, start_eq, names_eq, known⟩
  simp only [List.nil_append, List.length_nil, Nat.zero_add] at start_eq known
  subst start_eq
  have allNames := grows.names_eq.trans names_eq
  refine ⟨⟨allNames, ledger.given_iff, ?_, ?_, ?_, ?_⟩, ?_⟩
  · intro id left right leftDistance rightDistance leftOwned rightOwned leftGives rightGives
    exact ledger.tiles.gives_unique ((ledger.mem_iff left).mpr leftOwned)
      ((ledger.mem_iff right).mpr rightOwned) leftGives rightGives
  · intro left right
    exact owns_injective
  · intro block owned
    have outside := ledger.not_gives_unknown owned
    cases owned with
    | entry found keyed known => exact ⟨_, found, rfl, outside⟩
    | reserved mem _ =>
        rcases Order.owner_of_mem_blocks mem with ⟨index, order, ordered, owner_eq, window_eq⟩
        rw [Nat.zero_add] at owner_eq
        have sameLength := congrArg List.length allNames
        rw [List.length_map, List.length_map] at sameLength
        have inside : block.owner < (start.train sentences).extractors.length := by
          rw [sameLength, owner_eq]
          exact (List.getElem?_eq_some_iff.mp ordered).1
        have found := List.getElem?_eq_getElem inside
        rcases grows.exists_before found with ⟨earlier, earlierFound, grown⟩
        rw [owner_eq] at earlierFound
        have same := (known index order earlier ordered earlierFound).1
        exact ⟨_, found, by rw [grown.window_eq, same, window_eq], outside⟩
  · intro place order extractor ordered found
    rcases grows.exists_before found with ⟨earlier, earlierFound, grown⟩
    rcases known place order earlier ordered earlierFound with ⟨-, refers⟩
    apply refersTo_of_growsInto grown
    rw [grown.window_eq]
    apply refers.imp
    intro name centre unkeyed mem
    exact Owns.reserved mem unkeyed
  · rw [train_append]
    exact (GrowsInto.of_reaches (reaches_train _ more)).rises

theorem tiledBy_train_four_kinds :
    ∃ (resources : Resources) (start : Pipeline) (sentence : Sentence),
      let template := Utf8.encode
        "BrownClusters 1 clusters 1\nGazetteers 0 cities\nFormCapitalization 1\nForm 1"
      (ofTemplate resources template ⟨[]⟩).1 = .ok start ∧
        start.total = 23 ∧ (start.train [sentence]).total = 26 ∧
        (start.train [sentence]).TiledBy resources (Order.ofTemplate template) := by
  let resources : Resources := fun path =>
    if path = "clusters" then some (Utf8.encode "01\tdog\n00\tcat")
    else if path = "cities" then some (Utf8.encode "Praha\nNew York")
    else none
  let template := Utf8.encode
    "BrownClusters 1 clusters 1\nGazetteers 0 cities\nFormCapitalization 1\nForm 1"
  let sentence := Sentence.ofWords [.ofLemma "a" "a"]
  have evaluated : ((ofTemplate resources template ⟨[]⟩).1.toOption.map fun start =>
      (start.total, (start.train [sentence]).total)) = some (23, 26) := by
    decide +kernel
  rcases Option.map_eq_some_iff.mp evaluated with ⟨start, found, totals⟩
  rcases Prod.mk.inj totals with ⟨startTotal, trainedTotal⟩
  have read := eq_ok_of_toOption found
  exact ⟨resources, start, sentence, read, startTotal, trainedTotal,
    (tiledBy_train read [sentence] []).1⟩

end Tiling

end Pipeline

end EntityFeatures

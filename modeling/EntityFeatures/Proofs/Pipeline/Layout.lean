import Mathlib.Data.List.Nodup
import EntityFeatures.Proofs.Extractor.ClusterFile
import EntityFeatures.Proofs.Extractor.PhraseFile
import EntityFeatures.Proofs.Feature.Reservation
import EntityFeatures.Proofs.Pipeline.Learning
import EntityFeatures.Proofs.Pipeline.Template

/-!
# The blocks that a template takes

How many blocks an extractor takes while it is configured, and what they stand for,
is known from its line in the template and from the files: `Order.reserved` lists
the names. The extractors take their blocks in the order of the lines, so the whole
layout of the ids, `Order.blocks`, is known too.

`Setup.configure_reserves` is the statement for one extractor, whatever its kind is:
the counter goes on by the blocks of the names, and a table of keys holds the keys
among the names with the features that belong to their places.
-/

namespace EntityFeatures

/-- The keys that the extractor of a name always has. -/
def ExtractorName.keys : ExtractorName → List String
  | .formCapitalization | .rawLemmaCapitalization => CaseFeature.keys
  | .numericTimeValue => NumericFeature.keys
  | .brownClusters | .czechAddContainers | .czechLemmaTerm | .form | .gazetteers | .lemmaId
  | .previousStage | .rawLemma | .tag | .urlEmailDetector => []

namespace Order

variable (resources : Resources)

/-- The labels and parts of labels in the file of clusters that the arguments ask for. -/
def clusterStrings : (arguments : List String) → List String
  | path :: rest =>
      match ClusterTable.prefixLengths rest, resources.readText path with
      | .ok lengths, .ok text =>
          ClusterReading.distinctStrings lengths ((ClusterReading.rowsOf text).map Prod.fst)
      | _, _ => []
  | [] => []

/-- The roles that occur in the gazetteers, file by file; the first file has the given number. -/
def phraseRoles : (file : Nat) → (paths : List String) → List (Nat × PhraseRole)
  | _, [] => []
  | file, path :: rest =>
      (PhraseRole.all.take (PhraseFile.blockCount resources path)).map (fun role => (file, role)) ++
        phraseRoles (file + 1) rest

/-- What the blocks stand for that are taken when the order is carried out. -/
def reserved (order : Order) : List BlockName :=
  match order.name with
  | .brownClusters => (clusterStrings resources order.arguments).map .clusterString
  | .gazetteers =>
      (phraseRoles resources 0 order.arguments).map fun (file, role) => .phraseRole file role
  | name => name.keys.map .key

/-- The blocks that are taken when the order is carried out at a place and with a counter. -/
def row (place first : Nat) (order : Order) : List Block :=
  Block.row place (Setup.windowOf order.window) first (order.reserved resources)

/-- Carrying out the order takes a block under a name, with this centre, from the counter `first`. -/
def Takes (order : Order) (first : Nat) (name : BlockName) (centre : Nat) : Prop :=
  ∃ rank, (order.reserved resources)[rank]? = some name ∧
    centre = (Setup.windowOf order.window).centre first rank

/-- The blocks that are taken when several orders are carried out one after the other. -/
def blocks : (place first : Nat) → List Order → List Block
  | _, _, [] => []
  | place, first, order :: rest =>
      order.row resources place first ++
        blocks (place + 1)
          (first + (Setup.windowOf order.window).blockLength * (order.reserved resources).length)
          rest

end Order

namespace PhraseFile

variable {resources : Resources}

theorem length_roles (resources : Resources) (path : String) :
    (PhraseRole.all.take (blockCount resources path)).length = blockCount resources path := by
  rw [List.length_take]
  exact Nat.min_eq_left (PhraseRole.countFor_le _)

theorem getElem?_roles {path : String} {rank : Nat} {role : PhraseRole} :
    (PhraseRole.all.take (blockCount resources path))[rank]? = some role ↔
      rank < blockCount resources path ∧ rank = role.index.toNat := by
  rw [List.getElem?_take]
  constructor
  · intro found
    split at found
    next inside => exact ⟨inside, (PhraseRole.index_of_getElem?_all found).symm⟩
    next => cases found
  · rintro ⟨inside, rfl⟩
    rw [if_pos inside, PhraseRole.getElem?_all_index]

theorem length_phraseRoles (resources : Resources) (file : Nat) (paths : List String) :
    (Order.phraseRoles resources file paths).length = totalBlocks resources paths := by
  induction paths generalizing file with
  | nil => rfl
  | cons path rest ih =>
      rw [Order.phraseRoles, List.length_append, List.length_map, length_roles, ih, totalBlocks]

theorem file_le_of_mem_phraseRoles {paths : List String} {start file : Nat} {role : PhraseRole}
    (mem : (file, role) ∈ Order.phraseRoles resources start paths) : start ≤ file := by
  induction paths generalizing start with
  | nil => cases mem
  | cons path rest ih =>
      rw [Order.phraseRoles, List.mem_append, List.mem_map] at mem
      rcases mem with ⟨_, -, same⟩ | inRest
      · cases same
        exact Nat.le_refl _
      · exact Nat.le_of_succ_le (ih inRest)

/-- The block of a role comes behind those of earlier files and of earlier roles. -/
theorem getElem?_phraseRoles {paths : List String} {start rank file : Nat} {role : PhraseRole} :
    (Order.phraseRoles resources start paths)[rank]? = some (start + file, role) ↔
      ∃ path, paths[file]? = some path ∧ role.index.toNat < blockCount resources path ∧
        rank = blocksBefore resources paths file + role.index.toNat := by
  induction paths generalizing start rank file with
  | nil => simp [Order.phraseRoles]
  | cons path rest ih =>
      rw [Order.phraseRoles, List.getElem?_append, List.length_map, length_roles]
      split
      next inside =>
        rw [List.getElem?_map, Option.map_eq_some_iff]
        cases file with
        | zero =>
            simp only [Nat.add_zero, Prod.mk.injEq, true_and, exists_eq_right, getElem?_roles,
              inside, List.getElem?_cons_zero, Option.some.injEq, exists_eq_left', blocksBefore_zero,
              Nat.zero_add]
            constructor
            · intro same
              exact ⟨same ▸ inside, same⟩
            · exact And.right
        | succ file =>
            rw [blocksBefore_cons]
            constructor
            · rintro ⟨_, -, same⟩
              cases same
            · rintro ⟨_, -, -, same⟩
              omega
      next outside =>
        cases file with
        | zero =>
            constructor
            · intro found
              have bound := file_le_of_mem_phraseRoles (List.mem_of_getElem? found)
              omega
            · rintro ⟨_, same, small, value⟩
              cases same
              rw [blocksBefore_zero] at value
              omega
        | succ file =>
            rw [← Nat.add_assoc, Nat.add_right_comm, ih, List.getElem?_cons_succ,
              blocksBefore_cons]
            constructor
            · rintro ⟨other, found, small, value⟩
              exact ⟨other, found, small, by omega⟩
            · rintro ⟨other, found, small, value⟩
              exact ⟨other, found, small, by omega⟩

end PhraseFile

namespace Order

variable {resources : Resources}

theorem nodup_clusterStrings (arguments : List String) :
    (clusterStrings resources arguments).Nodup := by
  cases arguments with
  | nil => exact List.nodup_nil
  | cons path rest =>
      rw [clusterStrings]
      split
      · exact nodup_eraseDups _
      · exact List.nodup_nil

theorem getElem?_map_injective {Item Name : Type} {items : List Item} {name : Item → Name}
    (injective : Function.Injective name) (distinct : items.Nodup) {left right : Nat} {found : Name}
    (leftFound : (items.map name)[left]? = some found)
    (rightFound : (items.map name)[right]? = some found) : left = right := by
  have inside := (List.getElem?_eq_some_iff.mp leftFound).1
  exact (List.getElem?_inj inside (List.Nodup.map injective distinct)).mp
    (leftFound.trans rightFound.symm)

theorem nodup_keys (name : ExtractorName) : name.keys.Nodup := by
  cases name <;> decide

theorem reserved_injective {order : Order} {left right : Nat} {name : BlockName}
    (leftFound : (order.reserved resources)[left]? = some name)
    (rightFound : (order.reserved resources)[right]? = some name) : left = right := by
  rcases order with ⟨orderName, window, arguments⟩
  cases orderName with
  | brownClusters =>
      exact getElem?_map_injective (fun _ _ => BlockName.clusterString.inj)
        (nodup_clusterStrings arguments) leftFound rightFound
  | gazetteers =>
      simp only [reserved, List.getElem?_map, Option.map_eq_some_iff, Prod.exists] at leftFound
      simp only [reserved, List.getElem?_map, Option.map_eq_some_iff, Prod.exists] at rightFound
      rcases leftFound with ⟨file, role, leftPlace, rfl⟩
      rcases rightFound with ⟨_, _, rightPlace, same⟩
      cases same
      rw [← Nat.zero_add file] at leftPlace rightPlace
      rcases PhraseFile.getElem?_phraseRoles.mp leftPlace with ⟨_, -, -, leftRank⟩
      rcases PhraseFile.getElem?_phraseRoles.mp rightPlace with ⟨_, -, -, rightRank⟩
      rw [leftRank, rightRank]
  | _ =>
      exact getElem?_map_injective (fun _ _ => BlockName.key.inj) (nodup_keys _) leftFound rightFound

theorem mem_row {place first : Nat} {order : Order} {block : Block} :
    block ∈ order.row resources place first ↔
      block.owner = place ∧ block.window = Setup.windowOf order.window ∧
        ∃ rank, (order.reserved resources)[rank]? = some block.name ∧
          block.centre = (Setup.windowOf order.window).centre first rank :=
  Block.mem_row

theorem owner_of_mem_blocks {orders : List Order} {place first : Nat} {block : Block}
    (mem : block ∈ blocks resources place first orders) :
    ∃ index order, orders[index]? = some order ∧ block.owner = place + index ∧
      block.window = Setup.windowOf order.window := by
  induction orders generalizing place first with
  | nil => cases mem
  | cons order rest ih =>
      rcases List.mem_append.mp mem with here | later
      · rcases mem_row.mp here with ⟨owner_eq, window_eq, -⟩
        exact ⟨0, order, rfl, owner_eq, window_eq⟩
      · rcases ih later with ⟨index, other, found, owner_eq, window_eq⟩
        exact ⟨index + 1, other, found, by omega, window_eq⟩

theorem blocks_injective {orders : List Order} {place first : Nat} {left right : Block}
    (leftMem : left ∈ blocks resources place first orders)
    (rightMem : right ∈ blocks resources place first orders)
    (owner_eq : left.owner = right.owner) (name_eq : left.name = right.name) : left = right := by
  induction orders generalizing place first with
  | nil => cases leftMem
  | cons order rest ih =>
      rcases List.mem_append.mp leftMem with leftHere | leftLater
      · rcases mem_row.mp leftHere with ⟨leftOwner, leftWindow, leftRank, leftFound, leftCentre⟩
        rcases List.mem_append.mp rightMem with rightHere | rightLater
        · rcases mem_row.mp rightHere with
            ⟨rightOwner, rightWindow, rightRank, rightFound, rightCentre⟩
          rw [name_eq] at leftFound
          rw [reserved_injective leftFound rightFound, ← rightCentre] at leftCentre
          rcases left with ⟨_, _, _, _⟩
          rcases right with ⟨_, _, _, _⟩
          simp_all
        · rcases owner_of_mem_blocks rightLater with ⟨index, -, -, rightOwner, -⟩
          omega
      · rcases List.mem_append.mp rightMem with rightHere | rightLater
        · rcases mem_row.mp rightHere with ⟨rightOwner, -, -⟩
          rcases owner_of_mem_blocks leftLater with ⟨index, -, -, leftOwner, -⟩
          omega
        · exact ih leftLater rightLater

end Order

namespace Extractor

/--
What an extractor has stored beside keys refers to blocks: the clusters of a form to those
of its label and of the parts of the label, in order, and the entries of phrases to those
of the roles in a file.
-/
def RefersTo (resources : Resources) (order : Order) (owned : BlockName → Nat → Prop)
    (extractor : Extractor) : Prop :=
  match extractor.kind with
  | .clusters clusters =>
      ∃ path rest lengths text, order.arguments = path :: rest ∧
        ClusterTable.prefixLengths rest = .ok lengths ∧ resources.readText path = .ok text ∧
        ∀ label form, (label, form) ∈ ClusterReading.rowsOf text →
          ∃ number features, extractor.table[form]? = some number ∧
            clusters[number.toNat]? = some features ∧
            List.Forall₂ (fun string feature => owned (.clusterString string) feature.toNat)
              (ClusterReading.stringsOf lengths label) features
  | .gazetteers entries =>
      ∀ entry ∈ entries, ∀ generic ∈ entry.features,
        ∃ file path, order.arguments[file]? = some path ∧
          2 ≤ PhraseFile.blockCount resources path ∧
          ∀ role : PhraseRole, role.index.toNat < PhraseFile.blockCount resources path →
            owned (.phraseRole file role) (role.feature extractor.window generic).toNat
  | _ => True

theorem RefersTo.imp {resources : Resources} {order : Order} {owned more : BlockName → Nat → Prop}
    {extractor : Extractor} (refers : extractor.RefersTo resources order owned)
    (imp : ∀ name centre, (∀ key, name ≠ .key key) → owned name centre → more name centre) :
    extractor.RefersTo resources order more := by
  rcases extractor with ⟨window, table, kind⟩
  cases kind with
  | clusters clusters =>
      rcases refers with ⟨path, rest, lengths, text, asked, lengthsRead, textRead, known⟩
      refine ⟨path, rest, lengths, text, asked, lengthsRead, textRead, ?_⟩
      intro label form mem
      rcases known label form mem with ⟨number, features, found, clustered, strings⟩
      refine ⟨number, features, found, clustered, List.Forall₂.imp ?_ strings⟩
      intro string feature
      exact imp _ _ (fun _ same => by cases same)
  | gazetteers entries =>
      intro entry mem generic stored
      rcases refers entry mem generic stored with ⟨file, path, found, several, roles⟩
      refine ⟨file, path, found, several, ?_⟩
      intro role occurs
      exact imp _ _ (fun _ same => by cases same) (roles role occurs)
  | _ => trivial

end Extractor

namespace Setup

variable {resources : Resources} {window : Int32} {arguments : List String} {types : Registry}
  {total : FeatureId} {after : Setup}

theorem configure_of_clusters
    (done : configure resources window arguments ⟨.ofName .brownClusters, types, total⟩ =
      .ok () after) :
    ∃ path rest lengths text reading, arguments = path :: rest ∧
      ClusterTable.prefixLengths rest = .ok lengths ∧ resources.readText path = .ok text ∧
      ClusterReading.readText path total (windowOf window) lengths text {} =
        .ok after.total reading ∧
      after.extractor = ⟨windowOf window, reading.forms, .clusters reading.clusters⟩ := by
  rcases configure_eq_ok done with ⟨-, -, -, kindDone⟩
  rcases configureClusters_eq_ok kindDone with
    ⟨path, rest, lengths, text, _, reading, asked, lengthsRead, textRead, linesRead, rfl⟩
  exact ⟨path, rest, lengths, text, reading, asked, lengthsRead, textRead, linesRead, rfl⟩

theorem configure_of_gazetteers
    (done : configure resources window arguments ⟨.ofName .gazetteers, types, total⟩ =
      .ok () after) :
    ∃ reading, PhraseReading.readFiles resources (windowOf window) arguments { total } =
        .ok () reading ∧
      after.total = reading.total ∧
      after.extractor = ⟨windowOf window, reading.phrases, .gazetteers reading.entries⟩ := by
  rcases configure_eq_ok done with ⟨-, -, -, kindDone⟩
  rcases configureGazetteers_eq_ok kindDone with ⟨reading, filesRead, rfl⟩
  exact ⟨reading, filesRead, rfl, rfl⟩

theorem reserve_restart {name : ExtractorName} (reserving : ExtractorName) (keys : List String)
    (distinct : keys.Nodup) (nonempty : "" ∉ keys)
    (done : reserve reserving keys
      (restart (windowOf window) ⟨.ofName name, types, total⟩) = .ok () after) :
    after.total.toNat = total.toNat + (windowOf window).blockLength * keys.length ∧
      after.extractor.table.Ranks keys ((windowOf window).centre total.toNat) := by
  rcases reserve_eq_ok done with ⟨vocabulary, reserved, rfl⟩
  have total_eq : total.toNat =
      total.toNat + (windowOf window).blockLength * ([] : List String).length := rfl
  have fresh : ([] ++ keys).Nodup := distinct
  rcases Vocabulary.reserve_eq_true (KeyTable.Ranks.empty _) total_eq fresh nonempty
    reserved with ⟨ranks, grown⟩
  exact ⟨grown, ranks⟩

theorem configure_reserves {name : ExtractorName}
    (done : configure resources window arguments ⟨.ofName name, types, total⟩ = .ok () after) :
    after.total.toNat = total.toNat + (windowOf window).blockLength *
        (Order.reserved resources ⟨name, window, arguments⟩).length ∧
      (after.extractor.kind.isKeyed →
        after.extractor.table.Ranks name.keys ((windowOf window).centre total.toNat)) := by
  cases name with
  | brownClusters =>
      rcases configure_of_clusters done with
        ⟨path, rest, lengths, text, reading, rfl, lengthsRead, textRead, linesRead, extractor_eq⟩
      rcases ClusterReading.readText_eq_ok linesRead with ⟨-, -, -, total_eq⟩
      rw [extractor_eq]
      refine ⟨?_, fun keyed => by cases keyed⟩
      rw [total_eq, Order.reserved, List.length_map, Order.clusterStrings, lengthsRead, textRead]
  | gazetteers =>
      rcases configure_of_gazetteers done with ⟨reading, filesRead, total_eq, extractor_eq⟩
      rcases PhraseReading.readFiles_eq_ok filesRead with ⟨counted, -⟩
      rw [extractor_eq]
      refine ⟨?_, fun keyed => by cases keyed⟩
      rw [total_eq, counted, Order.reserved, List.length_map, PhraseFile.length_phraseRoles]
  | formCapitalization =>
      rcases configure_eq_ok done with ⟨-, -, -, kindDone⟩
      rcases reserve_restart .formCapitalization CaseFeature.keys (by decide) (by decide)
        kindDone with ⟨total_eq, ranks⟩
      exact ⟨total_eq, fun _ => ranks⟩
  | rawLemmaCapitalization =>
      rcases configure_eq_ok done with ⟨-, -, -, kindDone⟩
      rcases reserve_restart .rawLemmaCapitalization CaseFeature.keys (by decide) (by decide)
        kindDone with ⟨total_eq, ranks⟩
      exact ⟨total_eq, fun _ => ranks⟩
  | numericTimeValue =>
      rcases configure_eq_ok done with ⟨-, -, -, kindDone⟩
      rcases reserve_restart .numericTimeValue NumericFeature.keys (by decide) (by decide)
        kindDone with ⟨total_eq, ranks⟩
      exact ⟨total_eq, fun _ => ranks⟩
  | czechLemmaTerm | form | lemmaId | previousStage | rawLemma | tag =>
      rcases configure_eq_ok done with ⟨-, -, -, kindDone⟩
      cases kindDone
      exact ⟨rfl, fun _ => KeyTable.Ranks.empty _⟩
  | czechAddContainers =>
      rcases configure_eq_ok done with ⟨-, -, -, kindDone⟩
      cases kindDone
      exact ⟨rfl, fun keyed => by cases keyed⟩
  | urlEmailDetector =>
      rcases configure_eq_ok done with ⟨-, -, -, kindDone⟩
      rcases configureAddresses_eq_ok kindDone with ⟨_, _, rfl⟩
      exact ⟨rfl, fun keyed => by cases keyed⟩

section References

variable {order : Order}

theorem getElem?_reserved_clusters {path text string : String} {rest : List String}
    {lengths : List Nat} {rank : Nat} (isClusters : order.name = .brownClusters)
    (asked : order.arguments = path :: rest)
    (lengthsRead : ClusterTable.prefixLengths rest = .ok lengths)
    (textRead : resources.readText path = .ok text)
    (found : (ClusterReading.distinctStrings lengths
      ((ClusterReading.rowsOf text).map Prod.fst))[rank]? = some string) :
    (order.reserved resources)[rank]? = some (.clusterString string) := by
  simp only [Order.reserved, isClusters, asked, Order.clusterStrings, lengthsRead, textRead,
    List.getElem?_map, found, Option.map_some]

theorem getElem?_reserved_phrases {path : String} {file : Nat} {role : PhraseRole}
    (isGazetteers : order.name = .gazetteers) (found : order.arguments[file]? = some path)
    (occurs : role.index.toNat < PhraseFile.blockCount resources path) :
    (order.reserved resources)[
      PhraseFile.blocksBefore resources order.arguments file + role.index.toNat]? =
        some (.phraseRole file role) := by
  have place : (Order.phraseRoles resources 0 order.arguments)[
      PhraseFile.blocksBefore resources order.arguments file + role.index.toNat]? =
        some (0 + file, role) :=
    PhraseFile.getElem?_phraseRoles.mpr ⟨path, found, occurs, rfl⟩
  simp only [Order.reserved, isGazetteers, List.getElem?_map, Nat.zero_add] at place ⊢
  rw [place, Option.map_some]

theorem clusters_refer {path text : String} {rest : List String} {lengths : List Nat}
    {first behind : FeatureId} {window : Window} {reading : ClusterReading}
    (isClusters : order.name = .brownClusters) (asked : order.arguments = path :: rest)
    (lengthsRead : ClusterTable.prefixLengths rest = .ok lengths)
    (textRead : resources.readText path = .ok text)
    (linesRead : ClusterReading.readText path first window lengths text {} = .ok behind reading) :
    Extractor.RefersTo resources order
      (fun name centre => ∃ rank, (order.reserved resources)[rank]? = some name ∧
        centre = window.centre first.toNat rank)
      ⟨window, reading.forms, .clusters reading.clusters⟩ := by
  rcases ClusterReading.readText_eq_ok linesRead with ⟨-, reflects, formsReflect, -⟩
  refine ⟨path, rest, lengths, text, asked, lengthsRead, textRead, ?_⟩
  intro label form mem
  have listed : label ∈ ((ClusterReading.rowsOf text).map Prod.fst).eraseDups :=
    List.mem_eraseDups.mpr (List.mem_map_of_mem mem)
  rcases List.mem_iff_getElem?.mp listed with ⟨rank, found⟩
  rcases reflects.labelRanks.exists_number found with ⟨number, numbered, value⟩
  rcases reflects.getElem?_clusters rank label found with ⟨features, clustered, strings⟩
  refine ⟨number, features, (formsReflect form number).mpr ⟨label, mem, numbered⟩, ?_, ?_⟩
  · rw [value]
    exact clustered
  · apply List.Forall₂.imp _ strings
    intro string feature known
    rcases reflects.stringRanks.exists_rank known with ⟨place, stringFound, centred⟩
    exact ⟨place,
      getElem?_reserved_clusters isClusters asked lengthsRead textRead stringFound, centred⟩

theorem gazetteers_refer {window : Window} {total : FeatureId} {reading : PhraseReading}
    (isGazetteers : order.name = .gazetteers)
    (filesRead : PhraseReading.readFiles resources window order.arguments { total } =
      .ok () reading) :
    Extractor.RefersTo resources order
      (fun name centre => ∃ rank, (order.reserved resources)[rank]? = some name ∧
        centre = window.centre total.toNat rank)
      ⟨window, reading.phrases, .gazetteers reading.entries⟩ := by
  rcases PhraseReading.readFiles_eq_ok filesRead with ⟨counted, added⟩
  have stores : PhraseReading.Stores (fun feature => ∃ file path,
      order.arguments[file]? = some path ∧ 2 ≤ PhraseFile.blockCount resources path ∧
        feature = UInt32.ofNat
          (window.centre total.toNat (PhraseFile.blocksBefore resources order.arguments file)))
      reading := by
    rw [added]
    apply PhraseReading.Stores.addMarked
    · intro entry mem
      cases Array.not_mem_empty entry mem
    · intro (feature, line) mem nonempty
      rcases PhraseFile.exists_of_mem_markedLines mem with ⟨file, path, found, inFile, same⟩
      exact ⟨file, path, found, PhraseFile.blockCount_of_mem_lines inFile nonempty, same⟩
  intro entry mem generic stored
  rcases stores entry mem generic stored with ⟨file, path, found, several, rfl⟩
  refine ⟨file, path, found, several, ?_⟩
  intro role occurs
  refine ⟨_, getElem?_reserved_phrases isGazetteers found occurs, ?_⟩
  have inside : PhraseFile.blocksBefore resources order.arguments file + role.index.toNat <
      PhraseFile.totalBlocks resources order.arguments :=
    Nat.lt_of_lt_of_le (Nat.add_lt_add_left occurs _) (PhraseFile.blocksBefore_add_le resources found)
  have room := reading.total.toNat_lt_size
  rw [counted] at room
  rw [PhraseRole.feature_ofNat_centre, Window.toNat_ofNat_centre inside room]

theorem configure_refers {name : ExtractorName}
    (done : configure resources window arguments ⟨.ofName name, types, total⟩ = .ok () after) :
    after.extractor.RefersTo resources ⟨name, window, arguments⟩
      (Order.Takes resources ⟨name, window, arguments⟩ total.toNat) := by
  have sameName : after.extractor.name = (Extractor.ofName name).name :=
    (name_and_window_of_configure done).1
  simp only [Extractor.name, Extractor.ofName, Kind.name_ofName] at sameName
  cases kind : after.extractor.kind with
  | clusters clusters =>
      have isClusters : ExtractorName.brownClusters = name := by
        rw [← sameName, kind]
        rfl
      subst isClusters
      rcases configure_of_clusters done with
        ⟨path, rest, lengths, text, reading, asked, lengthsRead, textRead, linesRead, same⟩
      rw [same]
      exact clusters_refer rfl asked lengthsRead textRead linesRead
  | gazetteers entries =>
      have isGazetteers : ExtractorName.gazetteers = name := by
        rw [← sameName, kind]
        rfl
      subst isGazetteers
      rcases configure_of_gazetteers done with ⟨reading, filesRead, -, same⟩
      rw [same]
      exact gazetteers_refer rfl filesRead
  | containers | lemmaTerm | lexical _ | capitalization _ | numericValue | earlierLabel
  | addresses _ => simp only [Extractor.RefersTo, kind]

end References

end Setup

end EntityFeatures

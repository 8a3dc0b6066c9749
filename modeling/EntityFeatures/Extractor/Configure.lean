import EntityFeatures.Extractor.Basic

/-!
# Configuration of extractors

An extractor is configured with a window and with arguments. It may read resource
files, add types of entities and take ids from the counter of the model, so a
configuration goes on in a `Setup`, which holds the extractor and what it shares
with others.

The steps have an order, and an error leaves behind what the steps before it have
done. First the window is checked; then it is set and the table is emptied; then
one block has to fit into what is left of the ids, whether or not the kind takes
any; and then the kind does what it has to do.
-/

namespace EntityFeatures

/-- An extractor that is being configured, and what it shares with others. -/
structure Setup where
  extractor : Extractor
  types : Registry
  /-- The first id that no feature owns yet. -/
  total : FeatureId

/-- A step of a configuration, which keeps what was done before an error. -/
abbrev SetupStep := EStateM ConfigError Setup

namespace Setup

/-- The setup with another kind of extractor. -/
def setKind (kind : Kind) (setup : Setup) : Setup :=
  { setup with extractor := { setup.extractor with kind } }

/-- The setup with an extractor of another kind and with another table. -/
def setTable (table : KeyTable) (kind : Kind) (setup : Setup) : Setup :=
  { setup with extractor := { setup.extractor with table, kind } }

/-- The setup with another counter. -/
def setTotal (total : FeatureId) (setup : Setup) : Setup :=
  { setup with total }

/-- Sets the window and empties the table, if the window is one that the extractor can have. -/
def setWindow (name : ExtractorName) (window : Int32) : SetupStep Unit := do
  if name = .czechAddContainers ∧ window ≠ 0 then
    throw (.argument name .nonzeroWindow)
  else if window < 0 then
    throw (.argument name (.negativeWindow window.toInt))
  else
    modify fun setup =>
      { setup with
        extractor :=
          { setup.extractor with window := UInt32.ofNat window.toInt.toNat, table := ∅ } }

/-- Checks that one block fits into the ids that are left. -/
def checkWindow (name : ExtractorName) : SetupStep Unit := do
  let setup ← get
  if (setup.total.blocksEnd? setup.extractor.window 1).isNone then
    throw (.argument name (.windowTooWide setup.extractor.window.toNat))

/-- Reserves the features that the extractor always has. -/
def reserve (name : ExtractorName) (keys : List String) : SetupStep Unit := do
  let setup ← get
  let (complete, vocabulary) :=
    Vocabulary.reserve setup.extractor.window keys ⟨setup.extractor.table, setup.total⟩
  set ((setup.setTable vocabulary.table setup.extractor.kind).setTotal vocabulary.total)
  if !complete then throw (.argument name .idsExhausted)

/-- Reads the clusters from a file that is readable. -/
def readClusters (path : String) (lengths : List Nat) (text : String) : SetupStep Unit := do
  let setup ← get
  match ClusterReading.readText path setup.total setup.extractor.window lengths text {} with
  | .ok total reading =>
      set ((setup.setTable reading.forms (.clusters reading.clusters)).setTotal total)
  | .error error reading =>
      set (setup.setTable reading.forms (.clusters reading.clusters))
      throw error

/-- Configures the clusters. Those of an earlier file stay until the new file is read. -/
def configureClusters (resources : Resources) : List String → SetupStep Unit
  | [] => throw (.argument .brownClusters .noClusterFile)
  | path :: rest =>
      match ClusterTable.prefixLengths rest with
      | .error error => throw error
      | .ok lengths =>
          match resources.readText path with
          | .error fault => throw (.resource path fault)
          | .ok text => readClusters path lengths text

/-- Reads phrases from files. What was read before an error stays. -/
def configureGazetteers (resources : Resources) (paths : List String) : SetupStep Unit := do
  let setup ← get
  match
    PhraseReading.readFiles resources setup.extractor.window paths { total := setup.total }
  with
  | .ok _ reading =>
      set ((setup.setTable reading.phrases (.gazetteers reading.entries)).setTotal reading.total)
  | .error error reading =>
      set ((setup.setTable reading.phrases (.gazetteers reading.entries)).setTotal reading.total)
      throw error

/-- Adds the two types to the registry. The extractor keeps both even if one is refused. -/
def configureAddresses (arguments : List String) : SetupStep Unit := do
  let setup ← get
  match arguments with
  | [web, mail] =>
      let (webType, types) := setup.types.resolve web true
      let (mailType, types) := types.resolve mail true
      let addressTypes : AddressTypes := ⟨webType, mailType⟩
      set { setup.setKind (.addresses addressTypes) with types }
      if !addressTypes.areKnown then
        throw (.argument .urlEmailDetector (.typesRefused web mail))
  | _ => throw (.argument .urlEmailDetector (.wrongTypeCount arguments.length))

/-- Does what only the kind of the extractor asks for. -/
def configureKind (resources : Resources) (arguments : List String) : SetupStep Unit := do
  match (← get).extractor.kind with
  | .clusters _ => configureClusters resources arguments
  | .gazetteers _ => configureGazetteers resources arguments
  | .addresses _ => configureAddresses arguments
  | .capitalization source => reserve (Kind.capitalization source).name CaseFeature.keys
  | .numericValue => reserve .numericTimeValue NumericFeature.keys
  | .containers | .lemmaTerm | .lexical _ | .earlierLabel => return ()

/-- Configures an extractor. What was done before an error stays. -/
def configure (resources : Resources) (window : Int32) (arguments : List String) :
    SetupStep Unit := do
  let name := (← get).extractor.name
  setWindow name window
  checkWindow name
  configureKind resources arguments

end Setup

end EntityFeatures

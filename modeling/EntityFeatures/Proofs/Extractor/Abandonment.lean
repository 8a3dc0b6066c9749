import EntityFeatures.Proofs.Coupling
import EntityFeatures.Proofs.Extractor.Configuration
import EntityFeatures.Proofs.Extractor.PhraseOutcome
import EntityFeatures.Proofs.Feature.Reservation

/-!
# Configurations that are given up

A configuration that fails should leave the counter of the ids where it was. Whatever is wrong
with the window, and whatever is wrong with clusters or types of entities, this is so. But
gazetteers take their ids file by file, and reserved features theirs key by key, and what was
taken before the error is not given back. `Kind.Keeps` are the blocks that stay taken. A
reservation that fails has taken at least one, since the check of the window made sure that
one fits.
-/

namespace EntityFeatures

/-- The window is refused, by itself or for want of ids. -/
def ArgumentFault.IsOfWindow : ArgumentFault → Prop
  | nonzeroWindow | negativeWindow _ | windowTooWide _ => True
  | idsExhausted | idsExhaustedByPrefixes | idsExhaustedByFile _ | noClusterFile
  | wrongPrefixLength _ | wrongTypeCount _ | typesRefused _ _ => False

/-- The number of blocks that a kind has taken when its configuration fails with an error. -/
inductive Kind.Keeps (resources : Resources) (window : Window) (first : Nat)
    (arguments : List String) : Kind → ConfigError → Nat → Prop
  | ofWindow {kind : Kind} {fault : ArgumentFault} : fault.IsOfWindow →
      Keeps resources window first arguments kind (.argument kind.name fault) 0
  | clusters (table : ClusterTable) (error : ConfigError) :
      Keeps resources window first arguments (.clusters table) error 0
  | addresses (types : AddressTypes) (error : ConfigError) :
      Keeps resources window first arguments (.addresses types) error 0
  | gazetteers {entries : PhraseTable} {front rest : List String} {path : String}
      {error : ConfigError} : arguments = front ++ path :: rest →
      (∀ earlier ∈ front, ∃ text, resources.readText earlier = .ok text) →
      PhraseFile.Fails resources window
        (first + window.blockLength * PhraseFile.totalBlocks resources front) path error →
      Keeps resources window first arguments (.gazetteers entries) error
        (PhraseFile.totalBlocks resources front)
  | capitalization {source : CasedAttribute} {taken : Nat} : 0 < taken → taken < 3 →
      UInt32.size ≤ first + window.blockLength * (taken + 1) →
      Keeps resources window first arguments (.capitalization source)
        (.argument (Kind.capitalization source).name .idsExhausted) taken
  | numericValue {taken : Nat} : 0 < taken → taken < 6 →
      UInt32.size ≤ first + window.blockLength * (taken + 1) →
      Keeps resources window first arguments .numericValue
        (.argument .numericTimeValue .idsExhausted) taken

namespace Setup

variable {resources : Resources} {arguments : List String} {setup after : Setup}
  {error : ConfigError}

theorem setWindow_eq_error {name : ExtractorName} {window : Int32}
    (failed : setWindow name window setup = .error error after) :
    after = setup ∧ ∃ fault : ArgumentFault, fault.IsOfWindow ∧ error = .argument name fault := by
  simp only [setWindow] at failed
  split at failed
  next =>
    cases failed
    exact ⟨rfl, .nonzeroWindow, trivial, rfl⟩
  next =>
    split at failed
    next =>
      cases failed
      exact ⟨rfl, .negativeWindow window.toInt, trivial, rfl⟩
    next => cases failed

theorem checkWindow_eq_error {name : ExtractorName}
    (failed : checkWindow name setup = .error error after) :
    after = setup ∧ ∃ fault : ArgumentFault, fault.IsOfWindow ∧ error = .argument name fault := by
  simp only [checkWindow, get_bind_apply] at failed
  split at failed
  next =>
    cases failed
    exact ⟨rfl, .windowTooWide setup.extractor.window.toNat, trivial, rfl⟩
  next => cases failed

/-- The counter is set once the whole file has been read. -/
theorem total_of_configureClusters_error
    (failed : configureClusters resources arguments setup = .error error after) :
    after.total = setup.total := by
  cases arguments with
  | nil =>
      cases failed
      rfl
  | cons path rest =>
      cases lengthsRead : ClusterTable.prefixLengths rest with
      | error fault =>
          rw [configureClusters, lengthsRead] at failed
          cases failed
          rfl
      | ok lengths =>
          cases textRead : resources.readText path with
          | error fault =>
              rw [configureClusters, lengthsRead, textRead] at failed
              cases failed
              rfl
          | ok text =>
              rw [configureClusters_apply setup lengthsRead textRead] at failed
              cases outcome : ClusterReading.readText path setup.total setup.extractor.window
                  lengths text {} with
              | ok total reading =>
                  rw [outcome] at failed
                  cases failed
              | error fault reading =>
                  rw [outcome] at failed
                  cases failed
                  rfl

theorem total_of_configureAddresses_error
    (failed : configureAddresses arguments setup = .error error after) :
    after.total = setup.total := by
  simp only [configureAddresses, get_bind_apply] at failed
  split at failed
  next =>
    simp only [set_bind_apply] at failed
    split at failed
    next =>
      cases failed
      rfl
    next => cases failed
  next =>
    cases failed
    rfl

theorem configureGazetteers_eq_error
    (failed : configureGazetteers resources arguments setup = .error error after) :
    ∃ front path rest, arguments = front ++ path :: rest ∧
      (∀ earlier ∈ front, ∃ text, resources.readText earlier = .ok text) ∧
      after.total.toNat = setup.total.toNat +
        setup.extractor.window.blockLength * PhraseFile.totalBlocks resources front ∧
      PhraseFile.Fails resources setup.extractor.window after.total.toNat path error := by
  rw [configureGazetteers_apply] at failed
  cases filesRead : PhraseReading.readFiles resources setup.extractor.window arguments
      { total := setup.total } with
  | ok _ reading =>
      rw [filesRead] at failed
      cases failed
  | error fault reading =>
      rw [filesRead] at failed
      cases failed
      exact PhraseReading.readFiles_eq_error filesRead

/-- The check of the window has made sure that the first key has its block. -/
theorem reserve_eq_error {name : ExtractorName} (keys : List String) (distinct : keys.Nodup)
    (nonempty : "" ∉ keys) (fresh : setup.extractor.table = ∅)
    (room : setup.total.toNat + setup.extractor.window.blockLength < UInt32.size)
    (failed : reserve name keys setup = .error error after) :
    ∃ taken, 0 < taken ∧ taken < keys.length ∧ error = .argument name .idsExhausted ∧
      after.total.toNat = setup.total.toNat + setup.extractor.window.blockLength * taken ∧
      UInt32.size ≤
        setup.total.toNat + setup.extractor.window.blockLength * (taken + 1) := by
  simp only [reserve, get_bind_apply, set_bind_apply] at failed
  rcases Vocabulary.reserve_outcome setup.extractor.window
    ⟨setup.extractor.table, setup.total⟩ distinct nonempty (by simp [fresh]) with
    ⟨-, vocabulary, done⟩ | ⟨taken, vocabulary, fewer, refused, total_eq, full⟩
  · rw [done] at failed
    cases failed
  · rw [refused] at failed
    cases failed
    refine ⟨taken, ?_, fewer, rfl, total_eq, full⟩
    refine Nat.pos_of_ne_zero ?_
    rintro rfl
    rw [Nat.zero_add, Nat.mul_one] at full
    exact Nat.not_le.mpr room full

/-- What the kind has taken when it fails, once the window is set and has been checked. -/
theorem configureKind_eq_error (fresh : setup.extractor.table = ∅)
    (room : setup.total.toNat + setup.extractor.window.blockLength < UInt32.size)
    (failed : configureKind resources arguments setup = .error error after) :
    ∃ kept, after.total.toNat = setup.total.toNat + setup.extractor.window.blockLength * kept ∧
      setup.extractor.kind.Keeps resources setup.extractor.window setup.total.toNat arguments
        error kept := by
  rw [configureKind_apply] at failed
  cases kind_eq : setup.extractor.kind with
  | clusters table =>
      rw [kind_eq] at failed
      refine ⟨0, ?_, .clusters table error⟩
      rw [total_of_configureClusters_error failed, Nat.mul_zero, Nat.add_zero]
  | addresses types =>
      rw [kind_eq] at failed
      refine ⟨0, ?_, .addresses types error⟩
      rw [total_of_configureAddresses_error failed, Nat.mul_zero, Nat.add_zero]
  | gazetteers entries =>
      rw [kind_eq] at failed
      rcases configureGazetteers_eq_error failed with
        ⟨front, path, rest, parts, readable, total_eq, fails⟩
      rw [total_eq] at fails
      exact ⟨_, total_eq, .gazetteers parts readable fails⟩
  | capitalization source =>
      rw [kind_eq] at failed
      rcases reserve_eq_error CaseFeature.keys (by decide) (by decide) fresh room failed with
        ⟨taken, positive, fewer, rfl, total_eq, full⟩
      exact ⟨taken, total_eq, .capitalization positive fewer full⟩
  | numericValue =>
      rw [kind_eq] at failed
      rcases reserve_eq_error NumericFeature.keys (by decide) (by decide) fresh room failed with
        ⟨taken, positive, fewer, rfl, total_eq, full⟩
      exact ⟨taken, total_eq, .numericValue positive fewer full⟩
  | containers | lemmaTerm | lexical _ | earlierLabel =>
      rw [kind_eq] at failed
      cases failed

/-- A configuration that fails leaves the counter behind the blocks that its kind keeps. -/
theorem total_of_configure_error {window : Int32}
    (failed : configure resources window arguments setup = .error error after) :
    ∃ kept, after.total.toNat = setup.total.toNat + (windowOf window).blockLength * kept ∧
      setup.extractor.kind.Keeps resources (windowOf window) setup.total.toNat arguments error
        kept := by
  have refused {fault : ArgumentFault} (isOfWindow : fault.IsOfWindow)
      (sameTotal : after.total = setup.total) :
      ∃ kept, after.total.toNat = setup.total.toNat + (windowOf window).blockLength * kept ∧
        setup.extractor.kind.Keeps resources (windowOf window) setup.total.toNat arguments
          (.argument setup.extractor.name fault) kept := by
    refine ⟨0, ?_, .ofWindow isOfWindow⟩
    rw [sameTotal, Nat.mul_zero, Nat.add_zero]
  simp only [configure, get_bind_apply] at failed
  rcases of_step_bind_eq_error failed with windowRefused | ⟨_, widened, windowSet, failed⟩
  · rcases setWindow_eq_error windowRefused with ⟨rfl, fault, isOfWindow, rfl⟩
    exact refused isOfWindow rfl
  rcases setWindow_eq_ok windowSet with ⟨-, -, rfl⟩
  rcases of_step_bind_eq_error failed with windowRefused | ⟨_, checked, windowChecked, failed⟩
  · rcases checkWindow_eq_error windowRefused with ⟨rfl, fault, isOfWindow, rfl⟩
    exact refused isOfWindow rfl
  rcases checkWindow_eq_ok windowChecked with ⟨rfl, total, endFound⟩
  rw [FeatureId.blocksEnd?, FeatureId.ofNat?_eq_some_iff, Nat.mul_one] at endFound
  have room : setup.total.toNat + (windowOf window).blockLength < UInt32.size :=
    endFound ▸ total.toNat_lt_size
  exact configureKind_eq_error (restart_table (windowOf window) setup) room failed

/-- The ids of the first file stay taken when the second is missing. -/
theorem total_of_configure_error_missing_file :
    let resources : Resources := fun path =>
      if path = "one" then some (Utf8.encode "paris\n") else none
    let setup : Setup := ⟨.ofName .gazetteers, ⟨[]⟩, 1⟩
    ∃ after, configure resources 0 ["one", "missing"] setup =
        .error (.resource "missing" .missing) after ∧
      after.total = 3 ∧
      Kind.Keeps resources (windowOf 0) 1 ["one", "missing"] setup.extractor.kind
        (.resource "missing" .missing) 2 := by
  intro resources setup
  have refused : ∃ after, configure resources 0 ["one", "missing"] setup =
      .error (.resource "missing" .missing) after := eq_error_of_fault? (by decide +kernel)
  rcases refused with ⟨after, failed⟩
  have total : (finalState (configure resources 0 ["one", "missing"] setup)).total = 3 := by
    decide +kernel
  rw [failed] at total
  have total : after.total = 3 := total
  rcases total_of_configure_error failed with ⟨kept, total_eq, keeps⟩
  have blockLength : (windowOf 0).blockLength = 1 := by decide +kernel
  have start : setup.total.toNat = 1 := rfl
  have isTwo : kept = 2 := by
    rw [total, blockLength, start] at total_eq
    have three : (3 : FeatureId).toNat = 3 := rfl
    omega
  rw [isTwo] at keeps
  exact ⟨after, failed, total, keeps⟩

/-- Two of the three features of capitals fit, and their ids are gone when the third does not. -/
theorem counter_moved_by_refused_reservation :
    let setup : Setup := ⟨.ofName .formCapitalization, ⟨[]⟩, 4294967293⟩
    ∃ after, configure (fun _ => none) 0 [] setup =
        .error (.argument .formCapitalization .idsExhausted) after ∧
      after.total = 4294967295 ∧ after.total ≠ setup.total := by
  intro setup
  have refused : ∃ after, configure (fun _ => none) 0 [] setup =
      .error (.argument .formCapitalization .idsExhausted) after :=
    eq_error_of_fault? (by decide +kernel)
  rcases refused with ⟨after, failed⟩
  have total : (finalState (configure (fun _ => none) 0 [] setup)).total = 4294967295 := by
    decide +kernel
  rw [failed] at total
  have total : after.total = 4294967295 := total
  refine ⟨after, failed, total, ?_⟩
  rw [total]
  decide

end Setup

end EntityFeatures

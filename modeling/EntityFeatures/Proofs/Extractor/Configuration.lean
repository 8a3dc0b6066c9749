import EntityFeatures.Extractor.Configure
import EntityFeatures.Proofs.Steps

/-!
# What a successful configuration has done

A configuration is a sequence of steps, each of which may fail. This file takes the
sequence apart once. If `Setup.configure` succeeds, the window was allowed and is
set, the table was emptied, one block fitted, and the kind has done its part; and
for every kind there is one statement about this part. Later files use these
statements and do not open the steps again.

A configuration never changes what an extractor is: its name stays, and so does
everything about the kinds that take no arguments.
-/

namespace EntityFeatures

namespace Setup

/-- The setup whose extractor has the given window and knows nothing yet. -/
def restart (window : Window) (setup : Setup) : Setup :=
  { setup with extractor := { setup.extractor with window, table := ∅ } }

@[simp]
theorem restart_kind (window : Window) (setup : Setup) :
    (setup.restart window).extractor.kind = setup.extractor.kind := rfl

@[simp]
theorem restart_window (window : Window) (setup : Setup) :
    (setup.restart window).extractor.window = window := rfl

@[simp]
theorem restart_table (window : Window) (setup : Setup) :
    (setup.restart window).extractor.table = ∅ := rfl

@[simp]
theorem restart_total (window : Window) (setup : Setup) :
    (setup.restart window).total = setup.total := rfl

/-- The window that is set when an allowed signed number is given. -/
def windowOf (window : Int32) : Window :=
  UInt32.ofNat window.toInt.toNat

theorem setWindow_eq_ok {name : ExtractorName} {window : Int32} {setup after : Setup}
    (done : setWindow name window setup = .ok () after) :
    (name = .czechAddContainers → window = 0) ∧ 0 ≤ window ∧
      after = setup.restart (windowOf window) := by
  simp only [setWindow] at done
  split at done
  next => cases done
  next allowed =>
    split at done
    next => cases done
    next nonnegative =>
      cases done
      refine ⟨?_, ?_, rfl⟩
      · intro isContainers
        exact Classical.byContradiction fun nonzero => allowed ⟨isContainers, nonzero⟩
      · exact Int32.not_lt.mp nonnegative

theorem checkWindow_eq_ok {name : ExtractorName} {setup after : Setup}
    (done : checkWindow name setup = .ok () after) :
    after = setup ∧ ∃ total, setup.total.blocksEnd? setup.extractor.window 1 = some total := by
  simp only [checkWindow] at done
  rcases exists_of_step_bind_eq_ok done with ⟨_, _, read, done⟩
  cases read
  split at done
  next => cases done
  next fits =>
    cases done
    refine ⟨rfl, ?_⟩
    rwa [Option.isNone_iff_eq_none, ← ne_eq, Option.ne_none_iff_exists'] at fits

theorem configure_eq_ok {resources : Resources} {window : Int32} {arguments : List String}
    {setup after : Setup} (done : configure resources window arguments setup = .ok () after) :
    (setup.extractor.name = .czechAddContainers → window = 0) ∧ 0 ≤ window ∧
      (∃ total, setup.total.blocksEnd? (windowOf window) 1 = some total) ∧
      configureKind resources arguments (setup.restart (windowOf window)) = .ok () after := by
  simp only [configure] at done
  rcases exists_of_step_bind_eq_ok done with ⟨_, _, read, done⟩
  cases read
  rcases exists_of_step_bind_eq_ok done with ⟨_, widened, windowSet, done⟩
  rcases setWindow_eq_ok windowSet with ⟨allowed, nonnegative, rfl⟩
  rcases exists_of_step_bind_eq_ok done with ⟨_, checked, windowChecked, done⟩
  rcases checkWindow_eq_ok windowChecked with ⟨rfl, fits⟩
  exact ⟨allowed, nonnegative, fits, done⟩

section Kinds

variable {resources : Resources} {arguments : List String} {setup after : Setup}

theorem reserve_eq_ok {name : ExtractorName} {keys : List String}
    (done : reserve name keys setup = .ok () after) :
    ∃ vocabulary, Vocabulary.reserve setup.extractor.window keys
        ⟨setup.extractor.table, setup.total⟩ = (true, vocabulary) ∧
      after = (setup.setTable vocabulary.table setup.extractor.kind).setTotal vocabulary.total := by
  simp only [reserve] at done
  rcases exists_of_step_bind_eq_ok done with ⟨_, _, read, done⟩
  cases read
  rcases exists_of_step_bind_eq_ok done with ⟨_, stored, written, done⟩
  cases written
  split at done
  next => cases done
  next complete =>
    cases done
    refine ⟨_, Prod.ext ?_ rfl, rfl⟩
    simpa using complete

/-- The part of a kind that has to read its own setup first. -/
theorem configureKind_apply (resources : Resources) (arguments : List String) (setup : Setup) :
    configureKind resources arguments setup =
      (match setup.extractor.kind with
        | .clusters _ => configureClusters resources arguments
        | .gazetteers _ => configureGazetteers resources arguments
        | .addresses _ => configureAddresses arguments
        | .capitalization source => reserve (Kind.capitalization source).name CaseFeature.keys
        | .numericValue => reserve .numericTimeValue NumericFeature.keys
        | .containers | .lemmaTerm | .lexical _ | .earlierLabel => pure () : SetupStep Unit)
        setup := rfl

/-- Arguments that are in order leave the rest to the reader of the file. -/
theorem configureClusters_apply {path text : String} {lengths : List Nat} (setup : Setup)
    (lengthsRead : ClusterTable.prefixLengths arguments = .ok lengths)
    (textRead : resources.readText path = .ok text) :
    configureClusters resources (path :: arguments) setup =
      match ClusterReading.readText path setup.total setup.extractor.window lengths text {} with
      | .ok total reading =>
          .ok () ((setup.setTable reading.forms (.clusters reading.clusters)).setTotal total)
      | .error fault reading =>
          .error fault (setup.setTable reading.forms (.clusters reading.clusters)) := by
  simp only [configureClusters, lengthsRead, textRead, readClusters, get_bind_apply]
  cases ClusterReading.readText path setup.total setup.extractor.window lengths text {} with
  | ok total reading => rfl
  | error fault reading => rfl

theorem configureClusters_eq_ok (done : configureClusters resources arguments setup = .ok () after) :
    ∃ path rest lengths text total reading, arguments = path :: rest ∧
      ClusterTable.prefixLengths rest = .ok lengths ∧ resources.readText path = .ok text ∧
      ClusterReading.readText path setup.total setup.extractor.window lengths text {} =
        .ok total reading ∧
      after = (setup.setTable reading.forms (.clusters reading.clusters)).setTotal total := by
  cases arguments with
  | nil => cases done
  | cons path rest =>
      cases lengthsRead : ClusterTable.prefixLengths rest with
      | error fault =>
          rw [configureClusters, lengthsRead] at done
          cases done
      | ok lengths =>
          cases textRead : resources.readText path with
          | error fault =>
              rw [configureClusters, lengthsRead, textRead] at done
              cases done
          | ok text =>
              rw [configureClusters_apply setup lengthsRead textRead] at done
              cases linesRead : ClusterReading.readText path setup.total
                  setup.extractor.window lengths text {} with
              | error fault reading =>
                  rw [linesRead] at done
                  cases done
              | ok total reading =>
                  rw [linesRead] at done
                  cases done
                  exact ⟨path, rest, lengths, text, total, reading, rfl, lengthsRead, textRead,
                    linesRead, rfl⟩

theorem configureGazetteers_apply (resources : Resources) (paths : List String) (setup : Setup) :
    configureGazetteers resources paths setup =
      match PhraseReading.readFiles resources setup.extractor.window paths
        { total := setup.total } with
      | .ok _ reading =>
          .ok () ((setup.setTable reading.phrases (.gazetteers reading.entries)).setTotal
            reading.total)
      | .error fault reading =>
          .error fault ((setup.setTable reading.phrases (.gazetteers reading.entries)).setTotal
            reading.total) := by
  simp only [configureGazetteers, get_bind_apply]
  cases PhraseReading.readFiles resources setup.extractor.window paths
      { total := setup.total } with
  | ok _ reading => rfl
  | error fault reading => rfl

theorem configureGazetteers_eq_ok
    (done : configureGazetteers resources arguments setup = .ok () after) :
    ∃ reading, PhraseReading.readFiles resources setup.extractor.window arguments
        { total := setup.total } = .ok () reading ∧
      after =
        (setup.setTable reading.phrases (.gazetteers reading.entries)).setTotal reading.total := by
  rw [configureGazetteers_apply] at done
  cases filesRead : PhraseReading.readFiles resources setup.extractor.window arguments
      { total := setup.total } with
  | ok _ reading =>
      rw [filesRead] at done
      cases done
      exact ⟨reading, rfl, rfl⟩
  | error fault reading =>
      rw [filesRead] at done
      cases done

theorem configureAddresses_eq_ok (done : configureAddresses arguments setup = .ok () after) :
    ∃ addressTypes types, after = { setup.setKind (.addresses addressTypes) with types } := by
  simp only [configureAddresses] at done
  rcases exists_of_step_bind_eq_ok done with ⟨_, _, read, done⟩
  cases read
  split at done
  next web mail =>
    rcases exists_of_step_bind_eq_ok done with ⟨_, stored, written, done⟩
    cases written
    split at done
    next => cases done
    next =>
      cases done
      exact ⟨_, _, rfl⟩
  next => cases done

end Kinds

theorem name_and_window_of_configure {resources : Resources} {window : Int32}
    {arguments : List String} {setup after : Setup}
    (done : configure resources window arguments setup = .ok () after) :
    after.extractor.name = setup.extractor.name ∧
      after.extractor.window = windowOf window := by
  rcases configure_eq_ok done with ⟨-, -, -, done⟩
  rw [configureKind_apply, restart_kind] at done
  simp only [Extractor.name]
  cases kind : setup.extractor.kind with
  | clusters clusters =>
      rw [kind] at done
      rcases configureClusters_eq_ok done with ⟨_, _, _, _, _, _, _, _, _, _, rfl⟩
      exact ⟨rfl, rfl⟩
  | gazetteers entries =>
      rw [kind] at done
      rcases configureGazetteers_eq_ok done with ⟨_, _, rfl⟩
      exact ⟨rfl, rfl⟩
  | addresses types =>
      rw [kind] at done
      rcases configureAddresses_eq_ok done with ⟨_, _, rfl⟩
      exact ⟨rfl, rfl⟩
  | capitalization source =>
      rw [kind] at done
      rcases reserve_eq_ok done with ⟨_, _, rfl⟩
      exact ⟨congrArg Kind.name kind, rfl⟩
  | numericValue =>
      rw [kind] at done
      rcases reserve_eq_ok done with ⟨_, _, rfl⟩
      exact ⟨congrArg Kind.name kind, rfl⟩
  | containers | lemmaTerm | lexical _ | earlierLabel =>
      rw [kind] at done
      cases done
      exact ⟨congrArg Kind.name kind, rfl⟩

/-- The kinds that take no arguments and reserve nothing are left with the empty table. -/
theorem eq_restart_of_configure_containers {resources : Resources} {window : Int32}
    {arguments : List String} {setup after : Setup}
    (isContainers : setup.extractor.kind = .containers)
    (done : configure resources window arguments setup = .ok () after) :
    after = setup.restart 0 := by
  rcases configure_eq_ok done with ⟨zero, -, -, done⟩
  rw [configureKind_apply, restart_kind, isContainers] at done
  cases done
  rw [zero (congrArg Kind.name isContainers)]
  rfl

end Setup

end EntityFeatures

import EntityFeatures.Extractor.Annotate
import EntityFeatures.Proofs.Coupling
import EntityFeatures.Proofs.Extractor.Configuration
import EntityFeatures.Proofs.Extractor.RoundTrip

/-!
# Extractors that are used again

An extractor may be configured or loaded although it has been used before, and an earlier
attempt may have left it half changed. `Setup.couples_configure` and
`Extractor.matches_load` say that nothing of this is left in the end: the outcome is the one
that a fresh extractor of the same name has.

What an extractor was can differ in three parts. The window and the table are replaced
first, whatever the kind is. What only the kind has is replaced last, and before that the
step may fail, so after an error it is not known. `Kind.Kin` relates kinds that differ in
this part only.

The extractor of containers is the exception. Loading does not touch it, so it has to be
known that it never holds anything, `Extractor.Handled.isBlankIfContainers`.
-/

namespace EntityFeatures

open Model

namespace Kind

/-- Kinds that are the same but for the tables or the types that they hold. -/
inductive Kin : Kind → Kind → Prop
  | same (kind : Kind) : Kin kind kind
  | clusters (left right : ClusterTable) : Kin (.clusters left) (.clusters right)
  | gazetteers (left right : PhraseTable) : Kin (.gazetteers left) (.gazetteers right)
  | addresses (left right : AddressTypes) : Kin (.addresses left) (.addresses right)

theorem kin_ofName_name (kind : Kind) : Kin kind (ofName kind.name) := by
  cases kind with
  | clusters clusters => exact .clusters clusters #[]
  | gazetteers entries => exact .gazetteers entries #[]
  | addresses types => exact .addresses types {}
  | lexical source => cases source <;> exact .same _
  | capitalization source => cases source <;> exact .same _
  | containers | lemmaTerm | numericValue | earlierLabel => exact .same _

theorem Kin.name_eq {left right : Kind} (kin : Kin left right) : left.name = right.name := by
  cases kin <;> rfl

end Kind

namespace Setup

/-- Setups that differ in nothing but what is to be replaced. -/
structure Renewable (left right : Setup) : Prop where
  kin : left.extractor.kind.Kin right.extractor.kind
  types_eq : left.types = right.types
  total_eq : left.total = right.total

/-- Setups that differ in nothing but what only the kinds hold. -/
structure Restarted (left right : Setup) : Prop extends Renewable left right where
  window_eq : left.extractor.window = right.extractor.window
  table_eq : left.extractor.table = right.extractor.table

/-- The types and the counter, which other extractors use too, are the same. -/
def SameShared (left right : Setup) : Prop :=
  left.types = right.types ∧ left.total = right.total

theorem Renewable.sameShared {left right : Setup} (renewable : Renewable left right) :
    SameShared left right :=
  ⟨renewable.types_eq, renewable.total_eq⟩

variable {resources : Resources} {arguments : List String}

/-- A configuration in order: the name of the extractor does not change on the way. -/
theorem configure_apply (resources : Resources) (window : Int32) (arguments : List String)
    (setup : Setup) :
    configure resources window arguments setup =
      (do setWindow setup.extractor.name window
          checkWindow setup.extractor.name
          configureKind resources arguments : SetupStep Unit) setup := rfl

theorem couples_setWindow (name : ExtractorName) (window : Int32) :
    Couples Renewable Restarted SameShared (setWindow name window) (setWindow name window) := by
  intro left right renewable
  simp only [setWindow]
  split
  · exact .error renewable.sameShared
  · split
    · exact .error renewable.sameShared
    · exact .ok ⟨⟨renewable.kin, renewable.types_eq, renewable.total_eq⟩, rfl, rfl⟩

theorem couples_checkWindow (name : ExtractorName) :
    Couples Restarted Restarted SameShared (checkWindow name) (checkWindow name) := by
  intro left right restarted
  have window_eq := restarted.window_eq
  have total_eq := restarted.total_eq
  simp only [checkWindow, get_bind_apply, window_eq, total_eq]
  split
  · exact .error restarted.sameShared
  · exact .ok restarted

section Kinds

variable {window : Window} {table : KeyTable} {types : Registry} {total : FeatureId}

theorem matches_configureClusters (one other : ClusterTable) :
    Matches Eq SameShared
      (configureClusters resources arguments ⟨⟨window, table, .clusters one⟩, types, total⟩)
      (configureClusters resources arguments ⟨⟨window, table, .clusters other⟩, types, total⟩) := by
  cases arguments with
  | nil => exact .error ⟨rfl, rfl⟩
  | cons path rest =>
      simp only [configureClusters]
      cases ClusterTable.prefixLengths rest with
      | error fault => exact .error ⟨rfl, rfl⟩
      | ok lengths =>
          cases resources.readText path with
          | error fault => exact .error ⟨rfl, rfl⟩
          | ok text =>
              simp only [readClusters, get_bind_apply]
              cases ClusterReading.readText path total window lengths text {} with
              | ok total reading => exact .ok rfl
              | error fault reading => exact .error ⟨rfl, rfl⟩

theorem matches_configureGazetteers (one other : PhraseTable) :
    Matches Eq SameShared
      (configureGazetteers resources arguments ⟨⟨window, table, .gazetteers one⟩, types, total⟩)
      (configureGazetteers resources arguments
        ⟨⟨window, table, .gazetteers other⟩, types, total⟩) := by
  simp only [configureGazetteers, get_bind_apply]
  cases PhraseReading.readFiles resources window arguments { total } with
  | ok _ reading => exact .ok rfl
  | error fault reading => exact .error ⟨rfl, rfl⟩

theorem matches_configureAddresses (one other : AddressTypes) :
    Matches Eq SameShared
      (configureAddresses arguments ⟨⟨window, table, .addresses one⟩, types, total⟩)
      (configureAddresses arguments ⟨⟨window, table, .addresses other⟩, types, total⟩) := by
  rcases arguments with _ | ⟨web, _ | ⟨mail, _ | ⟨third, rest⟩⟩⟩
  · exact .error ⟨rfl, rfl⟩
  · exact .error ⟨rfl, rfl⟩
  · exact Matches.of_eq fun _ => ⟨rfl, rfl⟩
  · exact .error ⟨rfl, rfl⟩

theorem couples_configureKind (resources : Resources) (arguments : List String) :
    Couples Restarted Eq SameShared (configureKind resources arguments)
      (configureKind resources arguments) := by
  rintro ⟨⟨window, table, kind⟩, types, total⟩ ⟨⟨_, _, other⟩, _, _⟩ ⟨⟨kin, rfl, rfl⟩, rfl, rfl⟩
  cases kin with
  | same => exact Matches.of_eq fun _ => ⟨rfl, rfl⟩
  | clusters one other => exact matches_configureClusters one other
  | gazetteers one other => exact matches_configureGazetteers one other
  | addresses one other => exact matches_configureAddresses one other

end Kinds

/--
A configuration has the same outcome whatever the extractor was before. When it fails, it does
so for the same reason, with the same types and the same counter.
-/
theorem couples_configure (resources : Resources) (window : Int32) (arguments : List String) :
    Couples Renewable Eq SameShared (configure resources window arguments)
      (configure resources window arguments) := by
  intro left right renewable
  have name_eq : left.extractor.name = right.extractor.name := renewable.kin.name_eq
  have steps := (couples_setWindow left.extractor.name window).bind fun _ =>
    (couples_checkWindow left.extractor.name).bind fun _ =>
      couples_configureKind resources arguments
  rw [configure_apply, configure_apply, ← name_eq]
  exact steps left right renewable

end Setup

theorem AddressTypes.couples_load : Reader.Couples (fun _ _ => True) Eq load load := by
  apply Reader.Couples.bind Reader.Couples.word
  intro web
  have webSet : Reader.Couples (fun _ _ => True)
      (fun left right : AddressTypes => left.web = right.web)
      (Reader.update fun types => { types with web })
      (Reader.update fun types => { types with web }) :=
    Reader.Couples.update fun _ _ _ => rfl
  apply webSet.bind
  intro _
  apply Reader.Couples.bind Reader.Couples.word
  intro mail
  apply Reader.Couples.update
  intro left right same
  simp [same]

namespace Extractor

/-- Extractors of these kinds that differ in nothing but the kinds. -/
structure Refilled (one other : Kind) (left right : Extractor) : Prop where
  window_eq : left.window = right.window
  table_eq : left.table = right.table
  left_kind : left.kind = one
  right_kind : right.kind = other

theorem couples_loadKind {one other : Kind} (kin : one.Kin other) :
    Reader.Couples (Refilled one other) Eq (loadKind one) (loadKind other) := by
  have replaces : ∀ (kind : Kind) (left right : Extractor), Refilled one other left right →
      setKind kind left = setKind kind right := by
    intro kind left right refilled
    simp [setKind, refilled.window_eq, refilled.table_eq]
  cases kin with
  | same =>
      intro left right data refilled
      apply Reader.Couples.of_eq
      rcases left with ⟨window, table, one⟩
      rcases right with ⟨_, _, other⟩
      rcases refilled with ⟨window_eq, table_eq, left_kind, right_kind⟩
      cases window_eq
      cases table_eq
      cases left_kind
      cases right_kind
      rfl
  | clusters one other =>
      apply Reader.Couples.within (Reader.Couples.renew #[] _) (fun _ => one) (fun _ => other)
      intro clusters
      exact replaces (.clusters clusters)
  | gazetteers one other =>
      apply Reader.Couples.within (Reader.Couples.renew #[] _) (fun _ => one) (fun _ => other)
      intro entries
      exact replaces (.gazetteers entries)
  | addresses one other =>
      apply Reader.Couples.within AddressTypes.couples_load (fun _ => one) (fun _ => other)
      intro types
      exact replaces (.addresses types)

theorem couples_loadFields {one other : Kind} (kin : one.Kin other) :
    Reader.Couples (fun left right => left.kind = one ∧ right.kind = other) Eq
      (loadFields one) (loadFields other) := by
  apply Reader.Couples.bind Reader.Couples.word
  intro window
  have windowSet : Reader.Couples (fun left right => left.kind = one ∧ right.kind = other)
      (fun left right => left.window = right.window ∧ left.kind = one ∧ right.kind = other)
      (Reader.update (setWindow window)) (Reader.update (setWindow window)) :=
    Reader.Couples.update fun _ _ kinds => ⟨rfl, kinds⟩
  apply windowSet.bind
  intro _
  have tableRead : Reader.Couples
      (fun left right => left.window = right.window ∧ left.kind = one ∧ right.kind = other)
      (Refilled one other) (Reader.within table setTable KeyTable.load)
      (Reader.within table setTable KeyTable.load) :=
    Reader.Couples.within (Reader.Couples.renew ∅ _) table table fun _ _ _ known =>
      ⟨known.1, rfl, known.2.1, known.2.2⟩
  apply tableRead.bind
  intro _
  exact couples_loadKind kin

theorem eq_ofName_of_blank {extractor : Extractor} (isContainers : extractor.kind = .containers)
    (blank : extractor.IsBlankIfContainers) : extractor = ofName extractor.name := by
  rcases extractor with ⟨window, table, kind⟩
  rcases blank isContainers with ⟨rfl, rfl⟩
  cases isContainers
  rfl

/-- Loading has the same outcome as it has with a fresh extractor of the name. -/
theorem matches_load {used : Extractor} (blank : used.IsBlankIfContainers) (data : List UInt8) :
    Matches Eq Reader.SamePlace (load (used, data)) (load (ofName used.name, data)) := by
  by_cases isContainers : used.kind = .containers
  · rw [← eq_ofName_of_blank isContainers blank]
    exact Matches.of_eq fun _ => rfl
  · have fresh : (ofName used.name).kind ≠ .containers := by
      rwa [ne_eq, name, ofName_name_eq_containers_iff]
    rw [load_of_ne_containers isContainers, load_of_ne_containers fresh]
    have coupled := couples_loadFields used.kind.kin_ofName_name
    have matched := coupled used (ofName used.name) data ⟨rfl, rfl⟩
    exact matched.imp fun _ _ same => Prod.ext same.1 same.2

end Extractor

section Histories

/-- The extractor is not that of containers. -/
def Extractor.IsOther (extractor : Extractor) : Prop :=
  extractor.kind ≠ .containers

namespace Setup

variable {resources : Resources} {arguments : List String}

/-- Clusters come with a table, and with a counter once their file has been read. -/
theorem preserves_configureClusters {Holds : Setup → Prop}
    (fills : ∀ setup table clusters, Holds setup →
      Holds (setup.setTable table (.clusters clusters)))
    (counts : ∀ setup total, Holds setup → Holds (setup.setTotal total)) :
    Preserves Holds (configureClusters resources arguments) := by
  intro setup holds
  cases arguments with
  | nil => exact holds
  | cons path rest =>
      simp only [configureClusters]
      cases ClusterTable.prefixLengths rest with
      | error fault => exact holds
      | ok lengths =>
          cases resources.readText path with
          | error fault => exact holds
          | ok text =>
              simp only [readClusters, get_bind_apply]
              cases ClusterReading.readText path setup.total setup.extractor.window lengths
                  text {} with
              | ok total reading => exact counts _ _ (fills _ _ _ holds)
              | error fault reading => exact fills _ _ _ holds

theorem preserves_configureGazetteers {Holds : Setup → Prop}
    (fills : ∀ setup table entries, Holds setup →
      Holds (setup.setTable table (.gazetteers entries)))
    (counts : ∀ setup total, Holds setup → Holds (setup.setTotal total)) :
    Preserves Holds (configureGazetteers resources arguments) := by
  intro setup holds
  simp only [configureGazetteers, get_bind_apply]
  cases PhraseReading.readFiles resources setup.extractor.window arguments
      { total := setup.total } with
  | ok _ reading => exact counts _ _ (fills _ _ _ holds)
  | error fault reading => exact counts _ _ (fills _ _ _ holds)

theorem preserves_configureAddresses :
    Preserves (fun setup => setup.extractor.IsOther) (configureAddresses arguments) := by
  intro setup other
  rcases arguments with _ | ⟨web, _ | ⟨mail, _ | ⟨third, rest⟩⟩⟩
  · exact other
  · exact other
  · simp only [configureAddresses, get_bind_apply, set_bind_apply]
    split <;> exact Kind.noConfusion
  · exact other

theorem preserves_reserve {Holds : Setup → Prop} (name : ExtractorName) (keys : List String)
    (fills : ∀ setup table, Holds setup → Holds (setup.setTable table setup.extractor.kind))
    (counts : ∀ setup total, Holds setup → Holds (setup.setTotal total)) :
    Preserves Holds (reserve name keys) := by
  intro setup holds
  simp only [reserve, get_bind_apply, set_bind_apply]
  split <;> exact counts _ _ (fills _ _ holds)

theorem preserves_configureKind :
    Preserves (fun setup => setup.extractor.IsOther) (configureKind resources arguments) := by
  have counts (setup : Setup) (total : FeatureId) (other : setup.extractor.IsOther) :
      (setup.setTotal total).extractor.IsOther := other
  intro setup other
  rw [configureKind_apply]
  cases setup.extractor.kind with
  | clusters _ =>
      exact preserves_configureClusters (fun _ _ _ _ => Kind.noConfusion) counts setup other
  | gazetteers _ =>
      exact preserves_configureGazetteers (fun _ _ _ _ => Kind.noConfusion) counts setup other
  | addresses _ => exact preserves_configureAddresses setup other
  | capitalization source => exact preserves_reserve _ _ (fun _ _ other => other) counts setup other
  | numericValue => exact preserves_reserve _ _ (fun _ _ other => other) counts setup other
  | containers | lemmaTerm | lexical _ | earlierLabel => exact other

theorem preserves_checkWindow {Holds : Setup → Prop} (name : ExtractorName) :
    Preserves Holds (checkWindow name) := by
  intro setup holds
  simp only [checkWindow, get_bind_apply]
  split <;> exact holds

theorem preserves_configure (resources : Resources) (window : Int32) (arguments : List String) :
    Preserves (fun setup => setup.extractor.IsOther) (configure resources window arguments) := by
  intro setup other
  have windowSet : Preserves (fun setup : Setup => setup.extractor.IsOther)
      (setWindow setup.extractor.name window) := by
    intro setup other
    simp only [setWindow]
    split
    · exact other
    · split <;> exact other
  rw [configure_apply]
  exact (windowSet.bind fun _ => (preserves_checkWindow _).bind fun _ =>
    preserves_configureKind) setup other

/-- The extractor of containers is given no window but zero, and no keys. -/
theorem preserves_configure_containers (resources : Resources) (window : Int32)
    (arguments : List String) :
    Preserves (fun setup => setup.extractor = .ofName .czechAddContainers)
      (configure resources window arguments) := by
  intro setup fresh
  have windowSet : Preserves (fun setup : Setup => setup.extractor = .ofName .czechAddContainers)
      (setWindow .czechAddContainers window) := by
    intro setup fresh
    simp only [setWindow]
    split
    · exact fresh
    · split
      next => exact fresh
      next zero _ =>
        have zero : window = 0 := by simpa using zero
        rcases setup with ⟨extractor, types, total⟩
        cases fresh
        cases zero
        rfl
  have kindDone : Preserves (fun setup : Setup => setup.extractor = .ofName .czechAddContainers)
      (configureKind resources arguments) := by
    rintro ⟨extractor, types, total⟩ fresh
    cases fresh
    rfl
  have named : setup.extractor.name = .czechAddContainers := by
    rw [fresh]
    rfl
  rw [configure_apply, named]
  exact (windowSet.bind fun _ => (preserves_checkWindow _).bind fun _ => kindDone) setup fresh

end Setup

namespace Extractor

theorem preserves_loadKind (kind : Kind) :
    Preserves (fun state => state.1.IsOther) (loadKind kind) := by
  -- Whatever the part is that has been read, the kind it is put into is known.
  cases kind with
  | clusters clusters =>
      apply Reader.preserves_within ClusterTable.load (fun _ => clusters)
      intro part target _
      exact Kind.noConfusion
  | gazetteers entries =>
      apply Reader.preserves_within PhraseTable.load (fun _ => entries)
      intro part target _
      exact Kind.noConfusion
  | addresses types =>
      apply Reader.preserves_within AddressTypes.load (fun _ => types)
      intro part target _
      exact Kind.noConfusion
  | containers | lemmaTerm | lexical _ | capitalization _ | numericValue | earlierLabel =>
      intro state other
      exact other

theorem preserves_loadFields (kind : Kind) :
    Preserves (fun state => state.1.IsOther) (loadFields kind) := by
  apply Preserves.bind Reader.preserves_word
  intro window
  have windowSet : Preserves (fun state : Extractor × List UInt8 => state.1.IsOther)
      (Reader.update (setWindow window)) :=
    Reader.preserves_update fun _ other => other
  have tableRead : Preserves (fun state : Extractor × List UInt8 => state.1.IsOther)
      (Reader.within table setTable KeyTable.load) :=
    Reader.preserves_within KeyTable.load table fun _ _ other => other
  exact windowSet.bind fun _ => tableRead.bind fun _ => preserves_loadKind kind

/--
The extractors that come of creating one and of using it in any way. An attempt to configure
or to load it counts as well when it fails.
-/
inductive Handled : Extractor → Prop
  | created (name : ExtractorName) : Handled (ofName name)
  | configured {extractor : Extractor} (resources : Resources) (window : Int32)
      (arguments : List String) (types : Registry) (total : FeatureId) :
      Handled extractor →
      Handled (finalState
        (Setup.configure resources window arguments ⟨extractor, types, total⟩)).extractor
  | learned {extractor : Extractor} (total : FeatureId) (sentence : Sentence) :
      Handled extractor → Handled (extractor.learn total sentence).1
  | loaded {extractor : Extractor} (data : List UInt8) :
      Handled extractor → Handled (finalState (load (extractor, data))).1

/-- An extractor that has been configured is known as far as the configuration is evaluated. -/
theorem Handled.exists_of_configure {resources : Resources} {window : Int32}
    {arguments : List String} {types : Registry} {total : FeatureId} {name : ExtractorName}
    {width : Window} {listed : List (String × UInt32)} {kind : Kind}
    (evaluated : (reached? (Setup.configure resources window arguments
        ⟨ofName name, types, total⟩)).map (fun setup =>
      (setup.extractor.window, setup.extractor.table.toList, setup.extractor.kind)) =
        some (width, listed, kind)) :
    ∃ extractor : Extractor, extractor.Handled ∧ extractor.window = width ∧
      extractor.table.toList = listed ∧ extractor.kind = kind := by
  rcases Option.map_eq_some_iff.mp evaluated with ⟨setup, found, known⟩
  have handled := Handled.configured resources window arguments types total (.created name)
  rw [eq_ok_of_reached? found] at handled
  cases known
  exact ⟨setup.extractor, handled, rfl, rfl, rfl⟩

theorem Handled.isOther_or_eq {extractor : Extractor} (handled : Handled extractor) :
    extractor.IsOther ∨ extractor = ofName .czechAddContainers := by
  induction handled with
  | created name =>
      cases name with
      | czechAddContainers => exact Or.inr rfl
      | _ => exact Or.inl Kind.noConfusion
  | configured resources window arguments types total _ ih =>
      rcases ih with other | fresh
      · exact Or.inl (Setup.preserves_configure resources window arguments _ other)
      · exact Or.inr (Setup.preserves_configure_containers resources window arguments _ fresh)
  | learned total sentence _ ih =>
      rcases ih with other | rfl
      · exact Or.inl other
      · exact Or.inr rfl
  | loaded data _ ih =>
      rcases ih with other | rfl
      · left
        rw [load_of_ne_containers other]
        exact preserves_loadFields _ _ other
      · exact Or.inr rfl

theorem Handled.isBlankIfContainers {extractor : Extractor} (handled : Handled extractor) :
    extractor.IsBlankIfContainers := by
  rcases handled.isOther_or_eq with other | rfl
  · intro isContainers
    exact absurd isContainers other
  · exact ofName_isBlankIfContainers .czechAddContainers

end Extractor

end Histories

end EntityFeatures

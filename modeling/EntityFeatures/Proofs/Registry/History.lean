import EntityFeatures.Proofs.Extractor.Abandonment
import EntityFeatures.Proofs.Extractor.Exhaustion
import EntityFeatures.Proofs.Extractor.Renewal
import EntityFeatures.Proofs.Registry.Indexed

/-!
# Registries over whole histories

A registry is used by callers who resolve names, and by configurations of extractors. Only the
extractor of addresses has names to add. It adds two, and it does so before it finds that one
of them is refused; the other one stays. So a configuration is for the registry nothing but
a list of calls, which may be shorter than the caller had wished: `RegistryEvent.calls`.

A call adds a name if it is asked to, if the text may be a name, and if it is new. From this
the names of a registry are known after any number of calls, `Registry.names_resolveAll`: they
are the names that were to be added and may be names, each once, in the order in which they
came up. As long as the numbers do not run out, this is a registry in which numbers and names
lead to each other, and what is in it stays.
-/

namespace EntityFeatures

/-- A name is resolved, and it is added if that is asked for. -/
structure RegistryCall where
  name : String
  adds : Bool

namespace Registry

variable {registry : Registry} {name : String}

/-- The registry after some calls. -/
def resolveAll (registry : Registry) (calls : List RegistryCall) : Registry :=
  calls.foldl (fun registry call => (registry.resolve call.name call.adds).2) registry

/-- The names that some calls ask to be added, in order. -/
def addedNames (calls : List RegistryCall) : List String :=
  (calls.filter RegistryCall.adds).map RegistryCall.name

@[simp]
theorem resolveAll_cons (registry : Registry) (call : RegistryCall) (calls : List RegistryCall) :
    registry.resolveAll (call :: calls) =
      (registry.resolve call.name call.adds).2.resolveAll calls := rfl

theorem resolveAll_append (registry : Registry) (front back : List RegistryCall) :
    registry.resolveAll (front ++ back) = (registry.resolveAll front).resolveAll back :=
  List.foldl_append

/-- All that a call can do to the names. -/
theorem resolve_cases (registry : Registry) (name : String) (add : Bool) :
    (add = true ∧ isEntityName name ∧ name ∉ registry.names ∧
        registry.resolve name add = (UInt32.ofNat registry.size, registry.push name)) ∨
      ((add = false ∨ ¬isEntityName name ∨ name ∈ registry.names) ∧
        (registry.resolve name add).2 = registry) := by
  by_cases wellFormed : isEntityName name
  · cases found : registry.find? name with
    | some id =>
        have known : name ∈ registry.names := by
          by_contra new
          rw [find?_eq_none_iff.mpr new] at found
          cases found
        exact Or.inr ⟨Or.inr (Or.inr known), by simp [resolve, wellFormed, found]⟩
    | none =>
        cases add with
        | false => exact Or.inr ⟨Or.inl rfl, by simp [resolve, wellFormed, found]⟩
        | true =>
            refine Or.inl ⟨rfl, wellFormed, find?_eq_none_iff.mp found, ?_⟩
            simp [resolve, wellFormed, found]
  · exact Or.inr ⟨Or.inr (Or.inl wellFormed), by simp [resolve, wellFormed]⟩

theorem resolve_of_new (wellFormed : isEntityName name) (new : name ∉ registry.names) :
    registry.resolve name true = (UInt32.ofNat registry.size, registry.push name) := by
  simp [resolve, wellFormed, find?_eq_none_iff.mpr new]

/-- A call that does not ask for it, a text that is no name and a known name add nothing. -/
theorem resolve_unchanged {add : Bool}
    (idle : add = false ∨ ¬isEntityName name ∨ name ∈ registry.names) :
    (registry.resolve name add).2 = registry := by
  rcases registry.resolve_cases name add with ⟨adds, wellFormed, new, -⟩ | ⟨-, same⟩
  · simp [adds, wellFormed, new] at idle
  · exact same

theorem names_resolveAll (calls : List RegistryCall) :
    (empty.resolveAll calls).names =
      ((addedNames calls).filter (isEntityName ·)).eraseDups := by
  induction calls using List.reverseRecOn with
  | nil => rfl
  | append_singleton calls call ih =>
      rw [resolveAll_append, resolveAll_cons]
      change (((empty.resolveAll calls).resolve call.name call.adds).2).names = _
      have earlier (name : String) : name ∈ (empty.resolveAll calls).names ↔
          name ∈ (addedNames calls).filter (isEntityName ·) := by
        rw [ih, List.mem_eraseDups]
      rcases (empty.resolveAll calls).resolve_cases call.name call.adds with
        ⟨adds, wellFormed, new, done⟩ | ⟨idle, same⟩
      · rw [done, push, ih]
        rw [earlier] at new
        simp only [addedNames, List.filter_append, List.map_append] at new ⊢
        simp [adds, wellFormed, eraseDups_concat, new]
      · rw [same, ih]
        simp only [earlier] at idle
        simp only [addedNames, List.filter_append, List.map_append] at idle ⊢
        rcases idle with asksNot | malformed | known
        · simp [asksNot]
        · cases adds : call.adds <;> simp [adds, malformed]
        · cases adds : call.adds with
          | false => simp [adds]
          | true =>
              have wellFormed := (List.mem_filter.mp known).2
              simp [adds, wellFormed, eraseDups_concat, known]

theorem names_prefix_resolveAll (registry : Registry) (calls : List RegistryCall) :
    registry.names <+: (registry.resolveAll calls).names := by
  induction calls generalizing registry with
  | nil => exact List.prefix_refl _
  | cons call rest ih =>
      rw [resolveAll_cons]
      refine List.IsPrefix.trans ?_ (ih _)
      rcases registry.resolve_cases call.name call.adds with ⟨-, -, -, done⟩ | ⟨-, same⟩
      · simp [done, push]
      · simp [same]

/-- All names that have been added are good to be names, and no two are the same. -/
theorem nodup_and_isEntityName_resolveAll (calls : List RegistryCall) :
    (empty.resolveAll calls).names.Nodup ∧
      ∀ name ∈ (empty.resolveAll calls).names, isEntityName name := by
  rw [names_resolveAll]
  refine ⟨nodup_eraseDups _, ?_⟩
  intro name mem
  exact (List.mem_filter.mp (List.mem_eraseDups.mp mem)).2

end Registry

namespace IndexedRegistry

/-- The tables after some calls. -/
def resolveAll (tables : IndexedRegistry) (calls : List RegistryCall) : IndexedRegistry :=
  calls.foldl (fun tables call => (tables.resolve call.name call.adds).2) tables

theorem IsSound.resolveAll {tables : IndexedRegistry} (sound : tables.IsSound)
    (calls : List RegistryCall) :
    (tables.resolveAll calls).registry = tables.registry.resolveAll calls ∧
      (tables.resolveAll calls).IsSound := by
  induction calls generalizing tables with
  | nil => exact ⟨rfl, sound⟩
  | cons call rest ih =>
      rcases sound.resolve call.name call.adds with ⟨-, same, goesOn⟩
      rw [Registry.resolveAll_cons, ← same]
      exact ih goesOn

end IndexedRegistry

/-! ## Configurations -/

/-- The calls that a configuration makes once the window is allowed. -/
def Kind.registryCalls (kind : Kind) (arguments : List String) : List RegistryCall :=
  match kind, arguments with
  | .addresses _, [web, mail] => [⟨web, true⟩, ⟨mail, true⟩]
  | _, _ => []

namespace Setup

variable {resources : Resources} {arguments : List String} {setup : Setup}

/-- The registry of a setup is this one. -/
def HasTypes (types : Registry) (setup : Setup) : Prop :=
  setup.types = types

theorem HasTypes.setTable {types : Registry} {table : KeyTable} {kind : Kind}
    (known : setup.HasTypes types) : (setup.setTable table kind).HasTypes types := known

theorem HasTypes.setTotal {types : Registry} {total : FeatureId}
    (known : setup.HasTypes types) : (setup.setTotal total).HasTypes types := known

theorem types_of_preserves {step : SetupStep Unit}
    (keeps : Preserves (HasTypes setup.types) step) :
    (finalState (step setup)).types = setup.types :=
  keeps setup rfl

theorem types_configureKind (resources : Resources) (arguments : List String) (setup : Setup) :
    (finalState (configureKind resources arguments setup)).types =
      setup.types.resolveAll (setup.extractor.kind.registryCalls arguments) := by
  rw [configureKind_apply]
  cases setup.extractor.kind with
  | clusters _ =>
      exact types_of_preserves (preserves_configureClusters (fun _ _ _ => HasTypes.setTable)
        fun _ _ => HasTypes.setTotal)
  | gazetteers _ =>
      exact types_of_preserves (preserves_configureGazetteers (fun _ _ _ => HasTypes.setTable)
        fun _ _ => HasTypes.setTotal)
  | capitalization source =>
      exact types_of_preserves (preserves_reserve _ _ (fun _ _ => HasTypes.setTable)
        fun _ _ => HasTypes.setTotal)
  | numericValue =>
      exact types_of_preserves (preserves_reserve _ _ (fun _ _ => HasTypes.setTable)
        fun _ _ => HasTypes.setTotal)
  | addresses types =>
      rcases arguments with _ | ⟨web, _ | ⟨mail, _ | ⟨third, rest⟩⟩⟩
      · rfl
      · rfl
      · simp only [configureAddresses, get_bind_apply, set_bind_apply]
        -- Both names have been resolved before it is known whether they were accepted.
        split <;> rfl
      · rfl
  | containers | lemmaTerm | lexical _ | earlierLabel => rfl

/-- A window that is negative or finds no room is refused before the kind does anything. -/
theorem types_configure_of_refused {window : Int32}
    (refused : 0 ≤ window → UInt32.size ≤ setup.total.toNat + (windowOf window).blockLength) :
    (finalState (configure resources window arguments setup)).types = setup.types := by
  rw [configure_apply]
  cases windowSet : setWindow setup.extractor.name window setup with
  | error error after =>
      rcases setWindow_eq_error windowSet with ⟨rfl, -⟩
      rw [step_bind_of_error windowSet]
      rfl
  | ok _ after =>
      rcases setWindow_eq_ok windowSet with ⟨-, nonnegative, rfl⟩
      rw [step_bind_of_ok windowSet]
      cases windowChecked : checkWindow setup.extractor.name (setup.restart (windowOf window)) with
      | error error after =>
          rcases checkWindow_eq_error windowChecked with ⟨rfl, -⟩
          rw [step_bind_of_error windowChecked]
          rfl
      | ok _ after =>
          rcases checkWindow_eq_ok windowChecked with ⟨-, behind, endFound⟩
          have full := FeatureId.blocksEnd?_one_eq_none_iff.mpr (refused nonnegative)
          rw [restart_total, restart_window, full] at endFound
          cases endFound

end Setup

/-- What can happen to a registry. A configuration may succeed or fail. -/
inductive RegistryEvent where
  | resolve (call : RegistryCall)
  | configure (resources : Resources) (extractor : Extractor) (window : Int32)
      (arguments : List String) (total : FeatureId)

/-- The calls that an event makes. -/
def RegistryEvent.calls : RegistryEvent → List RegistryCall
  | resolve call => [call]
  | configure _ extractor window arguments total =>
      if 0 ≤ window ∧ total.toNat + (Setup.windowOf window).blockLength < UInt32.size then
        extractor.kind.registryCalls arguments
      else []

namespace Registry

/-- The registry after an event. -/
def after (registry : Registry) : RegistryEvent → Registry
  | .resolve call => (registry.resolve call.name call.adds).2
  | .configure resources extractor window arguments total =>
      (finalState (Setup.configure resources window arguments ⟨extractor, registry, total⟩)).types

/-- The registry after some events. -/
def run (registry : Registry) (events : List RegistryEvent) : Registry :=
  events.foldl after registry

theorem after_eq_resolveAll (registry : Registry) (event : RegistryEvent) :
    registry.after event = registry.resolveAll event.calls := by
  cases event with
  | resolve call => rfl
  | configure resources extractor window arguments total =>
      rw [after, RegistryEvent.calls]
      split
      next allowed =>
        by_cases barred : extractor.name = .czechAddContainers ∧ window ≠ 0
        · have isContainers := Kind.name_eq_containers_iff.mp barred.1
          rw [Setup.configure_containers arguments barred.1 barred.2, isContainers]
          rfl
        · have windowFits (isContainers : extractor.name = .czechAddContainers) : window = 0 :=
            by_contra fun nonzero => barred ⟨isContainers, nonzero⟩
          rw [Setup.configure_of_room arguments windowFits allowed.1 allowed.2]
          exact Setup.types_configureKind resources arguments _
      next refused =>
        apply Setup.types_configure_of_refused
        intro nonnegative
        exact Nat.not_lt.mp fun room => refused ⟨nonnegative, room⟩

theorem run_eq_resolveAll (registry : Registry) (events : List RegistryEvent) :
    registry.run events = registry.resolveAll (events.flatMap RegistryEvent.calls) := by
  induction events generalizing registry with
  | nil => rfl
  | cons event rest ih =>
      rw [List.flatMap_cons, resolveAll_append, ← after_eq_resolveAll]
      exact ih _

theorem run_append (registry : Registry) (front back : List RegistryEvent) :
    registry.run (front ++ back) = (registry.run front).run back :=
  List.foldl_append

theorem isBijective_run {events : List RegistryEvent}
    (fits : (empty.run events).size ≤ EntityId.unknown.toNat) : (empty.run events).IsBijective := by
  rw [isBijective_iff fits, run_eq_resolveAll]
  exact nodup_and_isEntityName_resolveAll _

end Registry

namespace IndexedRegistry

/-- The tables after some events. -/
def run (tables : IndexedRegistry) (events : List RegistryEvent) : IndexedRegistry :=
  tables.resolveAll (events.flatMap RegistryEvent.calls)

end IndexedRegistry

/-- What some events have made of an empty registry. -/
structure NumbersNames (events : List RegistryEvent) (registry : Registry)
    (tables : IndexedRegistry) : Prop where
  bijective : registry.IsBijective
  distinct : registry.names.Nodup
  wellFormed : ∀ name ∈ registry.names, name ≠ "" ∧ ∀ character ∈ name.toList, ¬isBlank character
  /-- The numbers are given in the order in which the names were first added. -/
  ordered : registry.names = ((Registry.addedNames (events.flatMap RegistryEvent.calls)).filter
    (isEntityName ·)).eraseDups
  /-- The two tables are each other's inverses, and the first is the registry. -/
  inverse : tables.registry = registry ∧
    ∀ (name : String) (id : EntityId), tables.numbers[name]? = some id ↔
      registry.name? id = some name
  agrees : (∀ id, tables.name? id = registry.name? id) ∧ ∀ (name : String) (add : Bool),
    (tables.resolve name add).1 = (registry.resolve name add).1
  /-- No number or name changes or disappears, whatever happens later. -/
  steady : ∀ more, registry.names <+: (registry.run more).names ∧
    ((registry.run more).size ≤ EntityId.unknown.toNat →
      ∀ (id : EntityId) (name : String), registry.name? id = some name →
        (registry.run more).name? id = some name ∧
          ((registry.run more).resolve name false).1 = id)
  /-- A new name gets the next number if it is to be added. -/
  appends : ∀ name, isEntityName name → name ∉ registry.names →
    registry.resolve name true = (UInt32.ofNat registry.size, ⟨registry.names ++ [name]⟩)
  idle : ∀ (name : String) (add : Bool),
    add = false ∨ ¬isEntityName name ∨ name ∈ registry.names →
      (registry.resolve name add).2 = registry
  /-- What is written is read back into any registry, and nothing else is taken from the data. -/
  restores : ∀ (written rest : List UInt8), registry.save = .ok written →
    (∀ before, Registry.load (before, written ++ rest) = .ok () (registry, rest)) ∧
      ∀ before, IndexedRegistry.load (before, written ++ rest) = .ok () (tables, rest)
  /-- It can be written unless some name is longer than the field of its length can tell. -/
  writable : (∀ name ∈ registry.names, (Utf8.encode name).length < UInt32.size) →
    ∃ written, registry.save = .ok written

theorem isEntityName_iff {name : String} :
    isEntityName name = true ↔ name ≠ "" ∧ ∀ character ∈ name.toList, ¬isBlank character := by
  simp [isEntityName]

/--
A registry that begins empty and does not run out of numbers is a bijection after every step,
and what it has given out stays.
-/
theorem numbersNames_run {events : List RegistryEvent}
    (room : (Registry.empty.run events).size < 4294967295) :
    ∀ front, front <+: events →
      NumbersNames front (Registry.empty.run front) (IndexedRegistry.empty.run front) := by
  rintro front ⟨back, rfl⟩
  have grows (more : List RegistryEvent) :
      (Registry.empty.run front).names <+: ((Registry.empty.run front).run more).names := by
    rw [Registry.run_eq_resolveAll _ more]
    exact Registry.names_prefix_resolveAll _ _
  have fits : (Registry.empty.run front).size ≤ EntityId.unknown.toNat := by
    rw [Registry.run_append] at room
    exact Nat.le_of_lt (Nat.lt_of_le_of_lt (grows back).length_le room)
  have bijective := Registry.isBijective_run fits
  rcases (Registry.isBijective_iff fits).mp bijective with ⟨distinct, wellFormed⟩
  have sound := IndexedRegistry.isSound_empty.resolveAll (front.flatMap RegistryEvent.calls)
  have sameNames : (IndexedRegistry.empty.run front).registry = Registry.empty.run front := by
    rw [Registry.run_eq_resolveAll]
    exact sound.1
  have small := Nat.le_trans fits (Nat.le_of_lt EntityId.unknown.toNat_lt_size)
  refine ⟨bijective, distinct, ?wellFormed, ?ordered, ⟨sameNames, ?inverse⟩, ?agrees, ?steady,
    ?appends, ?idle, ?restores, ?writable⟩
  case wellFormed =>
    intro name mem
    exact isEntityName_iff.mp (wellFormed name mem)
  case ordered =>
    rw [Registry.run_eq_resolveAll]
    exact Registry.names_resolveAll _
  case inverse =>
    intro name id
    rw [← Registry.find?_eq_some_iff_of_nodup small distinct, ← sameNames]
    exact Eq.congr_left (sound.2 name)
  case agrees =>
    rw [← sameNames]
    exact ⟨fun _ => rfl, fun name add => (sound.2.resolve name add).1⟩
  case steady =>
    intro more
    refine ⟨grows more, ?_⟩
    intro laterFits id name named
    have still : ((Registry.empty.run front).run more).name? id = some name := by
      rcases grows more with ⟨new, same⟩
      rw [Registry.name?, ← same, List.getElem?_append_left (List.getElem?_eq_some_iff.mp named).1]
      exact named
    rw [← Registry.run_append] at still laterFits ⊢
    exact ⟨still, ((Registry.isBijective_run laterFits id name).mp still).2⟩
  case appends =>
    intro name wellFormed new
    exact Registry.resolve_of_new wellFormed new
  case idle =>
    intro name add idle
    exact Registry.resolve_unchanged idle
  case restores =>
    intro written rest encoded
    constructor
    · intro before
      exact Registry.consumes_load encoded before rest
    · intro before
      rw [← sameNames] at encoded
      exact sound.2.consumes_load encoded before rest
  case writable =>
    intro short
    have namesFit : (Registry.empty.run front).names.length < UInt32.size :=
      Nat.lt_of_le_of_lt fits EntityId.unknown.toNat_lt_size
    exact (Model.FailsIff.counted_of_forall namesFit fun name mem =>
      Model.FailsIff.text (short name mem)).written not_false

/-- The second name for the addresses is refused, and the first one stays. -/
theorem numbersNames_run_refused_name :
    let events : List RegistryEvent :=
      [.resolve ⟨"P", true⟩,
        .configure (fun _ => none) (.ofName .urlEmailDetector) 0 ["U", "e mail"] 1,
        .resolve ⟨"", true⟩, .resolve ⟨"G", false⟩, .resolve ⟨"P", true⟩, .resolve ⟨"G", true⟩]
    (Registry.empty.run events).names = ["P", "U", "G"] ∧
      (Registry.empty.run events).size < 4294967295 ∧
      ∀ front, front <+: events →
        NumbersNames front (Registry.empty.run front) (IndexedRegistry.empty.run front) := by
  intro events
  have names : (Registry.empty.run events).names = ["P", "U", "G"] := by decide +kernel
  have room : (Registry.empty.run events).size < 4294967295 := by
    rw [Registry.size, names]
    decide
  exact ⟨names, room, numbersNames_run room⟩

end EntityFeatures

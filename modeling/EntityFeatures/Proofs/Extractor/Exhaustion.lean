import EntityFeatures.Proofs.Extractor.ClusterOutcome
import EntityFeatures.Proofs.Extractor.Configuration
import EntityFeatures.Proofs.Extractor.PhraseOutcome
import EntityFeatures.Proofs.Feature.Reservation

/-!
# When the ids are exhausted

With arguments that are in order a configuration can fail only because its ids do not fit.
`Kind.Demands` lists what each kind asks for: a number of blocks, and in two cases a look-up
that takes no block. One would expect that the number alone decides. It does for all kinds but
clusters and gazetteers, which compute the centre of the next block before they know whether
they need it. So they also refuse when all blocks fit and the ids end inside the block that
would come next, if the last string of the clusters is known already or the last gazetteer is
empty. `Setup.configure_exhausted_iff` is the exact condition, and
`Setup.exhausted_although_blocks_fit` a file on which it differs from the expected one.
-/

namespace EntityFeatures

/-- The arguments are in order, but the ids do not fit. -/
def ArgumentFault.IsExhaustion : ArgumentFault → Prop
  | idsExhausted | idsExhaustedByPrefixes | idsExhaustedByFile _ => True
  | nonzeroWindow | negativeWindow _ | windowTooWide _ | noClusterFile | wrongPrefixLength _
  | wrongTypeCount _ | typesRefused _ _ => False

theorem Kind.name_eq_containers_iff {kind : Kind} :
    kind.name = .czechAddContainers ↔ kind = .containers := by
  cases kind with
  | lexical source => cases source <;> simp [Kind.name]
  | capitalization source => cases source <;> simp [Kind.name]
  | _ => simp [Kind.name]

/--
Arguments that are in order for a kind, the number of blocks that it takes with them, and
whether it ends with a look-up that takes none.
-/
inductive Kind.Demands (resources : Resources) (types : Registry) :
    Kind → List String → Nat → Prop → Prop
  | clusters {path text : String} {arguments : List String} {lengths : List Nat}
      (earlier : ClusterTable) :
      ClusterTable.prefixLengths arguments = .ok lengths → resources.readText path = .ok text →
      ClusterReading.InOrder (Text.lines text) →
      Demands resources types (.clusters earlier) (path :: arguments)
        (ClusterReading.distinctStrings lengths
          ((ClusterReading.rowsOf text).map Prod.fst)).length
        (ClusterReading.EndsKnown
          (ClusterReading.lookedUp lengths ((ClusterReading.rowsOf text).map Prod.fst)))
  | gazetteers {paths : List String} (earlier : PhraseTable) :
      (∀ path ∈ paths, ∃ text, resources.readText path = .ok text) →
      Demands resources types (.gazetteers earlier) paths
        (PhraseFile.totalBlocks resources paths) (PhraseFile.EndsEmpty resources paths)
  | addresses {web mail : String} (earlier : AddressTypes) :
      AddressTypes.areKnown ⟨(types.resolve web true).1,
        ((types.resolve web true).2.resolve mail true).1⟩ = true →
      Demands resources types (.addresses earlier) [web, mail] 0 False
  | capitalization (source : CasedAttribute) (arguments : List String) :
      Demands resources types (.capitalization source) arguments 3 False
  | numericValue (arguments : List String) :
      Demands resources types .numericValue arguments 6 False
  | containers (arguments : List String) : Demands resources types .containers arguments 0 False
  | lemmaTerm (arguments : List String) : Demands resources types .lemmaTerm arguments 0 False
  | lexical (source : Attribute) (arguments : List String) :
      Demands resources types (.lexical source) arguments 0 False
  | earlierLabel (arguments : List String) :
      Demands resources types .earlierLabel arguments 0 False

namespace Setup

/-- A configuration that is refused for its ids, and for nothing else, if there is a cause. -/
structure RefusesIff (name : ExtractorName) (cause : Prop)
    (outcome : EStateM.Result ConfigError Setup Unit) : Prop where
  configured : ¬cause → ∃ after, outcome = .ok () after
  refused : cause → ∃ fault after, fault.IsExhaustion ∧ outcome = .error (.argument name fault) after

namespace RefusesIff

variable {name : ExtractorName} {cause : Prop} {outcome : EStateM.Result ConfigError Setup Unit}

theorem ok {after : Setup} (never : ¬cause) : RefusesIff name cause (.ok () after) :=
  ⟨fun _ => ⟨after, rfl⟩, fun holds => absurd holds never⟩

theorem exhausted_iff (refuses : RefusesIff name cause outcome) :
    (∃ fault after, fault.IsExhaustion ∧ outcome = .error (.argument name fault) after) ↔
      cause := by
  refine ⟨?_, refuses.refused⟩
  rintro ⟨fault, after, -, failed⟩
  refine Classical.byContradiction fun never => ?_
  rcases refuses.configured never with ⟨other, done⟩
  rw [failed] at done
  cases done

end RefusesIff

variable {resources : Resources} {setup : Setup}

theorem configure_of_room {window : Int32} (arguments : List String)
    (allowed : setup.extractor.name = .czechAddContainers → window = 0)
    (nonnegative : 0 ≤ window)
    (room : setup.total.toNat + (windowOf window).blockLength < UInt32.size) :
    configure resources window arguments setup =
      configureKind resources arguments (setup.restart (windowOf window)) := by
  rcases FeatureId.exists_blockCentre?_and_blocksEnd? room with ⟨-, behind, -, endFound, -, -⟩
  have windowSet : setWindow setup.extractor.name window setup =
      .ok () (setup.restart (windowOf window)) := by
    rw [setWindow, if_neg fun refused => refused.2 (allowed refused.1),
      if_neg (Int32.not_lt.mpr nonnegative)]
    rfl
  have windowChecked : checkWindow setup.extractor.name (setup.restart (windowOf window)) =
      .ok () (setup.restart (windowOf window)) := by
    simp only [checkWindow, get_bind_apply]
    rw [if_neg]
    · rfl
    · rw [restart_total, restart_window, endFound]
      simp
  simp only [configure, get_bind_apply]
  rw [step_bind_of_ok windowSet, step_bind_of_ok windowChecked]

theorem configure_containers {window : Int32} (arguments : List String)
    (isContainers : setup.extractor.name = .czechAddContainers) (nonzero : window ≠ 0) :
    configure resources window arguments setup =
      .error (.argument setup.extractor.name .nonzeroWindow) setup := by
  have refused : setWindow setup.extractor.name window setup =
      .error (.argument setup.extractor.name .nonzeroWindow) setup := by
    rw [setWindow, if_pos ⟨isContainers, nonzero⟩]
    rfl
  simp only [configure, get_bind_apply]
  rw [step_bind_of_error refused]

theorem refusesIff_clusters {path text : String} {arguments : List String} {lengths : List Nat}
    (lengthsRead : ClusterTable.prefixLengths arguments = .ok lengths)
    (textRead : resources.readText path = .ok text)
    (inOrder : ClusterReading.InOrder (Text.lines text)) :
    RefusesIff .brownClusters
      (setup.extractor.window.Overrun setup.total.toNat
        (ClusterReading.distinctStrings lengths
          ((ClusterReading.rowsOf text).map Prod.fst)).length
        (ClusterReading.EndsKnown
          (ClusterReading.lookedUp lengths ((ClusterReading.rowsOf text).map Prod.fst))))
      (configureClusters resources (path :: arguments) setup) := by
  rcases ClusterReading.readText_outcome_of_inOrder path setup.total setup.extractor.window
    lengths inOrder with ⟨enough, few⟩
  rw [ClusterReading.fits_iff_not_overrun] at enough few
  rw [configureClusters_apply setup lengthsRead textRead]
  constructor
  · intro fits
    rcases enough fits with ⟨total, reading, done⟩
    rw [done]
    exact ⟨_, rfl⟩
  · intro overrun
    rcases few (not_not_intro overrun) with ⟨reading, failed⟩
    rw [failed]
    exact ⟨.idsExhaustedByPrefixes, _, trivial, rfl⟩

theorem refusesIff_gazetteers {paths : List String}
    (readable : ∀ path ∈ paths, ∃ text, resources.readText path = .ok text) :
    RefusesIff .gazetteers
      (setup.extractor.window.Overrun setup.total.toNat (PhraseFile.totalBlocks resources paths)
        (PhraseFile.EndsEmpty resources paths))
      (configureGazetteers resources paths setup) := by
  rw [configureGazetteers_apply]
  rcases PhraseReading.readFiles_outcome setup.extractor.window { total := setup.total }
    readable with
    ⟨fits, reading, done⟩ | ⟨overrun, path, reading, failed⟩
  · rw [done]
    exact .ok fits
  · rw [failed]
    exact ⟨fun fits => absurd overrun fits, fun _ => ⟨.idsExhaustedByFile path, _, trivial, rfl⟩⟩

theorem refusesIff_reserve {name : ExtractorName} (keys : List String) (distinct : keys.Nodup)
    (nonempty : "" ∉ keys) (fresh : setup.extractor.table = ∅) :
    RefusesIff name
      (setup.extractor.window.Overrun setup.total.toNat keys.length False)
      (reserve name keys setup) := by
  simp only [reserve, get_bind_apply, set_bind_apply]
  rcases Vocabulary.reserve_outcome setup.extractor.window
    ⟨setup.extractor.table, setup.total⟩ distinct nonempty (by simp [fresh]) with
    ⟨fits, vocabulary, done⟩ | ⟨taken, vocabulary, fewer, failed, -, full⟩
  · rw [done]
    refine .ok ?_
    rintro (large | ⟨never, -⟩)
    · exact Nat.not_le.mpr fits large
    · exact never
  · rw [failed]
    refine ⟨fun fits => absurd (Or.inl ?_) fits, fun _ => ⟨.idsExhausted, _, trivial, rfl⟩⟩
    have steps := Nat.mul_le_mul_left setup.extractor.window.blockLength (Nat.succ_le_of_lt fewer)
    exact Nat.le_trans full (Nat.add_le_add_left steps _)

/-- What the kind does once the window is set and the table is empty. -/
theorem refusesIff_configureKind {arguments : List String} {blocks : Nat} {lookup : Prop}
    (fresh : setup.extractor.table = ∅)
    (demands : setup.extractor.kind.Demands resources setup.types arguments blocks lookup) :
    RefusesIff setup.extractor.name
      (setup.extractor.window.Overrun setup.total.toNat blocks lookup)
      (configureKind resources arguments setup) := by
  rw [configureKind_apply, Extractor.name]
  generalize setup.extractor.kind = kind at demands
  have nothing := setup.extractor.window.not_overrun_zero setup.total.toNat_lt_size
  cases demands with
  | clusters earlier lengthsRead textRead inOrder =>
      exact refusesIff_clusters lengthsRead textRead inOrder
  | gazetteers earlier readable => exact refusesIff_gazetteers readable
  | addresses earlier known =>
      simp only [configureAddresses, get_bind_apply, set_bind_apply, known]
      exact .ok nothing
  | capitalization source =>
      exact refusesIff_reserve CaseFeature.keys (by decide) (by decide) fresh
  | numericValue =>
      exact refusesIff_reserve NumericFeature.keys (by decide) (by decide) fresh
  | containers => exact .ok nothing
  | lemmaTerm => exact .ok nothing
  | lexical => exact .ok nothing
  | earlierLabel => exact .ok nothing

/--
Arguments that are in order are refused if and only if their blocks do not fit, or a last
look-up without a block of its own needs a centre that does not fit.
-/
theorem configure_exhausted_iff {window : Int32} {arguments : List String} {blocks : Nat}
    {lookup : Prop} (nonnegative : 0 ≤ window)
    (room : setup.total.toNat + (windowOf window).blockLength < UInt32.size)
    (demands : setup.extractor.kind.Demands resources setup.types arguments blocks lookup) :
    ((∃ fault after, fault.IsExhaustion ∧ configure resources window arguments setup =
        .error (.argument setup.extractor.name fault) after) ↔
      (windowOf window).Overrun setup.total.toNat blocks lookup) ∧
    ((∃ after, configure resources window arguments setup = .ok () after) ↔
      (setup.extractor.name = .czechAddContainers → window = 0) ∧
        ¬(windowOf window).Overrun setup.total.toNat blocks lookup) := by
  by_cases allowed : setup.extractor.name = .czechAddContainers → window = 0
  · have refuses := refusesIff_configureKind (restart_table (windowOf window) setup) demands
    rw [← configure_of_room arguments allowed nonnegative room] at refuses
    refine ⟨refuses.exhausted_iff, ?_⟩
    rw [and_iff_right allowed]
    constructor
    · rintro ⟨after, done⟩ overrun
      rcases refuses.refused overrun with ⟨fault, left, -, failed⟩
      rw [done] at failed
      cases failed
    · exact refuses.configured
  -- Containers refuse a window before any id is counted, and they need none.
  · rcases Classical.not_imp.mp allowed with ⟨isContainers, nonzero⟩
    have nothing : ¬(windowOf window).Overrun setup.total.toNat blocks lookup := by
      rw [Kind.name_eq_containers_iff.mp isContainers] at demands
      cases demands
      exact Window.not_overrun_zero _ setup.total.toNat_lt_size
    rw [configure_containers arguments isContainers nonzero]
    refine ⟨iff_of_false ?_ nothing, iff_of_false ?_ fun configured => allowed configured.1⟩
    · rintro ⟨fault, after, exhausted, failed⟩
      simp only [EStateM.Result.error.injEq, ConfigError.argument.injEq] at failed
      rw [← failed.1.2] at exhausted
      exact exhausted
    · rintro ⟨after, done⟩
      cases done

/-- The first file takes the last blocks, and the second has no phrase to take one for. -/
theorem configure_exhausted_iff_empty_file :
    let resources : Resources := fun path =>
      some (Utf8.encode (if path = "one" then "paris" else ""))
    let setup (total : FeatureId) : Setup := ⟨.ofName .gazetteers, ⟨[]⟩, total⟩
    Kind.Demands resources ⟨[]⟩ (.gazetteers #[]) ["one", "none"]
        (PhraseFile.totalBlocks resources ["one", "none"])
        (PhraseFile.EndsEmpty resources ["one", "none"]) ∧
      PhraseFile.totalBlocks resources ["one", "none"] = 2 ∧
      (∃ fault after, fault.IsExhaustion ∧
        configure resources 1 ["one", "none"] (setup 4294967289) =
          .error (.argument .gazetteers fault) after) ∧
      ∃ after, configure resources 1 ["one", "none"] (setup 4294967288) = .ok () after := by
  intro resources setup
  have readable : ∀ path ∈ ["one", "none"], ∃ text, resources.readText path = .ok text := by
    intro path _
    refine ⟨if path = "one" then "paris" else "", ?_⟩
    simp only [resources, Resources.readText, Utf8.decode_encode]
  have demands : Kind.Demands resources ⟨[]⟩ (.gazetteers #[]) ["one", "none"]
      (PhraseFile.totalBlocks resources ["one", "none"])
      (PhraseFile.EndsEmpty resources ["one", "none"]) := .gazetteers #[] readable
  have blocks : PhraseFile.totalBlocks resources ["one", "none"] = 2 := by decide +kernel
  have ends : PhraseFile.EndsEmpty resources ["one", "none"] :=
    ⟨"none", rfl, by decide +kernel⟩
  refine ⟨demands, blocks, ?_, ?_⟩
  · apply (@configure_exhausted_iff resources (setup 4294967289) 1 _ _ _ (by decide)
      (by decide +kernel) demands).1.mpr
    refine Or.inr ⟨ends, ?_⟩
    rw [blocks]
    decide +kernel
  · apply (@configure_exhausted_iff resources (setup 4294967288) 1 _ _ _ (by decide)
      (by decide +kernel) demands).2.mpr
    rw [blocks]
    refine ⟨fun isContainers => absurd isContainers (by decide), ?_⟩
    rintro (large | ⟨-, large⟩)
    · exact absurd large (by decide +kernel)
    · exact absurd large (by decide +kernel)

/--
The strings `ab`, `a` and `ac` are three blocks and would fit. But `a` comes up a second time
behind them, and the centre of a fourth block is no id.
-/
theorem exhausted_although_blocks_fit :
    let resources : Resources := fun _ => some (Utf8.encode "ab\tx\nac\ty\n")
    let setup : Setup := ⟨.ofName .brownClusters, ⟨[]⟩, 4294967286⟩
    (∃ lookup, Kind.Demands resources setup.types setup.extractor.kind ["c", "1"] 3 lookup) ∧
      setup.total.toNat + (windowOf 1).blockLength < UInt32.size ∧
      setup.total.toNat + (windowOf 1).blockLength * 3 < UInt32.size ∧
      ∃ after, configure resources 1 ["c", "1"] setup =
        .error (.argument .brownClusters .idsExhaustedByPrefixes) after := by
  intro resources setup
  have lengthsRead : ClusterTable.prefixLengths ["1"] = .ok [1] :=
    eq_ok_of_toOption (by decide +kernel)
  have textRead : resources.readText "c" = .ok "ab\tx\nac\ty\n" :=
    eq_ok_of_toOption (by decide +kernel)
  have inOrder : ClusterReading.InOrder (Text.lines "ab\tx\nac\ty\n") :=
    ClusterReading.inOrder_of_map_row? [("ab", "x"), ("ac", "y")] (by decide +kernel)
      (by decide)
  have blocks : (ClusterReading.distinctStrings [1]
      ((ClusterReading.rowsOf "ab\tx\nac\ty\n").map Prod.fst)).length = 3 := by decide +kernel
  have demands : Kind.Demands resources ⟨[]⟩ (.clusters #[]) ["c", "1"] _ _ :=
    .clusters #[] lengthsRead textRead inOrder
  rw [blocks] at demands
  exact ⟨⟨_, demands⟩, by decide +kernel, by decide +kernel,
    eq_error_of_fault? (by decide +kernel)⟩

end Setup

end EntityFeatures

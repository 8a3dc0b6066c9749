import EntityFeatures.Proofs.Extractor.Capacity
import EntityFeatures.Proofs.Pipeline.Provenance

/-!
# When a pipeline cannot be saved

As long as its sizes fit into four bytes, a pipeline can be saved unless a gazetteer has an
entry with more features than one byte can count. This is put together from the extractors
by `Pipeline.failsIff_save`. What such an entry means for the files is the second question.
An entry has one feature for each file that lists its phrase, the same file given twice
counting twice, so `PhraseReading.overfull_iff` counts files. Learning changes no entry, and
neither does saving and loading, so it is the template and the files that decide.

A pipeline that was loaded can always be saved, whatever the data were. Its sizes fit because
they were read from fields, and its entries have no more features than a byte can count.
-/

namespace EntityFeatures

open Model
open Model.Reader

namespace PhraseFile

/-- How many of several files list a phrase. -/
def listings (resources : Resources) (paths : List String) (phrase : String) : Nat :=
  paths.countP fun path => decide (phrase ∈ phrases resources path)

theorem listings_le (resources : Resources) (paths : List String) (phrase : String) :
    listings resources paths phrase ≤ paths.length :=
  List.countP_le_length

theorem length_flatMap_zipIdx {Item Mark : Type} (holds : Item → Prop) [DecidablePred holds]
    (mark : Nat → Mark) (items : List Item) (start : Nat) :
    ((items.zipIdx start).flatMap fun (item, place) =>
        if holds item then [mark place] else []).length =
      items.countP fun item => decide (holds item) := by
  induction items generalizing start with
  | nil => rfl
  | cons item rest ih =>
      rw [List.zipIdx_cons, List.flatMap_cons, List.length_append, ih, List.countP_cons]
      by_cases here : holds item <;> simp [here, Nat.add_comm]

theorem length_features_entryOf {resources : Resources} {window : Window} {first : Nat}
    {paths : List String}
    (room : first + window.blockLength * totalBlocks resources paths < UInt32.size)
    (phrase : String) :
    (entryOf (markedLines resources window first paths) phrase).features.length =
      listings resources paths phrase := by
  rw [features_entryOf_markedLines room]
  exact length_flatMap_zipIdx (fun path => phrase ∈ phrases resources path)
    (fun file => UInt32.ofNat (window.centre first (blocksBefore resources paths file))) paths 0

end PhraseFile

namespace PhraseReading

variable {resources : Resources} {window : Window} {paths : List String} {total : FeatureId}
  {reading : PhraseReading}

theorem reflects_of_readFiles
    (filesRead : readFiles resources window paths { total } = .ok () reading)
    (numbered : reading.entries.size ≤ UInt32.size) :
    Reflects (PhraseNote.ofMarked (PhraseFile.markedLines resources window total.toNat paths))
      reading := by
  rcases readFiles_eq_ok filesRead with ⟨-, added⟩
  rw [added] at numbered ⊢
  dsimp only at numbered
  rw [← PhraseNote.foldl_addNote_ofMarked] at numbered ⊢
  have reflects := (Reflects.empty total).foldl_addNote numbered
  exact ⟨reflects.ranks, reflects.size_eq, reflects.getElem?_entries⟩

theorem Reflects.exists_phrase {notes : List PhraseNote} (reflects : Reflects notes reading)
    {entry : PhraseEntry} (mem : entry ∈ reading.entries) :
    ∃ phrase, entry = PhraseNote.entryOf notes phrase := by
  rcases Array.mem_iff_getElem?.mp mem with ⟨rank, found⟩
  have inside := (Array.getElem?_eq_some_iff.mp found).1
  rw [reflects.size_eq] at inside
  have listed := List.getElem?_eq_getElem inside
  have stored := reflects.getElem?_entries rank _ listed
  rw [found, Option.some.injEq] at stored
  exact ⟨_, stored⟩

/-- Some entry is overfull if and only if some phrase is listed by more than 255 files. -/
theorem overfull_iff
    (filesRead : readFiles resources window paths { total } = .ok () reading)
    (fits : PhraseTable.Fits reading.entries) :
    PhraseTable.Overfull reading.entries ↔
      ∃ phrase, 255 < PhraseFile.listings resources paths phrase := by
  have counted := (readFiles_eq_ok filesRead).1
  have room := reading.total.toNat_lt_size
  rw [counted] at room
  have reflects := reflects_of_readFiles filesRead (Nat.le_of_lt fits)
  constructor
  · rintro ⟨entry, mem, large⟩
    rcases reflects.exists_phrase mem with ⟨phrase, rfl⟩
    refine ⟨phrase, ?_⟩
    rw [← PhraseFile.length_features_entryOf room]
    exact large
  · rintro ⟨phrase, large⟩
    rw [← PhraseFile.length_features_entryOf room] at large
    have answer := reflects.find?_getD phrase
    cases found : reading.entries.find? reading.phrases phrase with
    | none =>
        rw [found, Option.getD_none] at answer
        rw [PhraseFile.entryOf, ← answer] at large
        cases large
    | some entry =>
        rw [found, Option.getD_some] at answer
        subst answer
        refine ⟨_, ?_, large⟩
        rw [PhraseTable.find?] at found
        split at found
        next number _ => exact Array.mem_of_getElem? found
        next => cases found

end PhraseReading

namespace ExtractorName

theorem length_encode_text_lt (name : ExtractorName) :
    (Utf8.encode name.text).length < UInt32.size := by
  cases name <;> decide +kernel

end ExtractorName

namespace Pipeline

/-- All sizes of a pipeline can be written in four bytes. -/
structure Fits (pipeline : Pipeline) : Prop where
  length_lt : pipeline.extractors.length < UInt32.size
  extractors : ∀ extractor ∈ pipeline.extractors, extractor.Fits

theorem fits_of_single {extractor : Extractor} (fits : extractor.Fits) (total : FeatureId) :
    Fits ⟨[extractor], total⟩ := by
  refine ⟨by simp [UInt32.size], ?_⟩
  intro listed mem
  rw [List.mem_singleton.mp mem]
  exact fits

theorem failsIff_saveExtractor {extractor : Extractor} (fits : extractor.Fits) :
    FailsIff extractor.kind.Overfull (saveExtractor extractor) := by
  have name := FailsIff.text extractor.name.length_encode_text_lt
  apply (name.bind fun _ => (Extractor.failsIff_save fits).bind fun _ => .ok _).of_iff
  simp

theorem failsIff_save {pipeline : Pipeline} (fits : pipeline.Fits) :
    FailsIff (∃ extractor ∈ pipeline.extractors, extractor.kind.Overfull) pipeline.save := by
  have extractors := FailsIff.counted fits.length_lt fun extractor mem =>
    failsIff_saveExtractor (fits.extractors extractor mem)
  have total := FailsIff.word pipeline.total.toNat_lt_size
  apply (total.bind fun _ => extractors.bind fun _ => .ok _).of_iff
  simp

section Loading

/-- What is known of a pipeline after so many extractors have been read. -/
def FilledBy (rounds : Nat) (pipeline : Pipeline) : Prop :=
  pipeline.extractors.length = rounds ∧ ∀ extractor ∈ pipeline.extractors, extractor.Storable

theorem ensures_loadExtractor (round : Nat) :
    Ensures (FilledBy round) loadExtractor fun _ => FilledBy (round + 1) := by
  refine Ensures.bind (Ensures.text.imp fun _ _ known => known.2) fun name => ?_
  cases created : Extractor.create? name with
  | none => exact Ensures.throw (.unknownExtractor name)
  | some fresh =>
      have blank : fresh.Storable := by
        rw [TemplateState.eq_ofName_of_create? created]
        exact Extractor.storable_ofName fresh.name
      refine Ensures.bind (Ensures.build Extractor.ensures_load blank) fun extractor => ?_
      apply Ensures.update
      rintro pipeline ⟨loaded, rfl, storable⟩
      refine ⟨by simp [push], ?_⟩
      intro other mem
      rcases List.mem_append.mp mem with old | last
      · exact storable other old
      · rw [List.mem_singleton.mp last]
        exact loaded

theorem ensures_load :
    Ensures (fun _ => True) load fun _ pipeline =>
      pipeline.Fits ∧ ∀ extractor ∈ pipeline.extractors, ¬extractor.kind.Overfull := by
  refine Ensures.bind Ensures.word fun total => ?_
  have start (pipeline : Pipeline) : FilledBy 0 (restart total pipeline) := by
    simp [FilledBy, restart]
  refine (Ensures.restart start ensures_loadExtractor).imp ?_
  rintro _ pipeline ⟨rounds, bound, rfl, storable⟩
  exact ⟨⟨bound, fun extractor mem => (storable extractor mem).1⟩,
    fun extractor mem => (storable extractor mem).2⟩

end Loading

section Files

variable {resources : Resources} {template : List UInt8} {types : Registry} {pipeline : Pipeline}

theorem map_kind_of_reaches {before after : Pipeline} (reaches : Reaches before after) :
    after.extractors.map Extractor.kind = before.extractors.map Extractor.kind := by
  induction reaches with
  | refl => rfl
  | tail _ last ih =>
      rcases last with ⟨place, key, centre, ⟨keyed, -⟩⟩
      simpa using ih

/-- Whatever was learned, and however often it was saved, the kinds are those of the template. -/
theorem DescendsFrom.exists_kinds (descends : DescendsFrom resources template types pipeline) :
    ∃ start, (ofTemplate resources template types).1 = .ok start ∧
      pipeline.extractors.map Extractor.kind = start.extractors.map Extractor.kind := by
  induction descends with
  | @configured pipeline read => exact ⟨pipeline, read, rfl⟩
  | @learned before sentence _ ih =>
      rcases ih with ⟨start, read, kinds⟩
      refine ⟨start, read, ?_⟩
      rw [map_kind_of_reaches (before.reaches_learn sentence), kinds]
  | @restored before receiver restored written rest left descends saved done ih =>
      have back := consumes_load descends.reachable.containersBlank saved receiver rest
      rw [back] at done
      cases done
      exact ih

/-- A line of the template asks for gazetteers of which more than 255 list one phrase. -/
def OverfullFiles (resources : Resources) (template : List UInt8) : Prop :=
  ∃ order ∈ Order.ofTemplate template, order.name = .gazetteers ∧
    ∃ phrase, 255 < PhraseFile.listings resources order.arguments phrase

/-- A phrase is listed no more often than there are files. -/
theorem not_overfullFiles_of_single {order : Order}
    (asked : Order.ofTemplate template = [order]) (few : order.arguments.length ≤ 255) :
    ¬OverfullFiles resources template := by
  rintro ⟨listed, mem, -, phrase, large⟩
  rw [asked, List.mem_singleton] at mem
  subst mem
  have most := PhraseFile.listings_le resources listed.arguments phrase
  omega

theorem overfullFiles_iff (read : (ofTemplate resources template types).1 = .ok pipeline)
    (fits : ∀ extractor ∈ pipeline.extractors, extractor.kind.Fits) :
    (∃ extractor ∈ pipeline.extractors, extractor.kind.Overfull) ↔
      OverfullFiles resources template := by
  rcases exists_configure_of_configures (configures_of_ofTemplate read) with
    ⟨extractors, same, names, known⟩
  rw [List.nil_append] at same
  rw [← same] at names known
  constructor
  · rintro ⟨extractor, mem, entries, isGazetteers, overfull⟩
    rcases List.mem_iff_getElem?.mp mem with ⟨index, found⟩
    rcases known index extractor found with ⟨order, _, _, setup, ordered, rfl, done, -⟩
    have named : order.name = .gazetteers := by
      have sameName := (Setup.name_and_window_of_configure done).1
      simp only [Extractor.name, isGazetteers, Extractor.ofName, Kind.name_ofName] at sameName
      exact sameName.symm
    rcases order with ⟨name, window, arguments⟩
    cases named
    rcases Setup.configure_of_gazetteers done with ⟨reading, filesRead, -, extractor_eq⟩
    have fit := fits _ mem
    rw [extractor_eq] at isGazetteers fit
    cases isGazetteers
    have listed := (PhraseReading.overfull_iff filesRead fit).mp overfull
    exact ⟨_, List.mem_of_getElem? ordered, rfl, listed⟩
  · rintro ⟨⟨name, window, arguments⟩, mem, named, listed⟩
    cases named
    rcases List.mem_iff_getElem?.mp mem with ⟨index, ordered⟩
    have length : pipeline.extractors.length = (Order.ofTemplate template).length := by
      have lengths := congrArg List.length names
      rwa [List.length_map, List.length_map] at lengths
    have inside := (List.getElem?_eq_some_iff.mp ordered).1
    rw [← length] at inside
    have found := List.getElem?_eq_getElem inside
    have extractorMem := List.mem_of_getElem? found
    rcases known index _ found with ⟨order, _, _, setup, again, isExtractor, done, -⟩
    rw [ordered, Option.some.injEq] at again
    subst again
    rcases Setup.configure_of_gazetteers done with ⟨reading, filesRead, -, extractor_eq⟩
    have fit := fits _ extractorMem
    rw [← isExtractor] at fit extractorMem
    rw [extractor_eq] at fit extractorMem
    exact ⟨_, extractorMem, _, rfl, (PhraseReading.overfull_iff filesRead fit).mpr listed⟩

theorem DescendsFrom.overfull_iff (descends : DescendsFrom resources template types pipeline)
    (fits : pipeline.Fits) :
    (∃ extractor ∈ pipeline.extractors, extractor.kind.Overfull) ↔
      OverfullFiles resources template := by
  rcases descends.exists_kinds with ⟨start, read, kinds⟩
  have ofKinds (extractors : List Extractor) (holds : Kind → Prop) :
      (∃ extractor ∈ extractors, holds extractor.kind) ↔
        ∃ kind ∈ extractors.map Extractor.kind, holds kind := by
    simp
  have startFits : ∀ extractor ∈ start.extractors, extractor.kind.Fits := by
    intro extractor mem
    have listed := List.mem_map_of_mem (f := Extractor.kind) mem
    rw [← kinds] at listed
    rcases List.mem_map.mp listed with ⟨later, laterMem, same⟩
    rw [← same]
    exact (fits.extractors later laterMem).kind
  rw [ofKinds, kinds, ← ofKinds]
  exact overfullFiles_iff read startFits

end Files

/--
A pipeline whose sizes fit cannot be saved if and only if a gazetteer has an entry with more
than 255 features; in a descendant of a template that is a phrase in more than 255 of its
files. The error is about this count. What was loaded can be saved, and is loaded again.
-/
theorem save_fails_iff :
    (∀ pipeline : Pipeline, pipeline.Fits →
      ((∃ fault, pipeline.save = .error fault) ↔
        ∃ extractor ∈ pipeline.extractors, ∃ entries, extractor.kind = .gazetteers entries ∧
          ∃ entry ∈ entries, 255 < entry.features.length) ∧
      ∀ fault, pipeline.save = .error fault →
        ∃ count : Nat, 255 < count ∧ fault = .tooWide count .one) ∧
    (∀ (resources : Resources) (template : List UInt8) (types : Registry) (pipeline : Pipeline),
      DescendsFrom resources template types pipeline → pipeline.Fits →
        ((∃ fault, pipeline.save = .error fault) ↔ OverfullFiles resources template)) ∧
    ∀ (receiver pipeline : Pipeline) (data rest : List UInt8),
      load (receiver, data) = .ok () (pipeline, rest) →
        ∃ written, pipeline.save = .ok written ∧
          ∀ (other : Pipeline) (more : List UInt8),
            load (other, written ++ more) = .ok () (pipeline, more) := by
  have fails (pipeline : Pipeline) (fits : pipeline.Fits) :
      (∃ fault, pipeline.save = .error fault) ↔
        ∃ extractor ∈ pipeline.extractors, extractor.kind.Overfull := by
    have saving := failsIff_save fits
    constructor
    · rintro ⟨fault, failed⟩
      by_contra none
      rcases saving.written none with ⟨written, done⟩
      rw [failed] at done
      cases done
    · intro overfull
      rcases saving.refused overfull with ⟨count, -, failed⟩
      exact ⟨_, failed⟩
  refine ⟨?_, ?_, ?_⟩
  · intro pipeline fits
    refine ⟨fails pipeline fits, ?_⟩
    intro fault failed
    have overfull := (fails pipeline fits).mp ⟨fault, failed⟩
    rcases (failsIff_save fits).refused overfull with ⟨count, large, refused⟩
    rw [failed] at refused
    cases refused
    exact ⟨count, large, rfl⟩
  · intro resources template types pipeline descends fits
    rw [fails pipeline fits]
    exact descends.overfull_iff fits
  · intro receiver pipeline data rest done
    rcases ensures_load _ _ _ done trivial with ⟨fits, few⟩
    have none : ¬∃ extractor ∈ pipeline.extractors, extractor.kind.Overfull := by
      rintro ⟨extractor, mem, overfull⟩
      exact few extractor mem overfull
    rcases (failsIff_save fits).written none with ⟨written, saved⟩
    refine ⟨written, saved, ?_⟩
    intro other more
    exact consumes_load (containersBlank_of_load done) saved other more

theorem save_fails_iff_repeated_file :
    (∃ fault, save ⟨[⟨0, ∅, .gazetteers #[⟨List.replicate 256 1, false⟩]⟩], 1⟩ = .error fault) ∧
    (∃ resources pipeline,
      DescendsFrom resources (Utf8.encode "Gazetteers 0 a a") ⟨[]⟩ pipeline ∧
        pipeline.extractors.map Extractor.kind =
          [.gazetteers #[⟨[1, 5], true⟩, ⟨[1, 5], false⟩]] ∧
        ∃ written, pipeline.save = .ok written) ∧
    ∃ pipeline written,
      load ({}, [7, 0, 0, 0, 1, 0, 0, 0, 255, 4, 0, 0, 0, 70, 111, 114, 109, 2, 0, 0, 0,
        0, 0, 0, 0]) = .ok () (pipeline, []) ∧
      pipeline.save = .ok written ∧ load ({}, written ++ [3]) = .ok () (pipeline, [3]) := by
  refine ⟨?overfull, ?repeated, ?loaded⟩
  case overfull =>
    have one : PhraseTable.Fits #[⟨List.replicate 256 1, false⟩] := by
      rw [PhraseTable.Fits]
      decide
    have fits : Extractor.Fits ⟨0, ∅, .gazetteers #[⟨List.replicate 256 1, false⟩]⟩ :=
      ⟨KeyTable.filledBy_empty.fits (by decide), one⟩
    apply (save_fails_iff.1 _ (fits_of_single fits 1)).1.mpr
    refine ⟨_, List.mem_singleton_self _, _, rfl, _, Array.mem_singleton.mpr rfl, ?_⟩
    rw [List.length_replicate]
    decide
  case repeated =>
    let resources : Resources := fun path =>
      if path = "a" then some (Utf8.encode "x y\nx") else none
    let table : KeyTable := ((∅ : KeyTable).insert "x" 0).insert "x y" 1
    let entries : PhraseTable := #[⟨[1, 5], true⟩, ⟨[1, 5], false⟩]
    have read : (ofTemplate resources (Utf8.encode "Gazetteers 0 a a") ⟨[]⟩).1 =
        .ok ⟨[⟨0, table, .gazetteers entries⟩], 9⟩ :=
      eq_ok_of_toOption (by decide +kernel)
    have listed : table.toList = [("x", 0), ("x y", 1)] := by decide +kernel
    have two : PhraseTable.Fits entries := by
      rw [PhraseTable.Fits]
      decide
    have fits : Extractor.Fits ⟨0, table, .gazetteers entries⟩ :=
      ⟨KeyTable.fits_of_toList listed (by decide) (by decide +kernel), two⟩
    have asked : Order.ofTemplate (Utf8.encode "Gazetteers 0 a a") =
        [⟨.gazetteers, 0, ["a", "a"]⟩] := by decide +kernel
    have few : ¬OverfullFiles resources (Utf8.encode "Gazetteers 0 a a") :=
      not_overfullFiles_of_single asked (by decide)
    have descends := DescendsFrom.configured read
    refine ⟨resources, _, descends, rfl, ?_⟩
    have saves := save_fails_iff.2.1 resources _ _ _ descends (fits_of_single fits 9)
    cases saved : save ⟨[⟨0, table, .gazetteers entries⟩], 9⟩ with
    | ok written => exact ⟨written, rfl⟩
    | error fault => exact absurd (saves.mp ⟨fault, saved⟩) few
  case loaded =>
    have done : load ({}, [7, 0, 0, 0, 1, 0, 0, 0, 255, 4, 0, 0, 0, 70, 111, 114, 109, 2, 0, 0, 0,
        0, 0, 0, 0]) = .ok () (⟨[⟨2, ∅, .lexical .form⟩], 7⟩, []) :=
      eq_ok_of_reached? (by decide +kernel)
    rcases save_fails_iff.2.2 _ _ _ _ done with ⟨written, saved, back⟩
    exact ⟨_, written, done, saved, back {} [3]⟩

end Pipeline

end EntityFeatures

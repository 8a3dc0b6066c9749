import EntityFeatures.Pipeline.Stored
import EntityFeatures.Proofs.Extractor.RoundTrip
import EntityFeatures.Proofs.Model.Preservation
import EntityFeatures.Proofs.Pipeline.Learning
import EntityFeatures.Proofs.Pipeline.Template

/-!
# Saved pipelines are read back

`Pipeline.load_save` says that a pipeline which could be saved is restored from what
was written, whatever pipeline is replaced by it and whatever follows in the data.
Nothing behind the written bytes is touched.

The extractor of containers is saved as no bytes, so the statement needs to know
that it has nothing to lose. That is a fact about the pipelines a program can come to
have, `Pipeline.Reachable`: a template gives the extractor of containers no window
but zero and no keys, it never learns, and a loaded one is fresh.
-/

namespace EntityFeatures

open Model
open Model.Reader

namespace Pipeline

/-- The pipelines that come of templates, of learning and of saved models. -/
inductive Reachable : Pipeline → Prop
  | configured {resources : Resources} {template : List UInt8} {types : Registry}
      {pipeline : Pipeline} :
      (ofTemplate resources template types).1 = .ok pipeline → Reachable pipeline
  | learned {pipeline : Pipeline} (sentence : Sentence) :
      Reachable pipeline → Reachable (pipeline.learn sentence).1
  | loaded {receiver pipeline : Pipeline} {data rest : List UInt8} :
      load (receiver, data) = .ok () (pipeline, rest) → Reachable pipeline

/-- No extractor of containers has a window or keys. -/
def ContainersBlank (pipeline : Pipeline) : Prop :=
  ∀ extractor ∈ pipeline.extractors, extractor.IsBlankIfContainers

theorem ContainersBlank.push {pipeline : Pipeline} {extractor : Extractor}
    (blank : pipeline.ContainersBlank) (new : extractor.IsBlankIfContainers) (total : FeatureId) :
    ContainersBlank { pipeline.push extractor with total } := by
  intro other mem
  rcases List.mem_append.mp mem with old | last
  · exact blank other old
  · rw [List.mem_singleton.mp last]
    exact new

section Configuration

theorem isBlankIfContainers_of_configure {resources : Resources} {name : ExtractorName}
    {window : Int32} {arguments : List String} {types : Registry} {total : FeatureId}
    {setup : Setup}
    (configured : Setup.configure resources window arguments ⟨.ofName name, types, total⟩ =
      .ok () setup) :
    setup.extractor.IsBlankIfContainers := by
  intro isContainers
  have sameName := (Setup.name_and_window_of_configure configured).1
  simp only [Extractor.name, isContainers, Extractor.ofName, Kind.name_ofName] at sameName
  have fresh : (Extractor.ofName name).kind = .containers := by
    rw [← sameName]
    rfl
  rw [Setup.eq_restart_of_configure_containers fresh configured]
  exact ⟨rfl, rfl⟩

theorem containersBlank_of_configures {resources : Resources} {orders : List Order}
    {before after : Pipeline} (configures : Configures resources orders before after)
    (blank : before.ContainersBlank) : after.ContainersBlank := by
  induction configures with
  | nil => exact blank
  | cons configured _ ih =>
      exact ih (blank.push (isBlankIfContainers_of_configure configured) _)

end Configuration

section Learning

theorem ContainersBlank.of_allocates {place : Nat} {key : String} {centre : FeatureId}
    {before after : Pipeline} (allocates : Allocates place key centre before after)
    (blank : before.ContainersBlank) : after.ContainersBlank := by
  rcases allocates with ⟨keyed, -⟩
  intro other mem
  simp only [List.mem_append, List.mem_cons] at mem
  rcases mem with inFront | rfl | inBack
  · exact blank other (by simp [inFront])
  · intro isContainers
    rw [isContainers] at keyed
    cases keyed
  · exact blank other (by simp [inBack])

theorem ContainersBlank.learn {pipeline : Pipeline} (blank : pipeline.ContainersBlank)
    (sentence : Sentence) : (pipeline.learn sentence).1.ContainersBlank :=
  (pipeline.reaches_learn sentence).invariant
    (fun _ _ _ _ _ allocates => ContainersBlank.of_allocates allocates) blank

end Learning

section Loading

theorem keeps_loadKind (kind : Kind) (other : kind ≠ .containers) :
    Reader.Keeps (fun extractor : Extractor => extractor.kind ≠ .containers)
      (Extractor.loadKind kind) := by
  cases kind with
  | containers => exact absurd rfl other
  | clusters clusters =>
      refine Keeps.within (fun _ => clusters) _ ClusterTable.load fun part target _ => ?_
      simp [Extractor.setKind]
  | gazetteers entries =>
      refine Keeps.within (fun _ => entries) _ PhraseTable.load fun part target _ => ?_
      simp [Extractor.setKind]
  | addresses types =>
      refine Keeps.within (fun _ => types) _ AddressTypes.load fun part target _ => ?_
      simp [Extractor.setKind]
  | lemmaTerm | lexical _ | capitalization _ | numericValue | earlierLabel => exact Keeps.pure ()

theorem isBlankIfContainers_of_load {fresh extractor : Extractor} {data rest : List UInt8}
    (blank : fresh.IsBlankIfContainers)
    (done : Extractor.load (fresh, data) = .ok () (extractor, rest)) :
    extractor.IsBlankIfContainers := by
  by_cases isContainers : fresh.kind = .containers
  · rcases fresh with ⟨window, table, kind⟩
    dsimp only at isContainers
    subst isContainers
    cases done
    exact blank
  · rw [Extractor.load_of_ne_containers isContainers] at done
    have keeps : Reader.Keeps (fun extractor : Extractor => extractor.kind ≠ .containers)
        (Extractor.loadFields fresh.kind) := by
      refine Keeps.bind Keeps.word fun window => ?_
      refine Keeps.bind (Keeps.update fun _ holds => holds) fun _ => ?_
      refine Keeps.bind (Keeps.within _ _ _ fun _ _ holds => holds) fun _ => ?_
      exact keeps_loadKind fresh.kind isContainers
    intro nowContainers
    exact absurd nowContainers (keeps _ _ _ done isContainers)

theorem keeps_loadExtractor : Reader.Keeps ContainersBlank loadExtractor := by
  refine Keeps.bind Keeps.text fun name => ?_
  cases created : Extractor.create? name with
  | none => exact Keeps.throw (.unknownExtractor name)
  | some fresh =>
      intro before _ after done blank
      rcases exists_of_step_bind_eq_ok done with ⟨extractor, middle, built, updated⟩
      rcases build_eq_ok built with ⟨same, loaded⟩
      cases updated
      have freshBlank : fresh.IsBlankIfContainers := by
        rw [TemplateState.eq_ofName_of_create? created]
        exact Extractor.ofName_isBlankIfContainers fresh.name
      rw [← same] at blank
      exact blank.push (isBlankIfContainers_of_load freshBlank loaded) _

theorem containersBlank_of_load {receiver pipeline : Pipeline} {data rest : List UInt8}
    (done : load (receiver, data) = .ok () (pipeline, rest)) : pipeline.ContainersBlank := by
  rcases exists_of_step_bind_eq_ok done with ⟨total, ⟨target, behind⟩, -, done⟩
  rcases exists_of_step_bind_eq_ok done with ⟨_, middle, restarted, counted⟩
  cases restarted
  apply Keeps.counted keeps_loadExtractor _ _ _ counted
  intro extractor mem
  cases mem

end Loading

theorem Reachable.containersBlank {pipeline : Pipeline} (reachable : Reachable pipeline) :
    pipeline.ContainersBlank := by
  induction reachable with
  | configured read =>
      apply containersBlank_of_configures (configures_of_ofTemplate read)
      intro extractor mem
      cases mem
  | learned sentence _ ih => exact ih.learn sentence
  | loaded done => exact containersBlank_of_load done

section Saving

theorem consumes_loadExtractor {extractor : Extractor} {written : List UInt8}
    (blank : extractor.IsBlankIfContainers) (encoded : saveExtractor extractor = .ok written)
    (pipeline : Pipeline) :
    Consumes loadExtractor written () pipeline (pipeline.push extractor) := by
  rcases exists_of_bind_eq_ok encoded with ⟨front, frontEncoded, encoded⟩
  rcases exists_of_bind_eq_ok encoded with ⟨back, backEncoded, encoded⟩
  cases encoded
  apply Consumes.bind (Consumes.text frontEncoded pipeline)
  rw [Extractor.create?_text, ← List.append_nil back]
  apply Consumes.bind (Consumes.build (Extractor.consumes_load blank backEncoded) pipeline)
  exact Consumes.update _ pipeline

theorem foldl_push_extractors (extractors : List Extractor) (pipeline : Pipeline) :
    extractors.foldl push pipeline =
      { pipeline with extractors := pipeline.extractors ++ extractors } := by
  induction extractors generalizing pipeline with
  | nil => simp
  | cons extractor rest ih => simp [ih, push]

theorem consumes_load {pipeline : Pipeline} {written : List UInt8}
    (blank : pipeline.ContainersBlank) (encoded : pipeline.save = .ok written)
    (receiver : Pipeline) : Consumes load written () receiver pipeline := by
  rcases exists_of_bind_eq_ok encoded with ⟨front, frontEncoded, encoded⟩
  rcases exists_of_bind_eq_ok encoded with ⟨back, backEncoded, encoded⟩
  cases encoded
  rw [encodeWord_toNat] at frontEncoded
  cases frontEncoded
  have extractors := Consumes.counted
    (fun _ mem _ target encoded => consumes_loadExtractor (blank _ mem) encoded target)
    backEncoded (restart pipeline.total receiver)
  rw [foldl_push_extractors] at extractors
  apply Consumes.bind (Consumes.word pipeline.total receiver)
  exact Consumes.bind_nil (Consumes.update _ receiver) extractors

end Saving

/--
A saved pipeline replaces any other by what it was, and takes exactly the bytes that
were written. So it annotates as before and is saved as the same bytes again.
-/
theorem load_save {pipeline : Pipeline} {written : List UInt8} (reachable : Reachable pipeline)
    (saved : pipeline.save = .ok written) (receiver : Pipeline) (rest : List UInt8) :
    ∃ loaded, load (receiver, written ++ rest) = .ok () (loaded, rest) ∧ loaded = pipeline ∧
      (∀ sentence, loaded.annotate sentence = pipeline.annotate sentence) ∧
      (∀ spans, loaded.wrapSpans spans = pipeline.wrapSpans spans) ∧
      loaded.save = .ok written :=
  ⟨pipeline, consumes_load reachable.containersBlank saved receiver rest, rfl, fun _ => rfl,
    fun _ => rfl, saved⟩

theorem load_save_form_and_containers :
    ∃ pipeline written, Reachable pipeline ∧ pipeline.total = 4 ∧
      pipeline.extractors.map Extractor.name = [.form, .czechAddContainers] ∧
      pipeline.save = .ok written ∧
      ∃ loaded, load ({}, written ++ [7]) = .ok () (loaded, [7]) ∧ loaded.total = 4 := by
  have read : (ofTemplate (fun _ => none) (Utf8.encode "Form 1\nCzechAddContainers 0") ⟨[]⟩).1 =
      .ok ⟨[⟨1, ∅, .lexical .form⟩, ⟨0, ∅, .containers⟩], 1⟩ :=
    eq_ok_of_toOption (by decide +kernel)
  have learned : Reachable ⟨[⟨1, (∅ : KeyTable).insert "a" 2, .lexical .form⟩, ⟨0, ∅, .containers⟩], 4⟩ :=
    (Reachable.configured read).learned (.ofWords [.ofLemma "a" "a"])
  have entries : KeyTable.entries ((∅ : KeyTable).insert "a" 2) = [("a", 2)] := by
    have list : ((∅ : KeyTable).insert "a" 2).toList = [("a", 2)] := by decide +kernel
    rw [KeyTable.entries, list, List.mergeSort_singleton]
  have texts : (Utf8.encode "a").length = 1 ∧ (Utf8.encode "Form").length = 4 ∧
      (Utf8.encode "CzechAddContainers").length = 18 := by
    decide +kernel
  have saved : ∃ written,
      save ⟨[⟨1, (∅ : KeyTable).insert "a" 2, .lexical .form⟩, ⟨0, ∅, .containers⟩], 4⟩ =
        .ok written := by
    simp [save, encodeCounted, encodeEach, saveExtractor, Extractor.save, Extractor.name,
      Kind.name, ExtractorName.text, Kind.save, KeyTable.save, KeyTable.saveEntry, entries,
      encodeWord, encodeText, encodeLength, encodeByte, texts, bind, Except.bind, pure,
      Except.pure]
  rcases saved with ⟨written, saved⟩
  rcases load_save learned saved {} [7] with ⟨loaded, done, rfl, -⟩
  exact ⟨_, written, learned, rfl, rfl, saved, _, done, rfl⟩

end Pipeline

end EntityFeatures

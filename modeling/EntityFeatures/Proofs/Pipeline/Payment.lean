import Mathlib.Algebra.GroupWithZero.Nat
import EntityFeatures.Pipeline.Stored
import EntityFeatures.Proofs.Extractor.RoundTrip
import EntityFeatures.Proofs.Model.Payment
import EntityFeatures.Proofs.Pipeline.Template

/-!
# A model is no larger than its data

The items of a pipeline are its extractors, the entries of their tables, clusters and the
features in them, entries of phrases and the features in these. `Pipeline.load_bounded` says
that reading any data into a new pipeline leaves no more items in it than bytes were taken,
whether the data are a model or turn out to be damaged.

All loops are treated alike. What is stored in one round is paid for with the bytes of this
round: a table entry, a cluster and an entry of phrases with the fields in front of them, an
extractor with its name. The statements about single rounds leave open how the target is
counted. If the items are counted, they bound what is stored; if nothing is counted, they say
that every round takes a byte, and then the loop ends with the data.
-/

namespace EntityFeatures

open Model
open Model.Reader

namespace KeyTable

theorem pays_loadEntry {holding : KeyTable → Nat}
    (cost : ∀ table key value, holding (table.insert key value) ≤ holding table + 1) :
    Pays holding 0 loadEntry fun _ => 1 := by
  apply Pays.bind Pays.text
  intro key
  apply Pays.bind Pays.word
  intro value
  apply Pays.update
  intro table
  have stored := cost table key value
  omega

theorem pays_load : Pays Std.ExtTreeMap.size 0 load fun _ => 0 := by
  have entry : Pays Std.ExtTreeMap.size 0 loadEntry fun _ => 1 :=
    pays_loadEntry fun table key value => Std.ExtTreeMap.size_insert_le
  exact Pays.refill (fun _ => Std.ExtTreeMap.size_empty) (entry.imp fun _ => Nat.zero_le _)

theorem endsWithData_loadEntry : EndsWithData loadEntry fun count => times count loadEntry :=
  endsWithData_times (pays_loadEntry fun _ _ _ => Nat.zero_le _)

end KeyTable

namespace ClusterTable

/-- The clusters and the features in them. -/
def itemCount (clusters : ClusterTable) : Nat :=
  clusters.size + (clusters.toList.map List.length).sum

@[simp]
theorem itemCount_push (clusters : ClusterTable) (features : List FeatureId) :
    itemCount (clusters.push features) = clusters.itemCount + 1 + features.length := by
  simp only [itemCount, Array.size_push, Array.toList_push, List.map_append, List.map_singleton,
    List.sum_append, List.sum_singleton]
  omega

theorem pays_loadCluster {holding : ClusterTable → Nat}
    (cost : ∀ clusters features,
      holding (clusters.push features) ≤ holding clusters + 1 + features.length) :
    Pays holding 0 loadCluster fun _ => 1 := by
  apply Pays.bind Pays.word
  intro count
  apply Pays.bind (Pays.words count.toNat)
  intro features
  apply Pays.update
  intro clusters
  have stored := cost clusters features
  omega

theorem pays_load : Pays itemCount 0 load fun _ => 0 := by
  have cluster : Pays itemCount 0 loadCluster fun _ => 1 :=
    pays_loadCluster fun clusters features => by simp
  exact Pays.refill (fun _ => rfl) (cluster.imp fun _ => Nat.zero_le _)

theorem endsWithData_loadCluster : EndsWithData loadCluster fun count => times count loadCluster :=
  endsWithData_times (pays_loadCluster fun _ _ => Nat.zero_le _)

end ClusterTable

namespace PhraseTable

/-- The entries and the features in them. -/
def itemCount (entries : PhraseTable) : Nat :=
  entries.size + (entries.toList.map fun entry => entry.features.length).sum

@[simp]
theorem itemCount_push (entries : PhraseTable) (entry : PhraseEntry) :
    itemCount (entries.push entry) = entries.itemCount + 1 + entry.features.length := by
  simp only [itemCount, Array.size_push, Array.toList_push, List.map_append, List.map_singleton,
    List.sum_append, List.sum_singleton]
  omega

theorem pays_loadFlag {holding : PhraseTable → Nat} :
    Pays holding 0 loadFlag fun _ => 1 := by
  apply Pays.bind Pays.byte
  intro flag
  split
  · exact Pays.pure (Nat.le_refl _)
  · exact Pays.pure (Nat.le_refl _)
  · exact Pays.throw (.wrongFlag flag)

theorem pays_loadEntry {holding : PhraseTable → Nat}
    (cost : ∀ entries entry,
      holding (entries.push entry) ≤ holding entries + 1 + entry.features.length) :
    Pays holding 0 loadEntry fun _ => 1 := by
  apply Pays.bind pays_loadFlag
  intro goesOn
  apply Pays.bind Pays.byte
  intro count
  apply Pays.bind (Pays.words count.toNat)
  intro features
  apply Pays.update
  intro entries
  have stored := cost entries { features, goesOn }
  dsimp only at stored
  omega

theorem pays_load : Pays itemCount 0 load fun _ => 0 := by
  have entry : Pays itemCount 0 loadEntry fun _ => 1 :=
    pays_loadEntry fun entries entry => by simp
  exact Pays.refill (fun _ => rfl) (entry.imp fun _ => Nat.zero_le _)

theorem endsWithData_loadEntry : EndsWithData loadEntry fun count => times count loadEntry :=
  endsWithData_times (pays_loadEntry fun _ _ => Nat.zero_le _)

end PhraseTable

namespace AddressTypes

theorem pays_load : Pays (fun _ => 0) 0 load fun _ => 0 := by
  have free (change : AddressTypes → AddressTypes) :
      Pays (fun _ => 0) 4 (Reader.update change) fun _ => 0 :=
    Pays.update fun _ => Nat.zero_le _
  apply Pays.bind Pays.word
  intro web
  apply Pays.bind (free _)
  intro _
  apply Pays.bind Pays.word
  intro mail
  exact free _

end AddressTypes

/-- What only the kind has, counted in items. -/
def Kind.itemCount : Kind → Nat
  | clusters table => table.itemCount
  | gazetteers table => table.itemCount
  | addresses _ | containers | lemmaTerm | lexical _ | capitalization _ | numericValue
  | earlierLabel => 0

theorem Kind.itemCount_ofName (name : ExtractorName) : (Kind.ofName name).itemCount = 0 := by
  cases name <;> rfl

namespace Extractor

/-- The entries of the table, and what only the kind has. -/
def itemCount (extractor : Extractor) : Nat :=
  extractor.table.size + extractor.kind.itemCount

theorem itemCount_ofName (name : ExtractorName) : (ofName name).itemCount = 0 := by
  simp [itemCount, ofName, Kind.itemCount_ofName]

theorem pays_loadKind {kind : Kind} (blank : kind.itemCount = 0) :
    Pays itemCount 0 (loadKind kind) fun _ => 0 := by
  cases kind with
  | clusters clusters =>
      refine Pays.within ClusterTable.pays_load (fun _ => clusters)
        (fun clusters => setKind (.clusters clusters)) ?_
      intro part extractor
      simp only [Kind.itemCount] at blank
      simp only [itemCount, setKind, Kind.itemCount, blank]
      omega
  | gazetteers entries =>
      refine Pays.within PhraseTable.pays_load (fun _ => entries)
        (fun entries => setKind (.gazetteers entries)) ?_
      intro part extractor
      simp only [Kind.itemCount] at blank
      simp only [itemCount, setKind, Kind.itemCount, blank]
      omega
  | addresses types =>
      refine Pays.within AddressTypes.pays_load (fun _ => types)
        (fun types => setKind (.addresses types)) ?_
      intro part extractor
      simp only [itemCount, setKind, Kind.itemCount]
      omega
  | containers | lemmaTerm | lexical _ | capitalization _ | numericValue | earlierLabel =>
      exact Pays.pure (Nat.le_refl _)

theorem pays_loadFields {kind : Kind} (blank : kind.itemCount = 0) :
    Pays itemCount 0 (loadFields kind) fun _ => 0 := by
  apply Pays.bind Pays.word
  intro window
  have widened : Pays itemCount 4 (Reader.update (setWindow window)) fun _ => 0 :=
    Pays.update fun extractor => Nat.le_add_right extractor.itemCount 4
  apply Pays.bind widened
  intro _
  have filled : Pays itemCount 0 (Reader.within table setTable KeyTable.load) fun _ => 0 := by
    apply Pays.within KeyTable.pays_load
    intro part extractor
    simp only [itemCount, setTable]
    omega
  exact Pays.bind filled fun _ => pays_loadKind blank

/-- A fresh extractor is filled with no more items than bytes are taken for it. -/
theorem covered_load (name : ExtractorName) (data : List UInt8) :
    Covered itemCount data.length (fun _ => 0) (load (ofName name, data)) := by
  have blank := Kind.itemCount_ofName name
  have nothing := itemCount_ofName name
  by_cases isContainers : (ofName name).kind = .containers
  · have same : load (ofName name, data) = .ok () (ofName name, data) := by
      simp only [ofName] at isContainers
      rw [ofName, isContainers]
      rfl
    simp only [same, Covered, nothing]
    omega
  · have covered := pays_loadFields blank (ofName name) data
    rw [load_of_ne_containers isContainers]
    rwa [nothing, Nat.zero_add] at covered

end Extractor

namespace Pipeline

/-- The extractors and all that is in them. -/
def itemCount (pipeline : Pipeline) : Nat :=
  pipeline.extractors.length + (pipeline.extractors.map Extractor.itemCount).sum

theorem itemCount_push (pipeline : Pipeline) (extractor : Extractor) :
    (pipeline.push extractor).itemCount = pipeline.itemCount + 1 + extractor.itemCount := by
  simp only [itemCount, push, List.length_append, List.length_singleton, List.map_append,
    List.map_singleton, List.sum_append, List.sum_singleton]
  omega

theorem pays_loadExtractor {holding : Pipeline → Nat} {spare : Nat}
    (cost : ∀ pipeline extractor,
      holding (pipeline.push extractor) + spare ≤ holding pipeline + 1 + extractor.itemCount) :
    Pays holding 0 loadExtractor fun _ => spare := by
  apply Pays.bind Pays.text
  intro name
  cases created : Extractor.create? name with
  | none => exact Pays.throw (.unknownExtractor name)
  | some fresh =>
      have built : ∀ data : List UInt8,
          Covered Extractor.itemCount data.length (fun _ => 0) (Extractor.load (fresh, data)) := by
        rw [TemplateState.eq_ofName_of_create? created]
        exact Extractor.covered_load fresh.name
      apply Pays.bind (Pays.build built)
      intro extractor
      apply Pays.update
      intro pipeline
      have stored := cost pipeline extractor
      omega

theorem pays_load : Pays itemCount 0 load fun _ => 0 := by
  have extractor : Pays itemCount 0 loadExtractor fun _ => 0 :=
    pays_loadExtractor fun pipeline extractor => Nat.le_of_eq (itemCount_push pipeline extractor)
  apply Pays.bind Pays.word
  intro total
  exact Pays.refill (fun _ => rfl) extractor

theorem endsWithData_loadExtractor :
    EndsWithData loadExtractor fun count => times count loadExtractor :=
  endsWithData_times (pays_loadExtractor fun _ _ => by omega)

/--
Whatever the data are, reading them into a new pipeline ends with success or with the fault that
was found in them, and in both cases the pipeline has no more items than bytes were taken. Every
loop over a number in the data comes to a round that fails, after no more rounds than there are
bytes, and goes no further whatever the number is.
-/
theorem load_bounded :
    (∀ data : List UInt8, ∃ pipeline rest,
      (load ({}, data) = .ok () (pipeline, rest) ∨
        ∃ fault, load ({}, data) = .error fault (pipeline, rest)) ∧
      pipeline.itemCount + rest.length ≤ data.length) ∧
    EndsWithData loadExtractor (fun count => times count loadExtractor) ∧
    EndsWithData KeyTable.loadEntry (fun count => times count KeyTable.loadEntry) ∧
    EndsWithData ClusterTable.loadCluster (fun count => times count ClusterTable.loadCluster) ∧
    EndsWithData PhraseTable.loadEntry (fun count => times count PhraseTable.loadEntry) ∧
    EndsWithData word (words : Nat → Reader ClusterTable (List FeatureId)) ∧
    EndsWithData word (words : Nat → Reader PhraseTable (List FeatureId)) := by
  refine ⟨?_, endsWithData_loadExtractor, KeyTable.endsWithData_loadEntry,
    ClusterTable.endsWithData_loadCluster, PhraseTable.endsWithData_loadEntry,
    endsWithData_words, endsWithData_words⟩
  intro data
  have covered := pays_load {} data
  have nothing : itemCount {} = 0 := rfl
  rw [nothing] at covered
  cases outcome : load ({}, data) with
  | ok read state =>
      refine ⟨state.1, state.2, Or.inl rfl, ?_⟩
      simp only [outcome, Covered] at covered
      omega
  | error fault state =>
      refine ⟨state.1, state.2, Or.inr ⟨fault, rfl⟩, ?_⟩
      simp only [outcome, Covered] at covered
      omega

/-- A table that claims to have as many entries as four bytes can count, and has none. -/
example :
    fault? (load ({}, [1, 0, 0, 0, 255, 255, 255, 255, 4, 70, 111, 114, 109, 0, 0, 0, 0,
      255, 255, 255, 255])) = some (.endInNumber .one) := by
  decide +kernel

end Pipeline

end EntityFeatures

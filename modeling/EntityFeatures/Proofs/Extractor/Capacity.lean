import EntityFeatures.Proofs.Extractor.RoundTrip
import EntityFeatures.Proofs.Model.Capacity

/-!
# Extractors that fit into a saved model

`Extractor.Fits` says of all sizes of an extractor that they can be written in four bytes: of
its table, of the keys in it, and of what only its kind has. Saving an extractor that fits
fails if and only if it is a gazetteer with an entry of more features than a byte can count,
`Kind.Overfull`.

An extractor that was loaded fits and is not overfull. This is shown part by part: a table
has at most as many entries as were read, since a key that comes twice has one entry.
-/

namespace EntityFeatures

open Model
open Model.Reader

namespace KeyTable

/-- The number of entries and the lengths of the keys fit into four bytes. -/
structure Fits (table : KeyTable) : Prop where
  size_lt : table.size < UInt32.size
  keys : ∀ key ∈ table, (Utf8.encode key).length < UInt32.size

theorem length_entries (table : KeyTable) : table.entries.length = table.size := by
  rw [entries, List.length_mergeSort, Std.ExtTreeMap.length_toList]

theorem failsIff_save {table : KeyTable} (fits : table.Fits) : FailsIff False table.save := by
  apply FailsIff.counted_of_forall
  · rw [length_entries]
    exact fits.size_lt
  · rintro ⟨key, value⟩ mem
    have known : key ∈ table := by
      rw [Std.ExtTreeMap.mem_iff_isSome_getElem?, mem_entries.mp mem]
      rfl
    apply ((FailsIff.text (fits.keys key known)).bind fun _ =>
      (FailsIff.word value.toNat_lt_size).bind fun _ => .ok _).of_iff
    simp

/-- A table that is listed fits if the list and the keys in it are short enough. -/
theorem fits_of_toList {table : KeyTable} {listed : List (String × UInt32)}
    (listed_eq : table.toList = listed) (few : listed.length < UInt32.size)
    (short : (listed.all fun entry => (Utf8.encode entry.1).length < UInt32.size) = true) :
    table.Fits := by
  constructor
  · rw [← Std.ExtTreeMap.length_toList, listed_eq]
    exact few
  · intro key mem
    have known := Std.ExtTreeMap.isSome_getElem?_iff_mem.mpr mem
    rcases Option.isSome_iff_exists.mp known with ⟨value, found⟩
    rw [← Std.ExtTreeMap.mem_toList_iff_getElem?_eq_some, listed_eq] at found
    exact of_decide_eq_true (List.all_eq_true.mp short _ found)

/-- What is known of a table after so many rounds of reading. -/
def FilledBy (rounds : Nat) (table : KeyTable) : Prop :=
  table.size ≤ rounds ∧ ∀ key ∈ table, (Utf8.encode key).length < UInt32.size

theorem filledBy_empty : FilledBy 0 ∅ :=
  ⟨by simp, by simp⟩

/-- A key that is there already has one entry still. -/
theorem FilledBy.insert {rounds : Nat} {table : KeyTable} {key : String}
    (filled : FilledBy rounds table) (short : (Utf8.encode key).length < UInt32.size)
    (value : UInt32) : FilledBy (rounds + 1) (table.insert key value) := by
  rcases filled with ⟨small, keys⟩
  refine ⟨Nat.le_trans Std.ExtTreeMap.size_insert_le (by omega), ?_⟩
  intro other mem
  rcases Std.ExtTreeMap.mem_insert.mp mem with same | old
  · have equal : key = other := by simpa using same
    exact equal ▸ short
  · exact keys other old

theorem FilledBy.fits {rounds : Nat} {table : KeyTable} (filled : FilledBy rounds table)
    (bound : rounds < UInt32.size) : table.Fits :=
  ⟨Nat.lt_of_le_of_lt filled.1 bound, filled.2⟩

theorem ensures_load : Ensures (fun _ => True) load fun _ => Fits := by
  have entry (round : Nat) : Ensures (FilledBy round) loadEntry fun _ => FilledBy (round + 1) := by
    refine Ensures.bind Ensures.text fun key => ?_
    refine Ensures.bind Ensures.word fun value => ?_
    exact Ensures.update fun _ known => known.2.insert known.1 value
  refine (Ensures.restart (fun _ => filledBy_empty) entry).imp ?_
  rintro _ table ⟨rounds, bound, filled⟩
  exact filled.fits bound

end KeyTable

namespace ClusterTable

/-- The number of clusters and of the features of each fit into four bytes. -/
structure Fits (clusters : ClusterTable) : Prop where
  size_lt : clusters.size < UInt32.size
  features : ∀ features ∈ clusters, features.length < UInt32.size

theorem failsIff_save {clusters : ClusterTable} (fits : clusters.Fits) :
    FailsIff False clusters.save := by
  apply FailsIff.counted_of_forall
  · exact fits.size_lt
  · intro features mem
    exact FailsIff.words (fits.features features (Array.mem_def.mpr mem))

theorem ensures_load : Ensures (fun _ => True) load fun _ => Fits := by
  let Short (features : List FeatureId) : Prop := features.length < UInt32.size
  have cluster (round : Nat) :
      Ensures (Filled Short round) loadCluster fun _ => Filled Short (round + 1) := by
    refine Ensures.bind Ensures.word fun count => ?_
    refine Ensures.bind (Ensures.words count.toNat) fun features => ?_
    apply Ensures.update
    rintro clusters ⟨length, filled⟩
    have short : features.length < UInt32.size := by
      rw [length]
      exact count.toNat_lt_size
    exact filled.push short
  refine (Ensures.restart (fun _ => filled_empty Short) cluster).imp ?_
  rintro _ clusters ⟨rounds, bound, rfl, short⟩
  exact ⟨bound, short⟩

end ClusterTable

namespace PhraseTable

/-- The number of entries fits into four bytes. -/
def Fits (entries : PhraseTable) : Prop :=
  entries.size < UInt32.size

/-- Some entry has more features than one byte can count. -/
def Overfull (entries : PhraseTable) : Prop :=
  ∃ entry ∈ entries, 255 < entry.features.length

theorem failsIff_saveEntry (entry : PhraseEntry) :
    FailsIff (255 < entry.features.length) (saveEntry entry) := by
  have flag : FailsIff False (encodeByte (if entry.goesOn then 1 else 0)) := by
    cases entry.goesOn with
    | false => exact .ok _
    | true => exact .ok _
  have writable (feature : FeatureId) (_ : feature ∈ entry.features) :
      FailsIff False (encodeWord feature.toNat) :=
    FailsIff.word feature.toNat_lt_size
  have features := FailsIff.each writable
  apply (flag.bind fun _ => (FailsIff.byte _).bind fun _ => features.bind fun _ => .ok _).of_iff
  simp

theorem failsIff_save {entries : PhraseTable} (fits : entries.Fits) :
    FailsIff entries.Overfull entries.save := by
  have each (entry : PhraseEntry) (_ : entry ∈ entries.toList) := failsIff_saveEntry entry
  apply (FailsIff.counted fits each).of_iff
  simp [Overfull]

theorem ensures_loadFlag {Before : PhraseTable → Prop} :
    Ensures Before loadFlag fun _ => Before := by
  refine Ensures.bind Ensures.byte fun flag => ?_
  split
  · exact Ensures.pure fun _ known => known
  · exact Ensures.pure fun _ known => known
  · exact Ensures.throw (.wrongFlag flag)

theorem ensures_load :
    Ensures (fun _ => True) load fun _ entries => entries.Fits ∧ ¬entries.Overfull := by
  let Few (entry : PhraseEntry) : Prop := entry.features.length < 256
  have entry (round : Nat) :
      Ensures (Filled Few round) loadEntry fun _ => Filled Few (round + 1) := by
    refine Ensures.bind ensures_loadFlag fun goesOn => ?_
    refine Ensures.bind Ensures.byte fun count => ?_
    refine Ensures.bind (Ensures.words count.toNat) fun features => ?_
    apply Ensures.update
    rintro entries ⟨length, filled⟩
    have few : features.length < 256 := by
      rw [length]
      exact count.toNat_lt
    exact filled.push few
  refine (Ensures.restart (fun _ => filled_empty Few) entry).imp ?_
  rintro _ entries ⟨rounds, bound, rfl, few⟩
  refine ⟨bound, ?_⟩
  rintro ⟨other, mem, large⟩
  have small : other.features.length < 256 := few other mem
  omega

end PhraseTable

namespace AddressTypes

theorem failsIff_save (types : AddressTypes) : FailsIff False types.save := by
  apply ((FailsIff.word types.web.toNat_lt_size).bind fun _ =>
    (FailsIff.word types.mail.toNat_lt_size).bind fun _ => .ok _).of_iff
  simp

end AddressTypes

namespace Kind

/-- What only the kind has can be counted in the fields of a saved model. -/
def Fits : Kind → Prop
  | clusters table => table.Fits
  | gazetteers table => table.Fits
  | addresses _ | containers | lemmaTerm | lexical _ | capitalization _ | numericValue
  | earlierLabel => True

/-- A gazetteer with an entry that has more features than one byte can count. -/
def Overfull (kind : Kind) : Prop :=
  ∃ entries, kind = gazetteers entries ∧ entries.Overfull

theorem failsIff_save {kind : Kind} (fits : kind.Fits) : FailsIff kind.Overfull kind.save := by
  cases kind with
  | clusters clusters =>
      apply (ClusterTable.failsIff_save fits).of_iff
      simp [Overfull]
  | gazetteers entries =>
      apply (PhraseTable.failsIff_save fits).of_iff
      simp [Overfull]
  | addresses types =>
      apply types.failsIff_save.of_iff
      simp [Overfull]
  | containers | lemmaTerm | lexical _ | capitalization _ | numericValue | earlierLabel =>
      apply (FailsIff.ok []).of_iff
      simp [Overfull]

theorem fits_ofName (name : ExtractorName) : (ofName name).Fits := by
  cases name with
  | brownClusters => exact ⟨by simp [UInt32.size], by simp⟩
  | gazetteers => simp [ofName, Fits, PhraseTable.Fits, UInt32.size]
  | _ => trivial

theorem not_overfull_ofName (name : ExtractorName) : ¬(ofName name).Overfull := by
  rintro ⟨entries, same, entry, mem, -⟩
  cases name <;> simp only [ofName, reduceCtorEq] at same
  cases same
  simp at mem

end Kind

namespace Extractor

/-- All sizes of an extractor can be written in four bytes. -/
structure Fits (extractor : Extractor) : Prop where
  table : extractor.table.Fits
  kind : extractor.kind.Fits

theorem failsIff_save {extractor : Extractor} (fits : extractor.Fits) :
    FailsIff extractor.kind.Overfull extractor.save := by
  by_cases isContainers : extractor.kind = .containers
  · rcases extractor with ⟨window, table, kind⟩
    cases isContainers
    exact Kind.failsIff_save fits.kind
  · rw [save_of_ne_containers isContainers]
    apply ((FailsIff.word extractor.window.toNat_lt_size).bind fun _ =>
      (KeyTable.failsIff_save fits.table).bind fun _ =>
        (Kind.failsIff_save fits.kind).bind fun _ => .ok _).of_iff
    simp

/-- An extractor that can be saved. -/
def Storable (extractor : Extractor) : Prop :=
  extractor.Fits ∧ ¬extractor.kind.Overfull

theorem storable_ofName (name : ExtractorName) : (ofName name).Storable :=
  ⟨⟨KeyTable.filledBy_empty.fits (by decide), Kind.fits_ofName name⟩, Kind.not_overfull_ofName name⟩

theorem ensures_loadKind (kind : Kind) :
    Ensures Storable (loadKind kind) fun _ => Storable := by
  cases kind with
  | clusters clusters =>
      refine Ensures.within (fun _ => clusters) (fun clusters => setKind (.clusters clusters))
        ClusterTable.ensures_load (fun _ _ => trivial) ?_
      rintro part extractor ⟨fits, -⟩ loaded
      exact ⟨⟨fits.table, loaded⟩, by simp [setKind, Kind.Overfull]⟩
  | gazetteers entries =>
      refine Ensures.within (fun _ => entries) (fun entries => setKind (.gazetteers entries))
        PhraseTable.ensures_load (fun _ _ => trivial) ?_
      rintro part extractor ⟨fits, -⟩ ⟨loaded, few⟩
      exact ⟨⟨fits.table, loaded⟩, by simpa [setKind, Kind.Overfull] using few⟩
  | addresses types =>
      have any : Ensures (fun _ => True) AddressTypes.load fun _ _ => True :=
        fun _ _ _ _ _ => trivial
      refine Ensures.within (fun _ => types) (fun types => setKind (.addresses types)) any
        (fun _ _ => trivial) ?_
      rintro part extractor ⟨fits, -⟩ -
      exact ⟨⟨fits.table, trivial⟩, by simp [setKind, Kind.Overfull]⟩
  | containers | lemmaTerm | lexical _ | capitalization _ | numericValue | earlierLabel =>
      exact Ensures.pure fun _ known => known

theorem ensures_load : Ensures Storable load fun _ => Storable := by
  rintro ⟨extractor, data⟩ read after done known
  by_cases isContainers : extractor.kind = .containers
  · rcases extractor with ⟨window, table, kind⟩
    cases isContainers
    cases done
    exact known
  · rw [load_of_ne_containers isContainers] at done
    have fields : Ensures Storable (loadFields extractor.kind) fun _ => Storable := by
      refine Ensures.bind Ensures.word fun window => ?_
      have widened : Ensures Storable (Reader.update (setWindow window)) fun _ => Storable :=
        Ensures.update fun _ known => ⟨⟨known.1.table, known.1.kind⟩, known.2⟩
      have filled : Ensures Storable (Reader.within table setTable KeyTable.load)
          fun _ => Storable :=
        Ensures.within table setTable KeyTable.ensures_load (fun _ _ => trivial)
          fun _ _ known loaded => ⟨⟨loaded, known.1.kind⟩, known.2⟩
      refine Ensures.bind widened fun _ => ?_
      exact Ensures.bind filled fun _ => ensures_loadKind extractor.kind
    exact fields _ _ _ done known

end Extractor

end EntityFeatures

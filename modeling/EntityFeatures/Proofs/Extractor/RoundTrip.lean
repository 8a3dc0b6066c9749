import EntityFeatures.Extractor.Stored
import EntityFeatures.Proofs.Model.Consumption

/-!
# Saved extractors are read back

A reader does not learn from the data which kind of extractor was saved; it starts
from a fresh extractor of the right name. For every part of an extractor there is one
statement: reading what was written leaves exactly this part in the target.

A table is written in sorted order and read by inserting entry after entry. The
order does not matter for the result, since no key is written twice.

The extractor of containers takes no bytes, so nothing could restore its window and
its table. `Extractor.IsBlankIfContainers` says that there is nothing to restore.
-/

namespace EntityFeatures

open Model
open Model.Reader

namespace KeyTable

/-- A table that has been read so far, and one more entry. -/
def insertEntry (table : KeyTable) (entry : String × UInt32) : KeyTable :=
  table.insert entry.1 entry.2

theorem getElem?_foldl_insertEntry {entries : List (String × UInt32)}
    (distinct : (entries.map Prod.fst).Nodup) (table : KeyTable)
    (new : ∀ entry ∈ entries, entry.1 ∉ table) (key : String) (value : UInt32) :
    (entries.foldl insertEntry table)[key]? = some value ↔
      table[key]? = some value ∨ (key, value) ∈ entries := by
  induction entries generalizing table with
  | nil => simp
  | cons entry rest ih =>
      rcases entry with ⟨firstKey, firstValue⟩
      simp only [List.map_cons, List.nodup_cons, List.mem_map, not_exists, not_and] at distinct
      rw [List.foldl_cons, ih distinct.2]
      · simp only [insertEntry, Std.ExtTreeMap.getElem?_insert, List.mem_cons, Prod.mk.injEq]
        have absent : table[firstKey]? = none := by
          simpa using new (firstKey, firstValue) (List.mem_cons_self ..)
        by_cases same : firstKey = key
        · subst same
          simp [absent, eq_comm]
        · simp [same, Ne.symm same]
      · intro entry inRest
        simp only [insertEntry, Std.ExtTreeMap.mem_insert, not_or]
        refine ⟨?_, new entry (List.mem_cons_of_mem _ inRest)⟩
        intro same
        have equal : firstKey = entry.1 := by simpa using same
        exact distinct.1 entry inRest equal.symm

theorem nodup_map_fst_entries (table : KeyTable) : (table.entries.map Prod.fst).Nodup := by
  have distinct : (table.toList.map Prod.fst).Nodup := by
    rw [Std.ExtTreeMap.map_fst_toList_eq_keys]
    exact Std.ExtTreeMap.nodup_keys
  exact ((table.toList.mergeSort_perm entryLE).map Prod.fst).nodup_iff.mpr distinct

theorem mem_entries {table : KeyTable} {key : String} {value : UInt32} :
    (key, value) ∈ table.entries ↔ table[key]? = some value := by
  simp only [entries, List.mem_mergeSort, Std.ExtTreeMap.mem_toList_iff_getElem?_eq_some]

theorem foldl_insertEntry_entries (table : KeyTable) :
    table.entries.foldl insertEntry ∅ = table := by
  apply Std.ExtTreeMap.ext_getElem?
  intro key
  apply Option.ext
  intro value
  rw [getElem?_foldl_insertEntry table.nodup_map_fst_entries ∅ (by simp), mem_entries]
  simp

theorem consumes_loadEntry {entry : String × UInt32} {written : List UInt8}
    (encoded : saveEntry entry = .ok written) (table : KeyTable) :
    Consumes loadEntry written () table (insertEntry table entry) := by
  rcases exists_of_bind_eq_ok encoded with ⟨key, keyEncoded, encoded⟩
  rcases exists_of_bind_eq_ok encoded with ⟨value, valueEncoded, encoded⟩
  cases encoded
  apply Consumes.bind (Consumes.text keyEncoded table)
  rw [encodeWord_toNat] at valueEncoded
  cases valueEncoded
  rw [← List.append_nil (fourBytes _)]
  exact Consumes.bind (Consumes.word entry.2 table) (Consumes.update _ table)

theorem consumes_load {table : KeyTable} {written : List UInt8}
    (encoded : table.save = .ok written) (before : KeyTable) :
    Consumes load written () before table := by
  apply Consumes.bind_nil (Consumes.update _ before)
  have whole := Consumes.counted (fun _ _ _ target encoded => consumes_loadEntry encoded target)
    encoded ∅
  rwa [foldl_insertEntry_entries] at whole

end KeyTable

namespace ClusterTable

theorem consumes_loadCluster {features : List FeatureId} {written : List UInt8}
    (encoded : saveCluster features = .ok written) (clusters : ClusterTable) :
    Consumes loadCluster written () clusters (clusters.push features) := by
  rcases exists_of_bind_eq_ok encoded with ⟨count, countEncoded, encoded⟩
  rcases exists_of_bind_eq_ok encoded with ⟨bytes, bytesEncoded, encoded⟩
  cases encoded
  rcases Consumes.exists_word countEncoded clusters with ⟨number, same, countRead⟩
  apply Consumes.bind countRead
  have whole : number.toNat = features.length := by omega
  rw [whole, ← List.append_nil bytes]
  exact Consumes.bind (Consumes.words bytesEncoded clusters) (Consumes.update _ clusters)

theorem consumes_load {clusters : ClusterTable} {written : List UInt8}
    (encoded : clusters.save = .ok written) (before : ClusterTable) :
    Consumes load written () before clusters := by
  apply Consumes.bind_nil (Consumes.update _ before)
  exact Consumes.counted_push (fun _ _ target encoded => consumes_loadCluster encoded target) encoded

end ClusterTable

namespace PhraseTable

theorem consumes_loadFlag {goesOn : Bool} {written : List UInt8}
    (encoded : encodeByte (if goesOn then 1 else 0) = .ok written) (entries : PhraseTable) :
    Consumes loadFlag written goesOn entries entries := by
  cases goesOn with
  | false =>
      cases encoded
      exact fun _ => rfl
  | true =>
      cases encoded
      exact fun _ => rfl

theorem consumes_loadEntry {entry : PhraseEntry} {written : List UInt8}
    (encoded : saveEntry entry = .ok written) (entries : PhraseTable) :
    Consumes loadEntry written () entries (entries.push entry) := by
  rcases exists_of_bind_eq_ok encoded with ⟨flag, flagEncoded, encoded⟩
  rcases exists_of_bind_eq_ok encoded with ⟨count, countEncoded, encoded⟩
  rcases exists_of_bind_eq_ok encoded with ⟨bytes, bytesEncoded, encoded⟩
  cases encoded
  rcases Consumes.exists_byte countEncoded entries with ⟨number, same, countRead⟩
  rw [List.append_assoc]
  apply Consumes.bind (consumes_loadFlag flagEncoded entries)
  apply Consumes.bind countRead
  have whole : number.toNat = entry.features.length := by omega
  rw [whole, ← List.append_nil bytes]
  exact Consumes.bind (Consumes.words bytesEncoded entries) (Consumes.update _ entries)

theorem consumes_load {entries : PhraseTable} {written : List UInt8}
    (encoded : entries.save = .ok written) (before : PhraseTable) :
    Consumes load written () before entries := by
  apply Consumes.bind_nil (Consumes.update _ before)
  exact Consumes.counted_push (fun _ _ target encoded => consumes_loadEntry encoded target) encoded

end PhraseTable

namespace AddressTypes

theorem consumes_load {types : AddressTypes} {written : List UInt8}
    (encoded : types.save = .ok written) (before : AddressTypes) :
    Consumes load written () before types := by
  rcases exists_of_bind_eq_ok encoded with ⟨web, webEncoded, encoded⟩
  rcases exists_of_bind_eq_ok encoded with ⟨mail, mailEncoded, encoded⟩
  cases encoded
  rw [encodeWord_toNat] at webEncoded mailEncoded
  cases webEncoded
  cases mailEncoded
  apply Consumes.bind (Consumes.word types.web before)
  apply Consumes.bind_nil (Consumes.update _ before)
  rw [← List.append_nil (fourBytes _)]
  exact Consumes.bind (Consumes.word types.mail _) (Consumes.update _ _)

end AddressTypes

namespace Extractor

/-- An extractor of containers has neither a window nor keys. -/
def IsBlankIfContainers (extractor : Extractor) : Prop :=
  extractor.kind = .containers → extractor.window = 0 ∧ extractor.table = ∅

theorem ofName_isBlankIfContainers (name : ExtractorName) :
    (ofName name).IsBlankIfContainers :=
  fun _ => ⟨rfl, rfl⟩

/-- A kind that has nothing of its own is known by its name, and reading it takes nothing. -/
theorem consumes_loadKind_of_save_eq_nil {kind : Kind} (plain : Kind.ofName kind.name = kind)
    (skip : ∀ state, loadKind kind state = .ok () state) {before : Extractor}
    (same : before.kind = .ofName kind.name) :
    Consumes (loadKind (.ofName kind.name)) [] () before (before.setKind kind) := by
  intro rest
  rw [plain, skip, setKind, ← plain, ← same]
  rfl

theorem consumes_loadKind {kind : Kind} {written : List UInt8} (encoded : kind.save = .ok written)
    {before : Extractor} (same : before.kind = .ofName kind.name) :
    Consumes (loadKind (.ofName kind.name)) written () before (before.setKind kind) := by
  cases kind with
  | clusters clusters =>
      exact Consumes.within (fun _ => #[]) (fun clusters => setKind (.clusters clusters)) before
        (ClusterTable.consumes_load encoded #[])
  | gazetteers entries =>
      exact Consumes.within (fun _ => #[]) (fun entries => setKind (.gazetteers entries)) before
        (PhraseTable.consumes_load encoded #[])
  | addresses types =>
      exact Consumes.within (fun _ => {}) (fun types => setKind (.addresses types)) before
        (AddressTypes.consumes_load encoded {})
  | lexical source =>
      cases encoded
      exact consumes_loadKind_of_save_eq_nil (by cases source <;> rfl) (fun _ => rfl) same
  | capitalization source =>
      cases encoded
      exact consumes_loadKind_of_save_eq_nil (by cases source <;> rfl) (fun _ => rfl) same
  | containers | lemmaTerm | numericValue | earlierLabel =>
      cases encoded
      exact consumes_loadKind_of_save_eq_nil rfl (fun _ => rfl) same

theorem ofName_name_eq_containers_iff {kind : Kind} :
    (ofName kind.name).kind = .containers ↔ kind = .containers := by
  cases kind with
  | lexical source => cases source <;> simp [ofName, Kind.name, Kind.ofName]
  | capitalization source => cases source <;> simp [ofName, Kind.name, Kind.ofName]
  | _ => simp [ofName, Kind.name, Kind.ofName]

theorem save_of_ne_containers {extractor : Extractor} (other : extractor.kind ≠ .containers) :
    extractor.save = (do
      let window ← encodeWord extractor.window.toNat
      let table ← extractor.table.save
      let rest ← extractor.kind.save
      return window ++ table ++ rest) := by
  rw [save]
  split
  next isContainers => exact absurd isContainers other
  next => rfl

/-- What is read for every kind but that of containers. -/
def loadFields (kind : Kind) : Reader Extractor Unit := do
  let window ← Reader.word
  Reader.update (setWindow window)
  Reader.within table setTable KeyTable.load
  loadKind kind

theorem load_of_ne_containers {extractor : Extractor} (other : extractor.kind ≠ .containers)
    (data : List UInt8) : load (extractor, data) = loadFields extractor.kind (extractor, data) := by
  rcases extractor with ⟨window, table, kind⟩
  cases kind with
  | containers => exact absurd rfl other
  | _ => rfl

theorem consumes_load {extractor : Extractor} {written : List UInt8}
    (blank : extractor.IsBlankIfContainers) (encoded : extractor.save = .ok written) :
    Consumes load written () (ofName extractor.name) extractor := by
  rcases extractor with ⟨window, table, kind⟩
  by_cases isContainers : kind = .containers
  · subst isContainers
    rcases blank rfl with ⟨rfl, rfl⟩
    cases encoded
    exact fun _ => rfl
  · rw [save_of_ne_containers isContainers] at encoded
    rcases exists_of_bind_eq_ok encoded with ⟨front, frontEncoded, encoded⟩
    rcases exists_of_bind_eq_ok encoded with ⟨middle, middleEncoded, encoded⟩
    rcases exists_of_bind_eq_ok encoded with ⟨back, backEncoded, encoded⟩
    cases encoded
    rw [encodeWord_toNat] at frontEncoded
    cases frontEncoded
    have fields : Consumes (loadFields (ofName kind.name).kind)
        (fourBytes window.toNat ++ middle ++ back) () (ofName kind.name) ⟨window, table, kind⟩ := by
      rw [List.append_assoc]
      apply Consumes.bind (Consumes.word window _)
      apply Consumes.bind_nil (Consumes.update _ _)
      apply Consumes.bind (Consumes.within _ _ _ (KeyTable.consumes_load middleEncoded _))
      exact consumes_loadKind backEncoded rfl
    have fresh : (ofName kind.name).kind ≠ .containers := by
      rwa [ne_eq, ofName_name_eq_containers_iff]
    intro rest
    exact (load_of_ne_containers fresh _).trans (fields rest)

end Extractor

end EntityFeatures

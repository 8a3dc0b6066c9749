import EntityFeatures.Proofs.Extractor.ClusterFile
import EntityFeatures.Proofs.Extractor.PhraseMatching

/-!
# Where clusters and phrases take their features from

The features of clusters and of phrases are not looked up by key; they stand in tables
that were filled when a file was read. Whatever is emitted for a sentence comes from
such a table, and so has the centre of one of the blocks that the files took, for a
position of the sentence. `ClusterReading.origin_of_mem_emissions` and
`PhraseSearch.origin_of_mem_marks` say this of the two kinds.

A gazetteer only reserves the blocks of roles that occur in its phrases, and the feature
of a role is computed from the generic one when it is needed. That a role comes up only
where its block was reserved is what `PhraseFile.index_lt_of_listed` is about. Then the
computation is exact, `PhraseFile.feature_eq_of_complete`.
-/

namespace EntityFeatures

namespace ClusterReading

variable {first : FeatureId} {window : Window} {lengths : List Nat} {reading : ClusterReading}
  {rows : List (String × String)} {sentence : Sentence} {emission : Emission}

theorem exists_string_of_mem_features
    (reflects : Reflects first window lengths (rows.map Prod.fst) reading)
    (formsReflect : FormsReflect rows reading) {form : String} {number feature : UInt32}
    {features : List FeatureId} (known : reading.forms[form]? = some number)
    (clustered : reading.clusters[number.toNat]? = some features) (mem : feature ∈ features) :
    ∃ rank string, (distinctStrings lengths (rows.map Prod.fst))[rank]? = some string ∧
      feature.toNat = window.centre first.toNat rank := by
  rcases (formsReflect form number).mp known with ⟨label, -, numbered⟩
  rcases reflects.labelRanks.exists_rank numbered with ⟨rank, found, value⟩
  rcases reflects.getElem?_clusters rank label found with ⟨stored, storedFound, strings⟩
  rw [value, id_eq, storedFound, Option.some.injEq] at clustered
  subst clustered
  rcases List.mem_iff_getElem?.mp mem with ⟨place, placed⟩
  have inside : place < (stringsOf lengths label).length := by
    rw [strings.length_eq]
    exact (List.getElem?_eq_some_iff.mp placed).1
  have stringFound := strings.get inside (List.getElem?_eq_some_iff.mp placed).1
  rcases reflects.stringRanks.exists_rank stringFound with ⟨stringRank, listed, centred⟩
  rw [List.get_eq_getElem, (List.getElem?_eq_some_iff.mp placed).2] at centred
  exact ⟨stringRank, _, listed, centred⟩

theorem origin_of_mem_emissions
    (reflects : Reflects first window lengths (rows.map Prod.fst) reading)
    (formsReflect : FormsReflect rows reading)
    (mem : emission ∈ reading.clusters.emissions reading.forms window sentence) :
    ∃ (position rank : Nat) (string : String), position < sentence.size ∧
      emission = .around emission.feature position window ∧
      (distinctStrings lengths (rows.map Prod.fst))[rank]? = some string ∧
      emission.feature.toNat = window.centre first.toNat rank := by
  rcases List.mem_flatMap.mp mem with ⟨⟨word, position⟩, placed, emitted⟩
  rcases List.mem_map.mp emitted with ⟨feature, stored, rfl⟩
  have inside := (List.getElem?_eq_some_iff.mp (List.mem_zipIdx_iff_getElem?.mp placed)).1
  rw [ClusterTable.featuresOf] at stored
  cases known : reading.forms[word.rawLemma]? with
  | none =>
      rw [known] at stored
      cases stored
  | some number =>
      rw [known] at stored
      cases clustered : reading.clusters[number.toNat]? with
      | none =>
          dsimp only at stored
          rw [clustered] at stored
          cases stored
      | some features =>
          dsimp only at stored
          rw [clustered] at stored
          rcases exists_string_of_mem_features reflects formsReflect known clustered stored with
            ⟨rank, string, listed, centred⟩
          exact ⟨position, rank, string, inside, rfl, listed, centred⟩

end ClusterReading

namespace PhraseFile

open PhraseSearch

variable {resources : Resources} {window : Window} {first start final : Nat}
  {paths lemmas : List String}

/-- A role that fits into a phrase of a file has its block. -/
theorem index_lt_of_listed {path : String} {role : PhraseRole} (ordered : start ≤ final)
    (inside : final < lemmas.length) (fits : role.shortest ≤ final + 1 - start)
    (listed : textOf lemmas start final ∈ phrases resources path) :
    role.index.toNat < blockCount resources path := by
  have long := length_le_of_mem_phrases ordered inside listed
  exact PhraseRole.index_lt_countFor (Nat.le_trans fits long)

/-- The feature of a role that fits into a complete phrase is computed exactly. -/
theorem feature_eq_of_complete {generic : FeatureId} {role : PhraseRole}
    (room : first + window.blockLength * totalBlocks resources paths < UInt32.size)
    (ordered : start ≤ final) (inside : final < lemmas.length)
    (fits : role.shortest ≤ final + 1 - start)
    (complete : generic ∈
      (entryOf (markedLines resources window first paths) (textOf lemmas start final)).features) :
    (role.feature window generic).toNat =
      generic.toNat + role.index.toNat * window.blockLength := by
  rw [features_entryOf_markedLines room] at complete
  simp only [List.mem_flatMap, Prod.exists, List.mem_zipIdx_iff_getElem?] at complete
  rcases complete with ⟨path, file, found, complete⟩
  split at complete
  next listed =>
    have occurs := index_lt_of_listed ordered inside fits listed
    have within := blocksBefore_add_le resources found
    rw [List.mem_singleton.mp complete, PhraseRole.feature_ofNat_centre,
      Window.toNat_ofNat_centre (by omega) room, Window.toNat_ofNat_centre (by omega) room,
      Window.centre, Window.centre, Nat.mul_add, Nat.mul_comm role.index.toNat]
    omega
  next => cases complete

end PhraseFile

namespace PhraseSearch

open PhraseFile

variable {resources : Resources} {window : Window} {first start final : Nat}
  {paths lemmas : List String} {mark : PhraseMark}

theorem token_of_mem_marksOf {feature : PhraseRole → Nat} (ordered : start ≤ final)
    (mem : mark ∈ marksOf feature start final) : mark.token ≤ final := by
  rw [marksOf] at mem
  split at mem
  next same =>
    simp only [List.mem_cons, List.not_mem_nil, or_false] at mem
    rcases mem with rfl | rfl <;> exact ordered
  next =>
    rcases List.mem_flatMap.mp mem with ⟨token, inside, mem⟩
    rw [List.mem_range'_1] at inside
    simp only [List.mem_cons, List.not_mem_nil, or_false] at mem
    rcases mem with rfl | rfl <;> dsimp only <;> omega

theorem origin_of_mem_marks (mem : mark ∈ marks resources window first paths lemmas) :
    ∃ (file : Nat) (path : String) (role : PhraseRole), mark.token < lemmas.length ∧
      paths[file]? = some path ∧ role.index.toNat < blockCount resources path ∧
      mark.feature = featureOf resources window first paths file role := by
  simp only [marks, List.mem_flatMap, List.mem_range'_1, Prod.exists,
    List.mem_zipIdx_iff_getElem?] at mem
  rcases mem with ⟨start, startInside, final, finalInside, path, file, found, mem⟩
  split at mem
  next listed =>
    rcases exists_role_of_mem_marksOf finalInside.1 mem with ⟨role, feature_eq, fits⟩
    have last := token_of_mem_marksOf finalInside.1 mem
    have occurs := index_lt_of_listed finalInside.1 (by omega) fits listed
    exact ⟨file, path, role, by omega, found, occurs, feature_eq⟩
  next => cases mem

end PhraseSearch

end EntityFeatures

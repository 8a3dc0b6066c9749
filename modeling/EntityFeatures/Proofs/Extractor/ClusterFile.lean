import Mathlib.Data.List.Forall2
import Mathlib.Data.List.Perm.Subperm
import EntityFeatures.Extractor.ClusterTable
import EntityFeatures.Proofs.Feature.Ranking
import EntityFeatures.Proofs.Steps

/-!
# What is read of a cluster file

The reader of a cluster file keeps four tables that depend on each other.
`ClusterReading.Reflects` says what they hold once some labels have come up: labels
are numbered as they come up for the first time, and so are the strings that are
features, a label before its parts; and every label has a cluster with the features
of its strings in order. A label that comes up again changes nothing.

`ClusterReading.readText_eq_ok` is the result for a whole file. A file that is read
without an error has a label and a form on each line, no form twice, and takes one
block for every distinct string.
-/

namespace EntityFeatures

namespace ClusterReading

/-- The label and the form on a line, if it has both and nothing else. -/
def row? (line : String) : Option (String × String) :=
  match Text.fields '\t' line with
  | [label, form] => some (label, form)
  | _ => none

/-- The labels and forms of a file. -/
def rowsOf (text : String) : List (String × String) :=
  (Text.lines text).filterMap row?

/-- The labels and their parts, each where it comes up first. -/
def distinctStrings (lengths : List Nat) (labels : List String) : List String :=
  (labels.eraseDups.flatMap (stringsOf lengths)).eraseDups

/-- The tables of labels, strings and clusters once these labels have come up, in this order. -/
structure Reflects (first : FeatureId) (window : Window) (lengths : List Nat)
    (labels : List String) (reading : ClusterReading) : Prop where
  stringRanks : reading.strings.Ranks (distinctStrings lengths labels) (window.centre first.toNat)
  labelRanks : reading.labels.Ranks labels.eraseDups id
  clusters_size : reading.clusters.size = labels.eraseDups.length
  getElem?_clusters : ∀ (rank : Nat) (label : String), labels.eraseDups[rank]? = some label →
    ∃ features, reading.clusters[rank]? = some features ∧
      List.Forall₂ (fun string feature => reading.strings[string]? = some feature)
        (stringsOf lengths label) features

variable {first : FeatureId} {window : Window} {lengths : List Nat}
  {reading after : ClusterReading}

section Strings

variable {items strings : List String}

theorem featureOf_eq_ok {string : String} {feature : FeatureId}
    (ranks : reading.strings.Ranks items.eraseDups (window.centre first.toNat))
    (done : featureOf first window string reading = .ok feature after) :
    ∃ table, after = { reading with strings := table } ∧
      table.Ranks (items ++ [string]).eraseDups (window.centre first.toNat) ∧
      table[string]? = some feature := by
  simp only [featureOf] at done
  rcases exists_of_step_bind_eq_ok done with ⟨_, _, read, done⟩
  cases read
  cases centreFound : first.blockCentre? window reading.strings.size with
  | none =>
      rw [centreFound] at done
      cases done
  | some next =>
      rw [centreFound] at done
      rw [FeatureId.blockCentre?, FeatureId.ofNat?_eq_some_iff] at centreFound
      cases known : reading.strings[string]? with
      | some found =>
          rw [known] at done
          cases done
          refine ⟨reading.strings, rfl, ?_, known⟩
          rw [eraseDups_concat, if_pos]
          · exact ranks
          · exact List.mem_eraseDups.mp (ranks.mem_of_getElem? known)
      | none =>
          rw [known] at done
          cases done
          have new := ranks.getElem?_eq_none_iff.mp known
          refine ⟨reading.strings.insert string feature, rfl, ?_, by simp⟩
          rw [eraseDups_concat, if_neg]
          · apply ranks.insert new
            rw [centreFound, ranks.size_eq, Window.centre]
          · rwa [← List.mem_eraseDups]

theorem getElem?_of_ranks_append {table later : KeyTable} {numbered : Nat → Nat} {key : String}
    {number : UInt32} (ranks : table.Ranks items.eraseDups numbered)
    (grown : later.Ranks (items ++ strings).eraseDups numbered)
    (known : table[key]? = some number) : later[key]? = some number := by
  rw [List.eraseDups_append] at grown
  exact ranks.getElem?_of_append grown known

theorem featuresOf_eq_ok {features : List FeatureId}
    (ranks : reading.strings.Ranks items.eraseDups (window.centre first.toNat))
    (done : featuresOf first window strings reading = .ok features after) :
    ∃ table, after = { reading with strings := table } ∧
      table.Ranks (items ++ strings).eraseDups (window.centre first.toNat) ∧
      List.Forall₂ (fun string feature => table[string]? = some feature) strings features := by
  induction strings generalizing items reading features with
  | nil =>
      cases done
      refine ⟨after.strings, rfl, ?_, List.Forall₂.nil⟩
      rwa [List.append_nil]
  | cons string rest ih =>
      simp only [featuresOf] at done
      rcases exists_of_step_bind_eq_ok done with ⟨feature, _, firstDone, done⟩
      rcases exists_of_step_bind_eq_ok done with ⟨others, _, restDone, done⟩
      cases done
      rcases featureOf_eq_ok ranks firstDone with ⟨table, rfl, firstRanks, found⟩
      rcases ih firstRanks restDone with ⟨later, rfl, restRanks, foundRest⟩
      refine ⟨later, rfl, ?_, List.Forall₂.cons ?_ foundRest⟩
      · rwa [← List.append_cons] at restRanks
      · exact getElem?_of_ranks_append firstRanks restRanks found

end Strings

section Labels

variable {labels : List String} {label : String} {number : UInt32}

theorem distinctStrings_concat (new : label ∉ labels) :
    distinctStrings lengths (labels ++ [label]) =
      (labels.eraseDups.flatMap (stringsOf lengths) ++ stringsOf lengths label).eraseDups := by
  rw [distinctStrings, eraseDups_concat, if_neg new]
  simp

theorem label_mem_distinctStrings (mem : label ∈ labels) :
    label ∈ distinctStrings lengths labels := by
  simp only [distinctStrings, List.mem_eraseDups, List.mem_flatMap]
  exact ⟨label, mem, List.mem_cons_self ..⟩

/-- There are at most as many labels as strings, so the number of a cluster never wraps. -/
theorem length_labels_le {table : KeyTable}
    (ranks : table.Ranks (distinctStrings lengths labels) (window.centre first.toNat)) :
    labels.eraseDups.length ≤ UInt32.size := by
  have inside : labels.eraseDups ⊆ distinctStrings lengths labels := by
    intro label mem
    exact label_mem_distinctStrings (List.mem_eraseDups.mp mem)
  have fewer := (List.subperm_of_subset (nodup_eraseDups labels) inside).length_le
  exact Nat.le_trans fewer (ranks.length_le (window.le_centre first.toNat))

theorem Reflects.empty (first : FeatureId) (window : Window) (lengths : List Nat) :
    Reflects first window lengths [] {} := by
  refine ⟨KeyTable.Ranks.empty _, KeyTable.Ranks.empty _, rfl, ?_⟩
  intro rank label found
  simp at found

theorem Reflects.of_mem (reflects : Reflects first window lengths labels reading)
    (mem : label ∈ labels) : Reflects first window lengths (labels ++ [label]) reading := by
  have same : (labels ++ [label]).eraseDups = labels.eraseDups := by
    rw [eraseDups_concat, if_pos mem]
  refine ⟨?_, ?_, ?_, ?_⟩
  · rw [distinctStrings, same]
    exact reflects.stringRanks
  · rw [same]
    exact reflects.labelRanks
  · rw [same]
    exact reflects.clusters_size
  · rw [same]
    exact reflects.getElem?_clusters

theorem Reflects.push {table : KeyTable} {features : List FeatureId}
    (reflects : Reflects first window lengths labels reading) (new : label ∉ labels)
    (appended : table.Ranks
      (labels.eraseDups.flatMap (stringsOf lengths) ++ stringsOf lengths label).eraseDups
      (window.centre first.toNat))
    (found : List.Forall₂ (fun string feature => table[string]? = some feature)
      (stringsOf lengths label) features) :
    Reflects first window lengths (labels ++ [label])
      { reading with
        strings := table
        clusters := reading.clusters.push features
        labels := reading.labels.insert label (UInt32.ofNat reading.clusters.size) } := by
  have unlisted : label ∉ labels.eraseDups := by rwa [List.mem_eraseDups]
  have longer : (labels ++ [label]).eraseDups = labels.eraseDups ++ [label] := by
    rw [eraseDups_concat, if_neg new]
  have ranks := appended
  rw [← distinctStrings_concat new] at ranks
  have numbered : (UInt32.ofNat reading.clusters.size).toNat = labels.eraseDups.length := by
    have bound := length_labels_le ranks
    rw [longer, List.length_append, List.length_singleton] at bound
    rw [reflects.clusters_size, UInt32.toNat_ofNat_of_lt' (Nat.lt_of_succ_le bound)]
  refine ⟨?_, ?_, ?_, ?_⟩
  · exact ranks
  · rw [longer]
    exact reflects.labelRanks.insert unlisted numbered
  · rw [longer, List.length_append, List.length_singleton, Array.size_push,
      reflects.clusters_size]
  · intro rank other rankFound
    rw [longer] at rankFound
    rcases getElem?_concat_eq_some_iff.mp rankFound with inFront | ⟨rfl, rfl⟩
    · rcases reflects.getElem?_clusters rank other inFront with ⟨old, oldFound, oldStrings⟩
      have bound := (List.getElem?_eq_some_iff.mp inFront).1
      refine ⟨old, ?_, List.Forall₂.imp ?_ oldStrings⟩
      · rw [Array.getElem?_push, if_neg, oldFound]
        rw [reflects.clusters_size]
        omega
      · intro string feature known
        exact getElem?_of_ranks_append reflects.stringRanks appended known
    · refine ⟨features, ?_, found⟩
      rw [Array.getElem?_push, if_pos reflects.clusters_size.symm]

theorem clusterOf_eq_ok (reflects : Reflects first window lengths labels reading)
    (done : clusterOf first window lengths label reading = .ok number after) :
    Reflects first window lengths (labels ++ [label]) after ∧
      after.labels[label]? = some number ∧ after.forms = reading.forms := by
  simp only [clusterOf] at done
  rcases exists_of_step_bind_eq_ok done with ⟨_, _, read, done⟩
  cases read
  cases known : reading.labels[label]? with
  | some found =>
      rw [known] at done
      cases done
      have mem := List.mem_eraseDups.mp (reflects.labelRanks.mem_of_getElem? known)
      exact ⟨reflects.of_mem mem, known, rfl⟩
  | none =>
      rw [known] at done
      rcases exists_of_step_bind_eq_ok done with ⟨features, _, featuresRead, done⟩
      rcases exists_of_step_bind_eq_ok done with ⟨_, _, read, done⟩
      cases read
      rcases exists_of_step_bind_eq_ok done with ⟨_, _, written, done⟩
      cases written
      cases done
      rcases featuresOf_eq_ok reflects.stringRanks featuresRead with ⟨table, rfl, appended, found⟩
      have unlisted := reflects.labelRanks.getElem?_eq_none_iff.mp known
      have new : label ∉ labels := by rwa [← List.mem_eraseDups]
      exact ⟨reflects.push new appended found, by simp, rfl⟩

end Labels

/-- The forms lead to the clusters of their labels. -/
def FormsReflect (rows : List (String × String)) (reading : ClusterReading) : Prop :=
  ∀ (form : String) (number : UInt32), reading.forms[form]? = some number ↔
    ∃ label, (label, form) ∈ rows ∧ reading.labels[label]? = some number

section Lines

variable {rows : List (String × String)} {path line : String} {number : Nat}

theorem getElem?_labels_of_mem {labels more : List String} {label : String}
    (reflects : Reflects first window lengths labels reading)
    (grown : Reflects first window lengths (labels ++ more) after) (mem : label ∈ labels) :
    after.labels[label]? = reading.labels[label]? := by
  have listed := List.mem_eraseDups.mpr mem
  rcases List.mem_iff_getElem?.mp listed with ⟨rank, found⟩
  rcases reflects.labelRanks.exists_number found with ⟨number, known, -⟩
  rw [known, getElem?_of_ranks_append reflects.labelRanks grown.labelRanks known]

theorem FormsReflect.insert {label form : String} {cluster : UInt32}
    (formsReflect : FormsReflect rows reading)
    (same : ∀ row ∈ rows, after.labels[row.1]? = reading.labels[row.1]?)
    (known : ∀ row ∈ rows, ∃ number, reading.labels[row.1]? = some number)
    (found : after.labels[label]? = some cluster) (new : form ∉ reading.forms)
    (inserted : after.forms = reading.forms.insert form cluster) :
    FormsReflect (rows ++ [(label, form)]) after := by
  intro other number
  simp only [inserted, Std.ExtTreeMap.getElem?_insert, Std.LawfulEqCmp.compare_eq_iff_eq,
    List.mem_append, List.mem_singleton, Prod.mk.injEq]
  by_cases equal : form = other
  · subst equal
    rw [if_pos rfl]
    constructor
    · intro isCluster
      rw [← isCluster]
      exact ⟨label, Or.inr ⟨rfl, rfl⟩, found⟩
    · rintro ⟨earlier, mem | ⟨rfl, -⟩, numbered⟩
      · rcases known (earlier, form) mem with ⟨cluster, clustered⟩
        have already := (formsReflect form cluster).mpr ⟨earlier, mem, clustered⟩
        exact absurd (KeyTable.mem_iff.mpr ⟨cluster, already⟩) new
      · rw [← found, numbered]
  · rw [if_neg equal, formsReflect]
    constructor
    · rintro ⟨earlier, mem, numbered⟩
      refine ⟨earlier, Or.inl mem, ?_⟩
      rw [same _ mem, numbered]
    · rintro ⟨earlier, mem | ⟨-, rfl⟩, numbered⟩
      · rw [same _ mem] at numbered
        exact ⟨earlier, mem, numbered⟩
      · exact absurd rfl equal

theorem readLine_eq_ok (reflects : Reflects first window lengths (rows.map Prod.fst) reading)
    (formsReflect : FormsReflect rows reading)
    (done : readLine path first window lengths number line reading = .ok () after) :
    ∃ row, row? line = some row ∧
      Reflects first window lengths ((rows ++ [row]).map Prod.fst) after ∧
      FormsReflect (rows ++ [row]) after := by
  simp only [readLine] at done
  rcases fields : Text.fields '\t' line with _ | ⟨label, _ | ⟨form, _ | ⟨extra, rest⟩⟩⟩
  · rw [fields] at done
    cases done
  · rw [fields] at done
    cases done
  · rw [fields] at done
    refine ⟨(label, form), by simp [row?, fields], ?_⟩
    rcases exists_of_step_bind_eq_ok done with ⟨cluster, middle, clustered, done⟩
    rcases exists_of_step_bind_eq_ok done with ⟨_, _, read, done⟩
    cases read
    rcases exists_of_step_bind_eq_ok done with ⟨_, _, written, done⟩
    cases written
    rcases clusterOf_eq_ok reflects clustered with ⟨grown, found, sameForms⟩
    split at done
    next => cases done
    next new =>
      cases done
      have final : Reflects first window lengths (rows.map Prod.fst ++ [label])
          { middle with forms := middle.forms.insert form cluster } :=
        ⟨grown.stringRanks, grown.labelRanks, grown.clusters_size, grown.getElem?_clusters⟩
      rw [List.map_append]
      refine ⟨final, formsReflect.insert ?_ ?_ found ?_ (by rw [sameForms])⟩
      · intro row mem
        exact getElem?_labels_of_mem reflects final (List.mem_map_of_mem mem)
      · intro row mem
        have listed : row.1 ∈ (rows.map Prod.fst).eraseDups :=
          List.mem_eraseDups.mpr (List.mem_map_of_mem mem)
        exact KeyTable.mem_iff.mp ((reflects.labelRanks.mem_iff row.1).mpr listed)
      · rw [← sameForms]
        simpa using new
  · rw [fields] at done
    cases done

theorem readLines_eq_ok {lines : List String}
    (reflects : Reflects first window lengths (rows.map Prod.fst) reading)
    (formsReflect : FormsReflect rows reading)
    (done : readLines path first window lengths number lines reading = .ok () after) :
    (∀ line ∈ lines, ∃ row, row? line = some row) ∧
      Reflects first window lengths ((rows ++ lines.filterMap row?).map Prod.fst) after ∧
      FormsReflect (rows ++ lines.filterMap row?) after := by
  induction lines generalizing rows number reading with
  | nil =>
      cases done
      simpa using And.intro reflects formsReflect
  | cons line rest ih =>
      simp only [readLines] at done
      rcases exists_of_step_bind_eq_ok done with ⟨_, middle, firstDone, restDone⟩
      rcases readLine_eq_ok reflects formsReflect firstDone with ⟨row, isRow, grown, grownForms⟩
      rcases ih grown grownForms restDone with ⟨allRows, final, finalForms⟩
      rw [List.filterMap_cons_some isRow]
      rw [← List.append_cons] at final finalForms
      refine ⟨?_, final, finalForms⟩
      intro other mem
      rcases List.mem_cons.mp mem with rfl | later
      · exact ⟨row, isRow⟩
      · exact allRows other later

end Lines

theorem readText_eq_ok {path text : String} {total : FeatureId}
    (done : readText path first window lengths text {} = .ok total reading) :
    (∀ line ∈ Text.lines text, ∃ row, row? line = some row) ∧
      Reflects first window lengths ((rowsOf text).map Prod.fst) reading ∧
      FormsReflect (rowsOf text) reading ∧
      total.toNat = first.toNat +
        window.blockLength * (distinctStrings lengths ((rowsOf text).map Prod.fst)).length := by
  simp only [readText] at done
  rcases exists_of_step_bind_eq_ok done with ⟨_, middle, linesRead, done⟩
  rcases exists_of_step_bind_eq_ok done with ⟨_, _, read, done⟩
  cases read
  have noForms : FormsReflect [] {} := by
    intro form number
    simp
  rcases readLines_eq_ok (Reflects.empty first window lengths) noForms linesRead with
    ⟨allRows, reflects, formsReflect⟩
  cases endFound : first.blocksEnd? window middle.strings.size with
  | none =>
      rw [endFound] at done
      cases done
  | some behind =>
      rw [endFound] at done
      cases done
      rw [FeatureId.blocksEnd?, FeatureId.ofNat?_eq_some_iff] at endFound
      refine ⟨allRows, reflects, formsReflect, ?_⟩
      rw [endFound, reflects.stringRanks.size_eq]
      rfl

end ClusterReading

end EntityFeatures

import EntityFeatures.Proofs.Extractor.ClusterFile

/-!
# How the reading of a cluster file ends

There are three ways. The file is in order and its strings have room: then it is read. Or a
line is the first that is not in order. Or one of the strings comes up when no more centre
fits, and then this is what the reading fails of, whatever may come behind.

`ClusterReading.lookedUp` are the strings in the order in which their features are looked up.
It is what has to be known about the ids: a centre is computed for every string, also for one
that has its feature already, so there is room for all of them if and only if there is room
for a new block when the last of them comes up. `ClusterReading.RoomFor` says this, and every
outcome below is decided by it.
-/

namespace EntityFeatures

namespace ClusterReading

/-- The strings in the order in which their features are looked up, once for each label. -/
def lookedUp (lengths : List Nat) (labels : List String) : List String :=
  labels.eraseDups.flatMap (stringsOf lengths)

/-- When the last of the strings comes up, the centre of one more block is an id. -/
def RoomFor (first : FeatureId) (window : Window) (strings : List String) : Prop :=
  strings ≠ [] → window.centre first.toNat strings.dropLast.eraseDups.length < UInt32.size

/-- The labels on the lines that have a label and a form. -/
def labelsIn (lines : List String) : List String :=
  (lines.filterMap row?).map Prod.fst

/-- Each line has a label and a form, and no form stands on two of them. -/
structure InOrder (lines : List String) : Prop where
  rows : ∀ line ∈ lines, ∃ row, row? line = some row
  distinct : ((lines.filterMap row?).map Prod.snd).Nodup

/-- What is wrong with a line behind others that are in order. -/
inductive Breaks (front : List String) (line : String) : LineFault → Prop
  | wrongFields : row? line = none → Breaks front line (.wrongFields line)
  | repeatedForm {label form : String} : row? line = some (label, form) →
      form ∈ (front.filterMap row?).map Prod.snd → Breaks front line (.repeatedForm form)

section Room

variable {first : FeatureId} {window : Window} {lengths : List Nat} {items more : List String}
  {string label : String}

theorem roomFor_nil (first : FeatureId) (window : Window) : RoomFor first window [] :=
  fun nonempty => absurd rfl nonempty

theorem roomFor_concat : RoomFor first window (items ++ [string]) ↔
    window.centre first.toNat items.eraseDups.length < UInt32.size := by
  simp [RoomFor]

theorem length_eraseDups_le_append (items more : List String) :
    items.eraseDups.length ≤ (items ++ more).eraseDups.length := by
  rw [List.eraseDups_append, List.length_append]
  exact Nat.le_add_right _ _

/-- What had no room keeps having none: the strings before it are not taken back. -/
theorem RoomFor.of_append (room : RoomFor first window (items ++ more)) :
    RoomFor first window items := by
  rcases items.eq_nil_or_concat with rfl | ⟨front, last, rfl⟩
  · exact roomFor_nil first window
  rcases more.eq_nil_or_concat with rfl | ⟨middle, final, rfl⟩
  · rwa [List.append_nil] at room
  rw [List.concat_eq_append] at room ⊢
  rw [List.concat_eq_append, ← List.append_assoc, roomFor_concat] at room
  rw [roomFor_concat]
  have fewer := length_eraseDups_le_append front ([last] ++ middle)
  rw [← List.append_assoc] at fewer
  have steps := Nat.mul_le_mul_left window.blockLength fewer
  simp only [Window.centre] at room ⊢
  omega

theorem lookedUp_append (lengths : List Nat) (labels more : List String) :
    ∃ strings, lookedUp lengths (labels ++ more) = lookedUp lengths labels ++ strings := by
  rw [lookedUp, List.eraseDups_append, List.flatMap_append]
  exact ⟨_, rfl⟩

theorem lookedUp_concat_of_mem {labels : List String} (mem : label ∈ labels) :
    lookedUp lengths (labels ++ [label]) = lookedUp lengths labels := by
  rw [lookedUp, eraseDups_concat, if_pos mem, lookedUp]

theorem lookedUp_concat_of_notMem {labels : List String} (new : label ∉ labels) :
    lookedUp lengths (labels ++ [label]) =
      lookedUp lengths labels ++ stringsOf lengths label := by
  rw [lookedUp, eraseDups_concat, if_neg new, List.flatMap_append, List.flatMap_singleton,
    lookedUp]

theorem RoomFor.of_labels_append {labels : List String}
    (room : RoomFor first window (lookedUp lengths (labels ++ more))) :
    RoomFor first window (lookedUp lengths labels) := by
  rcases lookedUp_append lengths labels more with ⟨strings, same⟩
  rw [same] at room
  exact room.of_append

end Room

section Order

variable {front lines rest : List String} {line : String}

theorem labelsIn_append (front lines : List String) :
    labelsIn (front ++ lines) = labelsIn front ++ labelsIn lines := by
  rw [labelsIn, List.filterMap_append, List.map_append, labelsIn, labelsIn]

theorem labelsIn_singleton {label form : String} (isRow : row? line = some (label, form)) :
    labelsIn [line] = [label] := by
  simp [labelsIn, isRow]

theorem InOrder.of_append (inOrder : InOrder (front ++ rest)) : InOrder front := by
  refine ⟨fun line mem => inOrder.rows line (List.mem_append_left rest mem), ?_⟩
  have distinct := inOrder.distinct
  rw [List.filterMap_append, List.map_append] at distinct
  exact (List.nodup_append.mp distinct).1

theorem inOrder_of_map_row? (rows : List (String × String))
    (same : lines.map row? = rows.map some) (distinct : (rows.map Prod.snd).Nodup) :
    InOrder lines := by
  refine ⟨?_, ?_⟩
  · intro line mem
    have isRow : row? line ∈ rows.map some := same ▸ List.mem_map_of_mem mem
    rcases List.mem_map.mp isRow with ⟨row, -, found⟩
    exact ⟨row, found.symm⟩
  · have listed : lines.filterMap row? = (lines.map row?).filterMap id := by
      rw [List.filterMap_map]
      rfl
    rwa [listed, same, List.filterMap_map, Function.id_comp, List.filterMap_some]

theorem not_inOrder_of_breaks {fault : LineFault} (breaks : Breaks front line fault)
    (rest : List String) : ¬InOrder (front ++ line :: rest) := by
  intro inOrder
  cases breaks with
  | wrongFields noRow =>
      rcases inOrder.rows line (by simp) with ⟨row, isRow⟩
      rw [noRow] at isRow
      cases isRow
  | @repeatedForm label form isRow mem =>
      have distinct := inOrder.distinct
      rw [List.filterMap_append, List.map_append, List.filterMap_cons_some isRow,
        List.map_cons] at distinct
      exact (List.nodup_append.mp distinct).2.2 form mem form (List.mem_cons_self ..) rfl

end Order

variable {first : FeatureId} {window : Window} {lengths : List Nat} {reading : ClusterReading}

section Strings

variable {items strings : List String} {string : String}

theorem exists_featureOf_eq_ok
    (ranks : reading.strings.Ranks items.eraseDups (window.centre first.toNat))
    (room : RoomFor first window (items ++ [string])) :
    ∃ feature after, featureOf first window string reading = .ok feature after := by
  rw [roomFor_concat, ← ranks.size_eq] at room
  have centre : first.blockCentre? window reading.strings.size =
      some (UInt32.ofNat (window.centre first.toNat reading.strings.size)) := by
    rw [FeatureId.blockCentre?, FeatureId.ofNat?_eq_some_iff, UInt32.toNat_ofNat_of_lt' room,
      Window.centre]
  rw [featureOf, get_bind_apply, centre]
  cases reading.strings[string]? with
  | some feature => exact ⟨feature, reading, rfl⟩
  | none => exact ⟨_, _, rfl⟩

/-- The centre is missing whether or not the string needs a block of its own. -/
theorem featureOf_eq_error
    (ranks : reading.strings.Ranks items.eraseDups (window.centre first.toNat))
    (full : ¬RoomFor first window (items ++ [string])) :
    featureOf first window string reading = .error exhausted reading := by
  rw [roomFor_concat, ← ranks.size_eq, Nat.not_lt] at full
  have centre : first.blockCentre? window reading.strings.size = none := by
    rw [FeatureId.blockCentre?, FeatureId.ofNat?_eq_none_iff]
    exact full
  rw [featureOf, get_bind_apply, centre]
  rfl

theorem featuresOf_outcome (strings : List String)
    (ranks : reading.strings.Ranks items.eraseDups (window.centre first.toNat))
    (room : RoomFor first window items) :
    (RoomFor first window (items ++ strings) →
      ∃ features after, featuresOf first window strings reading = .ok features after) ∧
    (¬RoomFor first window (items ++ strings) →
      ∃ after, featuresOf first window strings reading = .error exhausted after) := by
  induction strings generalizing items reading with
  | nil =>
      rw [List.append_nil]
      exact ⟨fun _ => ⟨[], reading, rfl⟩, fun full => absurd room full⟩
  | cons string rest ih =>
      rw [List.append_cons]
      by_cases here : RoomFor first window (items ++ [string])
      · rcases exists_featureOf_eq_ok ranks here with ⟨feature, middle, found⟩
        rcases featureOf_eq_ok ranks found with ⟨table, rfl, grown, -⟩
        have ranks : ({ reading with strings := table } : ClusterReading).strings.Ranks
            (items ++ [string]).eraseDups (window.centre first.toNat) := grown
        rcases ih ranks here with ⟨enough, few⟩
        rw [featuresOf, step_bind_of_ok found]
        constructor
        · intro all
          rcases enough all with ⟨features, after, done⟩
          rw [step_bind_of_ok done]
          exact ⟨_, _, rfl⟩
        · intro full
          rcases few full with ⟨after, failed⟩
          rw [step_bind_of_error failed]
          exact ⟨after, rfl⟩
      · rw [featuresOf, step_bind_of_error (featureOf_eq_error ranks here)]
        exact ⟨fun all => absurd all.of_append here, fun _ => ⟨reading, rfl⟩⟩

end Strings

theorem clusterOf_outcome {labels : List String} (label : String)
    (reflects : Reflects first window lengths labels reading)
    (room : RoomFor first window (lookedUp lengths labels)) :
    (RoomFor first window (lookedUp lengths (labels ++ [label])) →
      ∃ cluster after, clusterOf first window lengths label reading = .ok cluster after) ∧
    (¬RoomFor first window (lookedUp lengths (labels ++ [label])) →
      ∃ after, clusterOf first window lengths label reading = .error exhausted after) := by
  rw [clusterOf, get_bind_apply]
  cases known : reading.labels[label]? with
  | some cluster =>
      have mem := List.mem_eraseDups.mp (reflects.labelRanks.mem_of_getElem? known)
      rw [lookedUp_concat_of_mem mem]
      exact ⟨fun _ => ⟨cluster, reading, rfl⟩, fun full => absurd room full⟩
  | none =>
      have unlisted := reflects.labelRanks.getElem?_eq_none_iff.mp known
      have new : label ∉ labels := by rwa [← List.mem_eraseDups]
      rw [lookedUp_concat_of_notMem new]
      rcases featuresOf_outcome (stringsOf lengths label) reflects.stringRanks room with
        ⟨enough, few⟩
      constructor
      · intro all
        rcases enough all with ⟨features, middle, done⟩
        simp only [step_bind_of_ok done]
        exact ⟨_, _, rfl⟩
      · intro full
        rcases few full with ⟨after, failed⟩
        simp only [step_bind_of_error failed]
        exact ⟨after, rfl⟩

section Lines

variable {path line : String} {number : Nat} {front lines : List String}

theorem readLine_eq (path : String) (number : Nat) {label form : String}
    (isRow : row? line = some (label, form)) :
    readLine path first window lengths number line =
      (do
        let cluster ← clusterOf first window lengths label
        let reading ← get
        set { reading with forms := reading.forms.insert form cluster }
        if reading.forms.contains form then
          throw (.format path number (.repeatedForm form))) := by
  rw [readLine]
  rcases fields : Text.fields '\t' line with _ | ⟨one, _ | ⟨two, _ | ⟨extra, rest⟩⟩⟩ <;>
    simp only [row?, fields, reduceCtorEq, Option.some.injEq, Prod.mk.injEq] at isRow
  rw [isRow.1, isRow.2]

theorem mem_forms_iff {rows : List (String × String)} {form : String}
    (reflects : Reflects first window lengths (rows.map Prod.fst) reading)
    (formsReflect : FormsReflect rows reading) :
    form ∈ reading.forms ↔ form ∈ rows.map Prod.snd := by
  rw [KeyTable.mem_iff, List.mem_map]
  constructor
  · rintro ⟨number, found⟩
    rcases (formsReflect form number).mp found with ⟨label, mem, -⟩
    exact ⟨(label, form), mem, rfl⟩
  · rintro ⟨⟨label, other⟩, mem, rfl⟩
    have listed : label ∈ (rows.map Prod.fst).eraseDups :=
      List.mem_eraseDups.mpr (List.mem_map_of_mem (f := Prod.fst) mem)
    rcases KeyTable.mem_iff.mp ((reflects.labelRanks.mem_iff label).mpr listed) with
      ⟨number, known⟩
    exact ⟨number, (formsReflect other number).mpr ⟨label, mem, known⟩⟩

/-- What is read of a line that has a label and a form. -/
theorem readLine_outcome {label form : String} (path : String) (number : Nat)
    (isRow : row? line = some (label, form))
    (reflects : Reflects first window lengths (labelsIn front) reading)
    (formsReflect : FormsReflect (front.filterMap row?) reading)
    (room : RoomFor first window (lookedUp lengths (labelsIn front))) :
    (¬RoomFor first window (lookedUp lengths (labelsIn (front ++ [line]))) →
      ∃ after, readLine path first window lengths number line reading = .error exhausted after) ∧
    (RoomFor first window (lookedUp lengths (labelsIn (front ++ [line]))) →
      (form ∉ (front.filterMap row?).map Prod.snd →
        ∃ after, readLine path first window lengths number line reading = .ok () after) ∧
      (form ∈ (front.filterMap row?).map Prod.snd →
        ∃ after, readLine path first window lengths number line reading =
          .error (.format path number (.repeatedForm form)) after)) := by
  rw [labelsIn_append, labelsIn_singleton isRow, readLine_eq path number isRow]
  rcases clusterOf_outcome label reflects room with ⟨enough, few⟩
  refine ⟨?_, ?_⟩
  · intro full
    rcases few full with ⟨after, failed⟩
    exact ⟨after, step_bind_of_error failed _⟩
  · intro all
    rcases enough all with ⟨cluster, middle, done⟩
    rw [step_bind_of_ok done, get_bind_apply, set_bind_apply]
    have sameForms : middle.forms.contains form = true ↔
        form ∈ (front.filterMap row?).map Prod.snd := by
      rw [(clusterOf_eq_ok reflects done).2.2, Std.ExtTreeMap.contains_iff_mem]
      exact mem_forms_iff reflects formsReflect
    refine ⟨?_, ?_⟩
    · intro new
      rw [if_neg fun known => new (sameForms.mp known)]
      exact ⟨_, rfl⟩
    · intro known
      rw [if_pos (sameForms.mpr known)]
      exact ⟨_, rfl⟩

/-- Lines in order are read as far as there is room for their strings. -/
theorem readLines_outcome (inOrder : InOrder (front ++ lines))
    (reflects : Reflects first window lengths (labelsIn front) reading)
    (formsReflect : FormsReflect (front.filterMap row?) reading)
    (room : RoomFor first window (lookedUp lengths (labelsIn front))) :
    (RoomFor first window (lookedUp lengths (labelsIn (front ++ lines))) →
      ∃ after, readLines path first window lengths number lines reading = .ok () after) ∧
    (¬RoomFor first window (lookedUp lengths (labelsIn (front ++ lines))) →
      ∃ after, readLines path first window lengths number lines reading =
        .error exhausted after) := by
  -- The lines that were read move over to `front`, for which there has been room.
  induction lines generalizing front number reading with
  | nil =>
      rw [List.append_nil]
      exact ⟨fun _ => ⟨reading, rfl⟩, fun full => absurd room full⟩
  | cons line rest ih =>
      rw [List.append_cons] at inOrder ⊢
      have extended := inOrder.of_append
      rcases extended.rows line (by simp) with ⟨⟨label, form⟩, isRow⟩
      have new : form ∉ (front.filterMap row?).map Prod.snd := by
        intro known
        exact not_inOrder_of_breaks (.repeatedForm isRow known) [] extended
      rcases readLine_outcome path number isRow reflects formsReflect room with
        ⟨few, enough⟩
      simp only [readLines]
      by_cases here : RoomFor first window (lookedUp lengths (labelsIn (front ++ [line])))
      · rcases (enough here).1 new with ⟨middle, done⟩
        rw [step_bind_of_ok done]
        rcases readLine_eq_ok reflects formsReflect done with ⟨row, same, grown, grownForms⟩
        have rows : (front ++ [line]).filterMap row? = front.filterMap row? ++ [row] := by
          simp [same]
        rw [← rows] at grown grownForms
        exact ih inOrder grown grownForms here
      · rcases few here with ⟨after, failed⟩
        rw [step_bind_of_error failed]
        refine ⟨fun all => absurd ?_ here, fun _ => ⟨after, rfl⟩⟩
        rw [labelsIn_append] at all
        exact all.of_labels_append

theorem formsReflect_empty : FormsReflect [] {} := by
  intro form number
  simp

theorem readLines_outcome_of_inOrder (path : String) (first : FeatureId) (window : Window)
    (lengths : List Nat) (number : Nat) (inOrder : InOrder lines) :
    (RoomFor first window (lookedUp lengths (labelsIn lines)) →
      ∃ after, readLines path first window lengths number lines {} = .ok () after) ∧
    (¬RoomFor first window (lookedUp lengths (labelsIn lines)) →
      ∃ after, readLines path first window lengths number lines {} = .error exhausted after) := by
  have whole : InOrder ([] ++ lines) := inOrder
  have reflects : Reflects first window lengths (labelsIn []) {} :=
    Reflects.empty first window lengths
  exact readLines_outcome whole reflects formsReflect_empty (roomFor_nil first window)

end Lines

/-- There is room for all strings, and for the block of the last new one behind its centre. -/
def Fits (first : FeatureId) (window : Window) (lengths : List Nat) (labels : List String) :
    Prop :=
  RoomFor first window (lookedUp lengths labels) ∧
    first.toNat + window.blockLength * (distinctStrings lengths labels).length < UInt32.size

/-- The last string that is looked up has been looked up before. -/
def EndsKnown (strings : List String) : Prop :=
  ∃ string, strings.getLast? = some string ∧ string ∈ strings.dropLast

/-- A new string needs its block, which is more than a centre; one that is known needs no block. -/
theorem fits_iff_not_overrun (labels : List String) : Fits first window lengths labels ↔
    ¬window.Overrun first.toNat (distinctStrings lengths labels).length
      (EndsKnown (lookedUp lengths labels)) := by
  have length : window.blockLength = 2 * window.toNat + 1 := rfl
  have distinct : distinctStrings lengths labels = (lookedUp lengths labels).eraseDups := rfl
  rw [Fits, Window.Overrun, not_or, not_and, Nat.not_le, Nat.not_le, distinct, and_comm]
  apply and_congr_right
  intro endFits
  -- If the last string is new, its block reaches behind its centre, and the end has been checked.
  rcases (lookedUp lengths labels).eq_nil_or_concat with none | ⟨front, last, listed⟩
  · rw [none]
    simp [roomFor_nil, EndsKnown]
  · rw [listed, List.concat_eq_append] at endFits ⊢
    have ends : EndsKnown (front ++ [last]) ↔ last ∈ front := by simp [EndsKnown]
    rw [roomFor_concat, ends]
    rw [eraseDups_concat] at endFits ⊢
    split at endFits
    next known =>
      rw [if_pos known]
      exact ⟨fun room _ => room, fun room => room known⟩
    next new =>
      refine iff_of_true ?_ fun known => absurd known new
      rw [List.length_append, List.length_singleton, Nat.mul_succ] at endFits
      rw [Window.centre]
      omega

theorem readText_outcome_of_inOrder (path : String) (first : FeatureId) (window : Window)
    (lengths : List Nat) {text : String} (inOrder : InOrder (Text.lines text)) :
    (Fits first window lengths ((rowsOf text).map Prod.fst) →
      ∃ total after, readText path first window lengths text {} = .ok total after) ∧
    (¬Fits first window lengths ((rowsOf text).map Prod.fst) →
      ∃ after, readText path first window lengths text {} = .error exhausted after) := by
  rcases readLines_outcome_of_inOrder path first window lengths 1 inOrder with ⟨enough, few⟩
  simp only [readText]
  by_cases room : RoomFor first window (lookedUp lengths (labelsIn (Text.lines text)))
  · rcases enough room with ⟨middle, done⟩
    rw [step_bind_of_ok done, get_bind_apply]
    rcases readLines_eq_ok (Reflects.empty first window lengths) formsReflect_empty
      done with ⟨-, reflects, -⟩
    have size : middle.strings.size =
        (distinctStrings lengths ((rowsOf text).map Prod.fst)).length :=
      reflects.stringRanks.size_eq
    rw [size]
    cases endFound : first.blocksEnd? window
        (distinctStrings lengths ((rowsOf text).map Prod.fst)).length with
    | none =>
        refine ⟨fun fits => ?_, fun _ => ⟨middle, rfl⟩⟩
        rw [FeatureId.blocksEnd?, FeatureId.ofNat?_eq_none_iff] at endFound
        exact absurd fits.2 (Nat.not_lt.mpr endFound)
    | some total =>
        refine ⟨fun _ => ⟨total, middle, rfl⟩, fun full => absurd ⟨room, ?_⟩ full⟩
        rw [FeatureId.blocksEnd?, FeatureId.ofNat?_eq_some_iff] at endFound
        rw [← endFound]
        exact total.toNat_lt_size
  · rcases few room with ⟨after, failed⟩
    rw [step_bind_of_error failed]
    exact ⟨fun fits => absurd fits.1 room, fun _ => ⟨after, rfl⟩⟩

end ClusterReading

end EntityFeatures

import EntityFeatures.Extractor.PhraseTable
import EntityFeatures.Proofs.Feature.Tiling
import EntityFeatures.Proofs.Steps

/-!
# What is read of gazetteers

Reading several gazetteers does two things that can be told apart. Line after line
is added to the entries, each with the generic feature of its file; and file after
file takes its blocks from the counter, as many as its longest phrase has roles for.
`PhraseReading.readFiles_eq_ok` says that a reading without an error is exactly this:
the lines of all files, marked with their features by `PhraseFile.markedLines`, are
added in order, and the counter goes on by the blocks of all files.
-/

namespace EntityFeatures

namespace PhraseRole

/-- The roles in the order of their blocks. -/
def all : List PhraseRole :=
  [member, only, first, last, between]

theorem getElem?_all_index (role : PhraseRole) : all[role.index.toNat]? = some role := by
  cases role <;> rfl

theorem index_of_getElem?_all {rank : Nat} {role : PhraseRole} (found : all[rank]? = some role) :
    role.index.toNat = rank := by
  rcases rank with _ | _ | _ | _ | _ | rank <;> cases found <;> rfl

theorem countFor_le (longest : Nat) : countFor longest ≤ all.length := by
  rcases longest with _ | _ | _ | longest <;> simp [countFor, all]

end PhraseRole

namespace PhraseFile

variable (resources : Resources)

/-- The lines of a file; none if the file cannot be read. -/
def lines (path : String) : List String :=
  match resources.readText path with
  | .ok text => Text.lines text
  | .error _ => []

/-- How many blocks a file takes. -/
def blockCount (path : String) : Nat :=
  PhraseRole.countFor (PhraseReading.longest (lines resources path))

/-- How many blocks are taken by several files. -/
def totalBlocks : (paths : List String) → Nat
  | [] => 0
  | path :: rest => blockCount resources path + totalBlocks rest

/-- The lines of several files, each with the generic feature of its file. -/
def markedLines (window : Window) : (first : Nat) → List String → List (FeatureId × String)
  | _, [] => []
  | first, path :: rest =>
      (lines resources path).map (fun line => (UInt32.ofNat (first + window.toNat), line)) ++
        markedLines window (first + window.blockLength * blockCount resources path) rest

/-- The blocks of several files end where those of the others end behind the first. -/
theorem add_totalBlocks_cons (window : Window) (first : Nat) (path : String) (rest : List String) :
    first + window.blockLength * totalBlocks resources (path :: rest) =
      first + window.blockLength * blockCount resources path +
        window.blockLength * totalBlocks resources rest := by
  rw [totalBlocks, Nat.mul_add, Nat.add_assoc]

end PhraseFile

namespace PhraseRole

/-- The feature of a role lies as many blocks behind the generic one as the role has before it. -/
theorem feature_ofNat_centre (role : PhraseRole) (window : Window) (first rank : Nat) :
    role.feature window (UInt32.ofNat (window.centre first rank)) =
      UInt32.ofNat (window.centre first (rank + role.index.toNat)) := by
  apply UInt32.toNat_inj.mp
  have bound := window.toNat_lt
  simp only [feature, UInt32.toNat_add, UInt32.toNat_mul, UInt32.toNat_ofNat', Window.centre,
    Nat.mul_add, Window.blockLength]
  generalize (2 * window.toNat + 1) * rank = before
  cases role <;> simp [index] <;> omega

end PhraseRole

namespace PhraseReading

open PhraseFile

variable {resources : Resources} {window : Window} {reading after : PhraseReading}

/-- Adds lines that are marked with the features of their files. -/
def addMarked (reading : PhraseReading) (marked : List (FeatureId × String)) : PhraseReading :=
  marked.foldl (fun reading (feature, line) => addLine feature reading line) reading

theorem addMarked_append (reading : PhraseReading) (front back : List (FeatureId × String)) :
    reading.addMarked (front ++ back) = (reading.addMarked front).addMarked back :=
  List.foldl_append

section Total

variable (total : FeatureId)

theorem modify_with_total (reading : PhraseReading) (change : PhraseEntry → PhraseEntry)
    (phrase : String) :
    ({ reading with total } : PhraseReading).modify change phrase =
      { reading.modify change phrase with total } := by
  simp only [modify]
  cases reading.phrases[phrase]? <;> rfl

theorem addPhrases_with_total (feature : FeatureId) (parts : List String)
    (reading : PhraseReading) :
    addPhrases feature parts { reading with total } =
      { addPhrases feature parts reading with total } := by
  induction parts generalizing reading with
  | nil => rfl
  | cons part rest ih =>
      cases rest with
      | nil => exact modify_with_total total reading _ part
      | cons next rest =>
          rw [addPhrases, modify_with_total, ih, ← addPhrases]

theorem addMarked_with_total (reading : PhraseReading) (marked : List (FeatureId × String)) :
    ({ reading with total } : PhraseReading).addMarked marked =
      { reading.addMarked marked with total } := by
  induction marked generalizing reading with
  | nil => rfl
  | cons first rest ih =>
      simp only [addMarked, List.foldl_cons, addLine] at ih ⊢
      rw [addPhrases_with_total, ih]

theorem total_addMarked (reading : PhraseReading) (marked : List (FeatureId × String)) :
    (reading.addMarked marked).total = reading.total := by
  have same := congrArg PhraseReading.total (addMarked_with_total reading.total reading marked)
  exact same

end Total

theorem addMarked_map (reading : PhraseReading) (feature : FeatureId) (lines : List String) :
    reading.addMarked (lines.map fun line => (feature, line)) =
      lines.foldl (addLine feature) reading := by
  rw [addMarked, List.foldl_map]

theorem readFile_eq_ok {path : String}
    (done : readFile resources window path reading = .ok () after) :
    reading.total.toNat + window.toNat < UInt32.size ∧
      after.total.toNat =
        reading.total.toNat + window.blockLength * blockCount resources path ∧
      after =
        { reading.addMarked ((lines resources path).map
            fun line => (UInt32.ofNat (reading.total.toNat + window.toNat), line)) with
          total := after.total } := by
  simp only [readFile] at done
  cases textRead : resources.readText path with
  | error fault =>
      rw [textRead] at done
      cases done
  | ok text =>
      rw [textRead] at done
      rcases exists_of_step_bind_eq_ok done with ⟨_, _, read, done⟩
      cases read
      cases centreFound : reading.total.blockCentre? window 0 with
      | none =>
          rw [centreFound] at done
          cases done
      | some feature =>
          rw [centreFound] at done
          rcases exists_of_step_bind_eq_ok done with ⟨_, _, added, done⟩
          cases added
          rcases exists_of_step_bind_eq_ok done with ⟨_, _, read, done⟩
          cases read
          have linesRead : lines resources path = Text.lines text := by
            rw [lines, textRead]
          rw [FeatureId.blockCentre?, FeatureId.ofNat?_eq_some_iff, Nat.mul_zero,
            Nat.add_zero] at centreFound
          have sameFeature : UInt32.ofNat (reading.total.toNat + window.toNat) = feature := by
            rw [← centreFound, UInt32.ofNat_toNat]
          rw [blockCount, linesRead, sameFeature, addMarked_map]
          have sameTotal : ((Text.lines text).foldl (addLine feature) reading).total =
              reading.total := by
            rw [← addMarked_map, total_addMarked]
          rw [sameTotal] at done
          cases endFound : reading.total.blocksEnd? window
              (PhraseRole.countFor (longest (Text.lines text))) with
          | none =>
              rw [endFound] at done
              cases done
          | some total =>
              rw [endFound] at done
              cases done
              rw [FeatureId.blocksEnd?, FeatureId.ofNat?_eq_some_iff] at endFound
              exact ⟨centreFound ▸ feature.toNat_lt_size, endFound, rfl⟩

theorem readFiles_eq_ok {paths : List String}
    (done : readFiles resources window paths reading = .ok () after) :
    after.total.toNat =
        reading.total.toNat + window.blockLength * totalBlocks resources paths ∧
      after =
        { reading.addMarked (markedLines resources window reading.total.toNat paths) with
          total := after.total } := by
  induction paths generalizing reading with
  | nil =>
      cases done
      exact ⟨rfl, rfl⟩
  | cons path rest ih =>
      simp only [readFiles] at done
      rcases exists_of_step_bind_eq_ok done with ⟨_, middle, firstDone, restDone⟩
      rcases readFile_eq_ok firstDone with ⟨-, firstTotal, firstEq⟩
      rcases ih restDone with ⟨restTotal, restEq⟩
      constructor
      · rw [restTotal, firstTotal, add_totalBlocks_cons]
      · rw [restEq, markedLines, addMarked_append, firstTotal]
        conv => lhs; rw [firstEq]
        rw [addMarked_with_total]

section Features

variable {Known : FeatureId → Prop}

/-- All features in the entries have a property. -/
def Stores (Known : FeatureId → Prop) (reading : PhraseReading) : Prop :=
  ∀ entry ∈ reading.entries, ∀ feature ∈ entry.features, Known feature

theorem Stores.modify (stores : reading.Stores Known) {change : PhraseEntry → PhraseEntry}
    (keeps : ∀ entry : PhraseEntry, (∀ feature ∈ entry.features, Known feature) →
      ∀ feature ∈ (change entry).features, Known feature)
    (phrase : String) : (reading.modify change phrase).Stores Known := by
  intro entry mem
  rw [PhraseReading.modify] at mem
  split at mem
  next number _ =>
    rcases Array.mem_iff_getElem?.mp mem with ⟨place, found⟩
    rw [Array.getElem?_modify] at found
    split at found
    next =>
      rcases Option.map_eq_some_iff.mp found with ⟨old, oldFound, rfl⟩
      exact keeps old (stores old (Array.mem_of_getElem? oldFound))
    next => exact stores entry (Array.mem_of_getElem? found)
  next =>
    rcases Array.mem_push.mp mem with old | rfl
    · exact stores entry old
    · apply keeps
      intro feature inEmpty
      cases inEmpty

theorem Stores.addPhrases (stores : reading.Stores Known) {feature : FeatureId}
    {parts : List String} (known : parts ≠ [] → Known feature) :
    (addPhrases feature parts reading).Stores Known := by
  induction parts generalizing reading with
  | nil => exact stores
  | cons part rest ih =>
      cases rest with
      | nil =>
          apply stores.modify
          intro entry before other mem
          rw [PhraseEntry.complete] at mem
          split at mem
          · exact before other mem
          · rcases List.mem_append.mp mem with old | last
            · exact before other old
            · rw [List.mem_singleton.mp last]
              exact known (List.cons_ne_nil _ _)
      | cons next rest =>
          rw [PhraseReading.addPhrases]
          apply ih
          · apply stores.modify
            intro entry before
            exact before
          · exact fun _ => known (List.cons_ne_nil _ _)

theorem phrasesOf_eq_nil_iff {words : List String} :
    PhraseTable.phrasesOf words = [] ↔ words = [] := by
  cases words <;> simp [PhraseTable.phrasesOf]

theorem Stores.addMarked (stores : reading.Stores Known) {marked : List (FeatureId × String)}
    (known : ∀ entry ∈ marked, PhraseTable.wordsOf entry.2 ≠ [] → Known entry.1) :
    (reading.addMarked marked).Stores Known := by
  induction marked generalizing reading with
  | nil => exact stores
  | cons first rest ih =>
      rw [PhraseReading.addMarked, List.foldl_cons]
      apply ih
      · apply stores.addPhrases
        intro nonempty
        apply known first (List.mem_cons_self ..)
        rwa [ne_eq, ← phrasesOf_eq_nil_iff]
      · intro entry mem
        exact known entry (List.mem_cons_of_mem _ mem)

end Features

theorem le_foldl_max (lines : List String) (start : Nat) :
    start ≤ lines.foldl (fun longest line => max longest (PhraseTable.wordsOf line).length) start ∧
      ∀ line ∈ lines, (PhraseTable.wordsOf line).length ≤
        lines.foldl (fun longest line => max longest (PhraseTable.wordsOf line).length) start := by
  induction lines generalizing start with
  | nil => simp
  | cons first rest ih =>
      rcases ih (max start (PhraseTable.wordsOf first).length) with ⟨atLeast, others⟩
      refine ⟨Nat.le_trans (Nat.le_max_left ..) atLeast, ?_⟩
      intro line mem
      rcases List.mem_cons.mp mem with rfl | inRest
      · exact Nat.le_trans (Nat.le_max_right ..) atLeast
      · exact others line inRest

theorem length_le_longest {lines : List String} {line : String} (mem : line ∈ lines) :
    (PhraseTable.wordsOf line).length ≤ longest lines :=
  (le_foldl_max lines 0).2 line mem

end PhraseReading

namespace PhraseFile

variable {resources : Resources} {window : Window}

/-- How many blocks are taken by the files before the one of this number. -/
def blocksBefore (resources : Resources) (paths : List String) (file : Nat) : Nat :=
  totalBlocks resources (paths.take file)

theorem blocksBefore_zero (paths : List String) : blocksBefore resources paths 0 = 0 := rfl

theorem blocksBefore_cons (path : String) (rest : List String) (file : Nat) :
    blocksBefore resources (path :: rest) (file + 1) =
      blockCount resources path + blocksBefore resources rest file := rfl

theorem blocksBefore_add_le (resources : Resources) {paths : List String} {file : Nat}
    {path : String} (found : paths[file]? = some path) :
    blocksBefore resources paths file + blockCount resources path ≤ totalBlocks resources paths := by
  induction paths generalizing file with
  | nil => simp at found
  | cons first rest ih =>
      cases file with
      | zero =>
          cases found
          rw [blocksBefore_zero, totalBlocks]
          omega
      | succ file =>
          have inRest := ih (List.getElem?_cons_succ ▸ found)
          rw [blocksBefore_cons, totalBlocks]
          omega

theorem centre_add_blockCount (first : Nat) (path : String) (rank : Nat) :
    window.centre (first + window.blockLength * blockCount resources path) rank =
      window.centre first (blockCount resources path + rank) := by
  simp only [Window.centre, Nat.mul_add]
  omega

theorem centre_blocksBefore_succ (first : Nat) (path : String) (rest : List String) (file : Nat) :
    window.centre (first + window.blockLength * blockCount resources path)
        (blocksBefore resources rest file) =
      window.centre first (blocksBefore resources (path :: rest) (file + 1)) := by
  rw [centre_add_blockCount, blocksBefore_cons]

theorem exists_of_mem_markedLines {paths : List String} {first : Nat} {feature : FeatureId}
    {line : String} (mem : (feature, line) ∈ markedLines resources window first paths) :
    ∃ file path, paths[file]? = some path ∧ line ∈ lines resources path ∧
      feature = UInt32.ofNat (window.centre first (blocksBefore resources paths file)) := by
  induction paths generalizing first with
  | nil => cases mem
  | cons path rest ih =>
      rw [markedLines, List.mem_append, List.mem_map] at mem
      rcases mem with ⟨_, inFile, same⟩ | inRest
      · cases same
        exact ⟨0, path, rfl, inFile, by rw [blocksBefore_zero, window.centre_zero]⟩
      · rcases ih inRest with ⟨file, other, found, inFile, rfl⟩
        refine ⟨file + 1, other, found, inFile, ?_⟩
        rw [centre_blocksBefore_succ]

theorem blockCount_of_mem_lines {path line : String} (mem : line ∈ lines resources path)
    (nonempty : PhraseTable.wordsOf line ≠ []) : 2 ≤ blockCount resources path := by
  have atLeast := PhraseReading.length_le_longest mem
  have positive := List.length_pos_iff.mpr nonempty
  rw [blockCount]
  generalize PhraseReading.longest (lines resources path) = longest at atLeast
  rcases longest with _ | _ | _ | more
  · omega
  · decide
  · decide
  · simp [PhraseRole.countFor]

end PhraseFile

end EntityFeatures

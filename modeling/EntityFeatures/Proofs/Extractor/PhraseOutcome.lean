import EntityFeatures.Proofs.Extractor.PhraseFile

/-!
# How the reading of gazetteers ends

Each file takes its ids when it has been read, so files that were read stay paid for when a
later one fails: `PhraseReading.readFiles_eq_error` says where the counter stands then.

A file needs the centre of its generic feature before its first line is read, although a file
without any phrase takes no block in the end. Among files that can all be read it is therefore
the last one that matters: if `PhraseFile.EndsEmpty` holds, one more centre has to fit behind
the last block, and `PhraseReading.readFiles_outcome` decides by it.
-/

namespace EntityFeatures

namespace PhraseFile

variable {resources : Resources} {window : Window} {first : Nat} {path : String}
  {paths rest : List String}

/-- The last file has no phrase in it. -/
def EndsEmpty (resources : Resources) (paths : List String) : Prop :=
  ∃ path, paths.getLast? = some path ∧ blockCount resources path = 0

/-- Why a file fails when so many ids are taken before it. -/
inductive Fails (resources : Resources) (window : Window) (first : Nat) (path : String) :
    ConfigError → Prop
  | unreadable {cause : ReadFault} : resources.readText path = .error cause →
      Fails resources window first path (.resource path cause)
  | exhausted : UInt32.size ≤ first + window.toNat ∨
        UInt32.size ≤ first + window.blockLength * blockCount resources path →
      Fails resources window first path (.argument .gazetteers (.idsExhaustedByFile path))

theorem totalBlocks_append (front rest : List String) :
    totalBlocks resources (front ++ rest) =
      totalBlocks resources front + totalBlocks resources rest := by
  induction front with
  | nil => rw [List.nil_append, totalBlocks, Nat.zero_add]
  | cons path front ih => rw [List.cons_append, totalBlocks, totalBlocks, ih, Nat.add_assoc]

theorem not_endsEmpty_nil : ¬EndsEmpty resources [] := by
  rintro ⟨path, last, -⟩
  cases last

theorem EndsEmpty.cons (ends : EndsEmpty resources rest) (path : String) :
    EndsEmpty resources (path :: rest) := by
  rcases ends with ⟨last, isLast, none⟩
  refine ⟨last, ?_, none⟩
  rw [List.getLast?_cons, isLast]
  rfl

theorem endsEmpty_cons (ends : EndsEmpty resources (path :: rest)) :
    EndsEmpty resources rest ∨ rest = [] ∧ blockCount resources path = 0 := by
  rcases ends with ⟨last, isLast, none⟩
  rw [List.getLast?_cons, Option.some.injEq] at isLast
  cases found : rest.getLast? with
  | none =>
      rw [found, Option.getD_none] at isLast
      exact Or.inr ⟨List.getLast?_eq_none_iff.mp found, isLast ▸ none⟩
  | some other =>
      rw [found, Option.getD_some] at isLast
      exact Or.inl ⟨other, found, isLast ▸ none⟩

theorem endsEmpty_of_totalBlocks_eq_zero (nonempty : paths ≠ [])
    (none : totalBlocks resources paths = 0) : EndsEmpty resources paths := by
  rcases paths.eq_nil_or_concat with rfl | ⟨front, last, rfl⟩
  · exact absurd rfl nonempty
  · rw [List.concat_eq_append] at none ⊢
    rw [totalBlocks_append, totalBlocks, totalBlocks] at none
    exact ⟨last, List.getLast?_concat, by omega⟩

/-- A file whose centre does not fit takes a block that does not fit, or the last is empty. -/
theorem overrun_of_centre (full : UInt32.size ≤ first + window.toNat) :
    window.Overrun first (totalBlocks resources (path :: rest))
      (EndsEmpty resources (path :: rest)) := by
  -- One block is longer than the way to its centre, so only files without any can be let off.
  rcases Nat.eq_zero_or_pos (totalBlocks resources (path :: rest)) with none | positive
  · refine Or.inr ⟨endsEmpty_of_totalBlocks_eq_zero (List.cons_ne_nil _ _) none, ?_⟩
    rwa [none, window.centre_zero]
  · have steps := Nat.le_mul_of_pos_right window.blockLength positive
    have length : window.blockLength = 2 * window.toNat + 1 := rfl
    exact Or.inl (by omega)

theorem overrun_of_end
    (full : UInt32.size ≤ first + window.blockLength * blockCount resources path) :
    window.Overrun first (totalBlocks resources (path :: rest))
      (EndsEmpty resources (path :: rest)) := by
  refine Or.inl ?_
  rw [totalBlocks, Nat.mul_add]
  omega

/-- Behind a file that fits only the others have to be looked at. -/
theorem overrun_cons_iff (centreFits : first + window.toNat < UInt32.size) :
    window.Overrun first (totalBlocks resources (path :: rest))
        (EndsEmpty resources (path :: rest)) ↔
      window.Overrun (first + window.blockLength * blockCount resources path)
        (totalBlocks resources rest) (EndsEmpty resources rest) := by
  simp only [Window.Overrun, totalBlocks, centre_add_blockCount, Nat.mul_add, ← Nat.add_assoc]
  constructor
  · rintro (large | ⟨ends, large⟩)
    · exact Or.inl large
    · rcases endsEmpty_cons ends with inRest | ⟨rfl, none⟩
      · exact Or.inr ⟨inRest, large⟩
      · rw [none, totalBlocks, window.centre_zero] at large
        omega
  · rintro (large | ⟨ends, large⟩)
    · exact Or.inl large
    · exact Or.inr ⟨ends.cons path, large⟩

end PhraseFile

namespace PhraseReading

open PhraseFile

variable {resources : Resources} {window : Window} {reading after : PhraseReading}
  {path : String} {paths : List String}

theorem readFile_eq_resource_error {fault : ReadFault}
    (textRead : resources.readText path = .error fault) :
    readFile resources window path reading = .error (.resource path fault) reading := by
  rw [readFile, textRead]
  rfl

theorem readFile_of_readable {text : String} (reading : PhraseReading)
    (textRead : resources.readText path = .ok text) :
    readFile resources window path reading =
      match reading.total.blockCentre? window 0 with
      | none => .error (.argument .gazetteers (.idsExhaustedByFile path)) reading
      | some feature =>
          match reading.total.blocksEnd? window (blockCount resources path) with
          | none =>
              .error (.argument .gazetteers (.idsExhaustedByFile path))
                (reading.addMarked ((lines resources path).map fun line => (feature, line)))
          | some total =>
              .ok ()
                { reading.addMarked ((lines resources path).map fun line => (feature, line)) with
                  total } := by
  simp only [readFile, textRead, get_bind_apply, blockCount]
  have linesRead : lines resources path = Text.lines text := by
    rw [lines, textRead]
  rw [linesRead]
  cases reading.total.blockCentre? window 0 with
  | none => rfl
  | some feature =>
      have sameTotal : ((Text.lines text).foldl (addLine feature) reading).total =
          reading.total := by
        rw [← addMarked_map, total_addMarked]
      simp only [addMarked_map, modify_bind_apply, get_bind_apply, sameTotal]
      cases reading.total.blocksEnd? window (PhraseRole.countFor (longest (Text.lines text))) with
      | none => rfl
      | some total => rfl

/-- A readable file needs a centre and an end. If one of them is missing, no id is taken. -/
theorem readFile_outcome (window : Window) (reading : PhraseReading) {text : String}
    (textRead : resources.readText path = .ok text) :
    (reading.total.toNat + window.toNat < UInt32.size ∧
        reading.total.toNat + window.blockLength * blockCount resources path < UInt32.size ∧
        ∃ after, readFile resources window path reading = .ok () after) ∨
      ((UInt32.size ≤ reading.total.toNat + window.toNat ∨
          UInt32.size ≤ reading.total.toNat + window.blockLength * blockCount resources path) ∧
        ∃ after, readFile resources window path reading =
            .error (.argument .gazetteers (.idsExhaustedByFile path)) after ∧
          after.total = reading.total) := by
  rw [readFile_of_readable reading textRead]
  cases centreFound : reading.total.blockCentre? window 0 with
  | none =>
      rw [FeatureId.blockCentre?, FeatureId.ofNat?_eq_none_iff] at centreFound
      exact Or.inr ⟨Or.inl (by simpa using centreFound), reading, rfl, rfl⟩
  | some feature =>
      rw [FeatureId.blockCentre?, FeatureId.ofNat?_eq_some_iff] at centreFound
      have bound := feature.toNat_lt_size
      cases endFound : reading.total.blocksEnd? window (blockCount resources path) with
      | none =>
          rw [FeatureId.blocksEnd?, FeatureId.ofNat?_eq_none_iff] at endFound
          exact Or.inr ⟨Or.inr endFound, _, rfl, total_addMarked ..⟩
      | some total =>
          rw [FeatureId.blocksEnd?, FeatureId.ofNat?_eq_some_iff] at endFound
          refine Or.inl ⟨?_, ?_, _, rfl⟩
          · omega
          · rw [← endFound]
            exact total.toNat_lt_size

/-- Readable files are read one after the other unless their ids overrun. -/
theorem readFiles_outcome (window : Window) (reading : PhraseReading)
    (readable : ∀ path ∈ paths, ∃ text, resources.readText path = .ok text) :
    (¬window.Overrun reading.total.toNat (totalBlocks resources paths)
          (EndsEmpty resources paths) ∧
        ∃ after, readFiles resources window paths reading = .ok () after) ∨
      (window.Overrun reading.total.toNat (totalBlocks resources paths)
          (EndsEmpty resources paths) ∧
        ∃ path after, readFiles resources window paths reading =
          .error (.argument .gazetteers (.idsExhaustedByFile path)) after) := by
  induction paths generalizing reading with
  | nil =>
      have never : EndsEmpty resources [] ↔ False := iff_false_intro not_endsEmpty_nil
      rw [totalBlocks, propext never]
      exact Or.inl ⟨window.not_overrun_zero reading.total.toNat_lt_size, reading, rfl⟩
  | cons path rest ih =>
      rcases readable path (List.mem_cons_self ..) with ⟨text, textRead⟩
      simp only [readFiles]
      rcases readFile_outcome window reading textRead with
        ⟨centreFits, -, middle, done⟩ | ⟨full, middle, failed, -⟩
      · rw [overrun_cons_iff centreFits, ← (readFile_eq_ok done).2.1,
          step_bind_of_ok done]
        exact ih middle fun other mem => readable other (List.mem_cons_of_mem _ mem)
      · refine Or.inr ⟨full.elim overrun_of_centre overrun_of_end, path, middle, ?_⟩
        exact step_bind_of_error failed _

/-- An error is one of some file, and it leaves the blocks of the files before it taken. -/
theorem readFiles_eq_error {fault : ConfigError}
    (failed : readFiles resources window paths reading = .error fault after) :
    ∃ front path rest, paths = front ++ path :: rest ∧
      (∀ earlier ∈ front, ∃ text, resources.readText earlier = .ok text) ∧
      after.total.toNat =
        reading.total.toNat + window.blockLength * totalBlocks resources front ∧
      Fails resources window after.total.toNat path fault := by
  induction paths generalizing reading with
  | nil => cases failed
  | cons path rest ih =>
      simp only [readFiles] at failed
      cases textRead : resources.readText path with
      | error cause =>
          rw [step_bind_of_error (readFile_eq_resource_error textRead)] at failed
          cases failed
          exact ⟨[], path, rest, rfl, by simp, rfl, .unreadable textRead⟩
      | ok text =>
          rcases readFile_outcome window reading textRead with
            ⟨-, -, middle, done⟩ | ⟨full, middle, exhausted, sameTotal⟩
          · rw [step_bind_of_ok done] at failed
            rcases ih failed with ⟨front, other, behind, rfl, readable, total_eq, fails⟩
            refine ⟨path :: front, other, behind, rfl, ?_, ?_, fails⟩
            · intro earlier mem
              rcases List.mem_cons.mp mem with rfl | inFront
              · exact ⟨text, textRead⟩
              · exact readable earlier inFront
            · rw [total_eq, (readFile_eq_ok done).2.1, totalBlocks, Nat.mul_add, Nat.add_assoc]
          · rw [step_bind_of_error exhausted] at failed
            cases failed
            rw [← sameTotal] at full
            exact ⟨[], path, rest, rfl, by simp, by rw [sameTotal]; rfl, .exhausted full⟩

end PhraseReading

end EntityFeatures

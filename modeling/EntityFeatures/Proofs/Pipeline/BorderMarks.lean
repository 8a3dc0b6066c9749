import EntityFeatures.Proofs.Extractor.RoundTrip
import EntityFeatures.Proofs.Pipeline.Neighbourhood
import EntityFeatures.Proofs.Pipeline.Refusal

/-!
# Marks of the border

The positions outside a sentence have the window as their feature, so a token near the border
receives ids around the window: above it what comes from before the sentence, and below it
what comes from behind. `Window.marks` are these numbers in the order in which they come,
without a bound. In a sentence that is shorter than the window both sides reach the same
token, and then they take turns.

No window with which an extractor can be configured is so large that one of these numbers is
no id. Then the ids are the numbers, `Window.map_toNat_borderIds`, and the two sides can be
told apart: those above the window ascend without a gap, and those below it descend to zero.

The marks take nothing from the table. So they are the same whatever the extractor has learned
and wherever it has been stored, and they are never the reason why it learns.
-/

namespace EntityFeatures

namespace Window

variable {window : Window} {size token : Nat}

/-- The marks on a token that come from this far before the sentence and behind it. -/
def marksFrom (window : Window) (size token distance : Nat) : List Int :=
  (if token + distance ≤ window.toNat then [(window.toNat + token + distance : Int)] else []) ++
    (if (size - 1 - token : Int) + distance ≤ window.toNat then
      [(window.toNat - (size - 1 - token) - distance : Int)] else [])

/-- The marks of the border on a token of a sentence of `size` tokens, the nearest first. -/
def marks (window : Window) (size token : Nat) : List Int :=
  (List.range' 1 window.toNat).flatMap (window.marksFrom size token)

theorem mem_marks {mark : Int} :
    mark ∈ window.marks size token ↔
      ∃ distance : Nat, 1 ≤ distance ∧ distance ≤ window.toNat ∧
        (token + distance ≤ window.toNat ∧ mark = window.toNat + token + distance ∨
          (size - 1 - token : Int) + distance ≤ window.toNat ∧
            mark = window.toNat - (size - 1 - token) - distance) := by
  simp only [marks, marksFrom, List.mem_flatMap, List.mem_range'_1, List.mem_append,
    List.mem_ite_nil_right, List.mem_singleton, Nat.lt_one_add_iff, and_assoc]

/-- Every mark is in the block of ids that is around the window, and none is in its middle. -/
theorem bounds_of_mem_marks (inside : token < size) {mark : Int}
    (mem : mark ∈ window.marks size token) :
    0 ≤ mark ∧ mark < window.blockLength ∧ mark ≠ window.toNat := by
  rcases mem_marks.mp mem with ⟨distance, first, last, ⟨near, rfl⟩ | ⟨near, rfl⟩⟩
  · rw [blockLength]
    omega
  · rw [blockLength]
    omega

theorem borderIds_eq_map_marks (known : window ≠ FeatureId.unknown) (inside : token < size) :
    borderIds window size token = (window.marks size token).map UInt32.ofInt := by
  rw [borderIds, if_neg known, marks, List.map_flatMap]
  apply List.flatMap_congr
  intro distance _
  have reaches : size - 1 + distance ≤ token + window.toNat ↔
      (size - 1 - token : Int) + distance ≤ window.toNat := by omega
  rw [marksFrom, List.map_append, apply_ite (List.map UInt32.ofInt), apply_ite (List.map UInt32.ofInt)]
  simp only [reaches, List.map_cons, List.map_nil, ← ofInt_natCast]
  congr 1
  · apply ite_congr rfl
    · intro near
      congr 2
      omega
    · exact fun _ => rfl
  · apply ite_congr rfl
    · intro near
      congr 2
      omega
    · exact fun _ => rfl

theorem ne_unknown_of_blockLength_lt (fits : window.blockLength < UInt32.size) :
    window ≠ FeatureId.unknown := by
  rintro rfl
  have largest : FeatureId.unknown.toNat + 1 = UInt32.size := rfl
  rw [blockLength] at fits
  omega

/-- If there are ids for the block around the window, then the ids are the marks. -/
theorem map_toNat_borderIds (fits : window.blockLength < UInt32.size) (inside : token < size) :
    (borderIds window size token).map (fun id => (id.toNat : Int)) = window.marks size token := by
  have exact_id : ∀ mark ∈ window.marks size token, ((UInt32.ofInt mark).toNat : Int) = mark := by
    intro mark mem
    have bounds := bounds_of_mem_marks inside mem
    exact toNat_ofInt bounds.1 (by omega)
  rw [borderIds_eq_map_marks (ne_unknown_of_blockLength_lt fits) inside, List.map_map]
  exact (List.map_congr_left exact_id).trans (List.map_id _)

/-! ## The two sides -/

/-- Of a list of distances only those are left that reach a token. -/
theorem flatMap_ite_reaches (gap count : Nat) (f : Nat → Int) :
    ((List.range' 1 count).flatMap fun distance =>
        if gap + distance ≤ count then [f distance] else []) =
      (List.range' 1 (count - gap)).map f := by
  have parts := List.range'_append_1 (s := 1) (m := count - gap) (n := count - (count - gap))
  rw [Nat.add_sub_of_le (Nat.sub_le count gap)] at parts
  have beyond : ((List.range' (1 + (count - gap)) (count - (count - gap))).flatMap fun distance =>
      if gap + distance ≤ count then [f distance] else []) = [] := by
    apply List.flatMap_eq_nil_iff.mpr
    intro distance mem
    have far := (List.mem_range'_1.mp mem).1
    rw [if_neg (by omega)]
  rw [← parts, List.flatMap_append, beyond, List.append_nil, List.map_eq_flatMap]
  apply List.flatMap_congr
  intro distance mem
  rcases List.mem_range'_1.mp mem with ⟨first, near⟩
  rw [if_pos (by omega)]

/-- A test that keeps the marks of one side only. -/
theorem filter_marks {keep : Int → Bool} {gap : Nat} {f : Nat → Int}
    (picks : ∀ distance : Nat, 1 ≤ distance →
      (window.marksFrom size token distance).filter keep =
        if gap + distance ≤ window.toNat then [f distance] else []) :
    (window.marks size token).filter keep = (List.range' 1 (window.toNat - gap)).map f := by
  rw [marks, List.filter_flatMap, ← flatMap_ite_reaches]
  apply List.flatMap_congr
  intro distance mem
  exact picks distance (List.mem_range'_1.mp mem).1

theorem filter_lt_marks (inside : token < size) :
    ((window.marks size token).filter fun mark => (window.toNat : Int) < mark) =
      (List.range' 1 (window.toNat - token)).map fun (distance : Nat) =>
        (window.toNat + token + distance : Int) := by
  apply filter_marks
  intro distance first
  have above : (window.toNat : Int) < window.toNat + token + distance := by omega
  have below : ¬(window.toNat : Int) < window.toNat - (size - 1 - token) - distance := by omega
  simp [marksFrom, apply_ite (List.filter _), above, below]

theorem filter_marks_lt (inside : token < size) :
    ((window.marks size token).filter fun mark => mark < (window.toNat : Int)) =
      (List.range' 1 (window.toNat - (size - 1 - token))).map fun (distance : Nat) =>
        (window.toNat - (size - 1 - token) - distance : Int) := by
  apply filter_marks
  intro distance first
  have above : ¬(window.toNat : Int) + token + distance < window.toNat := by omega
  have below : (window.toNat : Int) - (size - 1 - token) - distance < window.toNat := by omega
  have reaches : size - 1 - token + distance ≤ window.toNat ↔
      (size - 1 - token : Int) + distance ≤ window.toNat := by omega
  simp [marksFrom, apply_ite (List.filter _), above, below, reaches]

end Window

namespace Extractor

variable {extractor start later : Extractor} {source : Attribute}

/-- What becomes of an extractor when it learns, and when it is stored and read back. -/
inductive Becomes (start : Extractor) : Extractor → Prop
  | same : Becomes start start
  | learned {extractor : Extractor} (total : FeatureId) (sentence : Sentence) :
      Becomes start extractor → Becomes start (extractor.learn total sentence).1
  | restored {extractor restored : Extractor} {written rest left : List UInt8} :
      Becomes start extractor → extractor.save = .ok written →
      load (ofName extractor.name, written ++ rest) = .ok () (restored, left) →
      Becomes start restored

/-- The window and what is looked at stay, whatever happens to the table. -/
theorem Becomes.window_and_kind (becomes : start.Becomes later)
    (lexical : start.kind = .lexical source) :
    later.window = start.window ∧ later.kind = .lexical source := by
  induction becomes with
  | same => exact ⟨rfl, lexical⟩
  | learned total sentence _ ih => exact ih
  | @restored before restored written rest left _ saved done ih =>
      have blank : before.IsBlankIfContainers := by
        intro isContainers
        rw [ih.2] at isContainers
        cases isContainers
      rw [consumes_load blank saved rest] at done
      cases done
      exact ih

theorem pulled_of_lexical (lexical : extractor.kind = .lexical source) (sentence : Sentence)
    (token : Nat) :
    extractor.pulled sentence token =
      gathered (extractor.localAt sentence) (extractor.window.around sentence.size token) token ++
        borderIds extractor.window sentence.size token := by
  simp only [pulled, neighbours, fromBorder, lexical]

theorem emissions_of_lexical_empty (lexical : extractor.kind = .lexical source)
    {sentence : Sentence} (wordless : sentence.words = []) (unlisted : sentence.features = []) :
    extractor.emissions sentence = [] := by
  simp [emissions, requests, direct, lexical, Kind.requests, Attribute.requests, requestsByWord,
    KeyTable.answer, borderEmissions, wordless, unlisted]

/-- An extractor that knows all attributes of a sentence has nothing to learn from it. -/
theorem learn_of_knows (lexical : extractor.kind = .lexical source) (total : FeatureId)
    {sentence : Sentence}
    (known : ∀ word ∈ sentence.words, extractor.table.Knows (source.of word)) :
    (extractor.learn total sentence).1 = extractor ∧
      (extractor.learn total sentence).2.1 = total := by
  have knows : ∀ request ∈ extractor.requests sentence, extractor.table.Knows request.key := by
    intro request asked
    rw [requests, lexical, Kind.requests, Attribute.requests, mem_requestsByWord] at asked
    rcases asked with ⟨position, word, found, only⟩
    rw [List.mem_singleton.mp only]
    exact known word (List.mem_of_getElem? found)
  have kept : (Vocabulary.answer extractor.window (extractor.requests sentence)
      ⟨extractor.table, total⟩).2 = ⟨extractor.table, total⟩ :=
    Vocabulary.answer_snd_of_knows knows
  simp only [learn, learnEmissions, kept, and_self]

theorem eq_lexical_of_name {kind : Kind} (same : kind.name = (Kind.lexical source).name) :
    kind = .lexical source := by
  cases kind with
  | lexical other => cases source <;> cases other <;> first | rfl | cases same
  | capitalization other => cases source <;> cases other <;> cases same
  | _ => cases source <;> cases same

theorem blockLength_lt_of_configured {resources : Resources} {window : Int32}
    {arguments : List String} {types : Registry} {total : FeatureId} {setup : Setup}
    (done : Setup.configure resources window arguments
      ⟨.ofName (Kind.lexical source).name, types, total⟩ = .ok () setup)
    (becomes : setup.extractor.Becomes later) : later.window.blockLength < UInt32.size := by
  have name_eq := (Setup.name_and_window_of_configure done).1
  simp only [name, ofName, Kind.name_ofName] at name_eq
  have lexical := eq_lexical_of_name name_eq
  rw [(becomes.window_and_kind lexical).1]
  exact Setup.blockLength_lt_of_configure done

/-- How an extractor of attributes marks the borders of sentences. -/
structure MarksBorders (extractor : Extractor) (source : Attribute) : Prop where
  /-- A token gets its marks behind the features around it, whatever the extractor has become. -/
  annotates : ∀ later, extractor.Becomes later →
    ∀ (sentence : Sentence) (token : Nat) (features : List FeatureId),
      sentence.features.length = sentence.size → sentence.features[token]? = some features →
      (later.annotate sentence).features[token]? = some (features ++
        (gathered (later.localAt sentence) (extractor.window.around sentence.size token) token ++
          borderIds extractor.window sentence.size token))
  /-- While learning it gets the same marks. -/
  learns : ∀ later, extractor.Becomes later →
    ∀ (total : FeatureId) (sentence : Sentence) (token : Nat) (features : List FeatureId),
      sentence.features.length = sentence.size → sentence.features[token]? = some features →
      let (learned, _, annotated) := later.learn total sentence
      annotated.features[token]? = some (features ++
        (gathered (learned.localAt sentence) (extractor.window.around sentence.size token) token ++
          borderIds extractor.window sentence.size token))
  /-- Nothing is learned for the marks. -/
  quiet : ∀ later, extractor.Becomes later → ∀ (total : FeatureId) (sentence : Sentence),
    (∀ word ∈ sentence.words, later.table.Knows (source.of word)) →
    (later.learn total sentence).1 = later ∧ (later.learn total sentence).2.1 = total
  /-- A sentence without tokens is not marked. -/
  empty : ∀ later, extractor.Becomes later → ∀ sentence : Sentence, sentence.words = [] →
    sentence.features = [] → later.emissions sentence = []
  /-- As ids the marks are cut to 32 bits, and of the unknown feature no marks are made. -/
  wraps : ∀ size, ∀ token < size, borderIds extractor.window size token =
    if extractor.window = FeatureId.unknown then []
    else (extractor.window.marks size token).map UInt32.ofInt
  /-- A window that was configured is one that has room for all ids around it. -/
  configured : ∀ (resources : Resources) (window : Int32) (arguments : List String)
      (types : Registry) (total : FeatureId) (setup : Setup),
    Setup.configure resources window arguments ⟨.ofName (Kind.lexical source).name, types, total⟩ =
      .ok () setup →
    setup.extractor.Becomes extractor → extractor.window.blockLength < UInt32.size
  /-- With such a window the ids are exact, and the two sides are told apart. -/
  computes : extractor.window.blockLength < UInt32.size → ∀ size, ∀ token < size,
    let ids := (borderIds extractor.window size token).map fun id => (id.toNat : Int)
    ids = extractor.window.marks size token ∧
      (∀ id ∈ ids, 0 ≤ id ∧ id ≠ extractor.window.toNat) ∧
      (ids.filter fun id => (extractor.window.toNat : Int) < id).length =
        extractor.window.toNat - token ∧
      (ids.filter fun id => id < (extractor.window.toNat : Int)).length =
        extractor.window.toNat - (size - 1 - token)

/--
Every token has a mark for each position outside the sentence that is up to the window away
from it, and these marks depend on the window and on the place of the token alone.
-/
theorem marksBorders (lexical : extractor.kind = .lexical source) :
    extractor.MarksBorders source := by
  have isLocal {later : Extractor} (looks : later.kind = .lexical source) : later.kind.isLocal := by
    rw [looks]
    rfl
  refine ⟨?annotates, ?learns, ?quiet, ?empty, ?wraps, ?configured, ?computes⟩
  case annotates =>
    intro later becomes sentence token features sized before
    rcases becomes.window_and_kind lexical with ⟨window_eq, looks⟩
    rw [(looksAround (isLocal looks)).annotates sentence token features sized before,
      pulled_of_lexical looks, window_eq]
  case learns =>
    intro later becomes total sentence token features sized before
    rcases (becomes.learned total sentence).window_and_kind lexical with ⟨window_eq, looks⟩
    have received := getElem?_emitAll_emissions (isLocal looks) sized before
    rw [← features_learn, pulled_of_lexical looks, window_eq] at received
    exact received
  case quiet =>
    intro later becomes total sentence known
    exact learn_of_knows (becomes.window_and_kind lexical).2 total known
  case empty =>
    intro later becomes sentence wordless unlisted
    exact emissions_of_lexical_empty (becomes.window_and_kind lexical).2 wordless unlisted
  case wraps =>
    intro size token inside
    split
    next unknown => rw [borderIds, if_pos unknown]
    next known => exact Window.borderIds_eq_map_marks known inside
  case configured =>
    intro resources window arguments types total setup done becomes
    exact blockLength_lt_of_configured done becomes
  case computes =>
    intro fits size token inside
    have ids_eq := Window.map_toNat_borderIds fits inside
    simp only [ids_eq, Window.filter_lt_marks inside, Window.filter_marks_lt inside,
      List.length_map, List.length_range', true_and, and_true]
    intro mark mem
    have bounds := Window.bounds_of_mem_marks inside mem
    exact ⟨bounds.1, bounds.2.2⟩

theorem marksBorders_one_token :
    let extractor : Extractor := ⟨2, ∅, .lexical .form⟩
    extractor.kind = .lexical .form ∧ borderIds extractor.window 1 0 = [3, 1, 4, 0] ∧
      extractor.MarksBorders .form :=
  ⟨rfl, by decide +kernel, marksBorders rfl⟩

end Extractor

end EntityFeatures

import EntityFeatures.Pipeline.Template
import EntityFeatures.Proofs.Extractor.Configuration
import EntityFeatures.Proofs.Text.Encoding
import Mathlib.Data.List.Forall2

/-!
# A template line by line

A template that is text is read as a fold over its effective lines, those that are no
comments. `TemplateState.carryOut` does what one of them asks for and does nothing
after an error. Two relations say the same without computing: a line succeeds between
two states (`LineSucceeds`), or it fails with an error (`LineFails`), and one of the two
always happens. So a template is read if all lines succeed one after the other, and
otherwise the first that fails decides on the error.

Lines are numbered over the whole text, and a number has no effect but to stand in an
error. Comments that are inserted therefore renumber the error and change nothing
else. How far an error moves is stated for comments that are inserted between lines.
-/

namespace EntityFeatures

open Text (EndsLines lines)

/-- What comes of a template, and the types of entities afterwards. -/
abbrev TemplateOutcome := Except TemplateError Pipeline × Registry

/-- The error with another number, if it has one. -/
def TemplateError.renumber (change : Nat → Nat) : TemplateError → TemplateError
  | line number fault => line (change number) fault
  | notText => notText
  | configuration error => configuration error

theorem ExtractorName.text_of_ofText? {name : String} {known : ExtractorName}
    (named : ExtractorName.ofText? name = some known) : known.text = name := by
  have holds := List.find?_some named
  simpa using holds

theorem Setup.toNat_windowOf {window : Int32} (nonnegative : 0 ≤ window) :
    ((windowOf window).toNat : Int) = window.toInt := by
  have low : 0 ≤ window.toInt := Int32.le_iff_toInt_le.mp nonnegative
  have high := window.toInt_lt
  rw [windowOf, UInt32.toNat_ofNat']
  omega

namespace TemplateState

/-- The same with another number in the error. -/
def renumber (change : Nat → Nat) (outcome : TemplateOutcome) : TemplateOutcome :=
  (outcome.1.mapError (TemplateError.renumber change), outcome.2)

/-- The number of a line once `shift` lines have been inserted behind the first `place`. -/
def moveBehind (place shift number : Nat) : Nat :=
  if number ≤ place then number else number + shift

/-- The lines of a template that are no comments, each with its number among all lines. -/
def effectiveLines (text : String) : List (String × Nat) :=
  ((lines text).zipIdx 1).filter fun line => !isComment line.1

/-- Carries out one effective line, unless an earlier one has failed. -/
def carryOut (resources : Resources) : TemplateOutcome → String × Nat → TemplateOutcome
  | (.error error, types), _ => (.error error, types)
  | (.ok pipeline, types), (line, number) =>
      match Text.fields ' ' line with
      | name :: window :: arguments =>
          match Numeral.int32? window with
          | none => (.error (.line number (.wrongWindow window name)), types)
          | some size =>
              match Extractor.create? name with
              | none => (.error (.line number (.unknownName name)), types)
              | some extractor =>
                  match
                    Setup.configure resources size arguments ⟨extractor, types, pipeline.total⟩
                  with
                  | .ok _ setup =>
                      (.ok { pipeline.push setup.extractor with total := setup.total },
                        setup.types)
                  | .error error setup => (.error (.configuration error), setup.types)
      | _ => (.error (.line number (.missingFields line)), types)

/-- A line is in order in one state, and the other is what it leaves. -/
inductive LineSucceeds (resources : Resources) (line : String) (before : TemplateState) :
    TemplateState → Prop
  | intro {name window : String} {arguments : List String} {size : Int32}
      {known : ExtractorName} {setup : Setup} :
      Text.fields ' ' line = name :: window :: arguments →
      Numeral.int32? window = some size →
      ExtractorName.ofText? name = some known →
      Setup.configure resources size arguments
        ⟨.ofName known, before.types, before.pipeline.total⟩ = .ok () setup →
      LineSucceeds resources line before
        ⟨{ before.pipeline.push setup.extractor with total := setup.total }, setup.types⟩

/-- A line is not in order: the error, and the types of entities that it leaves. -/
inductive LineFails (resources : Resources) (number : Nat) (line : String)
    (before : TemplateState) : TemplateError → Registry → Prop
  | missingFields :
      (Text.fields ' ' line).length < 2 →
      LineFails resources number line before (.line number (.missingFields line)) before.types
  | wrongWindow {name window : String} {arguments : List String} :
      Text.fields ' ' line = name :: window :: arguments →
      Numeral.int32? window = none →
      LineFails resources number line before
        (.line number (.wrongWindow window name)) before.types
  | unknownName {name window : String} {arguments : List String} {size : Int32} :
      Text.fields ' ' line = name :: window :: arguments →
      Numeral.int32? window = some size →
      ExtractorName.ofText? name = none →
      LineFails resources number line before (.line number (.unknownName name)) before.types
  | configuration {name window : String} {arguments : List String} {size : Int32}
      {known : ExtractorName} {error : ConfigError} {setup : Setup} :
      Text.fields ' ' line = name :: window :: arguments →
      Numeral.int32? window = some size →
      ExtractorName.ofText? name = some known →
      Setup.configure resources size arguments
        ⟨.ofName known, before.types, before.pipeline.total⟩ = .error error setup →
      LineFails resources number line before (.configuration error) setup.types

/-- Several lines are in order one after the other. -/
inductive AllSucceed (resources : Resources) :
    List String → TemplateState → TemplateState → Prop
  | nil (state : TemplateState) : AllSucceed resources [] state state
  | cons {line : String} {rest : List String} {before middle after : TemplateState} :
      LineSucceeds resources line before middle → AllSucceed resources rest middle after →
      AllSucceed resources (line :: rest) before after

/-- An extractor has the name and the window that a line gives. -/
def AsksFor (line : String) (extractor : Extractor) : Prop :=
  ∃ window arguments size,
    Text.fields ' ' line = extractor.name.text :: window :: arguments ∧
      Numeral.int32? window = some size ∧ (extractor.window.toNat : Int) = size.toInt

variable {resources : Resources}

/-! ## One line -/

theorem LineSucceeds.carryOut {line : String} {before after : TemplateState}
    (succeeds : LineSucceeds resources line before after) (number : Nat) :
    carryOut resources (.ok before.pipeline, before.types) (line, number) =
      (.ok after.pipeline, after.types) := by
  cases succeeds with
  | intro fields windowRead named configured =>
      simp [TemplateState.carryOut, fields, windowRead, Extractor.create?, named, configured]

theorem LineFails.carryOut {number : Nat} {line : String} {before : TemplateState}
    {error : TemplateError} {left : Registry}
    (fails : LineFails resources number line before error left) :
    carryOut resources (.ok before.pipeline, before.types) (line, number) =
      (.error error, left) := by
  cases fails with
  | missingFields short =>
      simp only [TemplateState.carryOut]
      split
      next fields =>
        rw [fields, List.length_cons, List.length_cons] at short
        omega
      next => rfl
  | wrongWindow fields windowRead =>
      simp [TemplateState.carryOut, fields, windowRead]
  | unknownName fields windowRead named =>
      simp [TemplateState.carryOut, fields, windowRead, Extractor.create?, named]
  | configuration fields windowRead named configured =>
      simp [TemplateState.carryOut, fields, windowRead, Extractor.create?, named, configured]

/-- Whatever a line is, it succeeds or fails. -/
theorem succeeds_or_fails (resources : Resources) (number : Nat) (line : String)
    (before : TemplateState) :
    (∃ after, LineSucceeds resources line before after) ∨
      ∃ error left, LineFails resources number line before error left := by
  by_cases short : (Text.fields ' ' line).length < 2
  · exact Or.inr ⟨_, _, .missingFields short⟩
  rcases fields : Text.fields ' ' line with _ | ⟨name, _ | ⟨window, arguments⟩⟩
  · simp [fields] at short
  · simp [fields] at short
  cases windowRead : Numeral.int32? window with
  | none => exact Or.inr ⟨_, _, .wrongWindow fields windowRead⟩
  | some size =>
      cases named : ExtractorName.ofText? name with
      | none => exact Or.inr ⟨_, _, .unknownName fields windowRead named⟩
      | some known =>
          cases configured : Setup.configure resources size arguments
              ⟨.ofName known, before.types, before.pipeline.total⟩ with
          | ok _ setup => exact Or.inl ⟨_, .intro fields windowRead named configured⟩
          | error error setup =>
              exact Or.inr ⟨_, _, .configuration fields windowRead named configured⟩

/-- A line that succeeds appends one extractor, which is what it asks for. -/
theorem LineSucceeds.exists_extractor {line : String} {before after : TemplateState}
    (succeeds : LineSucceeds resources line before after) :
    ∃ extractor, after.pipeline.extractors = before.pipeline.extractors ++ [extractor] ∧
      AsksFor line extractor := by
  cases succeeds with
  | @intro name window arguments size known setup fields windowRead named configured =>
      rcases Setup.name_and_window_of_configure configured with ⟨sameName, windowSet⟩
      rcases Setup.configure_eq_ok configured with ⟨-, nonnegative, -, -⟩
      refine ⟨setup.extractor, rfl, window, arguments, size, ?_, windowRead, ?_⟩
      · have isKnown : setup.extractor.name = known := by
          rw [sameName]
          exact Kind.name_ofName known
        rw [isKnown, ExtractorName.text_of_ofText? named]
        exact fields
      · rw [windowSet]
        exact Setup.toNat_windowOf nonnegative

/-! ## All lines -/

theorem foldl_carryOut_error (lines : List (String × Nat)) (error : TemplateError)
    (types : Registry) :
    lines.foldl (carryOut resources) (.error error, types) = (.error error, types) := by
  induction lines with
  | nil => rfl
  | cons line rest ih => exact ih

theorem AllSucceed.foldl {numbered : List (String × Nat)} {before after : TemplateState}
    (allSucceed : AllSucceed resources (numbered.map Prod.fst) before after) :
    numbered.foldl (TemplateState.carryOut resources) (.ok before.pipeline, before.types) =
      (.ok after.pipeline, after.types) := by
  induction numbered generalizing before with
  | nil =>
      cases allSucceed
      rfl
  | cons first rest ih =>
      cases allSucceed with
      | cons succeeds others =>
          rw [List.foldl_cons, succeeds.carryOut first.2]
          exact ih others

theorem AllSucceed.forall₂_asksFor {lines : List String} {before after : TemplateState}
    (allSucceed : AllSucceed resources lines before after) :
    ∃ added, after.pipeline.extractors = before.pipeline.extractors ++ added ∧
      List.Forall₂ AsksFor lines added := by
  induction allSucceed with
  | nil state => exact ⟨[], by simp, .nil⟩
  | cons succeeds _ ih =>
      rcases succeeds.exists_extractor with ⟨extractor, appended, asked⟩
      rcases ih with ⟨added, others, asksFor⟩
      refine ⟨extractor :: added, ?_, .cons asked asksFor⟩
      rw [others, appended, List.append_assoc, List.singleton_append]

/-- The first line that fails comes behind lines that succeed. -/
def FailsFirst (resources : Resources) (numbered : List (String × Nat))
    (start : TemplateState) (error : TemplateError) (left : Registry) : Prop :=
  ∃ front line number rest before,
    numbered = front ++ (line, number) :: rest ∧
      AllSucceed resources (front.map Prod.fst) start before ∧
      LineFails resources number line before error left

theorem FailsFirst.foldl {numbered : List (String × Nat)} {start : TemplateState}
    {error : TemplateError} {left : Registry}
    (fails : FailsFirst resources numbered start error left) :
    numbered.foldl (TemplateState.carryOut resources) (.ok start.pipeline, start.types) =
      (.error error, left) := by
  rcases fails with ⟨front, line, number, rest, before, rfl, allSucceed, fails⟩
  rw [List.foldl_append, allSucceed.foldl, List.foldl_cons, fails.carryOut, foldl_carryOut_error]

theorem allSucceed_or_failsFirst (resources : Resources) (numbered : List (String × Nat))
    (start : TemplateState) :
    (∃ after, AllSucceed resources (numbered.map Prod.fst) start after) ∨
      ∃ error left, FailsFirst resources numbered start error left := by
  induction numbered generalizing start with
  | nil => exact Or.inl ⟨start, .nil start⟩
  | cons first rest ih =>
      rcases succeeds_or_fails resources first.2 first.1 start with
        ⟨middle, succeeds⟩ | ⟨error, left, fails⟩
      · rcases ih middle with ⟨after, allSucceed⟩ | ⟨error, left, front, line, number, others,
          before, split, allSucceed, fails⟩
        · exact Or.inl ⟨after, .cons succeeds allSucceed⟩
        · subst split
          exact Or.inr ⟨error, left, first :: front, line, number, others, before, rfl,
            .cons succeeds allSucceed, fails⟩
      · exact Or.inr ⟨error, left, [], first.1, first.2, rest, start, rfl, .nil start, fails⟩

variable {numbered : List (String × Nat)}

theorem foldl_eq_ok_iff (start : TemplateState) {pipeline : Pipeline} {left : Registry} :
    numbered.foldl (carryOut resources) (.ok start.pipeline, start.types) =
        (.ok pipeline, left) ↔
      AllSucceed resources (numbered.map Prod.fst) start ⟨pipeline, left⟩ := by
  constructor
  · intro folded
    rcases allSucceed_or_failsFirst resources numbered start with
      ⟨after, allSucceed⟩ | ⟨error, types, fails⟩
    · rw [allSucceed.foldl] at folded
      cases folded
      exact allSucceed
    · rw [fails.foldl] at folded
      cases folded
  · exact fun allSucceed => allSucceed.foldl

theorem foldl_eq_error_iff (start : TemplateState) {error : TemplateError} {left : Registry} :
    numbered.foldl (carryOut resources) (.ok start.pipeline, start.types) =
        (.error error, left) ↔
      FailsFirst resources numbered start error left := by
  constructor
  · intro folded
    rcases allSucceed_or_failsFirst resources numbered start with
      ⟨after, allSucceed⟩ | ⟨error, types, fails⟩
    · rw [allSucceed.foldl] at folded
      cases folded
    · rw [fails.foldl] at folded
      cases folded
      exact fails
  · exact fun fails => fails.foldl

/-! ## The numbers of the lines -/

theorem carryOut_renumber (change : Nat → Nat) (outcome : TemplateOutcome)
    (line : String × Nat) :
    carryOut resources (renumber change outcome) (line.1, change line.2) =
      renumber change (carryOut resources outcome line) := by
  rcases outcome with ⟨error | pipeline, types⟩
  · rfl
  rcases succeeds_or_fails resources line.2 line.1 ⟨pipeline, types⟩ with
    ⟨after, succeeds⟩ | ⟨error, left, fails⟩
  · have here := succeeds.carryOut line.2
    have there := succeeds.carryOut (change line.2)
    dsimp only at here there
    rw [here]
    exact there
  · have moved : LineFails resources (change line.2) line.1 ⟨pipeline, types⟩
        (error.renumber change) left := by
      cases fails with
      | missingFields short => exact .missingFields short
      | wrongWindow fields windowRead => exact .wrongWindow fields windowRead
      | unknownName fields windowRead named => exact .unknownName fields windowRead named
      | configuration fields windowRead named configured =>
          exact .configuration fields windowRead named configured
    have here := fails.carryOut
    have there := moved.carryOut
    dsimp only at here there
    rw [here]
    exact there

theorem foldl_carryOut_renumber (change : Nat → Nat) (numbered : List (String × Nat))
    (outcome : TemplateOutcome) :
    (numbered.map (Prod.map id change)).foldl (carryOut resources) (renumber change outcome) =
      renumber change (numbered.foldl (carryOut resources) outcome) := by
  induction numbered generalizing outcome with
  | nil => rfl
  | cons first rest ih =>
      have step : carryOut resources (renumber change outcome) (Prod.map id change first) =
          renumber change (carryOut resources outcome first) :=
        carryOut_renumber change outcome first
      rw [List.map_cons, List.foldl_cons, List.foldl_cons, step, ih]

/-! ## The lines of a text -/

theorem map_fst_effectiveLines (text : String) :
    (effectiveLines text).map Prod.fst = (lines text).filter fun line => !isComment line := by
  have kept : (fun line : String × Nat => !isComment line.1) =
      (fun line => !isComment line) ∘ Prod.fst := rfl
  rw [effectiveLines, kept, ← List.filter_map, List.zipIdx_map_fst]

theorem map_moveBehind_front {Item : Type} (items : List Item) (shift : Nat) :
    (items.zipIdx 1).map (Prod.map id (moveBehind items.length shift)) = items.zipIdx 1 := by
  conv_rhs => rw [← List.map_id (items.zipIdx 1)]
  apply List.map_congr_left
  intro item mem
  have bound := List.snd_lt_add_of_mem_zipIdx mem
  have small : item.2 ≤ items.length := by omega
  simp [moveBehind, Prod.map, small]

theorem map_moveBehind_rest {Item : Type} (items : List Item) (place shift : Nat) :
    (items.zipIdx (1 + place)).map (Prod.map id (moveBehind place shift)) =
      items.zipIdx (1 + place + shift) := by
  have shifted := List.map_snd_add_zipIdx_eq_zipIdx (l := items) (n := shift) (k := 1 + place)
  rw [Nat.add_comm _ shift, ← shifted]
  apply List.map_congr_left
  intro item mem
  have bound := List.le_snd_of_mem_zipIdx mem
  have large : ¬ item.2 ≤ place := by omega
  simp [moveBehind, Prod.map, large]

/-- Comments between the lines move the numbers of the lines behind them. -/
theorem effectiveLines_insert {front between : String} (frontEnds : EndsLines front)
    (betweenEnds : EndsLines between) (comments : ∀ line ∈ lines between, isComment line)
    (rest : String) :
    effectiveLines (front ++ between ++ rest) =
      (effectiveLines (front ++ rest)).map
        (Prod.map id (moveBehind (lines front).length (lines between).length)) := by
  let effective : String × Nat → Bool := fun line => !isComment line.1
  have noneBetween (first : Nat) : ((lines between).zipIdx first).filter effective = [] := by
    rw [List.filter_eq_nil_iff]
    intro line mem
    have isLine := List.fst_mem_of_mem_zipIdx mem
    simp [effective, comments line.1 isLine]
  have inFront := map_moveBehind_front (lines front) (lines between).length
  have behind := map_moveBehind_rest (lines rest) (lines front).length (lines between).length
  generalize moveBehind (lines front).length (lines between).length = change at inFront behind ⊢
  calc effectiveLines (front ++ between ++ rest)
      = ((lines front).zipIdx 1).filter effective ++
          ((lines rest).zipIdx (1 + (lines front).length + (lines between).length)).filter
            effective := by
        rw [effectiveLines, String.append_assoc, Text.lines_append frontEnds,
          Text.lines_append betweenEnds, List.zipIdx_append, List.zipIdx_append,
          List.filter_append, List.filter_append, noneBetween, List.nil_append]
    _ = (((lines front).zipIdx 1 ++ (lines rest).zipIdx (1 + (lines front).length)).filter
          (effective ∘ Prod.map id change)).map (Prod.map id change) := by
        rw [← List.filter_append, ← List.filter_map, List.map_append, inFront, behind]
    _ = (effectiveLines (front ++ rest)).map (Prod.map id change) := by
        rw [effectiveLines, Text.lines_append frontEnds, List.zipIdx_append]
        rfl

/-! ## Reading a template -/

/-- What comes of the steps that read a template. -/
def outcomeOf : EStateM.Result TemplateError TemplateState Unit → TemplateOutcome
  | .ok _ state => (.ok state.pipeline, state.types)
  | .error error state => (.error error, state.types)

theorem addExtractor_apply (extractor : Extractor) (window : Int32) (arguments : List String)
    (state : TemplateState) :
    addExtractor resources extractor window arguments state =
      match
        Setup.configure resources window arguments ⟨extractor, state.types, state.pipeline.total⟩
      with
      | .ok _ setup =>
          .ok () ⟨{ state.pipeline.push setup.extractor with total := setup.total }, setup.types⟩
      | .error error setup =>
          .error (.configuration error) { state with types := setup.types } := by
  simp only [addExtractor, get_bind_apply]
  cases Setup.configure resources window arguments
    ⟨extractor, state.types, state.pipeline.total⟩ <;> rfl

theorem outcomeOf_addLine (resources : Resources) (number : Nat) {line : String}
    (effective : ¬ isComment line) (state : TemplateState) :
    outcomeOf (addLine resources number line state) =
      carryOut resources (.ok state.pipeline, state.types) (line, number) := by
  simp only [addLine, if_neg effective, carryOut]
  rcases Text.fields ' ' line with _ | ⟨name, _ | ⟨window, arguments⟩⟩
  · rfl
  · rfl
  simp only [entryOf]
  cases Numeral.int32? window with
  | none => rfl
  | some size =>
      cases Extractor.create? name with
      | none => rfl
      | some extractor =>
          simp only [addExtractor_apply]
          cases Setup.configure resources size arguments
            ⟨extractor, state.types, state.pipeline.total⟩ <;> rfl

/-- The lines are taken as bytes, but each is the line of the text. -/
theorem outcomeOf_addLines (resources : Resources) (number : Nat) (all : List String)
    (state : TemplateState) :
    outcomeOf (addLines resources number (all.map Utf8.encode) state) =
      ((all.zipIdx number).filter fun line => !isComment line.1).foldl (carryOut resources)
        (.ok state.pipeline, state.types) := by
  induction all generalizing number state with
  | nil => rfl
  | cons line rest ih =>
      have isText : addBytes resources number (Utf8.encode line) =
          addLine resources number line := by simp [addBytes]
      simp only [List.map_cons, addLines, isText, bind, EStateM.bind, List.zipIdx_cons]
      by_cases comment : isComment line
      · have nothing : addLine resources number line state = .ok () state := by
          simp [addLine, comment, pure, EStateM.pure]
        rw [nothing, List.filter_cons_of_neg (by simpa using comment)]
        exact ih (number + 1) state
      · have first := outcomeOf_addLine resources number comment state
        rw [List.filter_cons_of_pos (by simpa using comment), List.foldl_cons, ← first]
        cases addLine resources number line state with
        | ok _ after => exact ih (number + 1) after
        | error error after => exact (foldl_carryOut_error _ error after.types).symm

end TemplateState

namespace Pipeline

open TemplateState

theorem ofTemplate_encode_eq_foldl (resources : Resources) (text : String) (types : Registry) :
    ofTemplate resources (Utf8.encode text) types =
      (effectiveLines text).foldl (carryOut resources) (.ok {}, types) := by
  have folded := outcomeOf_addLines resources 1 (lines text) { types }
  rw [← Text.byteLines_encode] at folded
  rw [effectiveLines, ← folded, ofTemplate]
  cases addLines resources 1 (Text.byteLines (Utf8.encode text)) { types } <;> rfl

theorem renumber_eq_of_filter_eq {resources : Resources} {text other : String}
    {types : Registry}
    (same : ((lines other).filter fun line => !isComment line) =
      (lines text).filter fun line => !isComment line) (number : Nat) :
    renumber (fun _ => number) (ofTemplate resources (Utf8.encode other) types) =
      renumber (fun _ => number) (ofTemplate resources (Utf8.encode text) types) := by
  have forget (text : String) : (effectiveLines text).map (Prod.map id fun _ => number) =
      ((lines text).filter fun line => !isComment line).map fun line => (line, number) := by
    rw [← map_fst_effectiveLines, List.map_map]
    rfl
  simp only [ofTemplate_encode_eq_foldl, ← foldl_carryOut_renumber, forget, same]

theorem ofTemplate_insert {resources : Resources} {types : Registry} {front between : String}
    (frontEnds : EndsLines front) (betweenEnds : EndsLines between)
    (comments : ∀ line ∈ lines between, isComment line) (rest : String) :
    ofTemplate resources (Utf8.encode (front ++ between ++ rest)) types =
      renumber (moveBehind (lines front).length (lines between).length)
        (ofTemplate resources (Utf8.encode (front ++ rest)) types) := by
  rw [ofTemplate_encode_eq_foldl, ofTemplate_encode_eq_foldl, ← foldl_carryOut_renumber,
    effectiveLines_insert frontEnds betweenEnds comments]
  rfl

/--
A template that is text is the fold over its effective lines. It is read if and only if they
succeed one after the other, and gives one extractor for each; otherwise the error is that
of the first line that fails. Comments change the numbers of lines and nothing else.
-/
theorem ofTemplate_effectiveLines (resources : Resources) (text : String) (types : Registry) :
    ofTemplate resources (Utf8.encode text) types =
        (effectiveLines text).foldl (carryOut resources) (.ok {}, types) ∧
      (∀ pipeline left,
        ofTemplate resources (Utf8.encode text) types = (.ok pipeline, left) ↔
          AllSucceed resources ((effectiveLines text).map Prod.fst) { types } ⟨pipeline, left⟩) ∧
      (∀ pipeline left,
        ofTemplate resources (Utf8.encode text) types = (.ok pipeline, left) →
          List.Forall₂ AsksFor ((effectiveLines text).map Prod.fst) pipeline.extractors) ∧
      (∀ error left,
        ofTemplate resources (Utf8.encode text) types = (.error error, left) ↔
          FailsFirst resources (effectiveLines text) { types } error left) ∧
      (∀ other : String,
        ((lines other).filter fun line => !isComment line) =
            ((lines text).filter fun line => !isComment line) →
          ∀ number,
            renumber (fun _ => number) (ofTemplate resources (Utf8.encode other) types) =
              renumber (fun _ => number) (ofTemplate resources (Utf8.encode text) types)) ∧
      ∀ front between rest : String, text = front ++ rest → EndsLines front →
        EndsLines between → (∀ line ∈ lines between, isComment line) →
        ofTemplate resources (Utf8.encode (front ++ between ++ rest)) types =
          renumber (moveBehind (lines front).length (lines between).length)
            (ofTemplate resources (Utf8.encode text) types) := by
  have folded := ofTemplate_encode_eq_foldl resources text types
  have allSucceed (pipeline : Pipeline) (left : Registry) :
      ofTemplate resources (Utf8.encode text) types = (.ok pipeline, left) ↔
        AllSucceed resources ((effectiveLines text).map Prod.fst) { types } ⟨pipeline, left⟩ := by
    rw [folded]
    exact foldl_eq_ok_iff { types }
  refine ⟨folded, allSucceed, ?_, ?_, ?_, ?_⟩
  · intro pipeline left read
    have chain := (allSucceed pipeline left).mp read
    rcases chain.forall₂_asksFor with ⟨added, extractors, asked⟩
    rw [extractors]
    exact asked
  · intro error left
    rw [folded]
    exact foldl_eq_error_iff { types }
  · intro other same number
    exact renumber_eq_of_filter_eq same number
  · intro front between rest split frontEnds betweenEnds comments
    subst split
    exact ofTemplate_insert frontEnds betweenEnds comments rest

theorem ofTemplate_effectiveLines_note :
    (∃ pipeline left,
      ofTemplate (fun _ => none) (Utf8.encode "Form 1\n# a note\nLemma 0") ⟨[]⟩ =
          (.ok pipeline, left) ∧
        List.Forall₂ AsksFor ["Form 1", "Lemma 0"] pipeline.extractors) ∧
      ofTemplate (fun _ => none) (Utf8.encode "Form 1\nFoo 2\n") ⟨[]⟩ =
        (.error (.line 2 (.unknownName "Foo")), ⟨[]⟩) ∧
      ofTemplate (fun _ => none)
          (Utf8.encode ("Form 1\n" ++ "# a note\r\n\n" ++ "Foo 2\n")) ⟨[]⟩ =
        (.error (.line 4 (.unknownName "Foo")), ⟨[]⟩) := by
  rcases ofTemplate_effectiveLines (fun _ => none) "Form 1\n# a note\nLemma 0" ⟨[]⟩ with
    ⟨read, -, asked, -, -, -⟩
  rcases ofTemplate_effectiveLines (fun _ => none) "Form 1\nFoo 2\n" ⟨[]⟩ with
    ⟨folded, -, -, -, -, inserted⟩
  refine ⟨⟨_, _, read.trans rfl, asked _ _ (read.trans rfl)⟩, ?_⟩
  have fails : ofTemplate (fun _ => none) (Utf8.encode "Form 1\nFoo 2\n") ⟨[]⟩ =
      (.error (.line 2 (.unknownName "Foo")), ⟨[]⟩) := folded.trans rfl
  refine ⟨fails, ?_⟩
  rw [inserted "Form 1\n" "# a note\r\n\n" "Foo 2\n" (by decide) (.inr ⟨"Form 1", by decide⟩)
    (.inr ⟨"# a note\r\n", by decide⟩) (by decide), fails]
  decide

end Pipeline

end EntityFeatures

import EntityFeatures.Pipeline.Template
import EntityFeatures.Proofs.Extractor.Configuration

/-!
# What a template asks for

The lines of a template that are not comments are orders: an extractor by name, a
window and arguments. `Order.ofTemplate` reads them off a template without
configuring anything. `Configures` relates two pipelines when carrying out some
orders leads from one to the other, each order with the counter that the one before
it has left.

The main statement is that a template from which a pipeline comes is its orders
carried out, beginning with the empty pipeline. The types of entities, the numbers
of the lines and the errors have no part in it.
-/

namespace EntityFeatures

/-- What a line of a template asks for. -/
structure Order where
  name : ExtractorName
  window : Int32
  arguments : List String
  deriving DecidableEq, Repr

namespace Order

/-- What a line asks for, if it is a text, no comment and in order. -/
def ofLine? (line : List UInt8) : Option Order :=
  match Utf8.decode line with
  | .ok text =>
      if TemplateState.isComment text then none
      else
        match TemplateState.entryOf 0 text (Text.fields ' ' text) with
        | .ok (extractor, window, arguments) => some ⟨extractor.name, window, arguments⟩
        | .error _ => none
  | .error _ => none

/-- What the lines of a template ask for. -/
def ofTemplate (template : List UInt8) : List Order :=
  (Text.byteLines template).filterMap ofLine?

end Order

/-- Carrying out the orders leads from one pipeline to the other. -/
inductive Configures (resources : Resources) : List Order → Pipeline → Pipeline → Prop
  | nil (pipeline : Pipeline) : Configures resources [] pipeline pipeline
  | cons {order : Order} {rest : List Order} {before after : Pipeline} {types : Registry}
      {setup : Setup} :
      Setup.configure resources order.window order.arguments
        ⟨.ofName order.name, types, before.total⟩ = .ok () setup →
      Configures resources rest { before.push setup.extractor with total := setup.total } after →
      Configures resources (order :: rest) before after

namespace TemplateState

theorem eq_ofName_of_create? {name : String} {extractor : Extractor}
    (created : Extractor.create? name = some extractor) : extractor = .ofName extractor.name := by
  simp only [Extractor.create?, Option.map_eq_some_iff] at created
  rcases created with ⟨known, -, rfl⟩
  simp [Extractor.ofName, Extractor.name]

/-- The number of the line matters for errors only. -/
theorem entryOf_eq_ok {number : Nat} {line : String} {fields : List String}
    {entry : Extractor × Int32 × List String} (found : entryOf number line fields = .ok entry) :
    entryOf 0 line fields = .ok entry ∧ entry.1 = .ofName entry.1.name := by
  rcases fields with _ | ⟨name, _ | ⟨window, arguments⟩⟩
  · cases found
  · cases found
  · simp only [entryOf] at found ⊢
    cases windowRead : Numeral.int32? window with
    | none =>
        rw [windowRead] at found
        cases found
    | some size =>
        rw [windowRead] at found
        cases created : Extractor.create? name with
        | none =>
            rw [created] at found
            cases found
        | some extractor =>
            rw [created] at found
            cases found
            exact ⟨rfl, eq_ofName_of_create? created⟩

theorem addExtractor_eq_ok {resources : Resources} {extractor : Extractor} {window : Int32}
    {arguments : List String} {state after : TemplateState}
    (done : addExtractor resources extractor window arguments state = .ok () after) :
    ∃ setup, Setup.configure resources window arguments
        ⟨extractor, state.types, state.pipeline.total⟩ = .ok () setup ∧
      after.pipeline = { state.pipeline.push setup.extractor with total := setup.total } := by
  simp only [addExtractor] at done
  rcases exists_of_step_bind_eq_ok done with ⟨_, _, read, done⟩
  cases read
  cases configured : Setup.configure resources window arguments
      ⟨extractor, state.types, state.pipeline.total⟩ with
  | ok _ setup =>
      rw [configured] at done
      cases done
      exact ⟨setup, rfl, rfl⟩
  | error fault setup =>
      rw [configured] at done
      rcases exists_of_step_bind_eq_ok done with ⟨_, _, _, failed⟩
      cases failed

/-- A line either asks for nothing and does nothing, or its order is carried out. -/
theorem addBytes_eq_ok {resources : Resources} {number : Nat} {line : List UInt8}
    {state after : TemplateState} (done : addBytes resources number line state = .ok () after) :
    (Order.ofLine? line = none ∧ after = state) ∨
      ∃ order setup, Order.ofLine? line = some order ∧
        Setup.configure resources order.window order.arguments
          ⟨.ofName order.name, state.types, state.pipeline.total⟩ = .ok () setup ∧
        after.pipeline = { state.pipeline.push setup.extractor with total := setup.total } := by
  simp only [addBytes] at done
  cases decoded : Utf8.decode line with
  | error fault =>
      rw [decoded] at done
      cases done
  | ok text =>
      rw [decoded] at done
      simp only [addLine] at done
      by_cases comment : isComment text
      · rw [if_pos comment] at done
        cases done
        exact Or.inl ⟨by simp [Order.ofLine?, decoded, comment], rfl⟩
      · rw [if_neg comment] at done
        cases found : entryOf number text (Text.fields ' ' text) with
        | error fault =>
            rw [found] at done
            cases done
        | ok entry =>
            rcases entry with ⟨extractor, window, arguments⟩
            rw [found] at done
            rcases addExtractor_eq_ok done with ⟨setup, configured, pushed⟩
            rcases entryOf_eq_ok found with ⟨foundAny, fresh⟩
            refine Or.inr ⟨⟨extractor.name, window, arguments⟩, setup, ?_, ?_, pushed⟩
            · simp [Order.ofLine?, decoded, comment, foundAny]
            · dsimp only at fresh ⊢
              rw [← fresh]
              exact configured

theorem addLines_eq_ok {resources : Resources} {number : Nat} {lines : List (List UInt8)}
    {state after : TemplateState} (done : addLines resources number lines state = .ok () after) :
    Configures resources (lines.filterMap Order.ofLine?) state.pipeline after.pipeline := by
  induction lines generalizing number state with
  | nil =>
      cases done
      exact .nil _
  | cons line rest ih =>
      simp only [addLines] at done
      rcases exists_of_step_bind_eq_ok done with ⟨_, middle, first, others⟩
      rcases addBytes_eq_ok first with ⟨nothing, rfl⟩ | ⟨order, setup, asked, configured, pushed⟩
      · rw [List.filterMap_cons_none nothing]
        exact ih others
      · rw [List.filterMap_cons_some asked]
        apply Configures.cons configured
        rw [← pushed]
        exact ih others

end TemplateState

namespace Pipeline

theorem configures_of_ofTemplate {resources : Resources} {template : List UInt8}
    {types : Registry} {pipeline : Pipeline}
    (read : (ofTemplate resources template types).1 = .ok pipeline) :
    Configures resources (Order.ofTemplate template) {} pipeline := by
  simp only [ofTemplate] at read
  cases done : TemplateState.addLines resources 1 (Text.byteLines template) { types } with
  | ok _ state =>
      rw [done] at read
      cases read
      exact TemplateState.addLines_eq_ok done
  | error fault state =>
      rw [done] at read
      cases read

end Pipeline

end EntityFeatures

import EntityFeatures.Extractor.Configure
import EntityFeatures.Pipeline.Basic

/-!
# Pipelines from templates

A template is a text with one extractor on each line: its name, its window and its
arguments, each separated from the next by one blank. Empty lines and lines that
begin with `#` are comments. The extractors are configured in the order of the
lines, each with the types of entities and the counter that the lines before left.

The first line that fails ends the reading. No pipeline comes of it, but types that
were added before stay in the registry. A template is read as bytes, because a line
behind that one may be no text.
-/

namespace EntityFeatures

/-- What is wrong with a line of a template. -/
inductive TemplateFault where
  /-- The line has no window. -/
  | missingFields (line : String)
  | wrongWindow (window name : String)
  | unknownName (name : String)
  deriving DecidableEq, Repr

/-- The wording of the fault. -/
def TemplateFault.message : TemplateFault → String
  | missingFields line => s!"expected 'name window [args...]', got '{line}'"
  | wrongWindow window name => s!"window '{window}' of processor {name} is not an integer"
  | unknownName name => s!"unknown feature processor '{name}'"

/-- Why a template cannot be read. -/
inductive TemplateError where
  | line (number : Nat) (fault : TemplateFault)
  /-- A line is no text. -/
  | notText
  /-- An extractor cannot be configured. -/
  | configuration (error : ConfigError)
  deriving DecidableEq, Repr

/-- The wording of the error. -/
def TemplateError.message : TemplateError → String
  | line number fault => s!"feature template line {number}: " ++ fault.message
  | notText => ReadFault.notText.message
  | configuration error => error.message

/-- A pipeline that is being put together, and the types of entities. -/
structure TemplateState where
  pipeline : Pipeline := {}
  types : Registry

/-- A step of reading a template, which keeps what was done before an error. -/
abbrev TemplateStep := EStateM TemplateError TemplateState

namespace TemplateState

/-- Configures an extractor and appends it. -/
def addExtractor (resources : Resources) (extractor : Extractor) (window : Int32)
    (arguments : List String) : TemplateStep Unit := do
  let state ← get
  match
    Setup.configure resources window arguments ⟨extractor, state.types, state.pipeline.total⟩
  with
  | .ok _ setup =>
      set
        ({ pipeline := { state.pipeline.push setup.extractor with total := setup.total }
           types := setup.types } : TemplateState)
  | .error error setup =>
      set { state with types := setup.types }
      throw (.configuration error)

/-- What a line with the given fields and number asks for. -/
def entryOf (number : Nat) (line : String) :
    List String → Except TemplateError (Extractor × Int32 × List String)
  | name :: window :: arguments =>
      match Numeral.int32? window with
      | none => .error (.line number (.wrongWindow window name))
      | some window =>
          match Extractor.create? name with
          | none => .error (.line number (.unknownName name))
          | some extractor => .ok (extractor, window, arguments)
  | _ => .error (.line number (.missingFields line))

/-- Whether a line asks for nothing: it is empty or begins with a hash. -/
def isComment (line : String) : Bool :=
  line.isEmpty || line.toList.head? == some '#'

/-- Does what a line with the given number asks for. -/
def addLine (resources : Resources) (number : Nat) (line : String) : TemplateStep Unit :=
  if isComment line then return ()
  else
    match entryOf number line (Text.fields ' ' line) with
    | .error error => throw error
    | .ok (extractor, window, arguments) => addExtractor resources extractor window arguments

/-- Does what a line asks for, if it is a text. -/
def addBytes (resources : Resources) (number : Nat) (line : List UInt8) : TemplateStep Unit :=
  match Utf8.decode line with
  | .ok text => addLine resources number text
  | .error _ => throw .notText

/-- Does what several lines ask for, the first of which has the given number. -/
def addLines (resources : Resources) : (number : Nat) → List (List UInt8) → TemplateStep Unit
  | _, [] => return ()
  | number, line :: rest => do
      addBytes resources number line
      addLines resources (number + 1) rest

end TemplateState

/-- The pipeline that a template describes, and the types of entities afterwards. -/
def Pipeline.ofTemplate (resources : Resources) (template : List UInt8) (types : Registry) :
    Except TemplateError Pipeline × Registry :=
  match TemplateState.addLines resources 1 (Text.byteLines template) { types } with
  | .ok _ state => (.ok state.pipeline, state.types)
  | .error error state => (.error error, state.types)

end EntityFeatures

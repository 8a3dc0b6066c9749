import EntityFeatures.Extractor.Name
import EntityFeatures.Text.Fields
import EntityFeatures.Text.Utf8

/-!
# Resource files and errors of configuration

Extractors are configured with arguments, some of which name resource files. The
files are given as `Resources`, a function from paths to contents, so that nothing
here depends on a file system.

A configuration fails for one of three causes: an argument that the extractor
cannot use, a file that cannot be read, or a line of a file that is not in order.
`ConfigError.message` words them.
-/

namespace EntityFeatures

/-- The contents of the files that exist. -/
abbrev Resources := String → Option (List UInt8)

/-- Why a file cannot be read as a text. -/
inductive ReadFault where
  | missing
  | notText
  deriving DecidableEq, Repr

/-- The wording of the fault. -/
def ReadFault.message : ReadFault → String
  | missing => "No such file or directory (os error 2)"
  | notText => "stream did not contain valid UTF-8"

/-- The contents of a file as a text. -/
def Resources.readText (resources : Resources) (path : String) : Except ReadFault String :=
  match resources path with
  | none => .error .missing
  | some bytes =>
      match Utf8.decode bytes with
      | .ok text => .ok text
      | .error _ => .error .notText

/-- What is wrong with the arguments of an extractor, or with the ids that they need. -/
inductive ArgumentFault where
  /-- The extractor emits no features, and a window makes no sense. -/
  | nonzeroWindow
  | negativeWindow (window : Int)
  /-- Not even one block of this window is left. -/
  | windowTooWide (window : Nat)
  /-- The features that the extractor always has do not fit. -/
  | idsExhausted
  | idsExhaustedByPrefixes
  | idsExhaustedByFile (path : String)
  | noClusterFile
  | wrongPrefixLength (argument : String)
  /-- Not exactly two types are named. -/
  | wrongTypeCount (count : Nat)
  /-- One of the two types cannot be a type. -/
  | typesRefused (web mail : String)
  deriving DecidableEq, Repr

/-- The wording of the fault. -/
def ArgumentFault.message : ArgumentFault → String
  | nonzeroWindow => "cannot have non-zero window"
  | negativeWindow window => "window cannot be negative, got " ++ toString window
  | windowTooWide window => s!"window {window} does not fit into the feature id space"
  | idsExhausted => "feature id space exhausted"
  | idsExhaustedByPrefixes => "feature id space exhausted by cluster prefixes"
  | idsExhaustedByFile path => s!"feature id space exhausted by gazetteer file '{path}'"
  | noClusterFile => "requires a cluster file as the first argument"
  | wrongPrefixLength argument => s!"wrong prefix length '{argument}'"
  | wrongTypeCount count =>
      s!"requires exactly two arguments, named entity types for URL and email, got {count}"
  | typesRefused web mail => s!"cannot create entities '{web}' and '{mail}'"

/-- What is wrong with a line of a cluster file. -/
inductive LineFault where
  /-- The line does not consist of a label and a form. -/
  | wrongFields (line : String)
  /-- The form stands in an earlier line too. -/
  | repeatedForm (form : String)
  deriving DecidableEq, Repr

/-- The wording of the fault. -/
def LineFault.message : LineFault → String
  | wrongFields line =>
      s!"wrong line '{line}' in Brown cluster file, expected 'cluster<TAB>form'"
  | repeatedForm form => s!"form '{form}' is present twice in Brown cluster file"

/-- Why an extractor cannot be configured. -/
inductive ConfigError where
  | argument (extractor : ExtractorName) (fault : ArgumentFault)
  | resource (path : String) (fault : ReadFault)
  | format (path : String) (line : Nat) (fault : LineFault)
  deriving DecidableEq, Repr

/-- The wording of the error, which says first where the fault is. -/
def ConfigError.message : ConfigError → String
  | argument extractor fault => extractor.text ++ ": " ++ fault.message
  | resource path fault => s!"cannot read resource file '{path}': " ++ fault.message
  | format path line fault => s!"{path}:{line}: " ++ fault.message

end EntityFeatures

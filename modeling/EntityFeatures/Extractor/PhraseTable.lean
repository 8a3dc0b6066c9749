import EntityFeatures.Extractor.ConfigError
import EntityFeatures.Feature.Emission
import EntityFeatures.Feature.Vocabulary
import EntityFeatures.Model.Reader
import EntityFeatures.Sentence.Basic

/-!
# Gazetteers

A gazetteer is a file of known phrases, one on each line, the words of a phrase
separated by blanks. Each file has features of its own. A token that belongs to a
phrase of the file has its generic feature, and one for the place in the phrase:
the only word, the first, the last, or one between.

Every phrase of a file and every initial part of one is an entry, and the table of
the extractor leads from the words joined by blanks to the entry. An entry holds
the files in which it is complete, by their features, and whether it goes on.
Matching starts at every token anew and follows the entries as long as they go on,
so it finds all phrases, also those that overlap.

A phrase grows by `PhraseTable.join`, when a line is read as well as when a
sentence is matched, and `PhraseTable.phrasesOf` lists all that come up on the way.
-/

namespace EntityFeatures

/-- A phrase or an initial part of one. -/
structure PhraseEntry where
  /-- The generic feature of every file in which the phrase is complete. -/
  features : List FeatureId := []
  /-- Whether the words are an initial part of a longer phrase. -/
  goesOn : Bool := false
  deriving DecidableEq, Repr

namespace PhraseEntry

/-- The entry, as an initial part of a longer phrase. -/
def extend (entry : PhraseEntry) : PhraseEntry :=
  { entry with goesOn := true }

/-- The entry, as a complete phrase of the file with the given feature. -/
def complete (feature : FeatureId) (entry : PhraseEntry) : PhraseEntry :=
  if entry.features.contains feature then entry
  else { entry with features := entry.features ++ [feature] }

end PhraseEntry

/-- The entries, by the numbers that the table gives to phrases. -/
abbrev PhraseTable := Array PhraseEntry

/-- What a token may be in a phrase, generic membership first. -/
inductive PhraseRole where
  | member
  | only
  | first
  | last
  | between
  deriving DecidableEq, Repr

namespace PhraseRole

/-- Which of the blocks of a file belongs to the role. -/
def index : PhraseRole → UInt32
  | member => 0
  | only => 1
  | first => 2
  | last => 3
  | between => 4

/-- The feature of a role in a file that has the given generic feature. -/
def feature (role : PhraseRole) (window : Window) (generic : FeatureId) : FeatureId :=
  generic + role.index * (2 * window + 1)

/-- How many roles occur in a file whose longest phrase has the given number of words. -/
def countFor : (longest : Nat) → Nat
  | 0 => 0
  | 1 => 2
  | 2 => 4
  | _ => 5

/-- The role of a token in a phrase of several words from `start` to `final`. -/
def within (start final token : Nat) : PhraseRole :=
  if token = start then first else if token = final then last else between

end PhraseRole

namespace PhraseTable

/-- A phrase and one more word. -/
def join (phrase word : String) : String :=
  phrase ++ " " ++ word

/-- The initial parts of a phrase that goes on from `front` with the given words. -/
def phrasesFrom (front : String) : List String → List String
  | [] => []
  | word :: rest => join front word :: phrasesFrom (join front word) rest

/-- The initial parts of a phrase of the given words, the shortest first and the phrase last. -/
def phrasesOf : List String → List String
  | [] => []
  | word :: rest => word :: phrasesFrom word rest

/-- The words of a line, which stand between blanks. -/
def wordsOf (line : String) : List String :=
  (Text.fields ' ' line).filter fun word => !word.isEmpty

end PhraseTable

/-- What has been read of the files. -/
structure PhraseReading where
  /-- The number of the entry of each phrase. -/
  phrases : KeyTable := ∅
  entries : PhraseTable := #[]
  /-- The first id behind those that the files take. -/
  total : FeatureId

namespace PhraseReading

/-- Changes the entry of a phrase, which is made if there is none. -/
def modify (reading : PhraseReading) (change : PhraseEntry → PhraseEntry) (phrase : String) :
    PhraseReading :=
  match reading.phrases[phrase]? with
  | some number =>
      { reading with entries := reading.entries.modify number.toNat change }
  | none =>
      { reading with
        phrases := reading.phrases.insert phrase (UInt32.ofNat reading.entries.size)
        entries := reading.entries.push (change {}) }

/-- Adds a phrase with all of its initial parts, given by these parts. -/
def addPhrases (feature : FeatureId) : List String → PhraseReading → PhraseReading
  | [], reading => reading
  | [phrase], reading => reading.modify (PhraseEntry.complete feature) phrase
  | part :: next :: rest, reading =>
      addPhrases feature (next :: rest) (reading.modify PhraseEntry.extend part)

/-- Adds the phrase of a line of a file with the given generic feature. -/
def addLine (feature : FeatureId) (reading : PhraseReading) (line : String) : PhraseReading :=
  addPhrases feature (PhraseTable.phrasesOf (PhraseTable.wordsOf line)) reading

/-- The number of words of the longest phrase. -/
def longest (lines : List String) : Nat :=
  lines.foldl (fun longest line => max longest (PhraseTable.wordsOf line).length) 0

/-- A step of reading, which keeps what was read before an error. -/
abbrev Step := EStateM ConfigError PhraseReading

/-- Reads a file and takes the ids for it. -/
def readFile (resources : Resources) (window : Window) (path : String) : Step Unit := do
  match resources.readText path with
  | .error fault => throw (.resource path fault)
  | .ok text =>
      match (← get).total.blockCentre? window 0 with
      | none => throw (.argument .gazetteers (.idsExhaustedByFile path))
      | some feature =>
          let lines := Text.lines text
          modifyThe PhraseReading fun reading => lines.foldl (addLine feature) reading
          match (← get).total.blocksEnd? window (PhraseRole.countFor (longest lines)) with
          | none => throw (.argument .gazetteers (.idsExhaustedByFile path))
          | some total => modifyThe PhraseReading fun reading => { reading with total }

/-- Reads several files in turn. -/
def readFiles (resources : Resources) (window : Window) : List String → Step Unit
  | [] => return ()
  | path :: rest => do
      readFile resources window path
      readFiles resources window rest

end PhraseReading

namespace PhraseTable

/-- The entry of a phrase, if there is one. -/
def find? (entries : PhraseTable) (phrases : KeyTable) (phrase : String) : Option PhraseEntry :=
  match phrases[phrase]? with
  | some number => entries[number.toNat]?
  | none => none

/-- What is emitted for a token in a role: the generic feature, then that of the role. -/
def roleEmissions (window : Window) (generic : FeatureId) (role : PhraseRole) (token : Nat) :
    List Emission :=
  [.around (PhraseRole.member.feature window generic) token window,
    .around (role.feature window generic) token window]

/-- What is emitted for an entry that covers the tokens from `start` to `final`. -/
def entryEmissions (window : Window) (start final : Nat) (entry : PhraseEntry) : List Emission :=
  entry.features.flatMap fun generic =>
    if start = final then roleEmissions window generic .only start
    else
      (List.range' start (final + 1 - start)).flatMap fun token =>
        roleEmissions window generic (.within start final token) token

/--
Follows the entries from the one of the phrase that covers the tokens from `start`
to `final`, as long as they go on with the next lemmas of the sentence.
-/
def follow (entries : PhraseTable) (phrases : KeyTable) (window : Window) (start : Nat) :
    (final : Nat) → (phrase : String) → PhraseEntry → List String → List Emission
  | final, _, entry, [] => entryEmissions window start final entry
  | final, phrase, entry, next :: rest =>
      entryEmissions window start final entry ++
        if entry.goesOn then
          match entries.find? phrases (join phrase next) with
          | some longer =>
              follow entries phrases window start (final + 1) (join phrase next) longer rest
          | none => []
        else []

/-- What is emitted for the phrases that begin at a token, given its lemma and those behind it. -/
def emissionsAt (entries : PhraseTable) (phrases : KeyTable) (window : Window) (start : Nat)
    (first : String) (rest : List String) : List Emission :=
  match entries.find? phrases first with
  | some entry => follow entries phrases window start start first entry rest
  | none => []

/-- What is emitted for lemmas, the first of which stands at the given position. -/
def emissionsOf (entries : PhraseTable) (phrases : KeyTable) (window : Window) :
    (start : Nat) → List String → List Emission
  | _, [] => []
  | start, first :: rest =>
      emissionsAt entries phrases window start first rest ++
        emissionsOf entries phrases window (start + 1) rest

/-- What is emitted for the phrases in the lemmas of a sentence. -/
def emissions (entries : PhraseTable) (phrases : KeyTable) (window : Window)
    (sentence : Sentence) : List Emission :=
  entries.emissionsOf phrases window 0 (sentence.words.map Word.rawLemma)

/-- An entry as fields of a saved model, with one byte for the number of its features. -/
def saveEntry (entry : PhraseEntry) : Model.Encoded := do
  let flag ← Model.encodeByte (if entry.goesOn then 1 else 0)
  let count ← Model.encodeByte entry.features.length
  let features ← Model.encodeEach (fun feature => Model.encodeWord feature.toNat) entry.features
  return flag ++ count ++ features

/-- The entries as fields of a saved model. -/
def save (entries : PhraseTable) : Model.Encoded :=
  Model.encodeCounted saveEntry entries.toList

open Model

/-- Whether a phrase goes on, as one byte. -/
def loadFlag : Reader PhraseTable Bool := do
  match ← Reader.byte with
  | 0 => return false
  | 1 => return true
  | flag => throw (.wrongFlag flag)

/-- Appends a saved entry. -/
def loadEntry : Reader PhraseTable Unit := do
  let goesOn ← loadFlag
  let count ← Reader.byte
  let features ← Reader.words count.toNat
  Reader.update fun entries => entries.push { features, goesOn }

/-- Replaces the entries by saved ones. -/
def load : Reader PhraseTable Unit := do
  Reader.update fun _ => #[]
  Reader.counted loadEntry

end PhraseTable

end EntityFeatures

import EntityFeatures.Extractor.Annotate

/-!
# The scratch text

Some extractors have to put a key together before they can look it up. They do so in
one text, which all extractors share and which is kept from one sentence to the next,
so that no new one has to be made for every key. Nobody empties it between two uses.
What it holds when an extractor begins is whatever was left in it, and a key is the
right one only if the extractor empties the text before it writes.

The class of a term and the label of an earlier stage are written behind an emptied
text. The search for phrases empties it only when it goes on from the first word to the
second, and after that adds one word after the other.

`Extractor.annotateIn` and `Extractor.learnIn` do what `Extractor.annotate` and
`Extractor.learn` do, with all keys that are put together read from the scratch text.
-/

namespace EntityFeatures

/-- Steps that share a text. -/
abbrev Scratch := StateM String

namespace Scratch

/-- Empties the scratch text. -/
def clear : Scratch Unit :=
  set ""

/-- Writes behind what the scratch text holds. -/
def append (text : String) : Scratch Unit :=
  modify fun held => held ++ text

/-- What the scratch text holds. -/
def read : Scratch String :=
  get

/-- What is found for the items of a list in turn, the first of which has the given place. -/
def collect {Item Result : Type} (step : Nat → Item → Scratch (List Result)) :
    Nat → List Item → Scratch (List Result)
  | _, [] => return []
  | place, item :: rest => do
      let here ← step place item
      let later ← collect step (place + 1) rest
      return here ++ later

end Scratch

/-- Asks for the class of terms of a word, which is written into the scratch text. -/
def termRequestIn (window : Window) (position : Nat) (word : Word) : Scratch (List Request) := do
  match termClass? word.lemmaComments.toList with
  | some term =>
      Scratch.clear
      Scratch.append (String.singleton term)
      return [.around (← Scratch.read) position window]
  | none => return []

/-- Asks for the label of a token, which is written into the scratch text. -/
def PreviousLabel.requestIn (window : Window) (position : Nat) (previous : PreviousLabel) :
    Scratch (List Request) := do
  if previous.isGiven then
    Scratch.clear
    Scratch.append (String.ofList (signedDigits previous.label))
    Scratch.append " "
    Scratch.append (String.ofList (signedDigits previous.entity.toInt32))
    return [.place (← Scratch.read) position 1 window.toNat]
  else return []

/-- What a kind asks of its vocabulary for a sentence. -/
def Kind.requestsIn (kind : Kind) (window : Window) (sentence : Sentence) :
    Scratch (List Request) :=
  match kind with
  | lemmaTerm => Scratch.collect (termRequestIn window) 0 sentence.words
  | earlierLabel => Scratch.collect (PreviousLabel.requestIn window) 0 sentence.previous
  | kind => return kind.requests window sentence

namespace PhraseTable

/--
Writes a word behind those from `start` to `final`. Of these the scratch text holds
nothing yet when there is only the first.
-/
def writeNext (start final : Nat) (first next : String) : Scratch Unit := do
  if final = start then
    Scratch.clear
    Scratch.append first
  Scratch.append " "
  Scratch.append next

/--
Follows the entries from the one that covers the tokens from `start` to `final`. The
phrase stands in the scratch text as soon as it has a second word; `first` is the first.
-/
def followIn (entries : PhraseTable) (phrases : KeyTable) (window : Window) (start : Nat)
    (first : String) : (final : Nat) → PhraseEntry → List String → Scratch (List Emission)
  | final, entry, [] => return entryEmissions window start final entry
  | final, entry, next :: rest => do
      let here := entryEmissions window start final entry
      if entry.goesOn then
        writeNext start final first next
        match entries.find? phrases (← Scratch.read) with
        | some longer =>
            let later ← followIn entries phrases window start first (final + 1) longer rest
            return here ++ later
        | none => return here
      else return here

/-- What is emitted for the phrases that begin at a token, given its lemma and those behind it. -/
def emissionsAtIn (entries : PhraseTable) (phrases : KeyTable) (window : Window) (start : Nat)
    (first : String) (rest : List String) : Scratch (List Emission) :=
  match entries.find? phrases first with
  | some entry => entries.followIn phrases window start first start entry rest
  | none => return []

/-- What is emitted for lemmas, the first of which stands at the given position. -/
def emissionsOfIn (entries : PhraseTable) (phrases : KeyTable) (window : Window) :
    (start : Nat) → List String → Scratch (List Emission)
  | _, [] => return []
  | start, first :: rest => do
      let here ← entries.emissionsAtIn phrases window start first rest
      let later ← emissionsOfIn entries phrases window (start + 1) rest
      return here ++ later

end PhraseTable

namespace Extractor

/-- What an extractor asks of its vocabulary, with its keys written into the scratch text. -/
def requestsIn (extractor : Extractor) (sentence : Sentence) : Scratch (List Request) :=
  extractor.kind.requestsIn extractor.window sentence

/-- What an extractor emits without asking for features by key. -/
def directIn (extractor : Extractor) (sentence : Sentence) : Scratch (List Emission) :=
  match extractor.kind with
  | .gazetteers entries =>
      entries.emissionsOfIn extractor.table extractor.window 0 (sentence.words.map Word.rawLemma)
  | _ => return extractor.direct sentence

/-- Adds the features that the extractor finds in a sentence. -/
def annotateIn (extractor : Extractor) (sentence : Sentence) : Scratch Sentence := do
  let requests ← extractor.requestsIn sentence
  let direct ← extractor.directIn sentence
  let emissions := extractor.table.answer extractor.window requests ++ direct
  return extractor.settle (sentence.emitAll emissions)

/-- Adds the features that the extractor finds in a sentence, and learns the new ones. -/
def learnIn (extractor : Extractor) (total : FeatureId) (sentence : Sentence) :
    Scratch (Extractor × FeatureId × Sentence) := do
  let requests ← extractor.requestsIn sentence
  let (emissions, vocabulary) :=
    Vocabulary.answer extractor.window requests ⟨extractor.table, total⟩
  let direct ← extractor.directIn sentence
  return ({ extractor with table := vocabulary.table }, vocabulary.total,
    extractor.settle (sentence.emitAll (emissions ++ direct)))

end Extractor

end EntityFeatures

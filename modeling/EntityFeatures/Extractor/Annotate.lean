import EntityFeatures.Extractor.Basic
import EntityFeatures.Span.Container

/-!
# Features of a sentence

An extractor is used in two ways. `Extractor.annotate` leaves it as it is, and keys
that it does not know have no features. `Extractor.learn` is for training: new keys
get features, and the counter goes on.

What either does with a sentence is settled by two lists. `Kind.requests` asks for
features by key; the answers depend on whether keys may be learned. And
`Extractor.direct` are emissions that need no such answer, which come after the
others: the border marks, and the features of the kinds whose table leads to
something else than features and is only read.

Neither depends on the features that the tokens have already; extractors only add
to them.
-/

namespace EntityFeatures

/-- What a kind asks of its vocabulary for a sentence. -/
def Kind.requests (kind : Kind) (window : Window) (sentence : Sentence) : List Request :=
  match kind with
  | lemmaTerm => termRequests window sentence
  | lexical source => source.requests window sentence
  | capitalization source => source.requests window sentence
  | numericValue => NumericFeature.requests window sentence
  | earlierLabel => PreviousLabel.requests window sentence
  | clusters _ | containers | gazetteers _ | addresses _ => []

namespace Extractor

/-- What an extractor emits without asking for features by key. -/
def direct (extractor : Extractor) (sentence : Sentence) : List Emission :=
  match extractor.kind with
  | .lexical _ => borderEmissions extractor.window sentence.features.length
  | .clusters clusters => clusters.emissions extractor.table extractor.window sentence
  | .gazetteers entries => entries.emissions extractor.table extractor.window sentence
  | .containers | .lemmaTerm | .capitalization _ | .numericValue | .earlierLabel | .addresses _ => []

/-- What an extractor asks of its vocabulary for a sentence. -/
def requests (extractor : Extractor) (sentence : Sentence) : List Request :=
  extractor.kind.requests extractor.window sentence

/-- What an extractor emits for a sentence when it does not learn. -/
def emissions (extractor : Extractor) (sentence : Sentence) : List Emission :=
  extractor.table.answer extractor.window (extractor.requests sentence) ++
    extractor.direct sentence

/-- Settles the tokens that an extractor is certain about. -/
def settle (extractor : Extractor) (sentence : Sentence) : Sentence :=
  match extractor.kind with
  | .addresses types => types.settle sentence
  | _ => sentence

/-- Adds the features that the extractor finds in a sentence. -/
def annotate (extractor : Extractor) (sentence : Sentence) : Sentence :=
  extractor.settle (sentence.emitAll (extractor.emissions sentence))

/-- What an extractor that learns emits for a sentence, the extractor and the counter afterwards. -/
def learnEmissions (extractor : Extractor) (total : FeatureId) (sentence : Sentence) :
    List Emission × Extractor × FeatureId :=
  let (emissions, vocabulary) :=
    Vocabulary.answer extractor.window (extractor.requests sentence) ⟨extractor.table, total⟩
  (emissions ++ extractor.direct sentence, { extractor with table := vocabulary.table },
    vocabulary.total)

/-- Adds the features that the extractor finds in a sentence, and learns the new ones. -/
def learn (extractor : Extractor) (total : FeatureId) (sentence : Sentence) :
    Extractor × FeatureId × Sentence :=
  let (emissions, learned, total) := extractor.learnEmissions total sentence
  (learned, total, extractor.settle (sentence.emitAll emissions))

/-- Adds containers to the entities that were recognised in a sentence, if that is asked for. -/
def wrapSpans (extractor : Extractor) (spans : List Span) : List Span :=
  match extractor.kind with
  | .containers => addContainers spans
  | _ => spans

end Extractor

end EntityFeatures

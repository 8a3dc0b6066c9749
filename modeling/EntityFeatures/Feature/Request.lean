import EntityFeatures.Feature.Emission
import EntityFeatures.Feature.Vocabulary

/-!
# Requests for features

Most extractors turn a sentence into a list of requests: put the feature of this
key on those tokens. Which id the key has is none of their business. A request is
answered from a table that is only read, with `KeyTable.answer`, or from a
vocabulary that learns new keys on the way, with `Vocabulary.answer`. Both give
the emissions of the sentence, in the order of the requests.
-/

namespace EntityFeatures

/-- What an extractor asks of its vocabulary. -/
inductive Request where
  /-- The key is to be known, whether or not the sentence has a use for it. -/
  | know (key : String)
  /-- The feature of the key is to be put on tokens around a position, as in `Emission`. -/
  | place (key : String) (anchor left right : Int)
  deriving DecidableEq, Repr

namespace Request

/-- The key that a request is about. -/
def key : Request → String
  | know key => key
  | place key _ _ _ => key

/-- The request for a key on all tokens up to the window away. -/
def around (key : String) (anchor : Int) (window : Window) : Request :=
  place key anchor (-(window.toNat : Int)) window.toNat

/-- What is emitted for a request once the feature of its key is known. -/
def emissions (feature : FeatureId) : Request → List Emission
  | know _ => []
  | place _ anchor left right => [⟨feature, anchor, left, right⟩]

end Request

/-- The emissions for some requests, from a table that is only read. -/
def KeyTable.answer (table : KeyTable) (window : Window) (requests : List Request) :
    List Emission :=
  requests.flatMap fun request => request.emissions (table.find window request.key)

/-- The emissions for some requests, and the vocabulary with what was learned for them. -/
def Vocabulary.answer (window : Window) :
    List Request → Vocabulary → List Emission × Vocabulary
  | [], vocabulary => ([], vocabulary)
  | request :: rest, vocabulary =>
      let (feature, learned) := vocabulary.learn window request.key
      let (emissions, final) := Vocabulary.answer window rest learned
      (request.emissions feature ++ emissions, final)

end EntityFeatures

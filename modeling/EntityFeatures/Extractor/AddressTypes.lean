import EntityFeatures.Extractor.ConfigError
import EntityFeatures.Registry
import EntityFeatures.Sentence.Basic
import EntityFeatures.Text.Address

/-!
# Addresses as entities

Web and mail addresses are no features: a token that is one is settled at once as
an entity of its own, of one of the two configured types. What has been settled
before is left as it is.
-/

namespace EntityFeatures

/-- The types of entities that addresses are. -/
structure AddressTypes where
  web : EntityId := EntityId.unknown
  mail : EntityId := EntityId.unknown
  deriving DecidableEq, Repr

namespace AddressTypes

/-- The type of an address. -/
def typeOf (types : AddressTypes) : Address → EntityId
  | .web => types.web
  | .mail => types.mail

/-- The scores of a word once its form has been looked at. -/
def decide (types : AddressTypes) (word : Word) (scores : TokenScores) : TokenScores :=
  if scores.decided then scores
  else
    match Address.classify? word.form with
    | some address => .certain (types.typeOf address)
    | none => scores

/-- The scores of all tokens; those of tokens without a word stay as they are. -/
def decideAll (types : AddressTypes) : List Word → List TokenScores → List TokenScores
  | word :: words, scores :: rest => types.decide word scores :: types.decideAll words rest
  | _, scores => scores

/-- The sentence with its addresses settled. -/
def settle (types : AddressTypes) (sentence : Sentence) : Sentence :=
  { sentence with scores := types.decideAll sentence.words sentence.scores }

/-- Whether both types are known. -/
def areKnown (types : AddressTypes) : Bool :=
  types.web != EntityId.unknown && types.mail != EntityId.unknown

/-- Both types as fields of a saved model. -/
def save (types : AddressTypes) : Model.Encoded := do
  let web ← Model.encodeWord types.web.toNat
  let mail ← Model.encodeWord types.mail.toNat
  return web ++ mail

open Model

/-- Replaces both types by saved ones, one after the other. -/
def load : Reader AddressTypes Unit := do
  let web ← Reader.word
  Reader.update fun types => { types with web }
  let mail ← Reader.word
  Reader.update fun types => { types with mail }

end AddressTypes

end EntityFeatures

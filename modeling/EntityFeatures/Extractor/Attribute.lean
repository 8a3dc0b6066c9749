import EntityFeatures.Feature.Request
import EntityFeatures.Sentence.Basic

/-!
# Lexical features

An attribute of a word is a feature as it stands. `Attribute.requests` asks for the
feature of every word. The border of the sentence is marked too: the positions
outside, as far as the window reaches, have the feature of the empty key, which is
the window itself and needs no vocabulary. `borderEmissions` puts these marks on the
tokens. The nearest positions come first, and of two equally near the one before the
sentence.

A lemma may carry a note that tells to which class of terms it belongs: the
character behind the first mark `_;`. `termRequests` asks for the features of
these classes.
-/

namespace EntityFeatures

/-- The attributes that are features as they stand. -/
inductive Attribute where
  | form
  | lemmaId
  | rawLemma
  | tag
  deriving DecidableEq, Repr

/-- The text of an attribute of a word. -/
def Attribute.of : Attribute → Word → String
  | form, word => word.form
  | lemmaId, word => word.lemmaId
  | rawLemma, word => word.rawLemma
  | tag, word => word.tag

/-- The requests for every word of a sentence in turn, from its position and the word. -/
def requestsByWord (requestsOf : Int → Word → List Request) (words : List Word) : List Request :=
  words.zipIdx.flatMap fun (word, position) => requestsOf position word

/-- The requests for the attribute of every word. -/
def Attribute.requests (source : Attribute) (window : Window) (sentence : Sentence) :
    List Request :=
  requestsByWord (fun position word => [.around (source.of word) position window]) sentence.words

/-- What is emitted for the positions outside a sentence of `size` tokens. -/
def borderEmissions (window : Window) (size : Nat) : List Emission :=
  if size = 0 ∨ window = FeatureId.unknown then []
  else
    (List.range window.toNat).flatMap fun (distance : Nat) =>
      [.around window (-(distance + 1 : Int)) window,
        .around window (size + distance : Int) window]

/-- The character behind the first mark `_;` of a note, if there is one. -/
def termClass? : List Char → Option Char
  | '_' :: ';' :: term :: _ => some term
  | _ :: rest => termClass? rest
  | [] => none

/-- The requests for the class of terms of every word that has one. -/
def termRequests (window : Window) (sentence : Sentence) : List Request :=
  requestsByWord
    (fun position word =>
      match termClass? word.lemmaComments.toList with
      | some term => [.around (String.singleton term) position window]
      | none => [])
    sentence.words

end EntityFeatures

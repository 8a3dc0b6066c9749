import EntityFeatures.Feature.Request
import EntityFeatures.Sentence.Basic
import EntityFeatures.Text.Hexadecimal

/-!
# Labels of an earlier stage

The label that an earlier stage gave to a token is a feature of the tokens after
it, as far as the window reaches. The token itself is left out, since it is about
to be labelled again.

The key of a label is the number of the label and the number of the type with a
blank between them. A number is written in hexadecimal with the lowest digit
first, and zero as nothing at all.
-/

namespace EntityFeatures

namespace PreviousLabel

/-- The hexadecimal digits of a number, the lowest first; none for zero. -/
def lowDigitsFirst (number : Nat) : List Char :=
  if number = 0 then [] else hexDigit (number % 16) :: lowDigitsFirst (number / 16)
termination_by number
decreasing_by omega

/-- A signed number, the lowest digit first. -/
def signedDigits (number : Int32) : List Char :=
  let digits := lowDigitsFirst number.toInt.natAbs
  if number < 0 then '-' :: digits else digits

/-- The key of a label: its number and the number of its type, with a blank between them. -/
def key (previous : PreviousLabel) : String :=
  String.ofList (signedDigits previous.label ++ ' ' :: signedDigits previous.entity.toInt32)

/-- The requests for the labels that were given, each for the tokens behind its own. -/
def requests (window : Window) (sentence : Sentence) : List Request :=
  sentence.previous.zipIdx.flatMap fun (previous, position) =>
    if previous.isGiven then [.place previous.key position 1 window.toNat] else []

end PreviousLabel

end EntityFeatures

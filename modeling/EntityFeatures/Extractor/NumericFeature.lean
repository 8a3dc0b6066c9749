import EntityFeatures.Extractor.Attribute
import EntityFeatures.Text.Numeral

/-!
# Numbers that may be times and dates

A form that is a run of digits may be an hour, a minute, a day, a month or a year,
or several of them at once; the classifier has to decide from the context. Two
runs with a full stop or a colon between them may be a time of day. Numbers are
taken modulo `2 ^ 32`.
-/

namespace EntityFeatures

/-- What a form may be as a number. -/
inductive NumericFeature where
  | hour
  | minute
  | time
  | day
  | month
  | year
  deriving DecidableEq, Repr

namespace NumericFeature

/-- The key of a feature of numbers. -/
def key : NumericFeature → String
  | hour => "H"
  | minute => "M"
  | time => "t"
  | day => "d"
  | month => "m"
  | year => "y"

/-- The features in the order in which they are reserved. -/
def all : List NumericFeature :=
  [hour, minute, time, day, month, year]

/-- The features in the order in which they are emitted. -/
def emitted : List NumericFeature :=
  [hour, minute, day, month, year, time]

/-- The keys that are always there. -/
def keys : List String :=
  all.map key

/-- The number of 32 bits that a run of digits denotes; what is beyond is lost. -/
def wrappedValue (digits : List Char) : UInt32 :=
  digits.foldl (fun total digit => total * 10 + UInt32.ofNat (Numeral.digitValue digit)) 0

/-- The number at the front of a text, if there is a digit, and what follows the digits. -/
def leadingNumber (text : List Char) : Option UInt32 × List Char :=
  let digits := text.takeWhile Numeral.isDigit
  (if digits.isEmpty then none else some (wrappedValue digits), text.dropWhile Numeral.isDigit)

/-- Whether what follows the hours is a mark and the minutes. -/
def isMinutesPart : List Char → Bool
  | mark :: rest =>
      (mark == '.' || mark == ':') &&
        match leadingNumber rest with
        | (some minutes, []) => minutes < 60
        | _ => false
  | [] => false

/-- Whether a number, with what follows it in the form, may be understood in this way. -/
def fits (number : UInt32) (rest : List Char) : NumericFeature → Bool
  | hour => rest.isEmpty && number < 24
  | minute => rest.isEmpty && number < 60
  | day => rest.isEmpty && 1 ≤ number && number ≤ 31
  | month => rest.isEmpty && 1 ≤ number && number ≤ 12
  | year => rest.isEmpty && 1000 ≤ number && number ≤ 2200
  | time => number < 24 && isMinutesPart rest

/-- What a form may be, in the order of emission. -/
def of (form : String) : List NumericFeature :=
  match leadingNumber form.toList with
  | (some number, rest) => emitted.filter fun feature => feature.fits number rest
  | (none, _) => []

/-- The requests that make all keys known, and then those for the features of every form. -/
def requests (window : Window) (sentence : Sentence) : List Request :=
  keys.map .know ++
    requestsByWord
      (fun position word =>
        (of word.form).map fun feature => .around feature.key position window)
      sentence.words

end NumericFeature

end EntityFeatures

import Mathlib.Data.Set.Function
import Mathlib.Order.Interval.Set.Defs
import EntityFeatures.Proofs.Extractor.Configuration
import EntityFeatures.Proofs.Extractor.PhraseLines
import EntityFeatures.Proofs.Extractor.PhraseOutcome

/-!
# The table of phrases between two lines

While gazetteers are read, three things change together: the table gives a number to every
phrase that is new, the entries grow by one for it, and an entry that is there already may
learn that its phrase goes on or that it is complete in one more file. `PhraseReading.Tabulates`
says what they have in common whenever a line has been read. It is stated in terms of the
lines alone: the keys are the initial parts of lines, and what an entry holds is what can be
seen of its phrase in the lines.

The induction is over notes, of which a line makes one for each of its initial parts:
`PhraseReading.Reflects` holds after any of them. The lines that have been read are an initial
part of `PhraseFile.markedLines`. What remains is to translate the notes into words of lines,
and to see that the features of an entry are in order, because those of the files are.

The invariant has two limits. The table has 32 bits for the number of an entry, so its keys and
the entries are in bijection exactly as long as 32 bits can number them. And a file without any
phrase takes no block: the feature that is looked up for it is looked up again for the next
file, and belongs to the first of these files that has a phrase.
-/

namespace EntityFeatures

namespace PhraseNote

variable {notes : List PhraseNote} {phrase : String}

end PhraseNote

namespace PhraseReading

open PhraseTable PhraseFile

variable {notes : List PhraseNote} {marked : List (FeatureId × String)} {phrase : String}
  {reading : PhraseReading} {total : FeatureId}

/-- The number of the entry of a phrase. -/
def number (reading : PhraseReading) (phrase : String) : Nat :=
  (reading.phrases.getD phrase 0).toNat

end PhraseReading

namespace PhraseFile

open PhraseTable

end PhraseFile

namespace PhraseEntry

open PhraseTable

end PhraseEntry

namespace PhraseReading

open PhraseTable PhraseFile

variable {read : Nat → String → Prop} {owns : Nat → Prop} {base : Nat → FeatureId}
  {marked : List (FeatureId × String)}

section Files

variable {resources : Resources} {window : Window} {path : String}
  {earlier later paths : List String} {reading after : PhraseReading}

end Files

end PhraseReading

namespace Setup

open PhraseFile

variable {resources : Resources} {paths : List String} {setup after : Setup}

end Setup

end EntityFeatures

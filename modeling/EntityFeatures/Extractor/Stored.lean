import EntityFeatures.Extractor.Basic

/-!
# Extractors in a saved model

A saved extractor consists of its window, its table and what only its kind has. It
does not say of which kind it is, so the reader has to know that beforehand. The
extractor of containers has nothing to save and takes no bytes at all.

The table is written in the order of its values, and keys of one value in their
own order, so that equal extractors are saved as equal bytes.
-/

namespace EntityFeatures

open Model

namespace KeyTable

/-- A key and what it stands for. -/
def saveEntry (entry : String × UInt32) : Encoded := do
  let key ← encodeText entry.1
  let value ← encodeWord entry.2.toNat
  return key ++ value

/-- The table as fields of a saved model, in the order of `KeyTable.entries`. -/
def save (table : KeyTable) : Encoded :=
  encodeCounted saveEntry table.entries

/-- Inserts a saved key, which replaces an equal one. -/
def loadEntry : Reader KeyTable Unit := do
  let key ← Reader.text
  let value ← Reader.word
  Reader.update fun table => table.insert key value

/-- Replaces the table by a saved one. -/
def load : Reader KeyTable Unit := do
  Reader.update fun _ => ∅
  Reader.counted loadEntry

end KeyTable

/-- What only the kind has, as the fields of a saved model. -/
def Kind.save : Kind → Encoded
  | clusters table => table.save
  | gazetteers table => table.save
  | addresses types => types.save
  | containers | lemmaTerm | lexical _ | capitalization _ | numericValue | earlierLabel => .ok []

namespace Extractor

/-- The extractor as fields of a saved model; one that adds containers has none. -/
def save (extractor : Extractor) : Encoded :=
  match extractor.kind with
  | .containers => .ok []
  | kind => do
      let window ← encodeWord extractor.window.toNat
      let table ← extractor.table.save
      let rest ← kind.save
      return window ++ table ++ rest

/-- The extractor with another window. -/
def setWindow (window : Window) (extractor : Extractor) : Extractor :=
  { extractor with window }

/-- The extractor with another table. -/
def setTable (table : KeyTable) (extractor : Extractor) : Extractor :=
  { extractor with table }

/-- The extractor with another kind. -/
def setKind (kind : Kind) (extractor : Extractor) : Extractor :=
  { extractor with kind }

/-- Replaces what only the kind of the extractor has, which is given, by what was saved. -/
def loadKind : Kind → Reader Extractor Unit
  | .clusters clusters =>
      Reader.within (fun _ => clusters) (fun clusters => setKind (.clusters clusters))
        ClusterTable.load
  | .gazetteers entries =>
      Reader.within (fun _ => entries) (fun entries => setKind (.gazetteers entries))
        PhraseTable.load
  | .addresses types =>
      Reader.within (fun _ => types) (fun types => setKind (.addresses types)) AddressTypes.load
  | .containers | .lemmaTerm | .lexical _ | .capitalization _ | .numericValue | .earlierLabel =>
      return ()

/-- Replaces the window, the table and what only the kind has by what was saved. -/
def load : Reader Extractor Unit := do
  let (extractor, _) ← get
  match extractor.kind with
  | .containers => return ()
  | kind =>
      let window ← Reader.word
      Reader.update (setWindow window)
      Reader.within table setTable KeyTable.load
      loadKind kind

end Extractor

end EntityFeatures

import Mathlib.Data.List.Nodup
import EntityFeatures.Proofs.Extractor.Capacity
import EntityFeatures.Proofs.Extractor.Renewal
import EntityFeatures.Proofs.Text.ByteOrder

/-!
# Equal extractors are saved as equal bytes

A table has no order of its own: its entries come up in any order when they are written,
and they are sorted first by whatever method. `Extractor.MaySave` leaves both open. Only
the order is fixed in which they end up, by what a key stands for and then by the key.
Many keys may stand for the same, all forms of a cluster for instance, so it matters that
this is a strict order on the entries: no two of them can change places.

`Extractor.save_canonical` says that the bytes depend on the contents alone, and that an
extractor which has come about in any way is known from its bytes and its name.
-/

namespace EntityFeatures

open Model
open Model.Reader

namespace KeyTable

variable {table : KeyTable} {left right : String × UInt32} {listed sorted : List (String × UInt32)}

/-- The entries of a table, in any order in which they may come up. -/
structure Lists (table : KeyTable) (listed : List (String × UInt32)) : Prop where
  nodup : (listed.map Prod.fst).Nodup
  mem_iff : ∀ (key : String) (value : UInt32), (key, value) ∈ listed ↔ table[key]? = some value

/-- One entry is written before another: it has a smaller value, or a key whose bytes are smaller. -/
def entryLT (left right : String × UInt32) : Prop :=
  left.2 < right.2 ∨ left.2 = right.2 ∧ Utf8.encode left.1 < Utf8.encode right.1

theorem entryLE_iff :
    entryLE left right = true ↔ left.2 < right.2 ∨ left.2 = right.2 ∧ left.1 ≤ right.1 := by
  simp [entryLE]

theorem entryLE_total (left right : String × UInt32) :
    (entryLE left right || entryLE right left) = true := by
  rw [Bool.or_eq_true, entryLE_iff, entryLE_iff]
  rcases Nat.lt_trichotomy left.2.toNat right.2.toNat with less | same | more
  · exact Or.inl (Or.inl less)
  · have same := UInt32.toNat_inj.mp same
    rcases String.le_total left.1 right.1 with before | behind
    · exact Or.inl (Or.inr ⟨same, before⟩)
    · exact Or.inr (Or.inr ⟨same.symm, behind⟩)
  · exact Or.inr (Or.inl more)

theorem entryLE_trans (first second third : String × UInt32)
    (before : entryLE first second = true) (behind : entryLE second third = true) :
    entryLE first third = true := by
  rw [entryLE_iff] at before behind ⊢
  rcases before with less | ⟨same, before⟩
  · rcases behind with later | ⟨same, -⟩
    · exact Or.inl (UInt32.lt_trans less later)
    · exact Or.inl (same ▸ less)
  · rcases behind with less | ⟨again, behind⟩
    · exact Or.inl (same ▸ less)
    · exact Or.inr ⟨same.trans again, String.le_trans before behind⟩

theorem eq_of_entryLE (before : entryLE left right = true) (behind : entryLE right left = true) :
    left = right := by
  rw [entryLE_iff] at before behind
  rcases before with less | ⟨same, before⟩
  · rcases behind with more | ⟨same, -⟩
    · exact absurd more (UInt32.lt_asymm less)
    · exact absurd less (same ▸ UInt32.lt_irrefl _)
  · rcases behind with less | ⟨-, behind⟩
    · exact absurd less (same ▸ UInt32.lt_irrefl _)
    · exact Prod.ext (String.le_antisymm before behind) same

theorem entryLT_of_entryLE (before : entryLE left right = true) (differ : left.1 ≠ right.1) :
    entryLT left right := by
  rw [entryLE_iff] at before
  rcases before with less | ⟨same, before⟩
  · exact Or.inl less
  · refine Or.inr ⟨same, ?_⟩
    rw [Utf8.encode_lt_encode_iff]
    exact String.not_le.mp fun behind => differ (String.le_antisymm before behind)

theorem lists_entries (table : KeyTable) : table.Lists table.entries :=
  ⟨table.nodup_map_fst_entries, fun _ _ => mem_entries⟩

theorem pairwise_entries (table : KeyTable) :
    table.entries.Pairwise fun left right => entryLE left right = true :=
  List.pairwise_mergeSort entryLE_trans entryLE_total _

/-- No key is written twice, so each entry is strictly before those behind it. -/
theorem pairwise_entryLT_entries (table : KeyTable) : table.entries.Pairwise entryLT := by
  have distinct : table.entries.Pairwise fun left right => left.1 ≠ right.1 :=
    List.pairwise_map.mp table.nodup_map_fst_entries
  exact table.pairwise_entries.imp₂ (fun _ _ => entryLT_of_entryLE) distinct

theorem Lists.perm {other : List (String × UInt32)} (lists : table.Lists listed)
    (others : table.Lists other) : listed.Perm other := by
  have distinct := List.Nodup.of_map Prod.fst lists.nodup
  have otherDistinct := List.Nodup.of_map Prod.fst others.nodup
  rw [List.perm_ext_iff_of_nodup distinct otherDistinct]
  rintro ⟨key, value⟩
  rw [lists.mem_iff, others.mem_iff]

/-- Sorting the entries has one result, in whatever order they come up. -/
theorem Lists.eq_entries (lists : table.Lists listed) (same : sorted.Perm listed)
    (ordered : sorted.Pairwise fun left right => entryLE left right = true) :
    sorted = table.entries :=
  List.Perm.eq_of_pairwise (fun _ _ _ _ => eq_of_entryLE) ordered table.pairwise_entries
    (same.trans (lists.perm table.lists_entries))

end KeyTable

namespace Extractor

/-- What is written for an extractor when the entries of its table are given in this order. -/
def saveListed (extractor : Extractor) (entries : List (String × UInt32)) : Encoded :=
  match extractor.kind with
  | .containers => .ok []
  | kind => do
      let window ← encodeWord extractor.window.toNat
      let table ← encodeCounted KeyTable.saveEntry entries
      let rest ← kind.save
      return window ++ table ++ rest

theorem save_eq_saveListed (extractor : Extractor) :
    extractor.save = extractor.saveListed extractor.table.entries := by
  rcases extractor with ⟨window, table, kind⟩
  cases kind <;> rfl

/--
What may be written for an extractor: the entries of its table come up in some order, and are
sorted by some method.
-/
def MaySave (extractor : Extractor) (outcome : Encoded) : Prop :=
  ∃ listed sorted, extractor.table.Lists listed ∧ sorted.Perm listed ∧
    sorted.Pairwise (fun left right => KeyTable.entryLE left right = true) ∧
      outcome = extractor.saveListed sorted

theorem maySave_iff {extractor : Extractor} {outcome : Encoded} :
    extractor.MaySave outcome ↔ outcome = extractor.save := by
  rw [save_eq_saveListed]
  constructor
  · rintro ⟨listed, sorted, lists, same, ordered, rfl⟩
    rw [lists.eq_entries same ordered]
  · rintro rfl
    exact ⟨_, _, extractor.table.lists_entries, List.Perm.refl _,
      extractor.table.pairwise_entries, rfl⟩

theorem getElem?_eq_of_toList_eq {left right : Extractor}
    (listed : left.table.toList = right.table.toList) (key : String) :
    left.table[key]? = right.table[key]? := by
  apply Option.ext
  intro value
  rw [← Std.ExtTreeMap.mem_toList_iff_getElem?_eq_some,
    ← Std.ExtTreeMap.mem_toList_iff_getElem?_eq_some, listed]

theorem eq_of_same_contents {left right : Extractor} (kind_eq : left.kind = right.kind)
    (window_eq : left.window = right.window)
    (same : ∀ key : String, left.table[key]? = right.table[key]?) : left = right := by
  rcases left with ⟨window, table, kind⟩
  rcases right with ⟨_, other, _⟩
  cases kind_eq
  cases window_eq
  have table_eq : table = other := Std.ExtTreeMap.ext_getElem? fun {key} => same key
  rw [table_eq]

/-- What was written is read as one extractor only. -/
theorem eq_of_save_eq {left right : Extractor} {written : List UInt8} (leftHandled : left.Handled)
    (rightHandled : right.Handled) (name_eq : left.name = right.name)
    (leftSaved : left.save = .ok written) (rightSaved : right.save = .ok written) :
    left = right := by
  have leftRead := consumes_load leftHandled.isBlankIfContainers leftSaved []
  have rightRead := consumes_load rightHandled.isBlankIfContainers rightSaved []
  rw [name_eq, rightRead] at leftRead
  cases leftRead
  rfl

/-- The bytes of an extractor in order: the window, the table, and what only the kind has. -/
theorem save_eq_ok {extractor : Extractor} {written : List UInt8}
    (other : extractor.kind ≠ .containers) (saved : extractor.save = .ok written) :
    ∃ table own, encodeCounted KeyTable.saveEntry extractor.table.entries = .ok table ∧
      extractor.kind.save = .ok own ∧
      written = fourBytes extractor.window.toNat ++ table ++ own := by
  rw [save_of_ne_containers other] at saved
  rcases exists_of_bind_eq_ok saved with ⟨front, frontEncoded, saved⟩
  rcases exists_of_bind_eq_ok saved with ⟨table, tableEncoded, saved⟩
  rcases exists_of_bind_eq_ok saved with ⟨own, ownEncoded, saved⟩
  cases saved
  rw [encodeWord_toNat] at frontEncoded
  cases frontEncoded
  exact ⟨table, own, tableEncoded, ownEncoded, rfl⟩

/--
Extractors of the same contents are saved as the same bytes, in whatever order the entries of
their tables come up. Extractors of one name that have come about in any way and are saved as
the same bytes are equal. The keys are written once each, in strictly ascending order of value
and key.
-/
theorem save_canonical :
    (∀ extractor : Extractor, extractor.MaySave extractor.save) ∧
    (∀ (left right : Extractor) (leftSaved rightSaved : Encoded), left.kind = right.kind →
      left.window = right.window → (∀ key : String, left.table[key]? = right.table[key]?) →
      left.MaySave leftSaved → right.MaySave rightSaved → leftSaved = rightSaved) ∧
    (∀ (left right : Extractor) (written : List UInt8), left.Handled → right.Handled →
      left.name = right.name → left.MaySave (.ok written) → right.MaySave (.ok written) →
      left = right) ∧
    ∀ (extractor : Extractor) (written : List UInt8), extractor.kind ≠ .containers →
      extractor.MaySave (.ok written) →
      ∃ entries table own,
        written = fourBytes extractor.window.toNat ++ table ++ own ∧
        encodeCounted KeyTable.saveEntry entries = .ok table ∧
        extractor.kind.save = .ok own ∧
        (entries.map Prod.fst).Nodup ∧ entries.Pairwise KeyTable.entryLT ∧
        ∀ (key : String) (value : UInt32),
          (key, value) ∈ entries ↔ extractor.table[key]? = some value := by
  refine ⟨?_, ?_, ?_, ?_⟩
  · intro extractor
    exact maySave_iff.mpr rfl
  · intro left right leftSaved rightSaved kind_eq window_eq same leftMay rightMay
    rw [maySave_iff.mp leftMay, maySave_iff.mp rightMay,
      eq_of_same_contents kind_eq window_eq same]
  · intro left right written leftHandled rightHandled name_eq leftMay rightMay
    exact eq_of_save_eq leftHandled rightHandled name_eq (maySave_iff.mp leftMay).symm
      (maySave_iff.mp rightMay).symm
  · intro extractor written other may
    rcases save_eq_ok other (maySave_iff.mp may).symm with ⟨table, own, tableSaved, ownSaved, rfl⟩
    have lists := extractor.table.lists_entries
    exact ⟨_, table, own, rfl, tableSaved, ownSaved, lists.nodup,
      extractor.table.pairwise_entryLT_entries, lists.mem_iff⟩

/-- Two files that list the forms of one cluster in different order are saved alike. -/
theorem save_canonical_reversed_lines :
    ∃ (left right : Extractor) (written : List UInt8), left.Handled ∧ right.Handled ∧
      left.name = right.name ∧ left.kind = .clusters #[[6]] ∧ left.window = 1 ∧
      left.table.toList = [("a", 0), ("b", 0)] ∧
      left.MaySave (.ok written) ∧ right.MaySave (.ok written) ∧ left = right ∧
      ∃ entries table own, written = fourBytes 1 ++ table ++ own ∧
        encodeCounted KeyTable.saveEntry entries = .ok table ∧
        entries.Pairwise KeyTable.entryLT ∧ ("b", 0) ∈ entries := by
  let resources : Resources := fun path =>
    if path = "one" then some (Utf8.encode "0\ta\n0\tb") else some (Utf8.encode "0\tb\n0\ta")
  have evaluated (path : String) (known : path = "one" ∨ path = "other") :
      (reached? (Setup.configure resources 1 [path] ⟨ofName .brownClusters, ⟨[]⟩, 5⟩)).map
        (fun setup =>
          (setup.extractor.window, setup.extractor.table.toList, setup.extractor.kind)) =
        some (1, [("a", 0), ("b", 0)], .clusters #[[6]]) := by
    rcases known with rfl | rfl <;> decide +kernel
  rcases Handled.exists_of_configure (evaluated "one" (Or.inl rfl)) with
    ⟨left, leftHandled, leftWindow, leftList, leftKind⟩
  rcases Handled.exists_of_configure (evaluated "other" (Or.inr rfl)) with
    ⟨right, rightHandled, rightWindow, rightList, rightKind⟩
  have kind_eq := leftKind.trans rightKind.symm
  have fits : left.Fits := by
    refine ⟨KeyTable.fits_of_toList leftList (by decide) (by decide +kernel), ?_⟩
    rw [leftKind]
    exact ⟨by decide, by simp [UInt32.size]⟩
  have roomy : ¬left.kind.Overfull := by simp [Kind.Overfull, leftKind]
  have other : left.kind ≠ .containers := by
    rw [leftKind]
    exact Kind.noConfusion
  rcases (failsIff_save fits).written roomy with ⟨written, saved⟩
  rcases save_canonical with ⟨may, sameBytes, sameExtractor, layout⟩
  have equal := sameBytes left right _ _ kind_eq (leftWindow.trans rightWindow.symm)
    (getElem?_eq_of_toList_eq (leftList.trans rightList.symm)) (may left) (may right)
  have leftMay := may left
  have rightMay := may right
  rw [← equal] at rightMay
  rw [saved] at leftMay rightMay
  have named : left.name = right.name := congrArg Kind.name kind_eq
  rcases layout left written other leftMay with
    ⟨listed, table, own, parts, tableSaved, -, -, ordered, listedIff⟩
  rw [leftWindow] at parts
  refine ⟨left, right, written, leftHandled, rightHandled, named, leftKind, leftWindow, leftList,
    leftMay, rightMay, sameExtractor left right written leftHandled rightHandled named leftMay
    rightMay, listed, table, own, parts, tableSaved, ordered, ?_⟩
  rw [listedIff, ← Std.ExtTreeMap.mem_toList_iff_getElem?_eq_some, leftList]
  simp

end Extractor

end EntityFeatures

import EntityFeatures.Pipeline.Stored
import EntityFeatures.Proofs.Extractor.Renewal

/-!
# Nothing is left of an earlier use

Extractors and pipelines may be configured and loaded again and again, also after an attempt
that has failed half-way. `Pipeline.outcome_of_used` says that the outcome is always that of
a fresh one. A success leaves exactly the same state. A failure has the same reason and
leaves the types, the counter and the place in the data where a fresh one leaves them; only
what the extractor itself holds is then unknown.

For a pipeline there is nothing to assume about the receiver. Its counter and its extractors
are dropped before the first of them is read, and each of those begins as a fresh one.
-/

namespace EntityFeatures

open Model
open Model.Reader

namespace Pipeline

theorem couples_load : Reader.Couples (fun _ _ => True) Eq load load := by
  apply Reader.Couples.bind Reader.Couples.word
  intro total
  have restarted : Reader.Couples (fun _ _ => True) Eq (Reader.update (restart total))
      (Reader.update (restart total)) :=
    Reader.Couples.update fun _ _ _ => rfl
  apply restarted.bind
  intro _
  exact Reader.Couples.of_eq _

/--
An extractor that was used in any way is configured and loaded as a fresh one of its name, and
a pipeline is loaded as if it were another.
-/
theorem outcome_of_used :
    (∀ used : Extractor, used.Handled →
      (∀ (resources : Resources) (window : Int32) (arguments : List String) (types : Registry)
          (total : FeatureId),
        Matches Eq Setup.SameShared
          (Setup.configure resources window arguments ⟨used, types, total⟩)
          (Setup.configure resources window arguments ⟨.ofName used.name, types, total⟩)) ∧
      ∀ data : List UInt8,
        Matches Eq SamePlace (Extractor.load (used, data))
          (Extractor.load (.ofName used.name, data))) ∧
    ∀ (receiver other : Pipeline) (data : List UInt8),
      Matches Eq SamePlace (load (receiver, data)) (load (other, data)) := by
  refine ⟨?_, ?_⟩
  · intro used handled
    constructor
    · intro resources window arguments types total
      apply Setup.couples_configure
      exact ⟨used.kind.kin_ofName_name, rfl, rfl⟩
    · intro data
      exact Extractor.matches_load handled.isBlankIfContainers data
  · intro receiver other data
    have matched := couples_load receiver other data trivial
    exact matched.imp fun _ _ same => Prod.ext same.1 same.2

theorem outcome_of_used_broken_file :
    ∃ (resources : Resources) (used : Extractor) (after : Setup),
      used.Handled ∧ used.window = 1 ∧ used.table.size = 1 ∧ used.kind = .clusters #[[6]] ∧
        Setup.configure resources 0 ["good"] ⟨used, ⟨[]⟩, 9⟩ = .ok () after ∧
        after.extractor.kind = .clusters #[[9], [10]] ∧
        Setup.configure resources 0 ["good"] ⟨.ofName .brownClusters, ⟨[]⟩, 9⟩ = .ok () after ∧
        Matches Eq SamePlace (Extractor.load (used, [0, 0, 0, 0, 2]))
          (Extractor.load (.ofName .brownClusters, [0, 0, 0, 0, 2])) := by
  let resources : Resources := fun path =>
    if path = "good" then some (Utf8.encode "0\ta\n10\tb") else some (Utf8.encode "0\ta\n1")
  let attempt := Setup.configure resources 1 ["bad"] ⟨.ofName .brownClusters, ⟨[]⟩, 5⟩
  have handled : (finalState attempt).extractor.Handled :=
    .configured resources 1 ["bad"] ⟨[]⟩ 5 (.created .brownClusters)
  have isKind : (finalState attempt).extractor.kind = .clusters #[[6]] := by decide +kernel
  have named : (finalState attempt).extractor.name = .brownClusters := by
    rw [Extractor.name, isKind]
    rfl
  have evaluated : (reached? (Setup.configure resources 0 ["good"]
      ⟨.ofName .brownClusters, ⟨[]⟩, 9⟩)).map (fun after => after.extractor.kind) =
        some (.clusters #[[9], [10]]) := by
    decide +kernel
  rcases Option.map_eq_some_iff.mp evaluated with ⟨after, found, afterKind⟩
  have done := eq_ok_of_reached? found
  rcases outcome_of_used.1 _ handled with ⟨configured, loaded⟩
  rw [named] at configured loaded
  refine ⟨resources, _, after, handled, by decide +kernel, by decide +kernel, isKind, ?_,
    afterKind, done, loaded _⟩
  exact (configured resources 0 ["good"] ⟨[]⟩ 9).eq_ok done

end Pipeline

end EntityFeatures

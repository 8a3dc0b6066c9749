import EntityFeatures.Proofs.Model.Truncation
import EntityFeatures.Proofs.Pipeline.RoundTrip

/-!
# No part of a saved model is a model

A saved pipeline has counts of what follows, texts that may be empty, tables without
entries, and extractors of containers that take no bytes, so a part of it may well end
where a field ends. `Pipeline.runsShort_load_take` says that it is refused all the same,
and always for the same reason: the data end inside a field. The same holds of a saved
registry.

That nothing else can go wrong is a property of the readers alone, `Reader.Streams`, which
is followed here through everything that a model consists of. What was written comes in
only at the end, where reading all of it succeeds and leaves nothing.
-/

namespace EntityFeatures

open Model
open Model.Reader

namespace KeyTable

theorem streams_load : Streams load := by
  apply Streams.bind (Streams.update _)
  intro _
  apply Streams.counted
  apply Streams.bind Streams.text
  intro key
  apply Streams.bind Streams.word
  intro value
  exact Streams.update _

end KeyTable

namespace ClusterTable

theorem streams_load : Streams load := by
  apply Streams.bind (Streams.update _)
  intro _
  apply Streams.counted
  apply Streams.bind Streams.word
  intro count
  apply Streams.bind (Streams.words count.toNat)
  intro features
  exact Streams.update _

end ClusterTable

namespace PhraseTable

theorem streams_loadFlag : Streams loadFlag := by
  apply Streams.bind Streams.byte
  intro flag
  split
  · exact Streams.pure false
  · exact Streams.pure true
  · exact Streams.throw (.wrongFlag flag)

theorem streams_load : Streams load := by
  apply Streams.bind (Streams.update _)
  intro _
  apply Streams.counted
  apply Streams.bind streams_loadFlag
  intro goesOn
  apply Streams.bind Streams.byte
  intro count
  apply Streams.bind (Streams.words count.toNat)
  intro features
  exact Streams.update _

end PhraseTable

namespace AddressTypes

theorem streams_load : Streams load := by
  apply Streams.bind Streams.word
  intro web
  apply Streams.bind (Streams.update _)
  intro _
  apply Streams.bind Streams.word
  intro mail
  exact Streams.update _

end AddressTypes

namespace Extractor

theorem streams_loadKind (kind : Kind) : Streams (loadKind kind) := by
  cases kind with
  | clusters clusters => exact Streams.within ClusterTable.streams_load (fun _ => clusters) _
  | gazetteers entries => exact Streams.within PhraseTable.streams_load (fun _ => entries) _
  | addresses types => exact Streams.within AddressTypes.streams_load (fun _ => types) _
  | containers | lemmaTerm | lexical _ | capitalization _ | numericValue | earlierLabel =>
      exact Streams.pure ()

theorem streams_loadFields (kind : Kind) : Streams (loadFields kind) := by
  apply Streams.bind Streams.word
  intro window
  apply Streams.bind (Streams.update _)
  intro _
  apply Streams.bind (Streams.within KeyTable.streams_load table setTable)
  intro _
  exact streams_loadKind kind

theorem streams_load : Streams load := by
  intro extractor data
  by_cases isContainers : extractor.kind = .containers
  · right
    intro more
    rcases extractor with ⟨window, table, kind⟩
    cases isContainers
    rfl
  · simp only [load_of_ne_containers isContainers]
    exact streams_loadFields extractor.kind extractor data

end Extractor

namespace Registry

theorem foldl_push (names : List String) (registry : Registry) :
    names.foldl push registry = ⟨registry.names ++ names⟩ := by
  induction names generalizing registry with
  | nil => simp
  | cons name rest ih => simp [ih, push]

theorem consumes_load {registry : Registry} {written : List UInt8}
    (encoded : registry.save = .ok written) (before : Registry) :
    Consumes load written () before registry := by
  have each : ∀ name ∈ registry.names, ∀ (written : List UInt8) (target : Registry),
      encodeText name = .ok written →
        Consumes (Reader.text >>= fun name => Reader.update fun registry => registry.push name)
          written () target (target.push name) := by
    intro name _ written target encoded
    rw [← List.append_nil written]
    exact Consumes.bind (Consumes.text encoded target) (Consumes.update _ target)
  have names := Consumes.counted each encoded empty
  rw [foldl_push] at names
  exact Consumes.bind_nil (Consumes.update _ before) names

theorem streams_load : Streams load := by
  apply Streams.bind (Streams.update _)
  intro _
  apply Streams.counted
  apply Streams.bind Streams.text
  intro name
  exact Streams.update _

end Registry

namespace Pipeline

theorem streams_loadExtractor : Streams loadExtractor := by
  apply Streams.bind Streams.text
  intro name
  cases Extractor.create? name with
  | none => exact Streams.throw (.unknownExtractor name)
  | some fresh =>
      apply Streams.bind (Streams.build Extractor.streams_load fresh)
      intro extractor
      exact Streams.update _

theorem streams_load : Streams load := by
  apply Streams.bind Streams.word
  intro total
  apply Streams.bind (Streams.update _)
  intro _
  exact Streams.counted streams_loadExtractor

/--
Whatever part from the front is left of a saved pipeline or of a saved registry, reading it
fails because the data end inside a field, and whatever was to be replaced by it.
-/
theorem runsShort_load_take :
    (∀ (pipeline receiver : Pipeline) (written : List UInt8) (kept : Nat),
        Reachable pipeline → pipeline.save = .ok written → kept < written.length →
          RunsShort (load (receiver, written.take kept))) ∧
      ∀ (registry receiver : Registry) (written : List UInt8) (kept : Nat),
        registry.save = .ok written → kept < written.length →
          RunsShort (Registry.load (receiver, written.take kept)) := by
  constructor
  · intro pipeline receiver written kept reachable saved cut
    have consumes := consumes_load reachable.containersBlank saved receiver
    exact consumes.runsShort_take streams_load cut
  · intro registry receiver written kept saved cut
    exact (Registry.consumes_load saved receiver).runsShort_take Registry.streams_load cut

theorem runsShort_load_take_form_and_containers :
    ∃ pipeline written names, Reachable pipeline ∧
      pipeline.extractors.map Extractor.name = [.form, .czechAddContainers] ∧
      pipeline.save = .ok written ∧ written.length = 40 ∧
      RunsShort (load ({}, written.take 21)) ∧
      Registry.save ⟨["P", "pf"]⟩ = .ok names ∧ names.length = 9 ∧
      RunsShort (Registry.load (.empty, names.take 6)) := by
  have read : (ofTemplate (fun _ => none) (Utf8.encode "Form 1\nCzechAddContainers 0") ⟨[]⟩).1 =
      .ok ⟨[⟨1, ∅, .lexical .form⟩, ⟨0, ∅, .containers⟩], 1⟩ :=
    eq_ok_of_toOption (by decide +kernel)
  have reachable := Reachable.configured read
  have entries : KeyTable.entries ∅ = [] := by
    have list : (∅ : KeyTable).toList = [] := by decide +kernel
    rw [KeyTable.entries, list, List.mergeSort_nil]
  have texts : (Utf8.encode "Form").length = 4 ∧
      (Utf8.encode "CzechAddContainers").length = 18 := by
    decide +kernel
  have saved : ∃ written,
      save ⟨[⟨1, ∅, .lexical .form⟩, ⟨0, ∅, .containers⟩], 1⟩ = .ok written ∧
        written.length = 40 := by
    simp [save, encodeCounted, encodeEach, saveExtractor, Extractor.save, Extractor.name,
      Kind.name, ExtractorName.text, Kind.save, KeyTable.save, entries, encodeWord, encodeText,
      encodeLength, encodeByte, texts, fourBytes, bind, Except.bind, pure, Except.pure]
  have named : (Registry.save ⟨["P", "pf"]⟩).toOption.map List.length = some 9 := by
    decide +kernel
  rcases saved with ⟨written, saved, length⟩
  rcases Option.map_eq_some_iff.mp named with ⟨names, found, size⟩
  have listed := eq_ok_of_toOption found
  refine ⟨_, written, names, reachable, rfl, saved, length, ?_, listed, size, ?_⟩
  · exact runsShort_load_take.1 _ {} written 21 reachable saved (by omega)
  · exact runsShort_load_take.2 _ .empty names 6 listed (by omega)

end Pipeline

end EntityFeatures

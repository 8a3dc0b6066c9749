import EntityFeatures.Extractor.Scratch

/-!
# Keys do not depend on what was left over

The scratch text may hold anything when an extractor begins. `Extractor.run_annotateIn`
and `Extractor.run_learnIn` say that this makes no difference to what the extractor
finds or learns.

For the class of a term and the label of an earlier stage the text is emptied right
before it is written. The search for phrases is the one that needs an invariant: from
the second word on the text holds exactly the phrase, and before that it is not read.
What the search leaves in the text at its end is of no use to anybody.
-/

namespace EntityFeatures

namespace Scratch

/-- Items whose results do not depend on the scratch text have none that do together. -/
theorem run_collect {Item Result : Type} {step : Nat → Item → Scratch (List Result)}
    {result : Item → Nat → List Result}
    (independent : ∀ place item held, ((step place item).run held).1 = result item place)
    (place : Nat) (items : List Item) (held : String) :
    ((collect step place items).run held).1 =
      (items.zipIdx place).flatMap fun (item, place) => result item place := by
  induction items generalizing place held with
  | nil => rfl
  | cons item rest ih =>
      have here := independent place item held
      have later := ih (place + 1) ((step place item).run held).2
      calc
        _ = ((step place item).run held).1 ++
            ((collect step (place + 1) rest).run ((step place item).run held).2).1 := rfl
        _ = _ := by rw [here, later]; rfl

end Scratch

theorem run_termRequestIn (window : Window) (position : Nat) (word : Word) (held : String) :
    ((termRequestIn window position word).run held).1 =
      match termClass? word.lemmaComments.toList with
      | some term => [.around (String.singleton term) position window]
      | none => [] := by
  rw [termRequestIn]
  cases termClass? word.lemmaComments.toList with
  | none => rfl
  | some term =>
      change [Request.around ("" ++ String.singleton term) position window] = _
      rw [String.empty_append]

theorem PreviousLabel.run_requestIn (window : Window) (position : Nat) (previous : PreviousLabel)
    (held : String) :
    ((requestIn window position previous).run held).1 =
      if previous.isGiven then [.place previous.key position 1 window.toNat] else [] := by
  rw [requestIn]
  split
  next =>
    have written : "" ++ String.ofList (signedDigits previous.label) ++ " " ++
        String.ofList (signedDigits previous.entity.toInt32) = previous.key := by
      rw [key, ← String.toList_inj]
      simp
    rw [← written]
    rfl
  next => rfl

theorem Kind.run_requestsIn (kind : Kind) (window : Window) (sentence : Sentence)
    (held : String) : ((kind.requestsIn window sentence).run held).1 =
      kind.requests window sentence := by
  cases kind with
  | lemmaTerm => exact Scratch.run_collect (run_termRequestIn window) 0 sentence.words held
  | earlierLabel =>
      exact Scratch.run_collect (PreviousLabel.run_requestIn window) 0 sentence.previous held
  | clusters _ | containers | lexical _ | capitalization _ | gazetteers _ | numericValue
  | addresses _ => rfl

namespace PhraseTable

variable (entries : PhraseTable) (phrases : KeyTable) (window : Window)

theorem run_writeNext {start final : Nat} {first phrase held : String} (next : String)
    (begins : final = start → phrase = first) (holds : final ≠ start → held = phrase) :
    (writeNext start final first next).run held = pure ((), join phrase next) := by
  rw [writeNext]
  split
  next same =>
    rw [begins same, join, ← String.empty_append (s := first)]
    rfl
  next other =>
    rw [holds other]
    rfl

theorem run_followIn {start final : Nat} {first phrase : String} (ordered : start ≤ final)
    (begins : final = start → phrase = first) (entry : PhraseEntry) (rest : List String)
    {held : String} (holds : final ≠ start → held = phrase) :
    ((entries.followIn phrases window start first final entry rest).run held).1 =
      entries.follow phrases window start final phrase entry rest := by
  induction rest generalizing final phrase entry held with
  | nil => rfl
  | cons next rest ih =>
      rw [followIn, follow]
      cases goesOn : entry.goesOn with
      | false => exact (List.append_nil _).symm
      | true =>
          have written := run_writeNext next begins holds
          have notFirst : final + 1 = start → join phrase next = first := by omega
          have later := fun longer => ih (Nat.le_succ_of_le ordered) notFirst longer
            fun _ => Eq.refl (join phrase next)
          rw [if_pos rfl, if_pos rfl, StateT.run_bind, written]
          simp only [Scratch.read, pure_bind, StateT.run_bind, StateT.run_get]
          cases entries.find? phrases (join phrase next) with
          | none => exact (List.append_nil _).symm
          | some longer =>
              exact congrArg (entryEmissions window start final entry ++ ·) (later longer)

theorem run_emissionsAtIn (start : Nat) (first : String) (rest : List String) (held : String) :
    ((entries.emissionsAtIn phrases window start first rest).run held).1 =
      entries.emissionsAt phrases window start first rest := by
  rw [emissionsAtIn, emissionsAt]
  cases entries.find? phrases first with
  | none => rfl
  | some entry =>
      exact run_followIn entries phrases window (Nat.le_refl start) (fun _ => rfl) entry rest
        (fun other => absurd rfl other)

theorem run_emissionsOfIn (start : Nat) (lemmas : List String) (held : String) :
    ((entries.emissionsOfIn phrases window start lemmas).run held).1 =
      entries.emissionsOf phrases window start lemmas := by
  induction lemmas generalizing start held with
  | nil => rfl
  | cons first rest ih =>
      rw [emissionsOf, ← run_emissionsAtIn entries phrases window start first rest held,
        ← ih (start + 1) ((entries.emissionsAtIn phrases window start first rest).run held).2]
      rfl

end PhraseTable

namespace Extractor

variable (extractor : Extractor) (sentence : Sentence)

theorem run_directIn (held : String) :
    ((extractor.directIn sentence).run held).1 = extractor.direct sentence := by
  rcases extractor with ⟨window, table, kind⟩
  cases kind with
  | gazetteers entries => exact PhraseTable.run_emissionsOfIn entries table window 0 _ held
  | _ => rfl

theorem run_annotateIn (held : String) :
    ((extractor.annotateIn sentence).run held).1 = extractor.annotate sentence := by
  have asked := Kind.run_requestsIn extractor.kind extractor.window sentence held
  have found := extractor.run_directIn sentence ((extractor.requestsIn sentence).run held).2
  rw [annotate, emissions, requests, ← asked, ← found]
  rfl

theorem run_learnIn (total : FeatureId) (held : String) :
    ((extractor.learnIn total sentence).run held).1 = extractor.learn total sentence := by
  have asked := Kind.run_requestsIn extractor.kind extractor.window sentence held
  have found := extractor.run_directIn sentence ((extractor.requestsIn sentence).run held).2
  rw [learn, learnEmissions, requests, ← asked, ← found]
  rfl

end Extractor

end EntityFeatures

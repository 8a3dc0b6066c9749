import EntityFeatures.Proofs.Model.Preservation

/-!
# What fits into the fields of a model

Every count and every length of a saved model has a field of four bytes, but for one count
that has a single byte. A model whose sizes stay below the four bytes can therefore fail to
be saved for one reason only. `FailsIff` states such a reason for some fields: writing
them fails if and only if there is a cause, and then because a count is too large for its
one byte. Fields in a row fail if one of them does.

Reading gives nothing that would not fit, because all that is read comes out of such fields.
`Reader.Ensures` is what follows from a successful reading when something was known before
it. A repetition is followed with a count of the rounds, which bounds what it has filled.
-/

namespace EntityFeatures

namespace Model

/--
Writing fails if and only if there is a cause, and then because some count does not fit
into one byte.
-/
structure FailsIff (cause : Prop) (encoded : Encoded) : Prop where
  written : ¬cause → ∃ written, encoded = .ok written
  refused : cause → ∃ count : Nat, 255 < count ∧ encoded = .error (.tooWide count .one)

namespace FailsIff

variable {cause other : Prop} {encoded : Encoded}

theorem of_iff (fails : FailsIff cause encoded) (same : cause ↔ other) :
    FailsIff other encoded := by
  rwa [propext same] at fails

theorem ok (written : List UInt8) : FailsIff False (.ok written) :=
  ⟨fun _ => ⟨written, rfl⟩, fun never => never.elim⟩

theorem bind {next : List UInt8 → Encoded} (first : FailsIff cause encoded)
    (second : ∀ written, FailsIff other (next written)) :
    FailsIff (cause ∨ other) (encoded >>= next) := by
  by_cases holds : cause
  · rcases first.refused holds with ⟨count, large, failed⟩
    subst failed
    exact ⟨fun none => absurd (Or.inl holds) none, fun _ => ⟨count, large, rfl⟩⟩
  · rcases first.written holds with ⟨written, done⟩
    subst done
    exact (second written).of_iff (by simp [holds])

theorem word {value : Nat} (fits : value < UInt32.size) :
    FailsIff False (encodeWord (value : Int)) := by
  rw [UInt32.size] at fits
  have done : encodeWord (value : Int) = .ok (fourBytes value) := by
    rw [encodeWord, if_pos (by omega)]
    simp
  rw [done]
  exact ok _

theorem byte (count : Nat) : FailsIff (255 < count) (encodeByte (count : Int)) := by
  constructor
  · intro small
    refine ⟨[UInt8.ofNat count], ?_⟩
    rw [encodeByte, if_pos (by omega)]
    simp
  · intro large
    refine ⟨count, large, ?_⟩
    rw [encodeByte, if_neg (by omega)]

theorem text {content : String} (fits : (Utf8.encode content).length < UInt32.size) :
    FailsIff False (encodeText content) := by
  have length : FailsIff False (encodeLength (Utf8.encode content).length) := by
    rw [encodeLength]
    split
    next short =>
      apply (byte _).of_iff
      simp only [iff_false]
      omega
    next =>
      apply ((word fits).bind fun _ => ok _).of_iff
      simp
  apply (length.bind fun _ => ok _).of_iff
  simp

theorem each {Item : Type} {encode : Item → Encoded} {cause : Item → Prop} {items : List Item}
    (fails : ∀ item ∈ items, FailsIff (cause item) (encode item)) :
    FailsIff (∃ item ∈ items, cause item) (encodeEach encode items) := by
  induction items with
  | nil =>
      apply (ok []).of_iff
      simp
  | cons item rest ih =>
      have here := fails item (List.mem_cons_self ..)
      have later := ih fun other inRest => fails other (List.mem_cons_of_mem _ inRest)
      apply (here.bind fun _ => later.bind fun _ => ok _).of_iff
      simp

theorem counted {Item : Type} {encode : Item → Encoded} {cause : Item → Prop}
    {items : List Item} (fits : items.length < UInt32.size)
    (fails : ∀ item ∈ items, FailsIff (cause item) (encode item)) :
    FailsIff (∃ item ∈ items, cause item) (encodeCounted encode items) := by
  apply ((word fits).bind fun _ => (each fails).bind fun _ => ok _).of_iff
  simp

/-- Items that can all be written. -/
theorem counted_of_forall {Item : Type} {encode : Item → Encoded} {items : List Item}
    (fits : items.length < UInt32.size)
    (writable : ∀ item ∈ items, FailsIff False (encode item)) :
    FailsIff False (encodeCounted encode items) := by
  apply (counted fits writable).of_iff
  simp

theorem words {features : List UInt32} (fits : features.length < UInt32.size) :
    FailsIff False
      (encodeCounted (fun feature : UInt32 => encodeWord feature.toNat) features) :=
  counted_of_forall fits fun feature _ => word feature.toNat_lt_size

end FailsIff

namespace Reader

variable {Target Read Next : Type} {Before : Target → Prop}

/-- If the target has one property and reading succeeds, then what was read has the other. -/
def Ensures (Before : Target → Prop) (reader : Reader Target Read)
    (After : Read → Target → Prop) : Prop :=
  ∀ before read after, reader before = .ok read after → Before before.1 → After read after.1

/-- A reader that keeps a property ensures it. -/
theorem Keeps.ensures {reader : Reader Target Read} (keeps : Keeps Before reader) :
    Ensures Before reader fun _ => Before :=
  keeps

/-- So many items with a property have been appended to an empty array. -/
def Filled {Item : Type} (Good : Item → Prop) (rounds : Nat) (items : Array Item) : Prop :=
  items.size = rounds ∧ ∀ item ∈ items, Good item

theorem filled_empty {Item : Type} (Good : Item → Prop) : Filled Good 0 #[] :=
  ⟨rfl, by simp⟩

theorem Filled.push {Item : Type} {Good : Item → Prop} {rounds : Nat} {items : Array Item}
    {item : Item} (filled : Filled Good rounds items) (good : Good item) :
    Filled Good (rounds + 1) (items.push item) := by
  rcases filled with ⟨size, others⟩
  refine ⟨by rw [Array.size_push, size], ?_⟩
  intro other mem
  rcases Array.mem_push.mp mem with old | rfl
  · exact others other old
  · exact good

namespace Ensures

theorem pure {After : Read → Target → Prop} {read : Read}
    (holds : ∀ target, Before target → After read target) :
    Ensures Before (Pure.pure read) After := by
  intro before _ after done known
  cases done
  exact holds before.1 known

theorem throw {After : Read → Target → Prop} (fault : DecodeFault) :
    Ensures Before (MonadExcept.throw fault : Reader Target Read) After := by
  intro before read after done
  cases done

theorem update {After : Unit → Target → Prop} {change : Target → Target}
    (holds : ∀ target, Before target → After () (change target)) :
    Ensures Before (Reader.update change) After := by
  intro before _ after done known
  cases done
  exact holds before.1 known

theorem bind {Middle : Read → Target → Prop} {After : Next → Target → Prop}
    {reader : Reader Target Read} {next : Read → Reader Target Next}
    (first : Ensures Before reader Middle)
    (second : ∀ read, Ensures (Middle read) (next read) After) :
    Ensures Before (reader >>= next) After := by
  intro before last after done known
  rcases exists_of_step_bind_eq_ok done with ⟨read, middle, firstDone, secondDone⟩
  have between := first before read middle firstDone known
  exact second read middle last after secondDone between

theorem imp {After Later : Read → Target → Prop} {reader : Reader Target Read}
    (ensures : Ensures Before reader After)
    (weaker : ∀ read target, After read target → Later read target) :
    Ensures Before reader Later := by
  intro before read after done known
  exact weaker _ _ (ensures before read after done known)

theorem byte : Ensures Before Reader.byte fun _ => Before :=
  Keeps.byte.ensures

theorem word : Ensures Before Reader.word fun _ => Before :=
  Keeps.word.ensures

theorem textLength :
    Ensures Before Reader.textLength fun length target =>
      length < UInt32.size ∧ Before target := by
  refine bind byte fun short => ?_
  by_cases long : short = 255
  · rw [if_pos long]
    refine bind word fun length => ?_
    exact pure fun _ known => ⟨length.toNat_lt_size, known⟩
  · rw [if_neg long]
    have bound : short.toNat < UInt32.size := Nat.lt_trans short.toNat_lt (by decide)
    exact pure fun _ known => ⟨bound, known⟩

theorem bytes (length : Nat) :
    Ensures Before (Reader.bytes length) fun data target =>
      data.length = length ∧ Before target := by
  intro before read after done known
  rcases before with ⟨target, data⟩
  simp only [Reader.bytes] at done
  split at done
  next taken =>
    cases done
    exact ⟨taken, known⟩
  next => cases done

theorem text :
    Ensures Before Reader.text fun content target =>
      (Utf8.encode content).length < UInt32.size ∧ Before target := by
  refine bind textLength fun length => ?_
  refine bind (bytes length) fun data => ?_
  cases decoded : Utf8.decode data with
  | error fault => exact throw (.notText fault)
  | ok content =>
      apply pure
      rintro target ⟨taken, fits, known⟩
      rw [Utf8.encode_of_decode_ok decoded, taken]
      exact ⟨fits, known⟩

theorem words (count : Nat) :
    Ensures Before (Reader.words count) fun features target =>
      features.length = count ∧ Before target := by
  induction count with
  | zero => exact pure fun _ known => ⟨rfl, known⟩
  | succ count ih =>
      refine bind word fun first => ?_
      refine bind ih fun rest => ?_
      apply pure
      rintro target ⟨length, known⟩
      exact ⟨by rw [List.length_cons, length], known⟩

section Repetition

variable {Holds : Nat → Target → Prop} {reader : Reader Target Unit}

theorem times (each : ∀ round, Ensures (Holds round) reader fun _ => Holds (round + 1))
    (start count : Nat) :
    Ensures (Holds start) (Reader.times count reader) fun _ => Holds (start + count) := by
  induction count generalizing start with
  | zero => exact pure fun _ known => known
  | succ count ih =>
      refine bind (each start) fun _ => ?_
      have later := ih (start + 1)
      rwa [Nat.add_right_comm, Nat.add_assoc] at later

/-- A field of four bytes bounds the number of rounds. -/
theorem counted (each : ∀ round, Ensures (Holds round) reader fun _ => Holds (round + 1)) :
    Ensures (Holds 0) (Reader.counted reader) fun _ target =>
      ∃ rounds < UInt32.size, Holds rounds target := by
  refine bind word fun count => ?_
  intro before read after done known
  have filled := times each 0 count.toNat before read after done known
  rw [Nat.zero_add] at filled
  exact ⟨count.toNat, count.toNat_lt_size, filled⟩

/-- What is known of the empty target, and kept by every round, holds when all have been read. -/
theorem restart {change : Target → Target} (start : ∀ target, Holds 0 (change target))
    (each : ∀ round, Ensures (Holds round) reader fun _ => Holds (round + 1)) :
    Ensures (fun _ => True) (Reader.update change >>= fun _ => Reader.counted reader)
      fun _ target => ∃ rounds < UInt32.size, Holds rounds target := by
  have begun : Ensures (fun _ => True) (Reader.update change) fun _ => Holds 0 :=
    update fun target _ => start target
  exact bind begun fun _ => counted each

end Repetition

theorem within {Part : Type} (get : Target → Part) (put : Part → Target → Target)
    {reader : Reader Part Unit} {PartBefore : Part → Prop} {PartAfter : Unit → Part → Prop}
    {After : Unit → Target → Prop} (inner : Ensures PartBefore reader PartAfter)
    (enters : ∀ target, Before target → PartBefore (get target))
    (leaves : ∀ part target, Before target → PartAfter () part → After () (put part target)) :
    Ensures Before (Reader.within get put reader) After := by
  intro before _ after done known
  rcases before with ⟨target, data⟩
  simp only [Reader.within] at done
  split at done
  next part rest read =>
    cases done
    exact leaves part target known (inner _ _ _ read (enters target known))
  next => cases done

theorem build {Part : Type} {fresh : Part} {reader : Reader Part Unit}
    {PartBefore : Part → Prop} {PartAfter : Unit → Part → Prop}
    (inner : Ensures PartBefore reader PartAfter) (enters : PartBefore fresh) :
    Ensures Before (Reader.build fresh reader) fun part target =>
      PartAfter () part ∧ Before target := by
  intro before part after done known
  rcases build_eq_ok done with ⟨same, read⟩
  rw [same]
  exact ⟨inner _ _ _ read enters, known⟩

end Ensures

end Reader

end Model

end EntityFeatures

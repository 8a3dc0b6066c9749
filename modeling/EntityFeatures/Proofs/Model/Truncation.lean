import EntityFeatures.Proofs.Model.Consumption

/-!
# Readers that notice where the data stop

A saved model has no mark at its end, so nothing but the fields themselves can tell that
bytes are missing. On a part of the data a reader could go wrong in two ways: it could be
content with what is there, or it could take the cut for damage of another kind.
`Reader.Streams` excludes both. On any data the reader either finds that they end inside a
field, or it has not looked at what follows and does the same whatever follows.

Single fields are read in this way, and sequences, repetitions and parts inherit it. With
`Reader.Consumes` it follows that a reader which takes exactly some written bytes runs short
on every proper part of them from the front: had it succeeded there, or found other damage,
it would have done the same on the whole.
-/

namespace EntityFeatures

namespace Model

/-- The data end inside a field. -/
def DecodeFault.IsShort : DecodeFault → Prop
  | endInNumber _ | endInText _ => True
  | notText _ | unknownExtractor _ | wrongFlag _ => False

namespace Reader

variable {Target Read Next : Type}

/-- Reading has failed, and for no other reason than that the data end too early. -/
def RunsShort (outcome : EStateM.Result DecodeFault (Target × List UInt8) Read) : Prop :=
  ∃ fault state, outcome = .error fault state ∧ fault.IsShort

/-- The outcome when more data follow that are not looked at. -/
def followedBy (more : List UInt8) :
    EStateM.Result DecodeFault (Target × List UInt8) Read →
      EStateM.Result DecodeFault (Target × List UInt8) Read
  | .ok read (target, rest) => .ok read (target, rest ++ more)
  | .error fault (target, rest) => .error fault (target, rest ++ more)

/-- On any data the reader runs short, or what follows the data makes no difference. -/
def Streams (reader : Reader Target Read) : Prop :=
  ∀ (target : Target) (data : List UInt8), RunsShort (reader (target, data)) ∨
    ∀ more, reader (target, data ++ more) = followedBy more (reader (target, data))

namespace Streams

theorem pure (read : Read) : Streams (Pure.pure read : Reader Target Read) := by
  intro target data
  right
  intro more
  rfl

theorem throw (fault : DecodeFault) :
    Streams (MonadExcept.throw fault : Reader Target Read) := by
  intro target data
  right
  intro more
  rfl

theorem update (change : Target → Target) : Streams (Reader.update change) := by
  intro target data
  right
  intro more
  rfl

theorem bind {reader : Reader Target Read} {next : Read → Reader Target Next}
    (first : Streams reader) (second : ∀ read, Streams (next read)) :
    Streams (reader >>= next) := by
  intro target data
  rcases first target data with ⟨fault, state, failed, short⟩ | same
  · exact Or.inl ⟨fault, state, bind_of_error failed next, short⟩
  · cases outcome : reader (target, data) with
    | error fault state =>
        right
        intro more
        have longer := same more
        rw [outcome, followedBy] at longer
        rw [bind_of_error longer, bind_of_error outcome, followedBy]
    | ok read state =>
        rcases state with ⟨middle, rest⟩
        rw [bind_of_ok outcome]
        rcases second read middle rest with short | later
        · exact Or.inl short
        · right
          intro more
          have longer := same more
          rw [outcome, followedBy] at longer
          rw [bind_of_ok longer]
          exact later more

theorem byte : Streams (Reader.byte : Reader Target UInt8) := by
  intro target data
  rcases data with _ | ⟨first, rest⟩
  · exact Or.inl ⟨_, _, rfl, trivial⟩
  · right
    intro more
    rfl

theorem word : Streams (Reader.word : Reader Target UInt32) := by
  intro target data
  rcases data with _ | ⟨first, _ | ⟨second, _ | ⟨third, _ | ⟨fourth, rest⟩⟩⟩⟩
  · exact Or.inl ⟨_, _, rfl, trivial⟩
  · exact Or.inl ⟨_, _, rfl, trivial⟩
  · exact Or.inl ⟨_, _, rfl, trivial⟩
  · exact Or.inl ⟨_, _, rfl, trivial⟩
  · right
    intro more
    rfl

theorem bytes (length : Nat) : Streams (Reader.bytes length : Reader Target (List UInt8)) := by
  intro target data
  by_cases enough : length ≤ data.length
  · right
    intro more
    have taken : (data.take length).length = length := by simp [enough]
    have same : (data ++ more).take length = data.take length :=
      List.take_append_of_le_length enough
    simp only [Reader.bytes, same, taken, if_pos, followedBy, List.drop_append_of_le_length enough]
  · left
    have fewer : (data.take length).length ≠ length := by simp; omega
    refine ⟨.endInText length, (target, data), ?_, trivial⟩
    simp only [Reader.bytes, if_neg fewer]

theorem textLength : Streams (Reader.textLength : Reader Target Nat) := by
  apply bind byte
  intro short
  by_cases long : short = 255
  · rw [if_pos long]
    apply bind word
    intro length
    exact pure length.toNat
  · rw [if_neg long]
    exact pure short.toNat

/-- Bytes that are no text are refused only once they are all there. -/
theorem text : Streams (Reader.text : Reader Target String) := by
  apply bind textLength
  intro length
  apply bind (bytes length)
  intro data
  cases Utf8.decode data with
  | ok content => exact pure content
  | error fault => exact throw (.notText fault)

theorem words (count : Nat) : Streams (Reader.words count : Reader Target (List UInt32)) := by
  induction count with
  | zero => exact pure []
  | succ count ih =>
      apply bind word
      intro first
      apply bind ih
      intro rest
      exact pure (first :: rest)

theorem times {reader : Reader Target Unit} (each : Streams reader) (count : Nat) :
    Streams (Reader.times count reader) := by
  induction count with
  | zero => exact pure ()
  | succ count ih => exact bind each fun _ => ih

theorem counted {reader : Reader Target Unit} (each : Streams reader) :
    Streams (Reader.counted reader) :=
  bind word fun count => times each count.toNat

theorem within {Part : Type} {reader : Reader Part Unit} (inner : Streams reader)
    (get : Target → Part) (put : Part → Target → Target) :
    Streams (Reader.within get put reader) := by
  intro target data
  rcases inner (get target) data with ⟨fault, ⟨part, rest⟩, failed, short⟩ | same
  · left
    refine ⟨fault, (put part target, rest), ?_, short⟩
    simp only [Reader.within, failed]
  · right
    intro more
    simp only [Reader.within, same more]
    cases reader (get target, data) <;> rfl

theorem build {Part : Type} {reader : Reader Part Unit} (inner : Streams reader) (fresh : Part) :
    Streams (Reader.build fresh reader : Reader Target Part) := by
  intro target data
  rcases inner fresh data with ⟨fault, ⟨part, rest⟩, failed, short⟩ | same
  · left
    refine ⟨fault, (target, rest), ?_, short⟩
    simp only [Reader.build, failed]
  · right
    intro more
    simp only [Reader.build, same more]
    cases reader (fresh, data) <;> rfl

end Streams

/-- Of bytes that are all taken, no proper part from the front is enough. -/
theorem Consumes.runsShort_take {reader : Reader Target Read} {written : List UInt8}
    {read : Read} {before after : Target} (consumes : Consumes reader written read before after)
    (streams : Streams reader) {kept : Nat} (cut : kept < written.length) :
    RunsShort (reader (before, written.take kept)) := by
  rcases streams before (written.take kept) with short | same
  · exact short
  · have whole := consumes []
    have longer := same (written.drop kept)
    rw [List.take_append_drop] at longer
    rw [List.append_nil, longer] at whole
    cases outcome : reader (before, written.take kept) with
    | error fault state =>
        rw [outcome] at whole
        cases whole
    | ok other state =>
        rcases state with ⟨target, rest⟩
        rw [outcome, followedBy] at whole
        simp at whole
        omega

end Reader

end Model

end EntityFeatures

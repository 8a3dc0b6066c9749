import EntityFeatures.Model.Reader

/-!
# Readers that fill less

A target may hold more than another one, and then there are two readers for the same data.
If every change of the larger target is seen in the smaller one, the readers have the same
outcomes in all cases: they stop at the same place, with the same result or for the same
reason, and the one target is what is seen of the other. `Reader.Mirrors` is this relation.
-/

namespace EntityFeatures

namespace Model

namespace Reader

variable {Target Image Read Next : Type} {look : Target → Image}

/-- What is seen of an outcome. -/
def outcomeSeen (look : Target → Image) :
    EStateM.Result DecodeFault (Target × List UInt8) Read →
      EStateM.Result DecodeFault (Image × List UInt8) Read
  | .ok read (target, rest) => .ok read (look target, rest)
  | .error fault (target, rest) => .error fault (look target, rest)

theorem exists_of_outcomeSeen_eq_ok
    {outcome : EStateM.Result DecodeFault (Target × List UInt8) Read} {read : Read} {image : Image}
    {rest : List UInt8} (seen : outcomeSeen look outcome = .ok read (image, rest)) :
    ∃ target, outcome = .ok read (target, rest) ∧ look target = image := by
  cases outcome with
  | error fault state => cases seen
  | ok _ state =>
      cases seen
      exact ⟨state.1, rfl, rfl⟩

/-- What one reader does is what is seen of the other. -/
def Mirrors (look : Target → Image) (image : Reader Image Read) (reader : Reader Target Read) :
    Prop :=
  ∀ target data, image (look target, data) = outcomeSeen look (reader (target, data))

namespace Mirrors

/-- If the one reader succeeds, so does the other. -/
theorem exists_of_eq_ok {image : Reader Image Read} {reader : Reader Target Read}
    (mirrors : Mirrors look image reader) {target : Target} {data rest : List UInt8} {read : Read}
    {after : Image} (done : image (look target, data) = .ok read (after, rest)) :
    ∃ filled, reader (target, data) = .ok read (filled, rest) ∧ look filled = after := by
  rw [mirrors target data] at done
  exact exists_of_outcomeSeen_eq_ok done

theorem pure (read : Read) :
    Mirrors look (Pure.pure read : Reader Image Read) (Pure.pure read) :=
  fun _ _ => rfl

theorem throw (fault : DecodeFault) :
    Mirrors look (MonadExcept.throw fault : Reader Image Read) (MonadExcept.throw fault) :=
  fun _ _ => rfl

theorem update {change : Target → Target} {imageChange : Image → Image}
    (seen : ∀ target, look (change target) = imageChange (look target)) :
    Mirrors look (Reader.update imageChange) (Reader.update change) := by
  intro target data
  simp only [Reader.update, outcomeSeen, seen]

theorem bind {image : Reader Image Read} {reader : Reader Target Read}
    {imageNext : Read → Reader Image Next} {next : Read → Reader Target Next}
    (first : Mirrors look image reader)
    (second : ∀ read, Mirrors look (imageNext read) (next read)) :
    Mirrors look (image >>= imageNext) (reader >>= next) := by
  intro target data
  simp only [Bind.bind, EStateM.bind, first target data]
  cases reader (target, data) with
  | ok read state => exact second read state.1 state.2
  | error fault state => rfl

theorem byte : Mirrors look Reader.byte Reader.byte := by
  intro target data
  cases data <;> rfl

theorem word : Mirrors look Reader.word Reader.word := by
  intro target data
  rcases data with _ | ⟨first, _ | ⟨second, _ | ⟨third, _ | ⟨fourth, rest⟩⟩⟩⟩ <;> rfl

theorem bytes (length : Nat) : Mirrors look (Reader.bytes length) (Reader.bytes length) := by
  intro target data
  simp only [Reader.bytes]
  split <;> rfl

theorem textLength : Mirrors look Reader.textLength Reader.textLength := by
  apply bind byte
  intro short
  split
  · exact bind word fun long => pure long.toNat
  · exact pure short.toNat

theorem text : Mirrors look Reader.text Reader.text := by
  apply bind textLength
  intro length
  apply bind (bytes length)
  intro data
  split
  next content _ => exact pure content
  next fault _ => exact throw (.notText fault)

theorem times {image : Reader Image Unit} {reader : Reader Target Unit}
    (each : Mirrors look image reader) (count : Nat) :
    Mirrors look (Reader.times count image) (Reader.times count reader) := by
  induction count with
  | zero => exact pure ()
  | succ count ih => exact bind each fun _ => ih

theorem counted {image : Reader Image Unit} {reader : Reader Target Unit}
    (each : Mirrors look image reader) :
    Mirrors look (Reader.counted image) (Reader.counted reader) :=
  bind word fun count => times each count.toNat

end Mirrors

end Reader

end Model

end EntityFeatures

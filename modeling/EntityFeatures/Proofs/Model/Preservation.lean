import EntityFeatures.Model.Reader
import EntityFeatures.Proofs.Steps

/-!
# What reading keeps

`Reader.Keeps` says of a reader that a property of its target is not lost when it
succeeds, whatever the data are. The fields that do not depend on a target keep every
property, since they leave the target alone; a sequence or a repetition keeps what
its parts keep.
-/

namespace EntityFeatures

namespace Model

namespace Reader

variable {Target Read Next : Type} {Holds : Target → Prop}

/-- A target that has the property still has it after reading. -/
def Keeps (Holds : Target → Prop) (reader : Reader Target Read) : Prop :=
  ∀ before read after, reader before = .ok read after → Holds before.1 → Holds after.1

namespace Keeps

theorem pure (read : Read) : Keeps Holds (Pure.pure read) := by
  intro before _ after done holds
  cases done
  exact holds

theorem throw (fault : DecodeFault) : Keeps Holds (MonadExcept.throw fault : Reader Target Read) := by
  intro before read after done holds
  cases done

theorem update {change : Target → Target} (keeps : ∀ target, Holds target → Holds (change target)) :
    Keeps Holds (Reader.update change) := by
  intro before _ after done holds
  cases done
  exact keeps before.1 holds

theorem bind {reader : Reader Target Read} {next : Read → Reader Target Next}
    (first : Keeps Holds reader) (second : ∀ read, Keeps Holds (next read)) :
    Keeps Holds (reader >>= next) := by
  intro before last after done holds
  rcases exists_of_step_bind_eq_ok done with ⟨read, middle, firstDone, secondDone⟩
  have between := first before read middle firstDone holds
  exact second read middle last after secondDone between

theorem byte : Keeps Holds (Reader.byte) := by
  intro before read after done holds
  rcases before with ⟨target, _ | ⟨first, rest⟩⟩
  · cases done
  · cases done
    exact holds

theorem word : Keeps Holds (Reader.word) := by
  intro before read after done holds
  rcases before with ⟨target, _ | ⟨first, _ | ⟨second, _ | ⟨third, _ | ⟨fourth, rest⟩⟩⟩⟩⟩
  · cases done
  · cases done
  · cases done
  · cases done
  · cases done
    exact holds

theorem bytes (length : Nat) : Keeps Holds (Reader.bytes length) := by
  intro before read after done holds
  rcases before with ⟨target, data⟩
  simp only [Reader.bytes] at done
  split at done
  · cases done
    exact holds
  · cases done

theorem textLength : Keeps Holds (Reader.textLength) := by
  refine bind byte fun short => ?_
  by_cases long : short = 255
  · rw [if_pos long]
    exact bind word fun _ => pure _
  · rw [if_neg long]
    exact pure _

theorem text : Keeps Holds (Reader.text) := by
  refine bind textLength fun length => bind (bytes length) fun data => ?_
  cases Utf8.decode data with
  | ok content => exact pure content
  | error fault => exact throw (.notText fault)

theorem times {reader : Reader Target Unit} (each : Keeps Holds reader) (count : Nat) :
    Keeps Holds (Reader.times count reader) := by
  induction count with
  | zero => exact pure ()
  | succ count ih => exact bind each fun _ => ih

theorem counted {reader : Reader Target Unit} (each : Keeps Holds reader) :
    Keeps Holds (Reader.counted reader) :=
  bind word fun count => times each count.toNat

theorem within {Part : Type} (get : Target → Part) (put : Part → Target → Target)
    (reader : Reader Part Unit) (keeps : ∀ part target, Holds target → Holds (put part target)) :
    Keeps Holds (Reader.within get put reader) := by
  intro before _ after done holds
  rcases before with ⟨target, data⟩
  simp only [Reader.within] at done
  split at done
  next part rest _ =>
    cases done
    exact keeps part target holds
  next => cases done

end Keeps

/-- What is built is what its reader makes of the fresh target; the target is left alone. -/
theorem build_eq_ok {Part : Type} {fresh part : Part} {reader : Reader Part Unit}
    {before after : Target × List UInt8} (done : build fresh reader before = .ok part after) :
    after.1 = before.1 ∧ reader (fresh, before.2) = .ok () (part, after.2) := by
  simp only [build] at done
  split at done
  next built rest inner =>
    cases done
    exact ⟨rfl, inner⟩
  next => cases done

end Reader

end Model

end EntityFeatures

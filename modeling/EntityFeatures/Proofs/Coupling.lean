import EntityFeatures.Model.Reader
import EntityFeatures.Proofs.Steps

/-!
# Steps that are taken from two states

A step that may fail leaves a state behind in any case. To say that an earlier state has no
influence, one step is taken from two states and the outcomes are compared: `Matches` says
that both results are the same or both steps fail for the same reason, and `Couples` that
this is so for all states that are related in some way. Relations between the states are
carried through a sequence of steps like assertions. What is left after a success and what
is left after an error may be related differently, since an error may come before the step
has replaced all that was there.

For readers the states are a target and the data. `Reader.Couples` leaves the data out: both
readers get the same data and stop at the same place, also when they fail.

`Preserves` is about one state only, and again about errors as well as results.
-/

namespace EntityFeatures

variable {Fault State Result Next : Type}

/-- The state that a step leaves, whether or not it has failed. -/
def finalState : EStateM.Result Fault State Result → State
  | .ok _ state => state
  | .error _ state => state

/-- A property of states that the step does not lose, not even when it fails. -/
def Preserves (Holds : State → Prop) (step : EStateM Fault State Result) : Prop :=
  ∀ before, Holds before → Holds (finalState (step before))

theorem Preserves.bind {Holds : State → Prop} {step : EStateM Fault State Result}
    {next : Result → EStateM Fault State Next} (first : Preserves Holds step)
    (second : ∀ result, Preserves Holds (next result)) : Preserves Holds (step >>= next) := by
  intro before holds
  have between := first before holds
  simp only [Bind.bind, EStateM.bind]
  cases outcome : step before with
  | ok result middle =>
      rw [outcome] at between
      exact second result middle between
  | error fault middle =>
      rw [outcome] at between
      exact between

/--
Both results are the same, or both steps fail for the same reason; the states that they leave
are related in the one way or in the other.
-/
inductive Matches (After Failed : State → State → Prop) :
    EStateM.Result Fault State Result → EStateM.Result Fault State Result → Prop
  | ok {result : Result} {left right : State} :
      After left right → Matches After Failed (.ok result left) (.ok result right)
  | error {fault : Fault} {left right : State} :
      Failed left right → Matches After Failed (.error fault left) (.error fault right)

/-- From states that are related the two steps have matching outcomes. -/
def Couples (Before After Failed : State → State → Prop)
    (left right : EStateM Fault State Result) : Prop :=
  ∀ first second, Before first second → Matches After Failed (left first) (right second)

section Rules

variable {Before Middle After Failed : State → State → Prop}

theorem Matches.of_eq {outcome : EStateM.Result Fault State Result}
    (reflexive : ∀ state, Failed state state) : Matches Eq Failed outcome outcome := by
  cases outcome with
  | ok result state => exact .ok rfl
  | error fault state => exact .error (reflexive state)

theorem Matches.eq_ok {left right : EStateM.Result Fault State Result} {result : Result}
    {after : State} (matched : Matches Eq Failed left right) (done : right = .ok result after) :
    left = .ok result after := by
  cases matched with
  | ok same =>
      cases same
      exact done
  | error failed => cases done

theorem Matches.imp {left right : EStateM.Result Fault State Result}
    (matched : Matches Middle Failed left right)
    (stronger : ∀ left right, Middle left right → After left right) :
    Matches After Failed left right := by
  cases matched with
  | ok between => exact .ok (stronger _ _ between)
  | error failed => exact .error failed

theorem Couples.bind {left right : EStateM Fault State Result}
    {leftNext rightNext : Result → EStateM Fault State Next}
    (first : Couples Before Middle Failed left right)
    (second : ∀ result, Couples Middle After Failed (leftNext result) (rightNext result)) :
    Couples Before After Failed (left >>= leftNext) (right >>= rightNext) := by
  intro one other related
  simp only [Bind.bind, EStateM.bind]
  have matched := first one other related
  generalize left one = leftOutcome, right other = rightOutcome at matched
  cases matched with
  | ok between => exact second _ _ _ between
  | error failed => exact .error failed

end Rules

namespace Model

namespace Reader

variable {Target Read Next : Type} {Before Middle After : Target → Target → Prop}

section Preserving

variable {Holds : Target → Prop}

theorem preserves_word : Preserves (fun state => Holds state.1) (word : Reader Target UInt32) := by
  rintro ⟨target, data⟩ holds
  rcases data with _ | ⟨first, _ | ⟨second, _ | ⟨third, _ | ⟨fourth, rest⟩⟩⟩⟩ <;> exact holds

theorem preserves_update {change : Target → Target}
    (keeps : ∀ target, Holds target → Holds (change target)) :
    Preserves (fun state => Holds state.1) (update change) := by
  intro state holds
  exact keeps state.1 holds

theorem preserves_within {Part : Type} (reader : Reader Part Unit) (get : Target → Part)
    {put : Part → Target → Target} (keeps : ∀ part target, Holds target → Holds (put part target)) :
    Preserves (fun state => Holds state.1) (within get put reader) := by
  rintro ⟨target, data⟩ holds
  simp only [within]
  cases reader (get target, data) with
  | ok _ state => exact keeps state.1 target holds
  | error fault state => exact keeps state.1 target holds

end Preserving

/-- The same place in the data. -/
def SamePlace (left right : Target × List UInt8) : Prop :=
  left.2 = right.2

/-- From related targets and the same data the readers have matching outcomes at the same place. -/
def Couples (Before After : Target → Target → Prop) (left right : Reader Target Read) : Prop :=
  ∀ first second data, Before first second →
    Matches (fun one other => After one.1 other.1 ∧ SamePlace one other) SamePlace
      (left (first, data)) (right (second, data))

namespace Couples

theorem of_eq (reader : Reader Target Read) : Couples Eq Eq reader reader := by
  intro first second data same
  subst same
  cases reader (first, data) with
  | ok read state => exact .ok ⟨rfl, rfl⟩
  | error fault state => exact .error rfl

theorem bind {left right : Reader Target Read} {leftNext rightNext : Read → Reader Target Next}
    (first : Couples Before Middle left right)
    (second : ∀ read, Couples Middle After (leftNext read) (rightNext read)) :
    Couples Before After (left >>= leftNext) (right >>= rightNext) := by
  intro one other data related
  simp only [Bind.bind, EStateM.bind]
  have matched := first one other data related
  generalize left (one, data) = leftOutcome, right (other, data) = rightOutcome at matched
  cases matched with
  | error failed => exact .error failed
  | @ok read leftState rightState between =>
      rcases leftState with ⟨one, rest⟩
      rcases rightState with ⟨other, _⟩
      rcases between with ⟨between, place⟩
      cases place
      exact second read one other rest between

theorem update {leftChange rightChange : Target → Target}
    (changes : ∀ left right, Before left right → After (leftChange left) (rightChange right)) :
    Couples Before After (Reader.update leftChange) (Reader.update rightChange) := by
  intro one other data related
  exact .ok ⟨changes one other related, rfl⟩

theorem word : Couples Before Before Reader.word Reader.word := by
  intro one other data related
  rcases data with _ | ⟨first, _ | ⟨second, _ | ⟨third, _ | ⟨fourth, rest⟩⟩⟩⟩
  · exact .error rfl
  · exact .error rfl
  · exact .error rfl
  · exact .error rfl
  · exact .ok ⟨related, rfl⟩

/-- A reader that begins with a fresh target takes no notice of the one before. -/
theorem renew (fresh : Target) (reader : Reader Target Read) :
    Couples (fun _ _ => True) Eq (Reader.update (fun _ => fresh) >>= fun _ => reader)
      (Reader.update (fun _ => fresh) >>= fun _ => reader) := by
  apply bind (update fun _ _ _ => rfl)
  intro _
  exact of_eq reader

/-- What a part was before does not matter to a reader that replaces it. -/
theorem within {Part : Type} {reader : Reader Part Unit}
    (forgets : Couples (fun _ _ => True) Eq reader reader)
    (leftGet rightGet : Target → Part) {leftPut rightPut : Part → Target → Target}
    (puts : ∀ part left right, Before left right →
      After (leftPut part left) (rightPut part right)) :
    Couples Before After (Reader.within leftGet leftPut reader)
      (Reader.within rightGet rightPut reader) := by
  intro one other data related
  have matched := forgets (leftGet one) (rightGet other) data trivial
  simp only [Reader.within]
  generalize reader (leftGet one, data) = leftOutcome, reader (rightGet other, data) = rightOutcome
    at matched
  cases matched with
  | error place => exact .error place
  | @ok read leftState rightState between =>
      rcases leftState with ⟨part, rest⟩
      rcases rightState with ⟨_, _⟩
      rcases between with ⟨same, place⟩
      cases same
      cases place
      exact .ok ⟨puts part one other related, rfl⟩

end Couples

end Reader

end Model

end EntityFeatures

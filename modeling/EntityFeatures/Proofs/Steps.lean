/-!
# Steps that may fail

Writing a model, reading one and configuring an extractor are sequences of steps, and
a sequence succeeds only when each of its steps does. The first two statements say
this for steps without a state and for steps with one. Together with a case split on
the outcome of a step they take every successful sequence apart. A sequence that fails
has one step that fails behind others that do not.
-/

namespace EntityFeatures

variable {Fault State Result Next : Type}

theorem exists_of_bind_eq_ok {first : Except Fault Result} {next : Result → Except Fault Next}
    {whole : Next} (done : (first >>= next) = .ok whole) :
    ∃ result, first = .ok result ∧ next result = .ok whole := by
  cases first with
  | error fault => cases done
  | ok result => exact ⟨result, rfl, done⟩

theorem exists_of_step_bind_eq_ok {step : EStateM Fault State Result}
    {next : Result → EStateM Fault State Next} {before after : State} {last : Next}
    (done : (step >>= next) before = .ok last after) :
    ∃ result middle, step before = .ok result middle ∧ next result middle = .ok last after := by
  simp only [bind, EStateM.bind] at done
  split at done
  next result middle first => exact ⟨result, middle, first, done⟩
  next => cases done

theorem step_bind_of_ok {step : EStateM Fault State Result} {result : Result}
    {before middle : State} (done : step before = .ok result middle)
    (next : Result → EStateM Fault State Next) : (step >>= next) before = next result middle := by
  simp only [bind, EStateM.bind, done]

theorem step_bind_of_error {step : EStateM Fault State Result} {fault : Fault}
    {before middle : State} (failed : step before = .error fault middle)
    (next : Result → EStateM Fault State Next) :
    (step >>= next) before = .error fault middle := by
  simp only [bind, EStateM.bind, failed]

/-- A sequence fails in its first step or behind it. -/
theorem of_step_bind_eq_error {step : EStateM Fault State Result}
    {next : Result → EStateM Fault State Next} {before after : State} {fault : Fault}
    (failed : (step >>= next) before = .error fault after) :
    step before = .error fault after ∨
      ∃ result middle, step before = .ok result middle ∧ next result middle = .error fault after := by
  cases outcome : step before with
  | error other middle =>
      rw [step_bind_of_error outcome] at failed
      cases failed
      exact Or.inl rfl
  | ok result middle =>
      rw [step_bind_of_ok outcome] at failed
      exact Or.inr ⟨result, middle, rfl, failed⟩

/-- A step that begins by looking at the state. -/
theorem get_bind_apply (next : State → EStateM Fault State Result) (state : State) :
    (get >>= next) state = next state state := rfl

/-- A step that begins by replacing the state. -/
theorem set_bind_apply (new : State) (next : PUnit → EStateM Fault State Result) (state : State) :
    (set new >>= next) state = next ⟨⟩ new := rfl

/-- A step that begins by changing the state. -/
theorem modify_bind_apply (change : State → State) (next : PUnit → EStateM Fault State Result)
    (state : State) :
    ((modifyThe State change : EStateM Fault State PUnit) >>= next) state =
      next ⟨⟩ (change state) := rfl

theorem eq_ok_of_toOption {outcome : Except Fault Result} {result : Result}
    (evaluated : outcome.toOption = some result) : outcome = .ok result := by
  cases outcome with
  | error fault => cases evaluated
  | ok value =>
      cases evaluated
      rfl

/-- The state that a step leads to when it does not fail. -/
def reached? : EStateM.Result Fault State Result → Option State
  | .ok _ after => some after
  | .error _ _ => none

theorem eq_ok_of_reached? {outcome : EStateM.Result Fault State Unit} {after : State}
    (evaluated : reached? outcome = some after) : outcome = .ok () after := by
  cases outcome with
  | error fault before => cases evaluated
  | ok value middle =>
      cases evaluated
      rfl

/-- Why a step fails, if it does. -/
def fault? : EStateM.Result Fault State Result → Option Fault
  | .ok _ _ => none
  | .error fault _ => some fault

theorem eq_error_of_fault? {outcome : EStateM.Result Fault State Result} {fault : Fault}
    (evaluated : fault? outcome = some fault) : ∃ after, outcome = .error fault after := by
  cases outcome with
  | ok result after => cases evaluated
  | error other after =>
      cases evaluated
      exact ⟨after, rfl⟩

end EntityFeatures

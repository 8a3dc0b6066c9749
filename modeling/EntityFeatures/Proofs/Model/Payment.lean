import EntityFeatures.Model.Lemmas

/-!
# What is stored has been paid for in bytes

The counts in a saved model are not to be trusted: four bytes can claim four thousand million
items. What a reader can store is bounded all the same, since every item comes out of bytes
that are taken from the data. This is an argument about potentials. What the target holds and
the bytes that are left may only become less together; a field that is read leaves a credit
behind, and whoever stores an item has to spend some of it. `Reader.Pays` states this for all
outcomes, so that it also bounds what has been stored when the data turn out to be damaged.

A round of a loop that leaves credit over has taken at least one byte. So some round fails
before there have been more rounds than bytes, and no count takes the loop any further. This
is `Reader.EndsWithData`, which holds of the two ways in which items are repeated,
`Reader.times` and `Reader.words`.
-/

namespace EntityFeatures

namespace Model

namespace Reader

variable {Target Read Next : Type} {holding : Target → Nat} {credit more : Nat}

/--
What the outcome leaves in the target and in the data does not exceed the budget, nor does it
together with what is spared for later.
-/
def Covered (holding : Target → Nat) (budget : Nat) (spare : Read → Nat) :
    EStateM.Result DecodeFault (Target × List UInt8) Read → Prop
  | .ok read (target, rest) => holding target + rest.length + spare read ≤ budget
  | .error _ (target, rest) => holding target + rest.length ≤ budget

/-- The reader stores no more than it can pay with the bytes that it takes and the credit. -/
def Pays (holding : Target → Nat) (credit : Nat) (reader : Reader Target Read)
    (spare : Read → Nat) : Prop :=
  ∀ target data,
    Covered holding (holding target + data.length + credit) spare (reader (target, data))

theorem Covered.imp {spare less : Read → Nat} {budget larger : Nat}
    {outcome : EStateM.Result DecodeFault (Target × List UInt8) Read}
    (covered : Covered holding budget spare outcome) (enough : budget ≤ larger)
    (weaker : ∀ read, less read ≤ spare read) : Covered holding larger less outcome := by
  cases outcome with
  | ok read state =>
      have least := weaker read
      simp only [Covered] at covered ⊢
      omega
  | error fault state =>
      simp only [Covered] at covered ⊢
      omega

namespace Pays

variable {spare less : Read → Nat} {reader : Reader Target Read}

theorem imp (pays : Pays holding credit reader spare) (weaker : ∀ read, less read ≤ spare read) :
    Pays holding credit reader less :=
  fun target data => (pays target data).imp (Nat.le_refl _) weaker

theorem pure {read : Read} (enough : spare read ≤ credit) :
    Pays holding credit (Pure.pure read) spare := by
  intro target data
  simp only [pure_apply, Covered]
  omega

theorem throw (fault : DecodeFault) :
    Pays holding credit (MonadExcept.throw fault : Reader Target Read) spare := by
  intro target data
  simp only [throw_apply, Covered]
  omega

theorem update {change : Target → Target}
    (cost : ∀ target, holding (change target) + more ≤ holding target + credit) :
    Pays holding credit (Reader.update change) fun _ => more := by
  intro target data
  have spent := cost target
  simp only [update_apply, Covered]
  omega

theorem bind {next : Read → Reader Target Next} {last : Next → Nat}
    (first : Pays holding credit reader spare)
    (second : ∀ read, Pays holding (spare read) (next read) last) :
    Pays holding credit (reader >>= next) last := by
  intro target data
  have before := first target data
  cases outcome : reader (target, data) with
  | ok read state =>
      rcases state with ⟨middle, rest⟩
      rw [bind_of_ok outcome]
      simp only [outcome, Covered] at before
      apply (second read middle rest).imp _ fun _ => Nat.le_refl _
      omega
  | error fault state =>
      rw [bind_of_error outcome]
      simp only [outcome, Covered] at before ⊢
      exact before

/-! ## Fields -/

theorem byte : Pays holding credit Reader.byte fun _ => credit + 1 := by
  intro target data
  rcases data with _ | ⟨first, rest⟩
  · simp [Reader.byte, Covered]
  · simp only [byte_cons, Covered, List.length_cons]
    omega

theorem word : Pays holding credit Reader.word fun _ => credit + 4 := by
  intro target data
  rcases data with _ | ⟨first, _ | ⟨second, _ | ⟨third, _ | ⟨fourth, rest⟩⟩⟩⟩ <;>
    simp only [Reader.word, Covered, List.length_cons, List.length_nil] <;> omega

theorem bytes (length : Nat) : Pays holding credit (Reader.bytes length) fun _ => credit := by
  intro target data
  simp only [Reader.bytes]
  split
  · simp only [Covered, List.length_drop]
    omega
  · simp only [Covered]
    omega

theorem textLength : Pays holding credit Reader.textLength fun _ => credit + 1 := by
  apply bind byte
  intro short
  split
  · apply bind word
    intro long
    exact pure (by omega)
  · exact pure (Nat.le_refl _)

/-- A text has at least the byte of its length. -/
theorem text : Pays holding credit Reader.text fun _ => credit + 1 := by
  apply bind textLength
  intro length
  apply bind (bytes length)
  intro data
  cases Utf8.decode data with
  | ok content => exact pure (Nat.le_refl _)
  | error fault => exact throw (.notText fault)

theorem words (count : Nat) :
    Pays holding credit (Reader.words count) fun features => credit + features.length := by
  induction count generalizing credit with
  | zero => exact pure (Nat.le_refl _)
  | succ count ih =>
      apply bind word
      intro first
      apply bind ih
      intro rest
      apply pure
      simp only [List.length_cons]
      omega

/-! ## Loops and parts -/

theorem times {reader : Reader Target Unit} (each : Pays holding 0 reader fun _ => 0)
    (count : Nat) : Pays holding 0 (Reader.times count reader) fun _ => 0 := by
  induction count with
  | zero => exact pure (Nat.le_refl _)
  | succ count ih => exact bind each fun _ => ih

theorem counted {reader : Reader Target Unit} (each : Pays holding 0 reader fun _ => 0) :
    Pays holding 0 (Reader.counted reader) fun _ => 0 :=
  bind (word.imp fun _ => Nat.zero_le _) fun count => times each count.toNat

/-- A reader that empties the target first pays for what it puts there. -/
theorem refill {change : Target → Target} {reader : Reader Target Unit}
    (empties : ∀ target, holding (change target) = 0) (each : Pays holding 0 reader fun _ => 0) :
    Pays holding credit (Reader.update change >>= fun _ => Reader.counted reader) fun _ => 0 := by
  have emptied : Pays holding credit (Reader.update change) fun _ => 0 := by
    apply update
    intro target
    rw [empties target]
    exact Nat.zero_le _
  exact bind emptied fun _ => counted each

theorem within {Part : Type} {inPart : Part → Nat} {reader : Reader Part Unit}
    (inner : Pays inPart 0 reader fun _ => 0) (get : Target → Part) (put : Part → Target → Target)
    (moves : ∀ part target, holding (put part target) + inPart (get target) ≤
      holding target + inPart part) :
    Pays holding 0 (Reader.within get put reader) fun _ => 0 := by
  intro target data
  have covered := inner (get target) data
  simp only [Reader.within]
  cases outcome : reader (get target, data) with
  | ok read state =>
      have moved := moves state.1 target
      simp only [outcome, Covered] at covered ⊢
      omega
  | error fault state =>
      have moved := moves state.1 target
      simp only [outcome, Covered] at covered ⊢
      omega

/-- What is built has been paid for; it is charged to the target when it is put there. -/
theorem build {Part : Type} {inPart : Part → Nat} {fresh : Part} {reader : Reader Part Unit}
    (inner : ∀ data : List UInt8, Covered inPart data.length (fun _ => 0) (reader (fresh, data))) :
    Pays holding credit (Reader.build fresh reader) fun part => credit + inPart part := by
  intro target data
  have covered := inner data
  simp only [Reader.build]
  cases outcome : reader (fresh, data) with
  | ok read state =>
      simp only [outcome, Covered] at covered ⊢
      omega
  | error fault state =>
      simp only [outcome, Covered] at covered ⊢
      omega

end Pays

/-! ## Counts that exceed the data -/

section Loops

variable {Item : Type} {round : Reader Target Item} {loop : Nat → Reader Target Read}

/-- The loop takes a number and does so many rounds, unless one of them fails. -/
structure Repeats (round : Reader Target Item) (loop : Nat → Reader Target Read) : Prop where
  start : ∀ state, ∃ read, loop 0 state = .ok read state
  stops : ∀ (count : Nat) {state fault after}, round state = .error fault after →
    loop (count + 1) state = .error fault after
  succeeds : ∀ {count state item middle read after}, round state = .ok item middle →
    loop count middle = .ok read after → ∃ whole, loop (count + 1) state = .ok whole after
  fails : ∀ {count state item middle fault after}, round state = .ok item middle →
    loop count middle = .error fault after → loop (count + 1) state = .error fault after

theorem repeats_times (reader : Reader Target Unit) :
    Repeats reader fun count => times count reader where
  start _ := ⟨(), rfl⟩
  stops _ _ _ _ failed := bind_of_error failed _
  succeeds done later := ⟨(), (bind_of_ok done _).trans later⟩
  fails done later := (bind_of_ok done _).trans later

theorem repeats_words : Repeats word (words : Nat → Reader Target (List UInt32)) where
  start _ := ⟨[], rfl⟩
  stops _ _ _ _ failed := bind_of_error failed _
  succeeds done later := ⟨_, (bind_of_ok done _).trans (bind_of_ok later _)⟩
  fails done later := (bind_of_ok done _).trans (bind_of_error later _)

/--
The loop comes to a round that fails after no more rounds than there are bytes. Whatever number
it is given, it does not go on behind this round.
-/
def EndsWithData (round : Reader Target Item) (loop : Nat → Reader Target Read) : Prop :=
  ∀ target data, ∃ rounds ≤ data.length, ∃ read middle fault state,
    loop rounds (target, data) = .ok read middle ∧ round middle = .error fault state ∧
      ∀ count, rounds < count → loop count (target, data) = .error fault state

/-- If every round takes a byte, there cannot be more of them than bytes. -/
theorem Repeats.endsWithData (repeats : Repeats round loop)
    (advances : Pays (fun _ => 0) 0 round fun _ => 1) : EndsWithData round loop := by
  intro target data
  generalize bound : data.length = size
  induction size using Nat.strongRecOn generalizing target data with
  | ind size ih =>
      subst bound
      have covered := advances target data
      cases outcome : round (target, data) with
      | error fault state =>
          rcases repeats.start (target, data) with ⟨read, done⟩
          refine ⟨0, Nat.zero_le _, read, _, fault, state, done, outcome, ?_⟩
          intro count behind
          rcases Nat.exists_eq_add_of_lt behind with ⟨more, rfl⟩
          exact repeats.stops _ outcome
      | ok item state =>
          rcases state with ⟨after, rest⟩
          simp only [outcome, Covered] at covered
          rcases ih rest.length (by omega) after rest rfl with
            ⟨rounds, few, read, middle, fault, state, run, failed, later⟩
          rcases repeats.succeeds outcome run with ⟨whole, done⟩
          refine ⟨rounds + 1, by omega, whole, middle, fault, state, done, failed, ?_⟩
          intro count behind
          rcases Nat.exists_eq_add_of_lt behind with ⟨more, rfl⟩
          exact repeats.fails outcome (later _ (by omega))

theorem endsWithData_times {reader : Reader Target Unit}
    (advances : Pays (fun _ => 0) 0 reader fun _ => 1) :
    EndsWithData reader fun count => times count reader :=
  (repeats_times reader).endsWithData advances

theorem endsWithData_words : EndsWithData word (words : Nat → Reader Target (List UInt32)) :=
  repeats_words.endsWithData (Pays.word.imp fun _ => by decide)

end Loops

end Reader

end Model

end EntityFeatures

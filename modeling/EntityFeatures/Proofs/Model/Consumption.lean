import EntityFeatures.Model.Lemmas
import EntityFeatures.Proofs.Steps

/-!
# Readers that take exactly what was written

The statements of `EntityFeatures.Model.Lemmas` about single fields all have one
shape: from data that begin with the written bytes, a reader takes these bytes and
no more, whatever follows them. `Reader.Consumes` is this shape, with the target
before and after. It is closed under sequencing, under repetition for as many items
as were written, and under reading into a part of a target or into a fresh one, so
the law for a whole model is put together in the order in which the model is written.
-/

namespace EntityFeatures

namespace Model

namespace Reader

variable {Target Read Next : Type}

/-- The reader takes the written bytes from the front of any data that begin with them. -/
def Consumes (reader : Reader Target Read) (written : List UInt8) (read : Read)
    (before after : Target) : Prop :=
  ∀ rest, reader (before, written ++ rest) = .ok read (after, rest)

namespace Consumes

variable {reader : Reader Target Read} {front back : List UInt8} {read : Read}
  {before middle after : Target}

theorem pure (read : Read) (target : Target) :
    Consumes (Pure.pure read) [] read target target :=
  fun _ => rfl

theorem update (change : Target → Target) (target : Target) :
    Consumes (Reader.update change) [] () target (change target) :=
  fun _ => rfl

theorem bind {next : Read → Reader Target Next} {nextRead : Next}
    (first : Consumes reader front read before middle)
    (second : Consumes (next read) back nextRead middle after) :
    Consumes (reader >>= next) (front ++ back) nextRead before after := by
  intro rest
  rw [List.append_assoc, bind_of_ok (first (back ++ rest))]
  exact second rest

theorem bind_nil {next : Read → Reader Target Next} {nextRead : Next}
    (first : Consumes reader [] read before middle)
    (second : Consumes (next read) back nextRead middle after) :
    Consumes (reader >>= next) back nextRead before after :=
  bind first second

theorem within {Part : Type} {reader : Reader Part Unit} {written : List UInt8} {part : Part}
    (get : Target → Part) (put : Part → Target → Target) (target : Target)
    (inner : Consumes reader written () (get target) part) :
    Consumes (Reader.within get put reader) written () target (put part target) := by
  intro rest
  simp only [Reader.within, inner rest]

theorem build {Part : Type} {reader : Reader Part Unit} {written : List UInt8}
    {fresh part : Part} (inner : Consumes reader written () fresh part) (target : Target) :
    Consumes (Reader.build fresh reader) written part target target := by
  intro rest
  simp only [Reader.build, inner rest]

theorem word (number : UInt32) (target : Target) :
    Consumes Reader.word (fourBytes number.toNat) number target target :=
  fun rest => word_fourBytes number rest target

/-- The number in a field of four bytes, for a value that was found to fit. -/
theorem exists_word {value : Int} {written : List UInt8}
    (encoded : encodeWord value = .ok written) (target : Target) :
    ∃ number : UInt32, (number.toNat : Int) = value ∧
      Consumes Reader.word written number target target := by
  rcases eq_of_encodeWord encoded with ⟨number, same, rfl⟩
  exact ⟨number, same, word number target⟩

theorem exists_byte {value : Int} {written : List UInt8}
    (encoded : encodeByte value = .ok written) (target : Target) :
    ∃ number : UInt8, (number.toNat : Int) = value ∧
      Consumes Reader.byte written number target target := by
  rcases eq_of_encodeByte encoded with ⟨number, same, rfl⟩
  exact ⟨number, same, fun rest => byte_cons number rest target⟩

theorem text {content : String} {written : List UInt8}
    (encoded : encodeText content = .ok written) (target : Target) :
    Consumes Reader.text written content target target :=
  fun rest => text_append encoded rest target

theorem times {Item : Type} {encode : Item → Encoded} {reader : Reader Target Unit}
    {step : Target → Item → Target} {items : List Item} {written : List UInt8}
    (each : ∀ item ∈ items, ∀ (written : List UInt8) (target : Target),
      encode item = .ok written → Consumes reader written () target (step target item))
    (encoded : encodeEach encode items = .ok written)
    (target : Target) :
    Consumes (Reader.times items.length reader) written () target (items.foldl step target) := by
  induction items generalizing written target with
  | nil =>
      cases encoded
      exact pure () target
  | cons item rest ih =>
      rcases exists_of_bind_eq_ok encoded with ⟨front, frontEncoded, encoded⟩
      rcases exists_of_bind_eq_ok encoded with ⟨back, backEncoded, encoded⟩
      cases encoded
      apply bind (each item (List.mem_cons_self ..) front target frontEncoded)
      apply ih _ backEncoded
      intro other inRest
      exact each other (List.mem_cons_of_mem item inRest)

/-- The number of items tells how often the reader has to run. -/
theorem counted {Item : Type} {encode : Item → Encoded} {reader : Reader Target Unit}
    {step : Target → Item → Target} {items : List Item} {written : List UInt8}
    (each : ∀ item ∈ items, ∀ (written : List UInt8) (target : Target),
      encode item = .ok written → Consumes reader written () target (step target item))
   
    (encoded : encodeCounted encode items = .ok written) (target : Target) :
    Consumes (Reader.counted reader) written () target (items.foldl step target) := by
  rcases exists_of_bind_eq_ok encoded with ⟨count, countEncoded, encoded⟩
  rcases exists_of_bind_eq_ok encoded with ⟨bytes, bytesEncoded, encoded⟩
  cases encoded
  rcases exists_word countEncoded target with ⟨number, same, countRead⟩
  apply bind countRead
  have whole : number.toNat = items.length := by omega
  rw [whole]
  exact times each bytesEncoded target

/-- Items that are read and appended in order make up the array that was written. -/
theorem counted_push {Item : Type} {encode : Item → Encoded}
    {reader : Reader (Array Item) Unit}
    (each : ∀ (item : Item) (written : List UInt8) (target : Array Item),
      encode item = .ok written → Consumes reader written () target (target.push item))
    {items : Array Item} {written : List UInt8}
    (encoded : encodeCounted encode items.toList = .ok written) :
    Consumes (Reader.counted reader) written () #[] items := by
  have whole := counted (fun item _ => each item) encoded #[]
  have same : items.toList.foldl (fun target item => target.push item) #[] = items := by
    rw [List.foldl_push_eq_append']
    simp
  rwa [same] at whole

theorem words {features : List UInt32} {written : List UInt8}
    (encoded : encodeEach (fun feature : UInt32 => encodeWord feature.toNat) features = .ok written)
    (target : Target) :
    Consumes (Reader.words features.length) written features target target := by
  induction features generalizing written with
  | nil =>
      cases encoded
      exact pure [] target
  | cons feature rest ih =>
      rcases exists_of_bind_eq_ok encoded with ⟨front, frontEncoded, encoded⟩
      rcases exists_of_bind_eq_ok encoded with ⟨back, backEncoded, encoded⟩
      cases encoded
      have same : front = fourBytes feature.toNat := by
        simpa using frontEncoded.symm
      subst same
      apply bind (word feature target)
      rw [← List.append_nil back]
      exact bind (ih backEncoded) (pure (feature :: rest) target)

end Consumes

end Reader

end Model

end EntityFeatures

import EntityFeatures.Proofs.Model.Capacity
import EntityFeatures.Proofs.Model.Truncation

/-!
# Fields in a row

The fields of a model have neither names nor types, so whoever reads them has to know
which kind of field comes next. Under this condition a row of fields is read back, whatever
is in them and whatever follows: `Field.fields_read_back`.

The second half is about data that stop early. Every field takes at least one byte, so the
place where the data stop lies inside exactly one field. Those in front of it are read as
they were written, and reading this one runs short, whether the data stop in the length of a
text, in the four bytes of a long length or in the text itself. Nothing is made up for the
bytes that are missing. Both halves are inductions on the row, and what they need of a single
field is that its reader takes exactly what was written, `Reader.Consumes`, and notices where
the data stop, `Reader.Streams`.
-/

namespace EntityFeatures

namespace Model

open Reader

/-- What a reader has to know of a field. -/
inductive FieldKind where
  | byte
  | word
  | text
  deriving DecidableEq, Repr

/-- A field with its contents. -/
inductive Field where
  | byte (value : UInt8)
  | word (value : UInt32)
  | text (content : String)
  deriving DecidableEq, Repr

namespace FieldKind

variable {Target : Type}

/-- Reads a field of this kind. -/
def read : FieldKind → Reader Target Field
  | byte => return .byte (← Reader.byte)
  | word => return .word (← Reader.word)
  | text => return .text (← Reader.text)

/-- Reads fields of these kinds, one after the other, until one of them cannot be read. -/
def readAll : List FieldKind → Reader Target (List Field)
  | [] => return []
  | kind :: rest => do
      let first ← kind.read
      let others ← readAll rest
      return first :: others

theorem streams_read (kind : FieldKind) : Streams (kind.read : Reader Target Field) := by
  cases kind with
  | byte => exact Streams.bind Streams.byte fun value => Streams.pure (Field.byte value)
  | word => exact Streams.bind Streams.word fun value => Streams.pure (Field.word value)
  | text => exact Streams.bind Streams.text fun content => Streams.pure (Field.text content)

end FieldKind

namespace Field

/-- What a reader has to know of this field. -/
def kind : Field → FieldKind
  | byte _ => .byte
  | word _ => .word
  | text _ => .text

/-- The bytes of a field. -/
def encode : Field → Encoded
  | byte value => encodeByte value.toNat
  | word value => encodeWord value.toNat
  | text content => encodeText content

/-- The length of a text can be written in four bytes. -/
def Fits : Field → Prop
  | byte _ | word _ => True
  | text content => (Utf8.encode content).length < UInt32.size

instance : DecidablePred Fits := fun field => by
  cases field <;> unfold Fits <;> infer_instance

variable {Target : Type} {field : Field} {fields : List Field} {written : List UInt8}

theorem exists_encode (fits : field.Fits) : ∃ written, field.encode = .ok written := by
  cases field with
  | byte value =>
      apply (FailsIff.byte value.toNat).written
      have bound := value.toNat_lt
      omega
  | word value => exact (FailsIff.word value.toNat_lt_size).written not_false
  | text content => exact (FailsIff.text fits).written not_false

theorem exists_encodeEach (fits : ∀ field ∈ fields, field.Fits) :
    ∃ written, encodeEach encode fields = .ok written := by
  induction fields with
  | nil => exact ⟨[], rfl⟩
  | cons first rest ih =>
      rcases exists_encode (fits first (by simp)) with ⟨front, frontEncoded⟩
      rcases ih fun field mem => fits field (by simp [mem]) with ⟨back, backEncoded⟩
      refine ⟨front ++ back, ?_⟩
      rw [encodeEach, frontEncoded, backEncoded]
      rfl

theorem consumes_read (encoded : field.encode = .ok written) (target : Target) :
    Consumes field.kind.read written field target target := by
  rw [← List.append_nil written]
  cases field with
  | byte value =>
      rcases Consumes.exists_byte encoded target with ⟨read, same, consumes⟩
      have read_eq : read = value := by
        apply UInt8.toNat_inj.mp
        omega
      subst read_eq
      exact Consumes.bind consumes (Consumes.pure _ target)
  | word value =>
      rcases Consumes.exists_word encoded target with ⟨read, same, consumes⟩
      have read_eq : read = value := by
        apply UInt32.toNat_inj.mp
        omega
      subst read_eq
      exact Consumes.bind consumes (Consumes.pure _ target)
  | text content =>
      exact Consumes.bind (Consumes.text encoded target) (Consumes.pure _ target)

theorem consumes_readAll (encoded : encodeEach encode fields = .ok written) (target : Target) :
    Consumes (FieldKind.readAll (fields.map kind)) written fields target target := by
  induction fields generalizing written with
  | nil =>
      cases encoded
      exact Consumes.pure [] target
  | cons first rest ih =>
      rcases exists_of_bind_eq_ok encoded with ⟨front, frontEncoded, encoded⟩
      rcases exists_of_bind_eq_ok encoded with ⟨back, backEncoded, encoded⟩
      cases encoded
      apply Consumes.bind (consumes_read frontEncoded target)
      rw [← List.append_nil back]
      exact Consumes.bind (ih backEncoded) (Consumes.pure (first :: rest) target)

/--
The data stop in the middle of a row of fields: `whole` are the fields in front of this place,
`cut` is the field in which it lies, and `left` what is there of it.
-/
structure StopsIn (fields : List Field) (kept : Nat) (whole : List Field) (cut : Field)
    (left : List UInt8) : Prop where
  fields_eq : ∃ later, fields = whole ++ cut :: later
  place : ∃ front bytes, encodeEach encode whole = .ok front ∧ cut.encode = .ok bytes ∧
    kept = front.length + left.length ∧ left.length < bytes.length ∧ left <+: bytes

/-- On a part from the front, the whole fields are read back, and then reading runs short. -/
theorem exists_stopsIn (encoded : encodeEach encode fields = .ok written) {kept : Nat}
    (cut : kept < written.length) (target : Target) :
    ∃ whole field left, StopsIn fields kept whole field left ∧
      FieldKind.readAll (whole.map kind) (target, written.take kept) = .ok whole (target, left) ∧
      RunsShort ((field.kind.read : Reader Target Field) (target, left)) := by
  induction fields generalizing written kept with
  | nil =>
      cases encoded
      simp at cut
  | cons first rest ih =>
      rcases exists_of_bind_eq_ok encoded with ⟨front, frontEncoded, encoded⟩
      rcases exists_of_bind_eq_ok encoded with ⟨back, backEncoded, encoded⟩
      cases encoded
      by_cases here : kept < front.length
      · -- The first field is the one that is cut.
        have taken : (front ++ back).take kept = front.take kept :=
          List.take_append_of_le_length (Nat.le_of_lt here)
        have consumed := consumes_read frontEncoded target
        have short := consumed.runsShort_take first.kind.streams_read here
        refine ⟨[], first, front.take kept, ⟨⟨rest, rfl⟩, [], front, rfl, frontEncoded, ?_⟩, ?_,
          short⟩
        · simp [List.take_prefix, here, Nat.le_of_lt here]
        · rw [taken]
          rfl
      · -- The first field is whole, and the place lies in the others.
        have behind : kept - front.length < back.length := by
          rw [List.length_append] at cut
          omega
        have taken : (front ++ back).take kept = front ++ back.take (kept - front.length) := by
          rw [List.take_append, List.take_of_length_le (by omega)]
        rcases ih backEncoded behind with ⟨whole, field, left, stops, wholeRead, short⟩
        rcases stops with
          ⟨⟨later, rfl⟩, frontOfRest, bytes, restEncoded, fieldEncoded, place, inside⟩
        refine ⟨first :: whole, field, left, ⟨⟨later, rfl⟩, front ++ frontOfRest, bytes, ?_,
          fieldEncoded, ?_, inside⟩, ?_, short⟩
        · rw [encodeEach, frontEncoded, restEncoded]
          rfl
        · rw [List.length_append]
          omega
        · rw [taken, List.map_cons, FieldKind.readAll,
            bind_of_ok (consumes_read frontEncoded target (back.take (kept - front.length))),
            bind_of_ok wholeRead, pure_apply]

/--
Fields that fit can be written in a row and are read back by readers of the same kinds, which
stop where the fields end. On a proper part from the front the fields that are whole are read
back, and the reader of the field in which the part ends runs short.
-/
theorem fields_read_back (fields : List Field) (fits : ∀ field ∈ fields, field.Fits) :
    ∃ written, encodeEach encode fields = .ok written ∧
      ∀ {Target : Type} (target : Target),
        (∀ rest, FieldKind.readAll (fields.map kind) (target, written ++ rest) =
          .ok fields (target, rest)) ∧
        ∀ kept < written.length, ∃ whole cut left, StopsIn fields kept whole cut left ∧
          FieldKind.readAll (whole.map kind) (target, written.take kept) =
            .ok whole (target, left) ∧
          RunsShort ((cut.kind.read : Reader Target Field) (target, left)) := by
  rcases exists_encodeEach fits with ⟨written, encoded⟩
  refine ⟨written, encoded, ?_⟩
  intro Target target
  refine ⟨consumes_readAll encoded target, ?_⟩
  intro kept cut
  exact exists_stopsIn encoded cut target

/-- A text of 255 bytes, which has a long length, and a place inside this length. -/
theorem fields_read_back_long_text :
    ∃ fields written, fields.map kind = [.byte, .text, .word] ∧ (∀ field ∈ fields, field.Fits) ∧
      encodeEach encode fields = .ok written ∧ written.length = 265 ∧
      FieldKind.readAll [.byte, .text, .word] ((), written ++ [9]) = .ok fields ((), [9]) ∧
      ∃ whole cut left, StopsIn fields 4 whole cut left ∧
        FieldKind.readAll (whole.map kind) ((), written.take 4) = .ok whole ((), left) ∧
        RunsShort ((cut.kind.read : Reader Unit Field) ((), left)) := by
  have fits : ∀ field ∈ [byte 7, text (String.ofList (List.replicate 255 'x')), word 16909060],
      field.Fits := by
    decide +kernel
  have evaluated : ((encodeEach encode
      [byte 7, text (String.ofList (List.replicate 255 'x')), word 16909060]).toOption.map
        List.length) = some 265 := by
    decide +kernel
  rcases fields_read_back _ fits with ⟨written, encoded, reads⟩
  have length : written.length = 265 := by
    rw [encoded] at evaluated
    exact Option.some.inj evaluated
  rcases reads () with ⟨whole, parts⟩
  exact ⟨_, written, rfl, fits, encoded, length, whole [9], parts 4 (by omega)⟩

end Field

end Model

end EntityFeatures

import EntityFeatures.Model.Reader

/-!
# Fields are read as they were written

For every field there is one statement: if writing it gives some bytes, then reading
takes exactly these bytes from the front of the data, whatever follows them, and
returns what was written. The target is not looked at. With `Reader.bind_of_ok` the
statements for single fields add up to one for several fields.
-/

namespace EntityFeatures

namespace Model

variable {Target : Type}

theorem eq_of_encodeByte {value : Int} {written : List UInt8}
    (encoded : encodeByte value = .ok written) :
    ∃ byte : UInt8, (byte.toNat : Int) = value ∧ written = [byte] := by
  unfold encodeByte at encoded
  split at encoded
  next =>
    cases encoded
    refine ⟨UInt8.ofNat value.toNat, ?_, rfl⟩
    simp only [UInt8.toNat_ofNat']
    omega
  next => cases encoded

theorem eq_of_encodeWord {value : Int} {written : List UInt8}
    (encoded : encodeWord value = .ok written) :
    ∃ number : UInt32, (number.toNat : Int) = value ∧ written = fourBytes number.toNat := by
  unfold encodeWord at encoded
  split at encoded
  next =>
    cases encoded
    have same : (UInt32.ofNat value.toNat).toNat = value.toNat := by
      simp only [UInt32.toNat_ofNat']
      omega
    exact ⟨UInt32.ofNat value.toNat, by rw [same]; omega, by rw [same]⟩
  next => cases encoded

namespace Reader

theorem bind_of_ok {Read Next : Type} {reader : Reader Target Read} {read : Read}
    {state after : Target × List UInt8} (done : reader state = .ok read after)
    (next : Read → Reader Target Next) : (reader >>= next) state = next read after := by
  simp only [bind, EStateM.bind, done]

theorem bind_of_error {Read Next : Type} {reader : Reader Target Read} {fault : DecodeFault}
    {state after : Target × List UInt8} (failed : reader state = .error fault after)
    (next : Read → Reader Target Next) : (reader >>= next) state = .error fault after := by
  simp only [bind, EStateM.bind, failed]

@[simp]
theorem pure_apply {Read : Type} (read : Read) (state : Target × List UInt8) :
    (pure read : Reader Target Read) state = .ok read state := rfl

@[simp]
theorem throw_apply {Read : Type} (fault : DecodeFault) (state : Target × List UInt8) :
    (throw fault : Reader Target Read) state = .error fault state := rfl

@[simp]
theorem update_apply (change : Target → Target) (target : Target) (data : List UInt8) :
    update change (target, data) = .ok () (change target, data) := rfl

@[simp]
theorem byte_cons (first : UInt8) (rest : List UInt8) (target : Target) :
    byte (target, first :: rest) = .ok first (target, rest) := rfl

@[simp]
theorem word_fourBytes (number : UInt32) (rest : List UInt8) (target : Target) :
    word (target, fourBytes number.toNat ++ rest) = .ok number (target, rest) := by
  have whole := ofFourBytes_fourBytes number
  simp only [fourBytes, List.cons_append, List.nil_append, word]
  rw [whole]

@[simp]
theorem bytes_append (front rest : List UInt8) (target : Target) :
    bytes front.length (target, front ++ rest) = .ok front (target, rest) := by
  simp [bytes]

theorem word_append {value : Int} {written : List UInt8} (encoded : encodeWord value = .ok written)
    (rest : List UInt8) (target : Target) :
    ∃ read : UInt32, (read.toNat : Int) = value ∧
      word (target, written ++ rest) = .ok read (target, rest) := by
  rcases eq_of_encodeWord encoded with ⟨read, same, rfl⟩
  exact ⟨read, same, word_fourBytes read rest target⟩

theorem textLength_of_short {read : UInt8} (short : read ≠ 255) (rest : List UInt8)
    (target : Target) : textLength (target, read :: rest) = .ok read.toNat (target, rest) := by
  rw [textLength, bind_of_ok (byte_cons read rest target), if_neg short, pure_apply]

theorem textLength_of_long {read : UInt32} {data rest : List UInt8} {target : Target}
    (done : word (target, data) = .ok read (target, rest)) :
    textLength (target, 255 :: data) = .ok read.toNat (target, rest) := by
  rw [textLength, bind_of_ok (byte_cons 255 data target), if_pos rfl, bind_of_ok done,
    pure_apply]

theorem textLength_append {length : Nat} {written : List UInt8}
    (encoded : encodeLength length = .ok written) (rest : List UInt8) (target : Target) :
    textLength (target, written ++ rest) = .ok length (target, rest) := by
  unfold encodeLength at encoded
  split at encoded
  next fits =>
    rcases eq_of_encodeByte encoded with ⟨read, same, rfl⟩
    have whole : read.toNat = length := by omega
    have short : read ≠ 255 := by
      intro isLong
      have value : read.toNat = 255 := by
        rw [isLong]
        exact UInt8.toNat_ofNat_of_lt (by decide)
      omega
    rw [← whole]
    exact textLength_of_short short rest target
  next =>
    generalize wordEncoded : encodeWord length = word at encoded
    cases word with
    | error fault => cases encoded
    | ok bytes =>
      cases encoded
      rcases word_append wordEncoded rest target with ⟨read, same, done⟩
      have whole : read.toNat = length := by omega
      rw [← whole]
      exact textLength_of_long done

theorem text_append {content : String} {written : List UInt8}
    (encoded : encodeText content = .ok written) (rest : List UInt8) (target : Target) :
    text (target, written ++ rest) = .ok content (target, rest) := by
  dsimp only [encodeText] at encoded
  generalize lengthEncoded : encodeLength (Utf8.encode content).length = front at encoded
  cases front with
  | error fault => cases encoded
  | ok length =>
    cases encoded
    rw [List.append_assoc, text, bind_of_ok (textLength_append lengthEncoded _ target),
      bind_of_ok (bytes_append _ rest target), Utf8.decode_encode]
    rfl

end Reader

end Model

end EntityFeatures

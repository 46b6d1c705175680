/-! Text as bytes.

`encode` gives the UTF-8 bytes of a text and `decode?` reads them back, refusing
what no text has as its bytes (`decode?_encode`, `encode_decode?`). -/
namespace LiveTail.Text.Utf8

def encode (s : String) : List UInt8 := s.toByteArray.data.toList

def decode? (bytes : List UInt8) : Option String := String.fromUTF8? ⟨bytes.toArray⟩

theorem decode?_encode (s : String) : decode? (encode s) = some s := by
  have h : (⟨s.toByteArray.data.toList.toArray⟩ : ByteArray) = s.toByteArray := rfl
  simp only [decode?, encode, String.fromUTF8?, h]
  simp only [s.isValidUTF8, ↓reduceDIte]
  rfl

theorem encode_decode? {bytes : List UInt8} {s : String} (h : decode? bytes = some s) :
    encode s = bytes := by
  simp only [decode?, String.fromUTF8?] at h
  split at h
  · cases h
    rfl
  · cases h

theorem encode_ofList (text : List Char) :
    encode (String.ofList text) = text.flatMap String.utf8EncodeChar := by
  rw [encode, String.toByteArray_ofList, List.utf8Encode, List.data_toByteArray]

/-- An ASCII byte is its character. -/
theorem utf8EncodeChar_ascii {b : UInt8} (h : b.toNat < 128) :
    String.utf8EncodeChar (Char.ofNat b.toNat) = [b] := by
  have key : ∀ n : Fin 128, String.utf8EncodeChar (Char.ofNat n.1) = [UInt8.ofNat n.1] := by
    decide
  rw [key ⟨b.toNat, h⟩, UInt8.ofNat_toNat]

theorem encode_ascii {bytes : List UInt8} (h : ∀ b ∈ bytes, b.toNat < 128) :
    encode (String.ofList (bytes.map fun b => Char.ofNat b.toNat)) = bytes := by
  rw [encode_ofList]
  induction bytes with
  | nil => rfl
  | cons b rest ih =>
    have hb := utf8EncodeChar_ascii (h b (List.mem_cons_self ..))
    have hrest := ih fun c hc => h c (List.mem_cons_of_mem b hc)
    rw [List.map_cons, List.flatMap_cons, hb, hrest, List.singleton_append]

end LiveTail.Text.Utf8

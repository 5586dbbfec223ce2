/-!
# Texts as bytes

A text is sent as the bytes of its encoding in UTF-8. Bytes that encode no text are not read here.
A letter of ASCII is one byte, which occurs in the encoding of no other letter.
-/

namespace Cepheus.Infra

def utf8 (text : List Char) : List UInt8 := (String.ofList text).toUTF8.data.toList

def ofUtf8 (bytes : List UInt8) : Option (List Char) :=
  (String.fromUTF8? ⟨bytes.toArray⟩).map String.toList

theorem fromUTF8?_toUTF8 (s : String) : String.fromUTF8? s.toUTF8 = some s := by
  rw [String.fromUTF8?, String.toUTF8_eq_toByteArray, dif_pos s.isValidUTF8]
  rfl

@[simp] theorem ofUtf8_utf8 (text : List Char) : ofUtf8 (utf8 text) = some text := by
  simp only [ofUtf8, utf8, Array.toArray_toList]
  rw [show ByteArray.mk (String.ofList text).toUTF8.data = (String.ofList text).toUTF8 from rfl,
    fromUTF8?_toUTF8, Option.map_some, String.toList_ofList]

/-! ## Letter by letter -/

theorem utf8_eq_flatMap (text : List Char) : utf8 text = text.flatMap String.utf8EncodeChar := by
  rw [utf8, String.toUTF8_eq_toByteArray, String.toByteArray_ofList, List.utf8Encode,
    List.data_toByteArray]

theorem utf8_append (text text' : List Char) : utf8 (text ++ text') = utf8 text ++ utf8 text' := by
  simp only [utf8_eq_flatMap, List.flatMap_append]

theorem eq_of_ascii_mem_utf8EncodeChar {a c : Char} (ha : a.toNat < 0x80)
    (h : UInt8.ofNat a.toNat ∈ String.utf8EncodeChar c) : c = a := by
  -- the bytes of all other letters have their first bit set
  have hbyte : ∀ n, UInt8.ofNat a.toNat = UInt8.ofNat n → a.toNat = n % 256 := by
    intro n hn
    have hmod := congrArg UInt8.toNat hn
    simp only [UInt8.toNat_ofNat'] at hmod
    omega
  have hval : a.toNat = c.toNat := by
    unfold String.utf8EncodeChar at h
    simp only [Char.toNat] at *
    split at h
    · have := hbyte _ (List.mem_singleton.mp h)
      omega
    · split at h
      · simp only [List.mem_cons, List.not_mem_nil, or_false] at h
        rcases h with h | h <;> have := hbyte _ h <;> omega
      · split at h
        · simp only [List.mem_cons, List.not_mem_nil, or_false] at h
          rcases h with h | h | h <;> have := hbyte _ h <;> omega
        · simp only [List.mem_cons, List.not_mem_nil, or_false] at h
          rcases h with h | h | h | h <;> have := hbyte _ h <;> omega
  exact (Char.toNat_inj.mp hval).symm

/-- A text has the letters of ASCII that its bytes have. -/
theorem mem_of_ascii_mem_utf8 {a : Char} {text : List Char} (ha : a.toNat < 0x80)
    (h : UInt8.ofNat a.toNat ∈ utf8 text) : a ∈ text := by
  rw [utf8_eq_flatMap] at h
  obtain ⟨c, hc, hbyte⟩ := List.mem_flatMap.mp h
  rwa [← eq_of_ascii_mem_utf8EncodeChar ha hbyte]

end Cepheus.Infra

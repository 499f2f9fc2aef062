import CardAccess.Proofs.Bytes
import CardAccess.Text

/-!
# Text in bytes

A text has as many bytes in UTF-8 as it has characters exactly if all of them are ASCII,
and then its bytes are the codes of its characters.  So bytes that are read as ISO 8859-1
and written as UTF-8 come back unchanged exactly if all of them are ASCII.
-/

namespace CardAccess
namespace Text

/-- The characters that have one byte in UTF-8. -/
def IsAscii (c : Char) : Prop := c.toNat < 0x80

instance (c : Char) : Decidable (IsAscii c) := inferInstanceAs (Decidable (c.toNat < 0x80))

/-- The characters with the codes of the bytes. -/
def latin1 (bytes : Bytes) : List Char := bytes.map fun byte => Char.ofNat byte.toNat

theorem ofLatin1_eq (bytes : Bytes) : ofLatin1 bytes = String.ofList (latin1 bytes) := rfl

theorem toNat_ofNat {n : Nat} (h : n < 0xD800) : (Char.ofNat n).toNat = n := by
  rw [Char.ofNat, dif_pos (.inl h)]
  rfl

theorem toNat_ofNat_byte (byte : UInt8) : (Char.ofNat byte.toNat).toNat = byte.toNat :=
  toNat_ofNat (Nat.lt_trans byte.toNat_lt (by decide))

theorem isAscii_latin1 {bytes : Bytes} :
    (∀ c ∈ latin1 bytes, IsAscii c) ↔ ∀ byte ∈ bytes, byte.toNat < 0x80 := by
  rw [latin1, List.forall_mem_map]
  simp only [IsAscii, toNat_ofNat_byte]

/-! ## UTF-8 -/

theorem toList_loop (bytes : ByteArray) (i : Nat) (read : List UInt8) :
    ByteArray.toList.loop bytes i read = read.reverse ++ bytes.data.toList.drop i := by
  fun_induction ByteArray.toList.loop bytes i read with
  | case1 i read hlt ih =>
    have hi : i < bytes.data.toList.length := hlt
    have hget : bytes.get! i = bytes.data.toList[i] := getElem!_pos bytes.data i hlt
    rw [ih, List.reverse_cons, List.append_assoc, List.drop_eq_getElem_cons hi, hget]
    rfl
  | case2 i read hle =>
    have hi : bytes.data.toList.length ≤ i := Nat.le_of_not_lt hle
    rw [List.drop_eq_nil_of_le hi, List.append_nil]

theorem toUtf8_eq (text : String) : toUtf8 text = text.toByteArray.data.toList := by
  rw [toUtf8, String.toUTF8, ByteArray.toList, toList_loop]
  rfl

/-- Bytes are read as the text that they are the bytes of. -/
theorem ofUtf8?_eq_some {bytes : Bytes} {text : String} :
    ofUtf8? bytes = some text ↔ toUtf8 text = bytes := by
  rw [ofUtf8?, String.fromUTF8?, toUtf8_eq]
  constructor
  · intro h
    split at h
    · cases h
      rfl
    · cases h
  · rintro rfl
    have hvalid : (⟨text.toByteArray.data.toList.toArray⟩ : ByteArray).IsValidUTF8 :=
      text.isValidUTF8
    rw [dif_pos hvalid]
    rfl

theorem toUtf8_ofList (characters : List Char) :
    toUtf8 (String.ofList characters) = characters.flatMap String.utf8EncodeChar := by
  rw [toUtf8_eq, String.toByteArray_ofList, List.utf8Encode]
  simp

theorem utf8EncodeChar_of_isAscii {c : Char} (h : IsAscii c) :
    String.utf8EncodeChar c = [UInt8.ofNat c.toNat] :=
  if_pos (Nat.le_of_lt_succ h)

theorem toUtf8_of_isAscii {characters : List Char} (h : ∀ c ∈ characters, IsAscii c) :
    toUtf8 (String.ofList characters) = characters.map fun c => UInt8.ofNat c.toNat := by
  rw [toUtf8_ofList]
  induction characters with
  | nil => rfl
  | cons c characters ih =>
    rw [List.flatMap_cons, utf8EncodeChar_of_isAscii (h c (.head _)),
      ih fun c hc => h c (.tail _ hc)]
    rfl

theorem utf8Size_eq_one {c : Char} : c.utf8Size = 1 ↔ IsAscii c := by
  rw [Char.utf8Size_eq_one_iff, UInt32.le_iff_toNat_le]
  exact Nat.lt_succ_iff.symm

/-- Every character has a byte at least, and only an ASCII character has no more. -/
theorem length_toUtf8 (characters : List Char) :
    characters.length ≤ (toUtf8 (String.ofList characters)).length ∧
      ((toUtf8 (String.ofList characters)).length = characters.length ↔
        ∀ c ∈ characters, IsAscii c) := by
  rw [toUtf8_ofList]
  induction characters with
  | nil => exact ⟨Nat.le_refl 0, fun _ _ h => (nomatch h), fun _ => rfl⟩
  | cons c characters ih =>
    obtain ⟨hle, hiff⟩ := ih
    have hpos := c.utf8Size_pos
    rw [List.flatMap_cons, List.length_append, String.length_utf8EncodeChar, List.length_cons,
      List.forall_mem_cons, ← hiff, ← utf8Size_eq_one]
    omega

/-- Bytes that are read as ISO 8859-1 and written as UTF-8. -/
theorem toUtf8_ofLatin1_eq {bytes : Bytes} :
    toUtf8 (ofLatin1 bytes) = bytes ↔ ∀ byte ∈ bytes, byte.toNat < 0x80 := by
  rw [ofLatin1_eq, ← isAscii_latin1]
  constructor
  · intro h
    have hlength : (latin1 bytes).length = bytes.length := List.length_map _
    exact (length_toUtf8 _).2.mp ((congrArg List.length h).trans hlength.symm)
  · intro h
    have hbyte (byte : UInt8) : UInt8.ofNat (Char.ofNat byte.toNat).toNat = byte := by
      rw [toNat_ofNat_byte, UInt8.ofNat_toNat]
    rw [toUtf8_of_isAscii h, latin1, List.map_map]
    exact (List.map_congr_left fun byte _ => hbyte byte).trans (List.map_id bytes)

end Text
end CardAccess

import CardAccess.Messaging.DataObject
import CardAccess.Messaging.Response
import CardAccess.Messaging.SessionKeys
import CardAccess.Proofs.Cipher.Aes
import CardAccess.Proofs.Cipher.Cbc
import CardAccess.Proofs.Messaging.Command
import CardAccess.Proofs.Tlv.RoundTrip

/-!
# What a data object carries

Each object that secure messaging puts on the way is read back as what was put
into it: the tree itself, because its tag is one of five short ones, the
encrypted data under the keys and the position of the counter that encrypted it,
and the expected length because its width says how it was written.
-/

namespace CardAccess
namespace Messaging

/-! ## Session keys -/

namespace SessionKeys

theorem decrypt_encrypt (k : SessionKeys) (counter : Counter) (data : Bytes) :
    k.decrypt counter (k.encrypt counter data) = .ok data := by
  rw [decrypt, encrypt, Cipher.Cbc.decrypt?_encrypt (Cipher.Aes.lawful_cipher k.enc)]

theorem length_encrypt (k : SessionKeys) (counter : Counter) (data : Bytes) :
    (k.encrypt counter data).length = 16 * (data.length / 16 + 1) :=
  Cipher.Cbc.length_encrypt _ data

theorem length_checksum (k : SessionKeys) (counter : Counter) (input : Bytes) :
    (k.checksum counter input).length = checksumLength := by
  rw [checksum, List.length_take, Cipher.Block.length_toBytes]
  rfl

theorem verify_checksum (k : SessionKeys) (counter : Counter) (input : Bytes) :
    k.verify counter input (k.checksum counter input) = .ok () :=
  if_pos rfl

end SessionKeys

/-! ## Statuses -/

theorem Response.length_statusBytes (status : UInt16) :
    (Response.statusBytes status).length = Response.statusLength :=
  Bytes.length_fixed _ _

theorem Response.ofBytes_append (data : Bytes) (status : UInt16) :
    Response.ofBytes (data ++ Response.statusBytes status) = .ok ⟨data, status⟩ := by
  have hlength : (data ++ statusBytes status).length = data.length + statusLength := by
    rw [List.length_append, length_statusBytes]
  have hlong : ¬ data.length + statusLength < statusLength := by omega
  have hnumber : Bytes.toNat (statusBytes status) = status.toNat :=
    Bytes.toNat_fixed_of_lt status.toNat_lt
  rw [ofBytes, hlength, if_neg hlong, Nat.add_sub_cancel]
  dsimp only
  rw [List.take_left, List.drop_left, hnumber, UInt16.ofNat_toNat]

/-- A response is read from any bytes that have room for the status. -/
theorem Response.ofBytes_eq_ok {bytes : Bytes} {r : Response} :
    ofBytes bytes = .ok r ↔ statusLength ≤ bytes.length ∧ r.toBytes = bytes := by
  constructor
  · intro h
    rw [ofBytes] at h
    split at h
    · cases h
    next hlong =>
    cases h
    have hstatus : (bytes.drop (bytes.length - statusLength)).length = statusLength := by
      rw [List.length_drop]
      omega
    have hnumber := Bytes.toNat_lt (bytes.drop (bytes.length - statusLength))
    have hwidth : 256 ^ statusLength = 65536 := rfl
    rw [hstatus, hwidth] at hnumber
    refine ⟨Nat.le_of_not_lt hlong, ?_⟩
    rw [toBytes, statusBytes, UInt16.toNat_ofNat', Nat.mod_eq_of_lt hnumber]
    nth_rewrite 3 [← hstatus]
    rw [Bytes.fixed_toNat, List.take_append_drop]
  · rintro ⟨-, rfl⟩
    exact ofBytes_append r.data r.status

namespace DataObject

/-! ## Trees -/

/-- The tags of the objects of secure messaging. -/
def tags : List Tlv.Tag := [cryptogramTag, oddCryptogramTag, expectedTag, statusTag, checksumTag]

/-- An object of secure messaging whose length can be written. -/
structure Sendable (object : Tlv) : Prop where
  tag : object.tag ∈ tags
  raw : object.isConstructed = false
  length : object.value.length < 2 ^ 32

theorem tag_eq_short {tag : Tlv.Tag} (h : tag ∈ tags) :
    tag.Decodable ∧ tag.isConstructed = false ∧ tag.length = 1 := by
  simp only [tags, List.mem_cons, List.not_mem_nil, or_false] at h
  rcases h with rfl | rfl | rfl | rfl | rfl
  · exact ⟨.short 0x87 rfl, rfl, rfl⟩
  · exact ⟨.short 0x85 rfl, rfl, rfl⟩
  · exact ⟨.short 0x97 rfl, rfl, rfl⟩
  · exact ⟨.short 0x99 rfl, rfl, rfl⟩
  · exact ⟨.short 0x8E rfl, rfl, rfl⟩

theorem Sendable.wellFormed {object : Tlv} (h : Sendable object) :
    object.Regular ∧ object.levels = 1 := by
  cases object with
  | constructed tag children => exact absurd h.raw (by simp [Tlv.isConstructed])
  | primitive tag value =>
    obtain ⟨hdecodable, hkind, -⟩ := tag_eq_short h.tag
    exact ⟨⟨hdecodable, hkind, h.length⟩, rfl⟩

theorem wellFormed_of_sendable {objects : List Tlv} (h : ∀ object ∈ objects, Sendable object) :
    Tlv.RegularAll objects ∧ Tlv.levelsAll objects ≤ 1 := by
  induction objects with
  | nil => exact ⟨trivial, Nat.zero_le 1⟩
  | cons object objects ih =>
    obtain ⟨hregular, hlevels⟩ := (h object List.mem_cons_self).wellFormed
    obtain ⟨hregularAll, hlevelsAll⟩ := ih fun object hmem => h object (List.mem_cons_of_mem _ hmem)
    exact ⟨⟨hregular, hregularAll⟩, Nat.max_le.mpr ⟨Nat.le_of_eq hlevels, hlevelsAll⟩⟩

theorem parseAll_encodeAll {objects : List Tlv} (h : ∀ object ∈ objects, Sendable object) :
    Tlv.parseAll (Tlv.encodeAll objects) = .ok objects := by
  obtain ⟨hregular, hlevels⟩ := wellFormed_of_sendable h
  exact Tlv.parseAll_encodeAll hregular (Nat.le_trans hlevels (by decide))

theorem sendable_primitive {tag : Tlv.Tag} (htag : tag ∈ tags) {value : Bytes}
    (h : value.length < 2 ^ 32) : Sendable (.primitive tag value) :=
  ⟨htag, rfl, h⟩

theorem sendable_checksum (k : SessionKeys) (counter : Counter) (input : Bytes) :
    Sendable (.primitive checksumTag (k.checksum counter input)) := by
  apply sendable_primitive (by decide)
  rw [SessionKeys.length_checksum]
  decide

theorem sendable_status (status : UInt16) :
    Sendable (.primitive statusTag (Response.statusBytes status)) := by
  apply sendable_primitive (by decide)
  rw [Response.length_statusBytes]
  decide

/-! ## Encrypted data -/

theorem isCryptogram_cryptogram (ins : UInt8) (encrypted : Bytes) :
    isCryptogram (cryptogram ins encrypted) = true := by
  rw [cryptogram]
  split <;> rfl

theorem encryptedOf_cryptogram (ins : UInt8) (encrypted : Bytes) :
    encryptedOf (cryptogram ins encrypted) = encrypted := by
  rw [cryptogram]
  split <;> rfl

/-- The byte that names the padding is there with even instructions only. -/
theorem length_value_cryptogram (ins : UInt8) (encrypted : Bytes) :
    (cryptogram ins encrypted).value.length
      = encrypted.length + if ins % 2 = 0 then 1 else 0 := by
  rw [cryptogram]
  by_cases hins : ins % 2 = 0
  · rw [if_pos hins, if_pos hins]
    rfl
  · rw [if_neg hins, if_neg hins]
    rfl

theorem sendable_cryptogram (ins : UInt8) {encrypted : Bytes}
    (h : encrypted.length < 2 ^ 32 - 1) : Sendable (cryptogram ins encrypted) := by
  rw [cryptogram]
  split
  · apply sendable_primitive (by decide)
    rw [List.length_cons]
    omega
  · apply sendable_primitive (by decide)
    omega

/-! ## Expected lengths -/

theorem expectedValue?_zero (extended : Bool) : expectedValue? extended 0 = none := if_pos rfl

theorem length_expectedValue? {extended : Bool} {n : UInt32} {value : Bytes}
    (h : expectedValue? extended n = some value) : value.length ≤ 2 := by
  unfold expectedValue? at h
  split at h
  · cases h
  · split at h
    · cases h
      decide
    · split at h
      · cases h
        decide
      · split at h
        · cases h
          exact Nat.le_of_eq (Bytes.length_fixed 2 _)
        · cases h
          exact Nat.le_succ 1

/-- An expected length is in the object that its command puts there. -/
theorem expectedOf_expectedValue? {extended : Bool} {n : UInt32} (hpos : n ≠ 0)
    (hle : n ≤ Command.extendedExpectedMax)
    (hshort : extended = false → n ≤ Command.shortExpectedMax) :
    ∃ value, expectedValue? extended n = some value ∧
      expectedOf (.primitive expectedTag value) = .ok n := by
  rw [expectedValue?, if_neg hpos]
  by_cases hgreatest : n = Command.shortExpectedMax ∧ extended = false
  · rw [if_pos hgreatest, hgreatest.1]
    exact ⟨[0], rfl, rfl⟩
  rw [if_neg hgreatest]
  by_cases hmax : n = Command.extendedExpectedMax
  · rw [if_pos hmax, hmax]
    exact ⟨[0, 0], rfl, rfl⟩
  rw [if_neg hmax]
  cases extended with
  | true =>
    obtain ⟨high, low, hfield, hread⟩ := Command.extendedExpected_fixed hpos hle
    have hbelow : ¬ Command.extendedExpectedMax ≤ n := fun h => hmax (UInt32.le_antisymm hle h)
    rw [if_neg hbelow] at hfield
    rw [if_pos rfl, hfield]
    refine ⟨[high, low], rfl, ?_⟩
    show Except.ok (Command.extendedExpected high low) = _
    rw [hread]
  | false =>
    have hshort := hshort rfl
    have hread := Command.shortExpected_toUInt8 hpos hshort
    have hbelow : ¬ Command.shortExpectedMax ≤ n :=
      fun h => hgreatest ⟨UInt32.le_antisymm hshort h, rfl⟩
    rw [if_neg hbelow] at hread
    rw [if_neg Bool.false_ne_true]
    refine ⟨[n.toUInt8], rfl, ?_⟩
    show Except.ok (Command.shortExpected n.toUInt8) = _
    rw [hread]

end DataObject
end Messaging
end CardAccess

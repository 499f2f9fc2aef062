import CardAccess.CommandLine.InputFile
import CardAccess.Key.Private
import CardAccess.Proofs.Request.Generation
import CardAccess.Proofs.Text
import Mathlib.Data.List.Forall2

/-!
# What input files stand for

A file is taken for text if nothing but digits and blanks is in it.  No certificate, request or key
file is taken so: a certificate has its tag in front, which begins with `7F`, a request has that tag
or `67`, and a key file has the tag `02` of its version among its bytes.  None of these bytes is a
digit or a blank.  A text, in turn, stands for the bytes whose digits it holds, however they are
written and broken up: `decode_inverse`.
-/

namespace CardAccess

/-! ## Bytes that are no text -/

namespace PrivateKey

/-- A key file has a version in it. -/
theorem exists_version_of_ofPkcs8 {bytes : Bytes} {key : PrivateKey}
    (h : ofPkcs8 bytes = .ok key) : ∃ info version, Tlv.parse bytes = .ok info ∧
      version ∈ info.children ∧ version.tag = Tlv.Tag.integer := by
  rw [ofPkcs8] at h
  obtain ⟨info, hparse, h⟩ := bind_eq_ok.mp h
  split at h
  case h_2 => cases h
  next version algorithm wrapped others hchildren =>
  split at h
  · cases h
  next hversion =>
  obtain ⟨htag, -⟩ := not_or.mp hversion
  refine ⟨info, version, mapError_eq_ok.mp hparse, ?_, not_not.mp htag⟩
  rw [hchildren]
  exact List.mem_cons_self

end PrivateKey

namespace CommandLine
namespace InputFile

theorem decode_of_mem {bytes : Bytes} {byte : UInt8} (hmem : byte ∈ bytes)
    (hdigit : Hex.value? byte = none) (hblank : isBlank byte = false) :
    decode bytes = .ok bytes := by
  have htext : ¬ isDigits bytes = true := by
    rw [isDigits, Bool.and_eq_true, List.all_eq_true]
    rintro ⟨-, hall⟩
    have hbyte := hall byte hmem
    rw [hdigit, hblank] at hbyte
    cases hbyte
  rw [decode, if_neg htext]

/-- The bytes are read as a certificate, a request or a key. -/
inductive Accepted (bytes : Bytes) : Prop where
  | certificate (c : Certificate) (h : Certificate.ofBytes bytes = .ok c) : Accepted bytes
  | request (r : Request) (h : Request.ofBytes bytes = .ok r) : Accepted bytes
  | key (key : PrivateKey) (h : PrivateKey.ofPkcs8 bytes = .ok key) : Accepted bytes

theorem decode_of_accepted {bytes : Bytes} (h : Accepted bytes) : decode bytes = .ok bytes := by
  have hcertificate {node : Tlv} (hencodes : Tlv.Encodes node bytes)
      (htag : node.tag = Layout.cvCertificate) : decode bytes = .ok bytes := by
    have hmem : 0x7F ∈ node.tag.toBytes := by
      rw [htag]
      decide
    exact decode_of_mem (hencodes.tag_subset hmem) (by decide) (by decide)
  cases h with
  | certificate c h =>
    obtain ⟨hparse, htag⟩ := Generation.parse_of_ofBytes h
    exact hcertificate (Tlv.parse_eq_ok.mp hparse).2 htag
  | request r h =>
    obtain ⟨node, hparse, h⟩ := bind_eq_ok.mp h
    have hencodes := (Tlv.parse_eq_ok.mp (mapError_eq_ok.mp hparse)).2
    obtain ⟨-, ⟨htag, -⟩ | ⟨htag, -⟩⟩ := Request.ofTlv_eq_ok.mp h
    · have hmem : 0x67 ∈ node.tag.toBytes := by
        rw [htag]
        decide
      exact decode_of_mem (hencodes.tag_subset hmem) (by decide) (by decide)
    · exact hcertificate hencodes htag
  | key key h =>
    obtain ⟨info, version, hparse, hversion, htag⟩ := PrivateKey.exists_version_of_ofPkcs8 h
    have hmem : 0x02 ∈ version.tag.toBytes := by
      rw [htag]
      decide
    exact decode_of_mem ((Tlv.parse_eq_ok.mp hparse).2.child_tag_subset hversion hmem) (by decide)
      (by decide)

/-! ## Texts -/

/-- The values of the digits of the bytes, the high half of each first. -/
def digits (bytes : Bytes) : List Nat := bytes.flatMap fun byte => [byte.toNat / 16, byte.toNat % 16]

/-- The byte is the code of the digit, in either case. -/
def IsDigit (n : Nat) (byte : UInt8) : Prop :=
  byte.toNat = (Hex.digit n).toNat ∨ byte.toNat = (Hex.upperDigit n).toNat

instance (n : Nat) (byte : UInt8) : Decidable (IsDigit n byte) :=
  inferInstanceAs (Decidable (_ ∨ _))

/-- `Spells text values`: the text is the digits with these values, and blanks anywhere: spaces,
tabs, line feeds, form feeds or carriage returns. -/
inductive Spells : Bytes → List Nat → Prop where
  | nil : Spells [] []
  | blank (byte : UInt8) (text : Bytes) (values : List Nat)
      (h : byte ∈ [0x20, 0x09, 0x0A, 0x0C, 0x0D]) (rest : Spells text values) :
      Spells (byte :: text) values
  | digit (byte : UInt8) (text : Bytes) (n : Nat) (values : List Nat) (h : IsDigit n byte)
      (rest : Spells text values) : Spells (byte :: text) (n :: values)

theorem lt_of_mem_digits {bytes : Bytes} : ∀ n ∈ digits bytes, n < 16 := by
  intro n hn
  obtain ⟨byte, -, hn⟩ := List.mem_flatMap.mp hn
  have hbyte := byte.toNat_lt
  simp only [List.mem_cons, List.not_mem_nil, or_false] at hn
  omega

theorem value?_of_isDigit {n : Nat} {byte : UInt8} (hn : n < 16) (h : IsDigit n byte) :
    Hex.value? byte = some n := by
  have hlower : (Hex.digit n).toNat = if n < 10 then 0x30 + n else 0x61 + (n - 10) := by
    rw [Hex.digit, Text.toNat_ofNat (by split <;> omega)]
  have hupper : (Hex.upperDigit n).toNat = if n < 10 then 0x30 + n else 0x41 + (n - 10) := by
    rw [Hex.upperDigit, Text.toNat_ofNat (by split <;> omega)]
  rw [IsDigit, hlower, hupper] at h
  grind [Hex.value?]

theorem isBlank_of_value? {n : Nat} {byte : UInt8} (h : Hex.value? byte = some n) :
    isBlank byte = false := by
  have hall : ∀ byte, (Hex.value? byte).isSome = true → isBlank byte = false :=
    Bytes.forall_byte (by decide +kernel)
  exact hall byte (Option.isSome_of_eq_some h)

theorem isBlank_of_mem {byte : UInt8} (h : byte ∈ [0x20, 0x09, 0x0A, 0x0C, 0x0D]) :
    isBlank byte = true := by
  simp only [List.mem_cons, List.not_mem_nil, or_false] at h
  rcases h with rfl | rfl | rfl | rfl | rfl <;> rfl

section

variable {text bytes : Bytes} {values : List Nat}

/-- Without the blanks the digits are left. -/
theorem Spells.forall₂ (h : Spells text values) (hvalues : ∀ n ∈ values, n < 16) :
    List.Forall₂ (fun byte n => Hex.value? byte = some n) (text.filter fun byte => !isBlank byte)
      values := by
  induction h with
  | nil => exact .nil
  | blank byte text values h rest ih =>
    rw [List.filter_cons_of_neg (by simp [isBlank_of_mem h])]
    exact ih hvalues
  | digit byte text n values h rest ih =>
    obtain ⟨hn, hvalues⟩ := List.forall_mem_cons.mp hvalues
    have hvalue := value?_of_isDigit hn h
    rw [List.filter_cons_of_pos (by simp [isBlank_of_value? hvalue])]
    exact .cons hvalue (ih hvalues)

theorem Spells.all (h : Spells text values) (hvalues : ∀ n ∈ values, n < 16) :
    ∀ byte ∈ text, ((Hex.value? byte).isSome || isBlank byte) = true := by
  induction h with
  | nil => exact fun _ h => nomatch h
  | blank byte text values h rest ih =>
    refine List.forall_mem_cons.mpr ⟨?_, ih hvalues⟩
    rw [isBlank_of_mem h, Bool.or_true]
  | digit byte text n values h rest ih =>
    obtain ⟨hn, hvalues⟩ := List.forall_mem_cons.mp hvalues
    refine List.forall_mem_cons.mpr ⟨?_, ih hvalues⟩
    rw [value?_of_isDigit hn h]
    rfl

/-- Two digits at a time make a byte. -/
theorem decodePairs_of_values
    (h : List.Forall₂ (fun byte n => Hex.value? byte = some n) text (digits bytes))
    (position : Nat) : Hex.decodePairs position text = .ok bytes := by
  induction bytes generalizing text position with
  | nil =>
    cases h
    rfl
  | cons byte bytes ih =>
    have hdigits : digits (byte :: bytes)
        = byte.toNat / 16 :: byte.toNat % 16 :: digits bytes := rfl
    have hbyte : 16 * (byte.toNat / 16) + byte.toNat % 16 = byte.toNat := by omega
    rw [hdigits] at h
    cases h with
    | cons hhigh h =>
      cases h with
      | cons hlow h =>
        simp only [Hex.decodePairs, hhigh, hlow, ih h, hbyte, UInt8.ofNat_toNat]

theorem length_digits (bytes : Bytes) : (digits bytes).length = 2 * bytes.length := by
  induction bytes with
  | nil => rfl
  | cons byte bytes ih =>
    show (digits bytes).length + 2 = 2 * (bytes.length + 1)
    omega

theorem decode_of_spells (h : Spells text (digits bytes)) : decode text = .ok bytes := by
  by_cases hempty : text = []
  · subst hempty
    have hlength := (h.forall₂ lt_of_mem_digits).length_eq
    rw [length_digits] at hlength
    obtain rfl : bytes = [] := List.length_eq_zero_iff.mp (by simpa using hlength.symm)
    rfl
  · have hvalues := h.forall₂ lt_of_mem_digits
    have heven : ¬ (text.filter fun byte => !isBlank byte).length % 2 = 1 := by
      rw [hvalues.length_eq, length_digits]
      omega
    have htext : isDigits text = true := by
      rw [isDigits, Bool.and_eq_true, List.all_eq_true]
      exact ⟨by simpa using hempty, h.all lt_of_mem_digits⟩
    rw [decode, if_pos htext, Hex.decode, if_neg heven]
    exact decodePairs_of_values hvalues 0

end

/-- A file that is read as a certificate, a request or a key is taken as it is, and a text is taken
for the bytes that it spells. -/
theorem decode_inverse :
    (∀ bytes, Accepted bytes → decode bytes = .ok bytes) ∧
    ∀ text bytes, Spells text (digits bytes) → decode text = .ok bytes :=
  ⟨fun _ => decode_of_accepted, fun _ _ => decode_of_spells⟩

/-- The smallest certificate, the smallest request with a wrapper, the key with the scalar one, and a
text with both cases and a blank between the digits of a byte. -/
theorem decode_inverse_smallest :
    let certificate : Bytes := [0x7F, 0x21, 0x03, 0x7F, 0x4E, 0x00]
    let request : Bytes := [0x67, 0x06, 0x7F, 0x21, 0x03, 0x7F, 0x4E, 0x00]
    let key : Bytes := [0x30, 0x23, 0x02, 0x01, 0x00, 0x30, 0x14, 0x06, 0x07, 0x2A, 0x86, 0x48, 0xCE,
      0x3D, 0x02, 0x01, 0x06, 0x09, 0x2B, 0x24, 0x03, 0x03, 0x02, 0x08, 0x01, 0x01, 0x07, 0x04, 0x08,
      0x30, 0x06, 0x02, 0x01, 0x01, 0x04, 0x01, 0x01]
    let text : Bytes := [0x09, 0x37, 0x66, 0x43, 0x0A, 0x65]
    decode certificate = .ok certificate ∧ decode request = .ok request ∧ decode key = .ok key ∧
      Spells text (digits [0x7F, 0xCE]) ∧ decode text = .ok [0x7F, 0xCE] := by
  intro certificate request key text
  obtain ⟨hbinary, htext⟩ := decode_inverse
  have hcertificate : ∃ c, Certificate.ofBytes certificate = .ok c :=
    ⟨⟨.constructed Layout.cvCertificate [.constructed Layout.certificateBody []]⟩,
      by decide +kernel⟩
  have hrequest : ∃ r, Request.ofBytes request = .ok r :=
    ⟨⟨.constructed Layout.authentication
        [.constructed Layout.cvCertificate [.constructed Layout.certificateBody []]],
      .authentication⟩, by decide +kernel⟩
  have hkey : ∃ k, PrivateKey.ofPkcs8 key = .ok k :=
    ⟨⟨NamedCurve.brainpoolP256r1.domain, Bytes.fixed 32 1⟩, by decide +kernel⟩
  have hspells : Spells text (digits [0x7F, 0xCE]) :=
    .blank _ _ _ (by decide) (.digit _ _ _ _ (by decide) (.digit _ _ _ _ (by decide)
      (.digit _ _ _ _ (by decide) (.blank _ _ _ (by decide) (.digit _ _ _ _ (by decide) .nil)))))
  obtain ⟨c, hc⟩ := hcertificate
  obtain ⟨r, hr⟩ := hrequest
  obtain ⟨k, hk⟩ := hkey
  exact ⟨hbinary _ (.certificate c hc), hbinary _ (.request r hr), hbinary _ (.key k hk), hspells,
    htext _ _ hspells⟩

end InputFile
end CommandLine
end CardAccess

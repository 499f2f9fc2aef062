import CardAccess.Proofs.Request.Counting
import CardAccess.Proofs.Request.Generation
import CardAccess.Proofs.Text
import Mathlib.Data.Bool.AllAny

/-!
# References in a renewal

A renewal takes the reference of the certificate to renew into the wrapper, and the
next reference into the body.  Both are read as ISO 8859-1 and written as UTF-8, so a
byte of `0x80` or more becomes two.  `Renewed` says which bytes come out and when they
are the ones that went in: the wrapper keeps a reference exactly if it is ASCII, and the
body keeps all but the counter exactly if what stands before the counter is ASCII and
nothing else is left in the new counter.
-/

namespace CardAccess
namespace HolderReference

open Text (IsAscii latin1 ofLatin1 toUtf8)

/-! ## The next counter -/

theorem isAscii_of_successor? {c next : Char} (h : successor? c = some next) : IsAscii next := by
  rw [successor?] at h
  split at h
  · next hdigit =>
    cases h
    rw [IsAscii, Text.toNat_ofNat (by omega)]
    omega
  · cases h

theorem isAscii_increaseReversed {cs : List Char} (h : ∀ c ∈ cs, IsAscii c) :
    ∀ c ∈ increaseReversed cs, IsAscii c := by
  induction cs with
  | nil => exact h
  | cons last front ih =>
    rw [List.forall_mem_cons] at h
    rw [increaseReversed]
    cases hnext : successor? last with
    | some next => exact List.forall_mem_cons.mpr ⟨isAscii_of_successor? hnext, h.2⟩
    | none =>
      have hzero : IsAscii '0' := by decide
      exact List.forall_mem_cons.mpr ⟨hzero, ih h.2⟩

/-- Counting on never makes an ASCII counter anything else. -/
theorem isAscii_nextCounter {counter : List Char} (h : ∀ c ∈ counter, IsAscii c) :
    ∀ c ∈ nextCounter counter, IsAscii c := by
  rw [nextCounter]
  split
  · exact List.all_iff_forall_prop.mp (by decide)
  · intro c hc
    have hreversed : ∀ c ∈ counter.reverse, IsAscii c := fun c hc => h c (List.mem_reverse.mp hc)
    exact isAscii_increaseReversed hreversed c (List.mem_reverse.mp hc)

/-! ## The bytes of the next reference -/

/-- The bytes before the counter. -/
def front (bytes : Bytes) : Bytes := bytes.take (bytes.length - counterLength)

/-- The bytes of the counter. -/
def counter (bytes : Bytes) : Bytes := bytes.drop (bytes.length - counterLength)

/-- The characters of the reference after the one that is spelled by the bytes. -/
def following (bytes : Bytes) : List Char :=
  latin1 (front bytes) ++ nextCounter (latin1 (counter bytes))

theorem length_latin1_counter {bytes : Bytes} (h : counterLength ≤ bytes.length) :
    (latin1 (counter bytes)).length = counterLength := by
  rw [latin1, List.length_map, counter, List.length_drop]
  omega

theorem increase_ofLatin1 {bytes : Bytes} {reference : String} :
    increase (ofLatin1 bytes) = .ok reference ↔
      counterLength ≤ bytes.length ∧ reference = String.ofList (following bytes) := by
  by_cases hlong : counterLength ≤ bytes.length
  · have hparts : latin1 bytes = latin1 (front bytes) ++ latin1 (counter bytes) := by
      rw [latin1, latin1, latin1, ← List.map_append, front, counter, List.take_append_drop]
    rw [Text.ofLatin1_eq, hparts, increase_append (length_latin1_counter hlong), ← following]
    constructor
    · intro h
      cases h
      exact ⟨hlong, rfl⟩
    · rintro ⟨-, rfl⟩
      rfl
  · have hlength : (ofLatin1 bytes).length = bytes.length := by
      rw [Text.ofLatin1_eq, String.length_ofList, latin1, List.length_map]
    rw [increase_error (by omega)]
    constructor
    · intro h
      cases h
    · intro h
      exact absurd h.1 hlong

/-- The bytes are those of before but for the last five. -/
structure KeepsFront (before after : Bytes) : Prop where
  length : after.length = before.length
  front : after.take (before.length - counterLength) = front before

/-- What a renewal makes of a reference that is spelled by the bytes `before`: the bytes
`outer` in the wrapper and the bytes `holder` in the body. -/
structure Renewed (before outer holder : Bytes) : Prop where
  long : counterLength ≤ before.length
  outer_eq : outer = toUtf8 (ofLatin1 before)
  holder_eq : holder = toUtf8 (String.ofList (following before))
  outer_iff : outer = before ↔ ∀ byte ∈ before, byte.toNat < 0x80
  holder_iff : KeepsFront before holder ↔ (∀ byte ∈ front before, byte.toNat < 0x80) ∧
    ∀ c ∈ nextCounter (latin1 (counter before)), IsAscii c
  of_ascii : (∀ byte ∈ before, byte.toNat < 0x80) → outer = before ∧ KeepsFront before holder

section bytes

variable {bytes : Bytes}

theorem length_following (h : counterLength ≤ bytes.length) :
    (following bytes).length = bytes.length := by
  rw [following, List.length_append, length_nextCounter (length_latin1_counter h), latin1,
    List.length_map, front, List.length_take]
  omega

theorem keepsFront_iff (h : counterLength ≤ bytes.length) :
    KeepsFront bytes (toUtf8 (String.ofList (following bytes))) ↔
      (∀ byte ∈ front bytes, byte.toNat < 0x80) ∧
        ∀ c ∈ nextCounter (latin1 (counter bytes)), IsAscii c := by
  have hlength := length_following h
  rw [← Text.isAscii_latin1, ← List.forall_mem_append, ← following]
  constructor
  · -- the length alone tells that every character has one byte
    intro hkeeps
    exact (Text.length_toUtf8 _).2.mp (hkeeps.length.trans hlength.symm)
  · intro hascii
    refine ⟨((Text.length_toUtf8 _).2.mpr hascii).trans hlength, ?_⟩
    have hfront : ∀ c ∈ latin1 (front bytes), IsAscii c := fun c hc =>
      hascii c (List.mem_append_left _ hc)
    have hbytes : toUtf8 (ofLatin1 (front bytes)) = front bytes :=
      Text.toUtf8_ofLatin1_eq.mpr (Text.isAscii_latin1.mp hfront)
    rw [Text.ofLatin1_eq, Text.toUtf8_of_isAscii hfront] at hbytes
    have htake : (front bytes).length = bytes.length - counterLength := by
      rw [front, List.length_take]
      omega
    rw [Text.toUtf8_of_isAscii hascii, following, List.map_append, hbytes, ← htake,
      List.take_left]

theorem renewed (h : counterLength ≤ bytes.length) :
    Renewed bytes (toUtf8 (ofLatin1 bytes)) (toUtf8 (String.ofList (following bytes))) := by
  refine ⟨h, rfl, rfl, Text.toUtf8_ofLatin1_eq, keepsFront_iff h, fun hascii => ?_⟩
  have hfront : ∀ byte ∈ front bytes, byte.toNat < 0x80 := fun byte hbyte =>
    hascii byte (List.mem_of_mem_take hbyte)
  have hcounter : ∀ byte ∈ counter bytes, byte.toNat < 0x80 := fun byte hbyte =>
    hascii byte (List.mem_of_mem_drop hbyte)
  exact ⟨Text.toUtf8_ofLatin1_eq.mpr hascii, (keepsFront_iff h).mpr
    ⟨hfront, isAscii_nextCounter (Text.isAscii_latin1.mpr hcounter)⟩⟩

end bytes

end HolderReference

namespace Generation

open KeyService (Procedure)
open HolderReference (Renewed KeepsFront)

variable {input : GenerationInput}

/-- A renewal without a request signer, an additional reference and a sequence number
writes the reference of the certificate to renew into the wrapper and the next one into
the body, both as UTF-8. -/
theorem renewed_of_generate {σ : Type} (service : KeyService σ) (s : σ) {bytes : Bytes}
    (hroot : Certificate.ofBytes bytes = .ok input.root) {old : Certificate}
    (hold : input.old = some old) {reference : Tlv}
    (hreference : old.part? .holderReference = some reference)
    (hsigner : input.signerAlias = none)
    (hgiven : input.additional.bind AdditionalInput.reference? = none)
    (hnumber : input.nextNumber = none) {data : GeneratedRequest}
    (h : ((generate input).run.run service s).1 = .ok data) :
    ∃ outer holder, data.request.value? .outerCaReference = some outer ∧
      data.request.value? .holderReference = some holder ∧
      Renewed reference.value outer holder := by
  obtain ⟨hregular, htag⟩ := regular_of_ofBytes hroot
  have hyields : Procedure.Yields service s (generate input) data
      ((generate input).run.run service s).2 := Prod.ext h rfl
  obtain ⟨oldReference, prepared, next, rootReference, hread, hprepare, hkept, hwrapped⟩ :=
    generate_prepares hyields
  obtain ⟨hnext, -, hholder⟩ := prepare_eq_ok hregular htag hprepare
  have hspelled : old.holderReference = .ok (Text.ofLatin1 reference.value) := by
    rw [Certificate.holderReference, Certificate.required, hreference]
    rfl
  have hrenewal : isWrapped input = true := by
    rw [isWrapped, hold, Option.isSome_some, Bool.or_true]
  -- the signer is the holder of the certificate to renew
  obtain ⟨signer, hissigner, houter⟩ := hwrapped hrenewal
  rw [IsSigner, hsigner] at hissigner
  obtain ⟨_, hsame, hsignerread⟩ := hissigner
  cases hold.symm.trans hsame
  cases hsignerread.symm.trans hspelled
  -- and the new reference follows on the same one
  have hisreference := isReference_of_newReference hread hnext
  rw [IsReference, hgiven] at hisreference
  obtain ⟨_, _, hsame, holdread, hincreased⟩ := hisreference
  cases hold.symm.trans hsame
  cases holdread.symm.trans hspelled
  rw [hnumber] at hincreased
  obtain ⟨hlong, rfl⟩ := HolderReference.increase_ofLatin1.mp hincreased
  rw [Request.value?, ← hkept .holderReference _ rfl (by decide)] at hholder
  exact ⟨_, _, houter, hholder, HolderReference.renewed hlong⟩

/-- A reference that is ASCII, with the counter at one. -/
def asciiReference : Bytes := [0x41, 0x30, 0x30, 0x30, 0x30, 0x31]

/-- A reference that begins with `É`, with the counter at one. -/
def accentedReference : Bytes := [0xC9, 0x30, 0x30, 0x30, 0x30, 0x31]

/-- The renewal of a certificate with the reference. -/
def referenceRenewal (reference : Bytes) : GenerationInput :=
  ⟨smallCertificate, some (smallCertificateWith reference []), none, none, none, false, none, none,
    none⟩

theorem renewed_of_generate_ascii : ∃ data holder,
    ((generate (referenceRenewal asciiReference)).run.run (fixedService [3, 2]) ()).1 = .ok data ∧
      data.request.value? .outerCaReference = some asciiReference ∧
      data.request.value? .holderReference = some holder ∧ KeepsFront asciiReference holder := by
  have hroot : Certificate.ofBytes smallCertificate.encode
      = .ok (referenceRenewal asciiReference).root := by
    decide +kernel
  have hreference : (smallCertificateWith asciiReference []).part? .holderReference
      = some (.primitive Layout.holderReference asciiReference) := by
    decide
  have hok : ((generate (referenceRenewal asciiReference)).run.run
      (fixedService [3, 2]) ()).1.toOption.any fun _ => true := by
    decide +kernel
  obtain ⟨data, h, -⟩ := exists_ok_of_any hok
  obtain ⟨outer, holder, houter, hholder, hrenewed⟩ :=
    renewed_of_generate (fixedService [3, 2]) () hroot rfl hreference rfl rfl rfl h
  obtain ⟨hsame, hkeeps⟩ := hrenewed.of_ascii (List.all_iff_forall_prop.mp (by decide))
  exact ⟨data, holder, h, houter.trans (congrArg some hsame), hholder, hkeeps⟩

/-- The accent takes two bytes in the request where the certificate had one. -/
theorem accented_reference_changed :
    Certificate.ofBytes smallCertificate.encode = .ok smallCertificate ∧
      Certificate.ofBytes (smallCertificateWith accentedReference []).encode
        = .ok (smallCertificateWith accentedReference []) ∧
      ∃ data, ((generate (referenceRenewal accentedReference)).run.run
          (fixedService [3, 6]) ()).1 = .ok data ∧
        data.request.value? .outerCaReference
          = some [0xC3, 0x89, 0x30, 0x30, 0x30, 0x30, 0x31] ∧
        data.request.value? .holderReference
          = some [0xC3, 0x89, 0x30, 0x30, 0x30, 0x30, 0x32] ∧
        ¬ KeepsFront accentedReference [0xC3, 0x89, 0x30, 0x30, 0x30, 0x30, 0x32] := by
  refine ⟨by decide +kernel, by decide +kernel, ?_⟩
  have hchanged : ((generate (referenceRenewal accentedReference)).run.run
      (fixedService [3, 6]) ()).1.toOption.any fun data =>
        data.request.value? .outerCaReference == some [0xC3, 0x89, 0x30, 0x30, 0x30, 0x30, 0x31] &&
          data.request.value? .holderReference
            == some [0xC3, 0x89, 0x30, 0x30, 0x30, 0x30, 0x32] := by
    decide +kernel
  obtain ⟨data, h, hvalues⟩ := exists_ok_of_any hchanged
  obtain ⟨houter, hholder⟩ := Bool.and_eq_true_iff.mp hvalues
  exact ⟨data, h, beq_iff_eq.mp houter, beq_iff_eq.mp hholder, fun hkeeps => nomatch hkeeps.length⟩

end Generation
end CardAccess

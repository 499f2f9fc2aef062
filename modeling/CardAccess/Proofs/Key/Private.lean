import CardAccess.Key.Private
import CardAccess.Proofs.Key.Checked
import CardAccess.Proofs.ObjectId
import CardAccess.Proofs.Tlv.Fitting

/-!
# Key files read back

A key file names a curve where the key has the numbers of one.  The name is found by the equation
and the base point, and whoever reads the file takes the order and the cofactor from the curve: a
domain that was stated with other ones is not the domain that comes back, and then the scalar may
be out of range.  `ofPkcs8_toPkcs8` says what is read of a file in any case, and when it is the
key that was written.
-/

namespace CardAccess

namespace NamedCurve

variable {curve : NamedCurve} {d : Domain}

theorem ofObjectId?_objectId (curve : NamedCurve) : ofObjectId? curve.objectId = some curve := by
  cases curve <;> rfl

theorem ofBytes_objectId (curve : NamedCurve) :
    ObjectId.ofBytes curve.objectId.content = .ok curve.objectId := by
  cases curve <;> rfl

theorem namedCurve?_domain (curve : NamedCurve) : curve.domain.namedCurve? = some curve := by
  cases curve <;> decide +kernel

/-- A domain has the name of the curve whose equation and base point it has, with whichever order
and cofactor. -/
theorem eq_of_namedCurve? (h : d.namedCurve? = some curve) :
    d = { curve.domain with order := d.order, cofactor := d.cofactor } := by
  have hfound := List.find?_some h
  simp only [Bool.and_eq_true, beq_iff_eq] at hfound
  obtain ⟨⟨⟨hp, ha⟩, hb⟩, hgenerator⟩ := hfound
  obtain ⟨p, a, b, generator, order, cofactor⟩ := d
  cases hp
  cases ha
  cases hb
  cases hgenerator
  rfl

end NamedCurve

namespace PrivateKey

variable {key : PrivateKey} {d : Domain} {curve : NamedCurve} {bytes out scalar : Bytes}

/-! ## What is written -/

def scalarTlv (scalar : Bytes) : Tlv :=
  .constructed Tlv.Tag.sequence
    [.primitive Tlv.Tag.integer [0x01], .primitive Tlv.Tag.octetString scalar]

def infoTlv (curve : NamedCurve) (scalar : Bytes) : Tlv :=
  .constructed Tlv.Tag.sequence
    [.primitive Tlv.Tag.integer [0x00],
      .constructed Tlv.Tag.sequence [ecPublicKeyId.toTlv, curve.objectId.toTlv],
      .primitive Tlv.Tag.octetString (scalarTlv scalar).encode]

theorem toPkcs8_eq_ok : key.toPkcs8 = .ok out ↔
    ∃ curve, key.domain.namedCurve? = some curve ∧ (infoTlv curve key.scalar).encode = out := by
  rw [toPkcs8]
  cases key.domain.namedCurve? with
  | none => exact ⟨(nomatch ·), fun ⟨_, h, _⟩ => nomatch h⟩
  | some curve =>
    constructor
    · intro h
      cases h
      exact ⟨curve, rfl, rfl⟩
    · rintro ⟨_, h, rfl⟩
      cases h
      rfl

theorem fits_scalarTlv (scalar : Bytes) : (scalarTlv scalar).Fits 2 := by
  refine Tlv.fits_constructed.mpr ⟨by decide, rfl, by decide, ?_⟩
  rw [List.forall_mem_cons, List.forall_mem_singleton]
  exact ⟨Tlv.fits_primitive.mpr ⟨by decide, rfl, by decide⟩,
    Tlv.fits_primitive.mpr ⟨by decide, rfl, by decide⟩⟩

theorem fits_infoTlv (curve : NamedCurve) (scalar : Bytes) : (infoTlv curve scalar).Fits 3 := by
  have hprimitive {tag : Tlv.Tag} {value : Bytes} {room : Nat} (htag : tag.Decodable)
      (hkind : tag.isConstructed = false) (hroom : 0 < room) :
      (Tlv.primitive tag value).Fits room :=
    Tlv.fits_primitive.mpr ⟨htag, hkind, hroom⟩
  have halgorithm : (Tlv.constructed Tlv.Tag.sequence
      [ecPublicKeyId.toTlv, curve.objectId.toTlv]).Fits 2 := by
    refine Tlv.fits_constructed.mpr ⟨by decide, rfl, by decide, ?_⟩
    rw [List.forall_mem_cons, List.forall_mem_singleton]
    exact ⟨hprimitive (by decide) rfl (by decide), hprimitive (by decide) rfl (by decide)⟩
  refine Tlv.fits_constructed.mpr ⟨by decide, rfl, by decide, ?_⟩
  rw [List.forall_mem_cons, List.forall_mem_cons, List.forall_mem_singleton]
  exact ⟨hprimitive (by decide) rfl (by decide), halgorithm,
    hprimitive (by decide) rfl (by decide)⟩

/-! ## What is read of it -/

theorem length_scalarTlv_le (curve : NamedCurve) (scalar : Bytes) :
    (scalarTlv scalar).encode.length ≤ (infoTlv curve scalar).encode.length := by
  have hwrapped : Tlv.primitive Tlv.Tag.octetString (scalarTlv scalar).encode
      ∈ (infoTlv curve scalar).children :=
    List.mem_cons_of_mem _ (List.mem_cons_of_mem _ List.mem_cons_self)
  have hle := Tlv.encodedLength_le_encodedLengthAll hwrapped
  have hchildren := Tlv.encodedLengthAll_le_valueLength (infoTlv curve scalar)
  rw [Tlv.encodedLength_eq, Tlv.valueLength] at hle
  rw [Tlv.length_encode (infoTlv curve scalar), Tlv.encodedLength_eq (infoTlv curve scalar)]
  omega

/-- A key file is read by the scalar in it and the curve that it names. -/
theorem ofPkcs8_encode (hlength : (infoTlv curve scalar).encode.length < 2 ^ 32) :
    ofPkcs8 (infoTlv curve scalar).encode = ofScalar curve.domain scalar := by
  have hinner := Nat.lt_of_le_of_lt (length_scalarTlv_le curve scalar) hlength
  have hinfo := (fits_infoTlv curve scalar).parse_encode_of_le (by decide) hlength
  have hscalar := (fits_scalarTlv scalar).parse_encode_of_le (by decide) hinner
  have hkeyId : ecPublicKeyId.toTlv.toObjectId.mapError Error.tlv = .ok ecPublicKeyId := rfl
  have hcurveId : curve.objectId.toTlv.toObjectId.mapError Error.tlv = .ok curve.objectId := by
    rw [ObjectId.toObjectId_toTlv, curve.ofBytes_objectId]
    rfl
  have hwrapped : (Tlv.primitive Tlv.Tag.octetString (scalarTlv scalar).encode).tag
      = Tlv.Tag.octetString := rfl
  have hvalue : (Tlv.primitive Tlv.Tag.octetString (scalarTlv scalar).encode).value
      = (scalarTlv scalar).encode := rfl
  rw [ofPkcs8, bind_of_ok (mapError_eq_ok.mpr hinfo)]
  dsimp only [infoTlv, Tlv.children]
  rw [if_neg (by decide), bind_of_ok hkeyId, if_neg (by decide), bind_of_ok hcurveId,
    curve.ofObjectId?_objectId]
  dsimp only
  rw [if_neg (not_not.mpr hwrapped), hvalue, bind_of_ok (mapError_eq_ok.mpr hscalar)]
  rfl

/-- A scalar in range is kept in the width of the order, and taken again it stays as it is. -/
theorem ofScalar_scalar (h : ofScalar d bytes = .ok key) : ofScalar d key.scalar = .ok key := by
  rw [ofScalar] at h
  split at h
  · cases h
  next hrange =>
  cases h
  have hwidth : bytes.toNat < 256 ^ d.orderLength :=
    Nat.lt_trans (by omega) (lt_pow_byteLength d.order)
  rw [ofScalar, Bytes.toNat_fixed_of_lt hwidth, if_neg hrange]

theorem length_scalar (h : ofScalar d bytes = .ok key) : key.scalar.length = d.orderLength := by
  rw [ofScalar] at h
  split at h
  · cases h
  · cases h
    exact Bytes.length_fixed _ _

/-- A key file on a named curve is short. -/
theorem length_infoTlv_lt (hscalar : scalar.length = curve.domain.orderLength) :
    (infoTlv curve scalar).encode.length < 2 ^ 32 := by
  have hwidth : scalar.length ≤ 64 := by
    rw [hscalar]
    cases curve <;> decide +kernel
  have hheader (t : Tlv) (htag : t.tag.length = 1) : t.encodedLength ≤ 6 + t.valueLength := by
    have hfield := Tlv.Length.fieldLength_le_five t.valueLength
    rw [Tlv.encodedLength_eq]
    omega
  let octets : Tlv := .primitive Tlv.Tag.octetString scalar
  let algorithm : Tlv := .constructed Tlv.Tag.sequence [ecPublicKeyId.toTlv, curve.objectId.toTlv]
  let wrapped : Tlv := .primitive Tlv.Tag.octetString (scalarTlv scalar).encode
  have halgorithm : algorithm.encodedLength = 22 := by
    cases curve <;> rfl
  have hoctets : octets.encodedLength ≤ 6 + scalar.length := hheader octets rfl
  have hscalar : (scalarTlv scalar).encodedLength ≤ 6 + (3 + octets.encodedLength) :=
    hheader (scalarTlv scalar) rfl
  have hwrapped : wrapped.encodedLength ≤ 6 + (scalarTlv scalar).encode.length :=
    hheader wrapped rfl
  have hinfo : (infoTlv curve scalar).encodedLength
      ≤ 6 + (3 + (algorithm.encodedLength + wrapped.encodedLength)) :=
    hheader (infoTlv curve scalar) rfl
  rw [Tlv.length_encode] at hwrapped ⊢
  omega

/-! ## Reading back -/

/-- A key that is written is read on the curve that the file names, with the scalar as far as it is
in range there.  This is the same key exactly if the order and the cofactor of its domain are those
of the curve: the name is found without them. -/
theorem ofPkcs8_toPkcs8 (h : ofScalar d bytes = .ok key) (hout : key.toPkcs8 = .ok out) :
    ∃ curve, d.namedCurve? = some curve ∧
      (out.length < 2 ^ 32 → ofPkcs8 out = ofScalar curve.domain key.scalar) ∧
      ((∃ key', ofPkcs8 out = .ok key' ∧ key'.scalar = key.scalar ∧ key'.domain = key.domain) ↔
        d.order = curve.domain.order ∧ d.cofactor = curve.domain.cofactor) := by
  obtain ⟨curve, hcurve, rfl⟩ := toPkcs8_eq_ok.mp hout
  have hdomain := domain_of_ofScalar h
  rw [hdomain] at hcurve ⊢
  refine ⟨curve, hcurve, ofPkcs8_encode, ?_, ?_⟩
  · rintro ⟨key', hread, -, hsame⟩
    obtain ⟨curve', hcurve'⟩ := named_of_ofPkcs8 hread
    have hnamed : d.namedCurve? = some curve' := by
      rw [← hsame, hcurve', NamedCurve.namedCurve?_domain]
    cases hcurve.symm.trans hnamed
    rw [← hsame, hcurve']
    exact ⟨rfl, rfl⟩
  · rintro ⟨horder, hcofactor⟩
    have hwhole : d = curve.domain := by
      rw [NamedCurve.eq_of_namedCurve? hcurve, horder, hcofactor]
    rw [hwhole] at h hdomain ⊢
    refine ⟨key, ?_, rfl, hdomain⟩
    rw [ofPkcs8_encode (length_infoTlv_lt (length_scalar h)), ofScalar_scalar h]

/-- The scalar seven on a curve under its name. -/
theorem ofPkcs8_toPkcs8_named :
    ∃ key out, ofScalar NamedCurve.brainpoolP256r1.domain [0x07] = .ok key ∧
      key.toPkcs8 = .ok out ∧ ofPkcs8 out = .ok key := by
  have hnamed := NamedCurve.namedCurve?_domain .brainpoolP256r1
  have hkey : ofScalar NamedCurve.brainpoolP256r1.domain [0x07]
      = .ok ⟨NamedCurve.brainpoolP256r1.domain, Bytes.fixed 32 7⟩ := by decide +kernel
  have hout := toPkcs8_eq_ok.mpr ⟨_, (congrArg _ (domain_of_ofScalar hkey)).trans hnamed, rfl⟩
  obtain ⟨curve, hcurve, -, hsame⟩ := ofPkcs8_toPkcs8 hkey hout
  cases hnamed.symm.trans hcurve
  obtain ⟨⟨domain, scalar⟩, hread, rfl, rfl⟩ := hsame.mpr ⟨rfl, rfl⟩
  exact ⟨_, _, hkey, hout, hread⟩

/-- Twice the order passes the checks as an order does.  The scalar above the order of the curve
is a key then, and its file is refused. -/
theorem unread_scalar :
    let curve := NamedCurve.brainpoolP256r1
    let d := { curve.domain with order := 2 * curve.domain.order }
    ∃ key out, d.Obtained ∧ ofScalar d (Bytes.fixed 33 (curve.domain.order + 1)) = .ok key ∧
      key.toPkcs8 = .ok out ∧ ofPkcs8 out = .error (.invalidPrivateKey .scalarOutOfRange) := by
  intro curve d
  have hchecked : Domain.ofParameters d = .ok d := by decide +kernel
  have hkey : ofScalar d (Bytes.fixed 33 (curve.domain.order + 1))
      = .ok ⟨d, Bytes.fixed 33 (curve.domain.order + 1)⟩ := by decide +kernel
  refine ⟨_, _, .checked hchecked, hkey, toPkcs8_eq_ok.mpr ⟨curve, by decide +kernel, rfl⟩, ?_⟩
  decide +kernel

end PrivateKey
end CardAccess

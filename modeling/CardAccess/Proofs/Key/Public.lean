import CardAccess.Key.Public
import CardAccess.Proofs.Curve.Encoding
import CardAccess.Proofs.ObjectId

/-!
# Keys read back

The element of a public key that states its curve in full is read back as the same
key: its numbers and points are written in widths that hold them, the curve passes
the checks it passed before, and the identifiers of the signature algorithms are
among those that are accepted.
-/

namespace CardAccess

theorem SignatureAlgorithm.ofObjectId_eq_ok {id : ObjectId} {algorithm : SignatureAlgorithm} :
    ofObjectId id = .ok algorithm ↔ id = algorithm.objectId := by
  rw [ofObjectId]
  constructor
  · intro h
    split at h
    · next hash hfound =>
      cases h
      have hmatches := List.find?_some hfound
      exact (beq_iff_eq.mp hmatches).symm
    · cases h
  · rintro rfl
    obtain ⟨hash⟩ := algorithm
    cases hash <;> rfl

theorem SignatureAlgorithm.ofBytes_objectId (algorithm : SignatureAlgorithm) :
    ObjectId.ofBytes algorithm.objectId.content = .ok algorithm.objectId := by
  obtain ⟨hash⟩ := algorithm
  cases hash <;> rfl

namespace VerificationKey

/-- A key as one can be made: its curve was checked or has a name, and its point is
on the curve. -/
structure Valid (key : VerificationKey) : Prop where
  domain : key.key.domain.Obtained
  point : key.key.domain.contains key.key.point = true

/-- The base point of the small curve as a key. -/
def small : VerificationKey :=
  ⟨(⟨.sha1⟩ : SignatureAlgorithm).objectId, ⟨Domain.small, Domain.small.generator⟩⟩

theorem valid_small : small.Valid := ⟨Domain.obtained_small, rfl⟩

variable {key : VerificationKey}

theorem ofTlv?_toTlv (h : key.Valid) :
    Domain.ofTlv? (key.toTlv true) = .ok (some key.key.domain) := by
  have hnumber {tag : Tlv.Tag} {name : String} {n : Nat}
      (hfound : (key.toTlv true).first? tag = some (.primitive tag (Bytes.minimal n))) :
      Domain.ofTlv?.number (key.toTlv true) tag name = .ok n := by
    rw [Domain.ofTlv?.number, hfound]
    exact congrArg _ (Bytes.toNat_minimal n)
  have hprime : (key.toTlv true).first? Layout.prime
      = some (.primitive Layout.prime (Bytes.minimal key.key.domain.p)) := rfl
  have hcofactor : (key.toTlv true).first? Layout.cofactor
      = some (.primitive Layout.cofactor (Bytes.minimal key.key.domain.cofactor)) := rfl
  have hbase : (key.toTlv true).first? Layout.basePoint
      = some (.primitive Layout.basePoint
        (key.key.domain.encodePoint key.key.domain.generator)) := rfl
  have hgenerator := Domain.splitPoint_encodePoint h.domain.sound.contains_generator
  rw [Domain.fieldLength] at hgenerator
  rw [Domain.ofTlv?, hprime, hcofactor, hbase]
  dsimp only [Tlv.value]
  rw [bind_of_ok (hnumber rfl), bind_of_ok (hnumber rfl), bind_of_ok (hnumber rfl),
    Bytes.toNat_minimal, Bytes.toNat_minimal, hgenerator]
  exact bind_of_ok (Domain.ofParameters_eq_ok.mpr ⟨rfl, h.domain.sound⟩)

theorem ofTlv_toTlv (h : key.Valid) (hid : ObjectId.ofBytes key.id.content = .ok key.id)
    (fallback : Option Domain) : ofTlv (key.toTlv true) fallback = .ok key := by
  have hidentifier : key.id.toTlv.toObjectId = .ok key.id :=
    key.id.toObjectId_toTlv.trans (mapError_eq_ok.mpr hid)
  have hnode : (key.toTlv true).first? Tlv.Tag.objectIdentifier = some key.id.toTlv := rfl
  have hpoint : (key.toTlv true).first? Layout.publicPoint
      = some (.primitive Layout.publicPoint key.key.encodedPoint) := rfl
  have htag : (key.toTlv true).tag = Layout.publicKey := rfl
  rw [ofTlv, if_neg (not_not.mpr htag), hnode]
  dsimp only
  rw [hidentifier, Except.mapError, bind_of_ok rfl, bind_of_ok (ofTlv?_toTlv h)]
  dsimp only
  rw [bind_of_ok rfl, hpoint]
  dsimp only
  rw [Tlv.value, PublicKey.encodedPoint, bind_of_ok (Domain.decodePoint_encodePoint h.point),
    PublicKey.create, if_pos h.point]
  rfl

theorem create_eq_ok {domain : Domain} {point : Point} {created : PublicKey} :
    PublicKey.create domain point = .ok created ↔
      domain.contains point = true ∧ created = ⟨domain, point⟩ := by
  rw [PublicKey.create]
  split
  · next hpoint =>
    constructor
    · intro h
      cases h
      exact ⟨hpoint, rfl⟩
    · rintro ⟨-, rfl⟩
      rfl
  · next hpoint => exact ⟨(nomatch ·), fun ⟨h, _⟩ => absurd h hpoint⟩

/-- A key that was read has an identifier that is read, a point on its curve, and the curve that
its element states or that the reader knew. -/
theorem read_of_ofTlv {node : Tlv} {fallback : Option Domain} (h : ofTlv node fallback = .ok key) :
    ObjectId.ofBytes key.id.content = .ok key.id ∧
      key.key.domain.contains key.key.point = true ∧
      (Domain.ofTlv? node = .ok (some key.key.domain) ∨ fallback = some key.key.domain) := by
  rw [ofTlv] at h
  split at h
  · cases h
  split at h
  · cases h
  obtain ⟨id, hid, h⟩ := bind_eq_ok.mp h
  obtain ⟨stated, hstated, h⟩ := bind_eq_ok.mp h
  obtain ⟨-, hid⟩ := Tlv.toObjectId_eq_ok.mp (mapError_eq_ok.mp hid)
  extract_lets finish at h
  have hfinish {domain : Domain} (hkey : finish domain = .ok key) :
      ObjectId.ofBytes key.id.content = .ok key.id ∧
        key.key.domain.contains key.key.point = true ∧ key.key.domain = domain := by
    dsimp only [finish] at hkey
    split at hkey
    · cases hkey
    obtain ⟨point, -, hkey⟩ := bind_eq_ok.mp hkey
    obtain ⟨created, hcreated, hkey⟩ := bind_eq_ok.mp hkey
    obtain ⟨hpoint, rfl⟩ := create_eq_ok.mp hcreated
    cases hkey
    exact ⟨(ObjectId.content_of_ofBytes hid).symm ▸ hid, hpoint, rfl⟩
  cases stated with
  | some domain =>
    obtain ⟨hread, hpoint, rfl⟩ := hfinish h
    exact ⟨hread, hpoint, .inl hstated⟩
  | none =>
    cases fallback with
    | none => cases h
    | some domain =>
      obtain ⟨hread, hpoint, rfl⟩ := hfinish h
      exact ⟨hread, hpoint, .inr rfl⟩

end VerificationKey
end CardAccess

import CardAccess.Proofs.Key.Checked
import CardAccess.Proofs.ObjectId
import CardAccess.Proofs.Tlv.Fitting

/-!
# Key elements read back

A key is written in a full element, which states the curve, and in a short one, which leaves it
out.  Both are flat, so they are parsed as they were written, and what is read of them differs in
the curve alone.  The identifier is read before that: `readsBack_by_identifier` says that a key
reads back exactly if its identifier does, and which identifiers do.
-/

namespace CardAccess
namespace VerificationKey

variable {key : VerificationKey} {room : Nat} {full : Bool} {fallback : Option Domain}

/-- What is read where the element of a key was written. -/
def readAgain (key : VerificationKey) (full : Bool) (fallback : Option Domain) :
    Except Error VerificationKey := do
  ofTlv (← (Tlv.parse (key.toTlv full).encode).mapError .ofDecode) fallback

theorem fits_toTlv (key : VerificationKey) (full : Bool) (hroom : 2 ≤ room) :
    (key.toTlv full).Fits room := by
  have hprimitive {tag : Tlv.Tag} {value : Bytes} (htag : tag.Decodable)
      (hkind : tag.isConstructed = false) : (Tlv.primitive tag value).Fits (room - 1) :=
    Tlv.fits_primitive.mpr ⟨htag, hkind, by omega⟩
  refine Tlv.fits_constructed.mpr ⟨by decide, by decide, by omega, ?_⟩
  have hid : key.id.toTlv.Fits (room - 1) := hprimitive (by decide) (by decide)
  cases full <;>
    simp only [Bool.false_eq_true, if_false, if_true, List.forall_mem_cons, List.cons_append,
      List.nil_append, List.not_mem_nil, false_implies, implies_true, and_true]
  · exact ⟨hid, hprimitive (by decide) (by decide)⟩
  · exact ⟨hid, hprimitive (by decide) (by decide), hprimitive (by decide) (by decide),
      hprimitive (by decide) (by decide), hprimitive (by decide) (by decide),
      hprimitive (by decide) (by decide), hprimitive (by decide) (by decide),
      hprimitive (by decide) (by decide)⟩

theorem readAgain_eq (hlength : (key.toTlv full).encode.length < 2 ^ 32) :
    key.readAgain full fallback = ofTlv (key.toTlv full) fallback := by
  have hparse := (key.fits_toTlv full (Nat.le_refl 2)).parse_encode_of_le (by decide) hlength
  rw [readAgain, bind_of_ok (mapError_eq_ok.mpr hparse)]

/-! ## The identifier and the curve -/

/-- The identifier is read before anything else of the element. -/
theorem ofTlv_toTlv_error {e : ObjectId.Error} (hid : ObjectId.ofBytes key.id.content = .error e) :
    ofTlv (key.toTlv full) fallback = .error (.tlv (.objectId e)) := by
  have hnode : (key.toTlv full).first? Tlv.Tag.objectIdentifier = some key.id.toTlv := by
    cases full <;> rfl
  have htag : (key.toTlv full).tag = Layout.publicKey := rfl
  rw [ofTlv, if_neg (not_not.mpr htag), hnode]
  dsimp only
  rw [ObjectId.toObjectId_toTlv, hid]
  rfl

/-- What is read of the short element rests on the curve that the reader knows. -/
theorem ofTlv_short (hid : ObjectId.ofBytes key.id.content = .ok key.id) :
    ofTlv (key.toTlv false) fallback = (match fallback with
      | none => .error (.missingElement "domain parameters")
      | some known => do
        let point ← known.decodePoint key.key.encodedPoint
        let read ← PublicKey.create known point
        .ok (read.withId key.id)) := by
  have htag : (key.toTlv false).tag = Layout.publicKey := rfl
  have hnode : (key.toTlv false).first? Tlv.Tag.objectIdentifier = some key.id.toTlv := rfl
  have hcurve : Domain.ofTlv? (key.toTlv false) = .ok none := rfl
  have hidentifier := mapError_eq_ok (f := Error.tlv).mpr
    (key.id.toObjectId_toTlv.trans (mapError_eq_ok.mpr hid))
  rw [ofTlv, if_neg (not_not.mpr htag), hnode]
  dsimp only
  rw [bind_of_ok hidentifier, bind_of_ok hcurve]
  cases fallback <;> rfl

theorem ofTlv_short_own (h : key.Valid) (hid : ObjectId.ofBytes key.id.content = .ok key.id) :
    ofTlv (key.toTlv false) (some key.key.domain) = .ok key := by
  rw [ofTlv_short hid]
  dsimp only
  rw [PublicKey.encodedPoint, bind_of_ok (Domain.decodePoint_encodePoint h.point),
    PublicKey.create, if_pos h.point]
  rfl

/-! ## Keys that were read -/

theorem valid_of_ofTlv {node : Tlv} (hfallback : ∀ known, fallback = some known → known.Obtained)
    (h : ofTlv node fallback = .ok key) : key.Valid := by
  obtain ⟨-, hpoint, hstated | hknown⟩ := read_of_ofTlv h
  · exact ⟨Domain.Given.obtained (.element hstated), hpoint⟩
  · exact ⟨hfallback _ hknown, hpoint⟩

/-! ## Keys that were written -/

/-- The key is read from its full element, whatever curve the reader knows, and from the short one
if the reader knows its curve; a reader that knows none asks for it. -/
structure ReadsBack (key : VerificationKey) : Prop where
  full : (key.toTlv true).encode.length < 2 ^ 32 →
    ∀ fallback, key.readAgain true fallback = .ok key
  short : (key.toTlv false).encode.length < 2 ^ 32 →
    key.readAgain false (some key.key.domain) = .ok key
  curveless : (key.toTlv false).encode.length < 2 ^ 32 →
    key.readAgain false none = .error (.missingElement "domain parameters")

/-- Neither element of the key is read, and both for the same reason. -/
def Fails (key : VerificationKey) (e : Error) : Prop :=
  ∀ full fallback, (key.toTlv full).encode.length < 2 ^ 32 → key.readAgain full fallback = .error e

theorem readsBack_of_ofBytes (h : key.Valid) (hid : ObjectId.ofBytes key.id.content = .ok key.id) :
    key.ReadsBack where
  full := fun hlength fallback => by
    rw [readAgain_eq hlength, ofTlv_toTlv h hid]
  short := fun hlength => by
    rw [readAgain_eq hlength, ofTlv_short_own h hid]
  curveless := fun hlength => by
    rw [readAgain_eq hlength, ofTlv_short hid]

/-- A key reads back as far as its identifier is read, and an identifier that was read is.  One that
comes from a text is not if the text names an arc from `2 ^ 29` on whose low seven bits make
sixteen or more: the writer puts these bits into a fifth byte, and of a fifth byte the reader takes
no more than four bits.  The check means to stop an arc that has more than 32 bits, but these bits
are the lowest and not the highest of the arc.  A key that was read has an identifier that was. -/
theorem readsBack_by_identifier (h : key.Valid) :
    (ObjectId.ofBytes key.id.content = .ok key.id → key.ReadsBack) ∧
    (∀ e, ObjectId.ofBytes key.id.content = .error e → key.Fails (.tlv (.objectId e))) ∧
    (∀ content, ObjectId.ofBytes content = .ok key.id →
      ObjectId.ofBytes key.id.content = .ok key.id) ∧
    (∀ text, ObjectId.ofText text = .ok key.id →
      3 ≤ key.id.content.length → key.id.content.length ≤ ObjectId.maxLength →
      ObjectId.ofBytes key.id.content = if ∃ n ∈ ObjectId.arcsNamed text, ObjectId.Refused n
        then .error .arcTooBig else .ok key.id) ∧
    (∀ node fallback read, (∀ known, fallback = some known → known.Obtained) →
      ofTlv node fallback = .ok read →
      read.ReadsBack ∧ ∀ other, ofTlv (read.toTlv true) other = .ok read) := by
  refine ⟨readsBack_of_ofBytes h, fun e hid full fallback hlength => ?_, fun content hid => ?_,
    fun text => ObjectId.ofBytes_of_ofText, fun node fallback read hfallback hread => ?_⟩
  · rw [readAgain_eq hlength, ofTlv_toTlv_error hid]
  · rw [ObjectId.content_of_ofBytes hid, hid]
  · have hvalid := valid_of_ofTlv hfallback hread
    obtain ⟨hid, -⟩ := read_of_ofTlv hread
    exact ⟨readsBack_of_ofBytes hvalid hid, ofTlv_toTlv hvalid hid⟩

/-- The base point of the small curve under three identifiers: its own, one with an arc that is
wide and read, and one with an arc that is refused.  What a reader makes of the short element with
a curve of its own, it makes of it again. -/
theorem readsBack_by_identifier_small :
    small.Valid ∧ small.ReadsBack ∧
    (∃ id, ObjectId.ofText "1.2.536870927" = .ok id ∧
      ({ small with id } : VerificationKey).ReadsBack) ∧
    (∃ id, ObjectId.ofText "1.2.4294967295" = .ok id ∧
      ({ small with id } : VerificationKey).Fails (.tlv (.objectId .arcTooBig))) ∧
    ofTlv (small.toTlv false) (some Domain.small) = .ok small ∧
    ∀ other, ofTlv (small.toTlv true) other = .ok small := by
  have hshort : ofTlv (small.toTlv false) (some Domain.small) = .ok small := by decide +kernel
  have hfallback : ∀ known, some Domain.small = some known → known.Obtained := by
    intro known hknown
    cases hknown
    exact Domain.obtained_small
  have hvalid (id : ObjectId) : VerificationKey.Valid ⟨id, small.key⟩ :=
    ⟨valid_small.domain, valid_small.point⟩
  obtain ⟨hsmall, -, hread, -, hnodes⟩ := readsBack_by_identifier valid_small
  obtain ⟨hnarrow, -, -, hnarrowText, -⟩ :=
    readsBack_by_identifier (hvalid ⟨[0x2A, 0x82, 0x80, 0x80, 0x80, 0x0F]⟩)
  obtain ⟨-, hwide, -, hwideText, -⟩ :=
    readsBack_by_identifier (hvalid ⟨[0x2A, 0x8F, 0xFF, 0xFF, 0xFF, 0x7F]⟩)
  have hnarrowRead := hnarrowText "1.2.536870927" (by decide +kernel) (by decide) (by decide)
  have hwideRead := hwideText "1.2.4294967295" (by decide +kernel) (by decide) (by decide)
  rw [if_neg (by decide +kernel)] at hnarrowRead
  rw [if_pos (by decide +kernel)] at hwideRead
  exact ⟨valid_small, hsmall (hread small.id.content (by decide)),
    ⟨_, by decide +kernel, hnarrow hnarrowRead⟩, ⟨_, by decide +kernel, hwide _ hwideRead⟩, hshort,
    (hnodes _ _ _ hfallback hshort).2⟩

/-- The arc `536870928` has thirty bits, and the key it is in is written and not read. -/
theorem unread_identifier :
    ∃ key : VerificationKey, ObjectId.ofText "0.4.536870928" = .ok key.id ∧ key.Valid ∧
      3 ≤ key.id.content.length ∧ key.id.content.length ≤ 39 ∧
      (key.toTlv true).encode.length < 2 ^ 32 ∧
      key.readAgain true none = .error (.tlv (.objectId .arcTooBig)) ∧
      key.readAgain false (some key.key.domain) = .error (.tlv (.objectId .arcTooBig)) ∧
      key.readAgain false none ≠ .error (.missingElement "domain parameters") := by
  refine ⟨⟨⟨[0x04, 0x82, 0x80, 0x80, 0x80, 0x10]⟩, small.key⟩, by decide +kernel,
    ⟨valid_small.domain, valid_small.point⟩, by decide, by decide, ?_, ?_, ?_, ?_⟩ <;>
    decide +kernel

end VerificationKey
end CardAccess

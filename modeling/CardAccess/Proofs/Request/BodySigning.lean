import CardAccess.Proofs.KeyService.Calls
import CardAccess.Proofs.Request.Progress

/-!
# Signing the body

Two elements are put into a request when its body is signed: the key into the body, and then the
signature beside the body.  Each of them replaces the first element with its tag, which is also the
one that the check looks up, or comes last.  `Sealed` shows the whole tree before and after, so it
also says what is not touched.  The second put is beside the body and not in it, so the body that
the service was asked to sign is the one that is checked.
-/

namespace CardAccess
namespace Request

variable {σ : Type} {service : KeyService σ} {s s' : σ} {r r' staged : Request}
  {key : VerificationKey} {keyAlias : String} {signature : Bytes}

/-! ## What is left as it was -/

/-- A wrapper with the elements `certificate` in its certificate. -/
def around (before certificate behind : List Tlv) : Tlv :=
  .constructed Layout.authentication
    (before ++ .constructed Layout.cvCertificate certificate :: behind)

/-- The body with the key in the place of its first one, or at its end. -/
def bodyWith (key : VerificationKey) (fields : List Tlv) : Tlv :=
  .constructed Layout.certificateBody (Tlv.putFirst Layout.publicKey (key.toTlv true) fields)

/-- The second request is the first with the key in the first body of its first certificate and
the signature among what is beside that body.  All else is as it was, in the same order. -/
inductive Sealed (key : VerificationKey) (signature : Bytes) : Request → Request → Prop where
  | intro (shape : RequestShape) (before front fields back behind : List Tlv)
      (hbefore : ∀ c ∈ before, c.tag ≠ Layout.cvCertificate)
      (hfront : ∀ c ∈ front, c.tag ≠ Layout.certificateBody) :
      Sealed key signature
        ⟨around before (front ++ .constructed Layout.certificateBody fields :: back) behind, shape⟩
        ⟨around before (Tlv.putFirst Layout.signature (.primitive Layout.signature signature)
          (front ++ bodyWith key fields :: back)) behind, shape⟩

section around

variable {before certificate behind front back : List Tlv} {body : Tlv}

theorem splits_around (hbefore : ∀ c ∈ before, c.tag ≠ Layout.cvCertificate)
    (certificate behind : List Tlv) :
    Tlv.Splits Layout.cvCertificate 0
      (before ++ .constructed Layout.cvCertificate certificate :: behind) before
      (.constructed Layout.cvCertificate certificate) behind :=
  Tlv.splits_of_tag_ne rfl hbefore

theorem get?_around (hbefore : ∀ c ∈ before, c.tag ≠ Layout.cvCertificate) :
    (around before certificate behind).get? RequestPart.cvCertificate.path.steps
      = some (.constructed Layout.cvCertificate certificate) :=
  (splits_around hbefore certificate behind).get?
    (s := ⟨"CV_CERTIFICATE", Layout.cvCertificate, 0⟩) Layout.authentication []

theorem put_around (hbefore : ∀ c ∈ before, c.tag ≠ Layout.cvCertificate) (new : List Tlv) :
    (around before certificate behind).put RequestPart.cvCertificate.path.steps
      (.constructed Layout.cvCertificate new) = around before new behind :=
  (splits_around hbefore certificate behind).put
    (s := ⟨"CV_CERTIFICATE", Layout.cvCertificate, 0⟩) Layout.authentication [] _

theorem put_around_body (back behind : List Tlv)
    (hbefore : ∀ c ∈ before, c.tag ≠ Layout.cvCertificate)
    (hfront : ∀ c ∈ front, c.tag ≠ Layout.certificateBody)
    (hbody : body.tag = Layout.certificateBody) (new : Tlv) :
    (around before (front ++ body :: back) behind).put RequestPart.certificateBody.path.steps new
      = around before (front ++ new :: back) behind := by
  have hsplit : Tlv.Splits Layout.certificateBody 0 (front ++ body :: back) front body back :=
    Tlv.splits_of_tag_ne hbody hfront
  have hinside := hsplit.put (s := ⟨"CV_CERTIFICATE_BODY", Layout.certificateBody, 0⟩)
    Layout.cvCertificate [] new
  have houtside := (splits_around hbefore (front ++ body :: back) behind).put
    (s := ⟨"CV_CERTIFICATE", Layout.cvCertificate, 0⟩) Layout.authentication
    [⟨"CV_CERTIFICATE_BODY", Layout.certificateBody, 0⟩] new
  rw [hinside] at houtside
  exact houtside

/-- A body that is found is the first one of the first certificate. -/
theorem exists_around {root : Tlv.Tag} {fields : List Tlv}
    (hroot : r.node.tag = Layout.authentication)
    (hbody : r.node.get? RequestPart.certificateBody.path.steps = some (.constructed root fields)) :
    ∃ before front back behind, (∀ c ∈ before, c.tag ≠ Layout.cvCertificate) ∧
      (∀ c ∈ front, c.tag ≠ Layout.certificateBody) ∧ root = Layout.certificateBody ∧
      r.node = around before (front ++ .constructed Layout.certificateBody fields :: back)
        behind := by
  obtain ⟨wrapper, cs, before, certificate, behind, hnode, hcertificate, hbody⟩ :=
    Tlv.exists_of_get?_cons hbody
  obtain ⟨holder, ds, front, body, back, rfl, hsplit, hbody⟩ := Tlv.exists_of_get?_cons hbody
  cases hbody
  have hholder : holder = Layout.cvCertificate := hcertificate.tagged
  have hbodyTag : root = Layout.certificateBody := hsplit.tagged
  rw [hnode] at hroot
  refine ⟨before, front, back, behind, hcertificate.tag_ne, hsplit.tag_ne, hbodyTag, ?_⟩
  rw [hnode, show wrapper = _ from hroot, hcertificate.parts, hsplit.parts, hholder, hbodyTag]
  rfl

end around

theorem sealed_of_puts (hwrapper : r.node.tag = Layout.authentication)
    (hkey : r.putPart .publicKey .certificateBody (key.toTlv true) = (.ok (), staged))
    (hsigned : staged.putPart .signature .cvCertificate (.primitive Layout.signature signature)
      = (.ok (), r')) : Sealed key signature r r' := by
  obtain ⟨root, fields, hbody, rfl⟩ := putPart_below (s := ⟨"PUBLIC_KEY", Layout.publicKey, 0⟩)
    rfl rfl hkey
  obtain ⟨holder, parts, hcertificate, rfl⟩ :=
    putPart_below (s := ⟨"SIGNATURE", Layout.signature, 0⟩) rfl rfl hsigned
  obtain ⟨before, front, back, behind, hbefore, hfront, rfl, hnode⟩ := exists_around hwrapper hbody
  obtain ⟨node, shape⟩ := r
  subst hnode
  have hstaged := put_around_body back behind hbefore hfront
    (rfl : (Tlv.constructed Layout.certificateBody fields).tag = _) (bodyWith key fields)
  rw [bodyWith] at hstaged
  dsimp only at hcertificate ⊢
  rw [hstaged, get?_around hbefore] at hcertificate
  cases hcertificate
  rw [hstaged, put_around hbefore]
  exact .intro shape before front fields back behind hbefore hfront

/-! ## What the service signs -/

/-- Signing the body, if it succeeds, has asked the service for one signature, under the identifier
of the key.  What was handed over is the body as it is in the request afterwards, the request has
the key, and its check is that of the signature with this key.  Beside the first key of the body and
the first signature of the certificate, which are replaced or appended, nothing has changed. -/
theorem verifyInner_of_signInner (service : KeyService σ) (s : σ) (hkey : key.Valid)
    (h : ((r.signInner key keyAlias).run service s).1 = (.ok (), r')) :
    ∃ body signature,
      (r.signInner key keyAlias).calls service s = [.sign keyAlias key.id body.encode] ∧
      (service.answer (.sign keyAlias key.id body.encode) s).1 = .ok signature ∧
      r'.publicKey = .ok key ∧ r'.verifyInner = key.verify body.encode signature ∧
      r'.part? .certificateBody = some body ∧ Sealed key signature r r' := by
  -- the record of the calls starts empty, so what it holds in the end is the calls
  have hrecorded : (r.signInner key keyAlias).run (KeyService.recorded service) (s, [])
      = ((.ok (), r'), ((r.signInner key keyAlias).run service s).2,
        (r.signInner key keyAlias).calls service s) := by
    rw [KeyService.Dialogue.run_recorded, h]
    rfl
  rcases run_signInner_puts hrecorded with ⟨⟨e, he⟩, -⟩ | ⟨-, algorithm, body, signature, staged,
    halgorithm, hput, hbody, hanswer, hsigned⟩
  · cases he
  have hid := SignatureAlgorithm.ofObjectId_eq_ok.mp halgorithm
  rw [← hid] at hanswer
  obtain ⟨hreply, hstate⟩ := Prod.mk.inj hanswer
  have hcalls : [KeyService.Call.sign keyAlias key.id body.encode]
      = (r.signInner key keyAlias).calls service s := congrArg Prod.snd hstate
  have hinner := bodySigned_of_puts hput hbody hsigned
  have hread : VerificationKey.ofTlv (key.toTlv true) none = .ok key := by
    refine VerificationKey.ofTlv_toTlv hkey ?_ none
    rw [hid]
    exact SignatureAlgorithm.ofBytes_objectId algorithm
  have hpublicKey : r'.publicKey = .ok key := by
    rw [publicKey, bind_of_ok (required_eq_ok.mpr hinner.publicKey), hread]
  have hwrapper : r.node.tag = Layout.authentication := by
    obtain ⟨hroot, -⟩ := Tlv.child?_eq_some.mp hbody
    rw [← (editedAt_putPart rfl rfl hput).node.tag_eq, ← hroot]
    rfl
  exact ⟨body, signature, hcalls.symm, hreply, hpublicKey, hinner.verifyInner hread halgorithm,
    hinner.body, sealed_of_puts hwrapper hput hsigned⟩

/-- A bare request that comes with two keys in its body and two signatures beside it, none of them
good. -/
def repeating : Request :=
  ⟨wrap (.constructed Layout.cvCertificate
    [.constructed Layout.certificateBody
      [.constructed Layout.publicKey [], .primitive Layout.holderReference [0x41],
        .constructed Layout.publicKey []],
      .primitive Layout.signature [0x01], .primitive Layout.signature []]), .bare⟩

/-- The new key and the new signature are in the places of the first ones, and they are checked. -/
theorem verifyInner_of_signInner_repeating :
    ∃ r', Request.ofBytes repeating.encode = .ok repeating ∧
      ((repeating.signInner .small "A").run smallSigner [[8]]).1 = (.ok (), r') ∧
      r'.publicKey = .ok .small ∧ r'.verifyInner = .ok () := by
  have hsigned : ((repeating.signInner .small "A").run smallSigner [[8]]).1
      = (.ok (), ((repeating.signInner .small "A").run smallSigner [[8]]).1.2) := by
    decide +kernel
  obtain ⟨body, signature, -, hanswer, hpublicKey, hverified, -⟩ :=
    verifyInner_of_signInner smallSigner [[8]] VerificationKey.valid_small hsigned
  refine ⟨_, by decide +kernel, hsigned, hpublicKey, ?_⟩
  rw [hverified]
  exact vouches_smallSigner [[8]] "A" body.encode signature hanswer

end Request
end CardAccess

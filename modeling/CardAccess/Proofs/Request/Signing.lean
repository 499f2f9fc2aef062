import CardAccess.Proofs.KeyService.Dialogue
import CardAccess.Proofs.Request.Parts

/-!
# What signing does to a request

One lemma for each operation says all that it can come to: it fails and leaves the
request as it was, or it has edited the parts it is about.  Checking a signature
looks at few parts, so it is told from these lemmas what every later operation
does to it.
-/

namespace CardAccess
namespace Request

variable {σ : Type} {service : KeyService σ} {s s' : σ} {r r' : Request}

/-! ## Naming the outer signer -/

theorem setOuterAuthorityReference_eq_ok {reference : String} {result : Unit} :
    r.setOuterAuthorityReference reference = (.ok result, r') ↔
      r.shape = .authentication ∧ ∃ removed staged,
        r.removePart .outerSignature = (.ok removed, staged) ∧
        staged.putPart .outerCaReference .authentication
          (.primitive Layout.caReference (Text.toUtf8 reference)) = (.ok result, r') := by
  rw [setOuterAuthorityReference]
  constructor
  · intro h
    split at h
    · cases h
    next hshape =>
    split at h
    · cases h
    next removed staged hremoved => exact ⟨hshape, removed, staged, hremoved, h⟩
  · rintro ⟨hshape, removed, staged, hremoved, hput⟩
    rw [hshape]
    dsimp only
    rw [hremoved]
    exact hput

/-! ## Signing the body -/

/-- The request `r'` is `r` with another key in its body, and the body, which is now
`body`, is signed. -/
structure BodySigned (key : VerificationKey) (body : Tlv) (signature : Bytes) (r r' : Request) :
    Prop where
  edits : ∃ staged, r.EditedAt .publicKey staged ∧ staged.EditedAt .signature r'
  publicKey : r'.part? .publicKey = some (key.toTlv true)
  body : r'.part? .certificateBody = some body
  signature : r'.part? .signature = some (.primitive Layout.signature signature)

theorem BodySigned.part?_eq {key : VerificationKey} {body : Tlv} {signature : Bytes}
    (h : BodySigned key body signature r r') {part : RequestPart}
    (hkey : RequestPart.publicKey.spares part = true)
    (hsignature : RequestPart.signature.spares part = true) : r'.part? part = r.part? part := by
  obtain ⟨staged, hstaged, hsigned⟩ := h.edits
  rw [hsigned.part?_eq hsignature, hstaged.part?_eq hkey]

/-- A dialogue that asks for a signature goes on with an error or with what the service
answered. -/
theorem askSignature_bind_cases {α : Type} {keyAlias : String} {id : ObjectId} {data : Bytes}
    {next : Except Error Bytes → KeyService.Dialogue α} {result : α × σ}
    (h : ((askSignature keyAlias id data).bind next).run service s = result) :
    (∃ e s₁, (next (.error e)).run service s₁ = result) ∨
      ∃ signature s₁, service.answer (.sign keyAlias id data) s = (.ok signature, s₁) ∧
        (next (.ok signature)).run service s₁ = result := by
  rw [KeyService.Dialogue.run_bind] at h
  cases hanswer : service.answer (.sign keyAlias id data) s with
  | mk reply s₁ =>
    have hasked : (askSignature keyAlias id data).run service s
        = (reply.mapError .signingFailed, s₁) := by
      rw [askSignature, KeyService.Dialogue.run, hanswer]
      rfl
    rw [hasked] at h
    cases reply with
    | error e => exact .inl ⟨_, s₁, h⟩
    | ok signature => exact .inr ⟨signature, s₁, rfl, h⟩

/-- Signing the body puts the key in, asks for a signature of the body as it is then, and puts
that in, or it leaves the request as it was. -/
theorem run_signInner_puts {key : VerificationKey} {keyAlias : String}
    {result : Except Error Unit}
    (h : (r.signInner key keyAlias).run service s = ((result, r'), s')) :
    (∃ e, result = .error e) ∧ r' = r ∨
      result = .ok () ∧ ∃ algorithm body signature staged, key.algorithm = .ok algorithm ∧
        r.putPart .publicKey .certificateBody (key.toTlv true) = (.ok (), staged) ∧
        staged.part? .certificateBody = some body ∧
        service.answer (.sign keyAlias algorithm.objectId body.encode) s = (.ok signature, s') ∧
        staged.putPart .signature .cvCertificate (.primitive Layout.signature signature)
          = (.ok (), r') := by
  rw [signInner] at h
  split at h
  · cases h
    exact .inl ⟨⟨_, rfl⟩, rfl⟩
  next algorithm halgorithm =>
  split at h
  · cases h
    exact .inl ⟨⟨_, rfl⟩, rfl⟩
  next staged hkey =>
  split at h
  · cases h
    exact .inl ⟨⟨_, rfl⟩, rfl⟩
  next body hbody =>
  rcases askSignature_bind_cases h with ⟨e, s₁, h⟩ | ⟨signature, s₁, hanswer, h⟩
  · cases h
    exact .inl ⟨⟨_, rfl⟩, rfl⟩
  dsimp only at h
  split at h
  · cases h
    exact .inl ⟨⟨_, rfl⟩, rfl⟩
  next signed hsigned =>
  cases h
  exact .inr ⟨rfl, algorithm, body, signature, staged, halgorithm, hkey, required_eq_ok.mp hbody,
    hanswer, hsigned⟩

theorem bodySigned_of_puts {key : VerificationKey} {body : Tlv} {signature : Bytes}
    {staged : Request}
    (hkey : r.putPart .publicKey .certificateBody (key.toTlv true) = (.ok (), staged))
    (hbody : staged.part? .certificateBody = some body)
    (hsigned : staged.putPart .signature .cvCertificate (.primitive Layout.signature signature)
      = (.ok (), r')) : BodySigned key body signature r r' := by
  have hstaged := editedAt_putPart rfl rfl hkey
  have hedited := editedAt_putPart rfl rfl hsigned
  refine ⟨⟨staged, hstaged, hedited⟩, ?_, ?_, part?_putPart rfl rfl rfl hsigned⟩
  · rw [hedited.part?_eq rfl, part?_putPart rfl rfl rfl hkey]
  · -- the body was read before its signature was put beside it
    rw [hedited.part?_eq rfl, hbody]

theorem run_signInner {key : VerificationKey} {keyAlias : String} {result : Except Error Unit}
    (h : (r.signInner key keyAlias).run service s = ((result, r'), s')) :
    (∃ e, result = .error e) ∧ r' = r ∨
      result = .ok () ∧ ∃ algorithm body signature, key.algorithm = .ok algorithm ∧
        service.answer (.sign keyAlias algorithm.objectId body.encode) s = (.ok signature, s') ∧
        BodySigned key body signature r r' :=
  (run_signInner_puts h).imp_right fun ⟨hok, algorithm, body, signature, _, halgorithm, hkey,
    hbody, hanswer, hsigned⟩ => ⟨hok, algorithm, body, signature, halgorithm, hanswer,
    bodySigned_of_puts hkey hbody hsigned⟩

/-- The check of the inner signature looks at three parts only. -/
theorem verifyInner_congr (hkey : r'.part? .publicKey = r.part? .publicKey)
    (hbody : r'.part? .certificateBody = r.part? .certificateBody)
    (hsignature : r'.part? .signature = r.part? .signature) : r'.verifyInner = r.verifyInner := by
  simp only [verifyInner, required, hkey, hbody, hsignature]

/-- A request whose inner signature is right has all that the check looks at. -/
theorem part?_of_verifyInner (h : r.verifyInner = .ok ()) :
    (r.part? .publicKey).isSome ∧ (r.part? .certificateBody).isSome ∧
      (r.part? .signature).isSome := by
  obtain ⟨keyNode, hkey, h⟩ := bind_eq_ok.mp h
  obtain ⟨key, -, h⟩ := bind_eq_ok.mp h
  obtain ⟨body, hbody, h⟩ := bind_eq_ok.mp h
  obtain ⟨signature, hsignature, -⟩ := bind_eq_ok.mp h
  rw [required_eq_ok.mp hkey, required_eq_ok.mp hbody, required_eq_ok.mp hsignature]
  exact ⟨rfl, rfl, rfl⟩

/-- A signature of the body is checked with the key that was put there, if that key
can be read back. -/
theorem BodySigned.verifyInner {key : VerificationKey} {body : Tlv} {signature : Bytes}
    {algorithm : SignatureAlgorithm} (h : BodySigned key body signature r r')
    (hkey : VerificationKey.ofTlv (key.toTlv true) none = .ok key)
    (halgorithm : key.algorithm = .ok algorithm) :
    r'.verifyInner = key.verify body.encode signature := by
  rw [Request.verifyInner, bind_of_ok (required_eq_ok.mpr h.publicKey), bind_of_ok hkey,
    bind_of_ok (required_eq_ok.mpr h.body), bind_of_ok (required_eq_ok.mpr h.signature),
    VerificationKey.verify, bind_of_ok halgorithm, halgorithm]
  rfl

/-! ## Signing the wrapper -/

/-- The request `r'` is `r` with the wrapper signed.  What is signed is what `staged`
has in the wrapper. -/
structure WrapperSigned (staged : Request) (signature : Bytes) (r r' : Request) : Prop where
  removed : ∃ removed, r.removePart .outerSignature = (.ok removed, staged)
  added : staged.addPart .authentication (.primitive Layout.signature signature) = (.ok (), r')

theorem WrapperSigned.edits {staged : Request} {signature : Bytes}
    (h : WrapperSigned staged signature r r') :
    r.EditedAt .outerSignature staged ∧ staged.EditedAt .outerSignature r' := by
  obtain ⟨removed, hremoved⟩ := h.removed
  exact ⟨editedAt_removePart hremoved, editedAt_addPart rfl rfl h.added⟩

theorem WrapperSigned.part?_eq {staged : Request} {signature : Bytes}
    (h : WrapperSigned staged signature r r') {part : RequestPart}
    (hspares : RequestPart.outerSignature.spares part = true) : r'.part? part = r.part? part := by
  rw [h.edits.2.part?_eq hspares, h.edits.1.part?_eq hspares]

theorem WrapperSigned.isSome {staged : Request} {signature : Bytes}
    (h : WrapperSigned staged signature r r') : (r'.part? .outerSignature).isSome := by
  rw [part?_addPart rfl rfl rfl h.added]
  rfl

theorem run_signOuter {keyAlias : Option String} {id : ObjectId} {result : Except Error Unit}
    (h : (r.signOuter keyAlias id).run service s = ((result, r'), s')) :
    (∃ e, result = .error e) ∧ r' = r ∨
      result = .ok () ∧ ∃ signer staged signature, keyAlias = some signer ∧
        r.shape = .authentication ∧
        service.answer (.sign signer id staged.outerSignedData) s = (.ok signature, s') ∧
        WrapperSigned staged signature r r' := by
  rw [signOuter.eq_def] at h
  cases hshape : r.shape with
  | bare =>
    rw [hshape] at h
    cases h
    exact .inl ⟨⟨_, rfl⟩, rfl⟩
  | authentication =>
  rw [hshape] at h
  cases keyAlias with
  | none =>
    cases h
    exact .inl ⟨⟨_, rfl⟩, rfl⟩
  | some signer =>
  dsimp only at h
  split at h
  · cases h
    exact .inl ⟨⟨_, rfl⟩, rfl⟩
  split at h
  · cases h
    exact .inl ⟨⟨_, rfl⟩, rfl⟩
  next removed staged hremoved =>
  rcases askSignature_bind_cases h with ⟨e, s₁, h⟩ | ⟨signature, s₁, hanswer, h⟩
  · cases h
    exact .inl ⟨⟨_, rfl⟩, rfl⟩
  dsimp only at h
  split at h
  · cases h
    exact .inl ⟨⟨_, rfl⟩, rfl⟩
  next signed hsigned =>
  cases h
  exact .inr ⟨rfl, signer, staged, signature, rfl, rfl, hanswer, ⟨removed, hremoved⟩, hsigned⟩

/-! ## In the wrapper -/

/-- The outer signatures, of which there should be one at most. -/
def outerSignatures (r : Request) : List Tlv :=
  r.node.children.filter fun c => c.tag == Layout.signature

/-- What an outer signature is meant to sign. -/
def enclosed (r : Request) : List Tlv :=
  r.node.children.filter fun c => c.tag != Layout.signature

/-- An edit elsewhere than at the signatures right below the root leaves the outer ones. -/
theorem EditedAt.outerSignatures_eq {part : RequestPart} (h : r.EditedAt part r')
    (hother : Layout.signature ≠ Tlv.entry part.path.tag part.path.steps.dropLast) :
    r'.outerSignatures = r.outerSignatures :=
  h.node.filter_children hother

theorem part?_outerSignature (hroot : r.node.tag = Layout.authentication) :
    r.part? .outerSignature = r.outerSignatures.head? := by
  have hchild : r.part? .outerSignature
      = r.node.get? [⟨"OUTER_SIGNATURE", Layout.signature, 0⟩] := if_pos hroot.symm
  rw [hchild, Tlv.get?_singleton, List.head?_eq_getElem?]
  rfl

section constructed

variable {cs : List Tlv} (hnode : r.node = .constructed Layout.authentication cs)

include hnode

theorem removePart_outerSignature :
    r.removePart .outerSignature = (.ok (cs.find? fun c => c.tag == Layout.signature),
      ⟨.constructed Layout.authentication (cs.eraseP fun c => c.tag == Layout.signature),
        r.shape⟩) := by
  have hsteps : RequestPart.outerSignature.path.steps
      = [] ++ [⟨"OUTER_SIGNATURE", Layout.signature, 0⟩] := rfl
  exact removePart_below (congrArg Tlv.tag hnode) hsteps rfl (congrArg some hnode)

theorem addPart_authentication (child : Tlv) :
    r.addPart .authentication child
      = (.ok (), ⟨.constructed Layout.authentication (cs ++ [child]), r.shape⟩) := by
  refine edited_eq_ok.mpr ⟨map_pair_eq_ok.mpr (Tlv.addChild_eq_ok.mpr ?_), rfl⟩
  rw [hnode]
  exact ⟨Layout.authentication, cs, rfl, rfl⟩

/-- There is always room for a reference in the wrapper. -/
theorem exists_putPart_outerCaReference (new : Tlv) :
    ∃ r', r.putPart .outerCaReference .authentication new = (.ok (), r') := by
  rw [putPart]
  cases hfound : r.part? .outerCaReference with
  | none =>
    rw [if_neg (by decide), addPart_authentication hnode]
    exact ⟨_, rfl⟩
  | some old =>
    have hreplace : r.replacePart .outerCaReference new = (.ok old,
        ⟨r.node.put RequestPart.outerCaReference.path.steps new, r.shape⟩) :=
      edited_eq_ok.mpr ⟨Tlv.replaceChild_eq_ok.mpr ⟨by decide, hfound, rfl⟩, rfl⟩
    rw [if_pos Option.isSome_some, hreplace]
    exact ⟨_, rfl⟩

end constructed

/-- A request whose outer signature fails to be dropped, or whose reference fails to
be set, is as it was. -/
theorem setOuterAuthorityReference_error {reference : String} {e : Error}
    (h : r.setOuterAuthorityReference reference = (.error e, r')) : r' = r := by
  rw [setOuterAuthorityReference] at h
  split at h
  · cases h
    rfl
  split at h
  · next hremoved =>
    cases h
    exact edited_error hremoved
  next removed staged hremoved =>
  have hedited := editedAt_removePart hremoved
  rcases hedited.node.eq_or_constructed with hsame | ⟨root, cs, cs', hnode, hnode'⟩
  · -- nothing was there to drop, so what is given back is the request itself
    rw [putPart_error h]
    obtain ⟨node, shape⟩ := r
    obtain ⟨node', shape'⟩ := staged
    cases hsame
    cases hedited.shape
    rfl
  · have hroot := Tlv.root_tag_of_removeChild (edited_eq_ok.mp hremoved).1
    rw [hnode] at hroot
    cases hroot
    -- once the signature is dropped, there is no way left to fail
    obtain ⟨r'', hput⟩ := exists_putPart_outerCaReference hnode'
      (.primitive Layout.caReference (Text.toUtf8 reference))
    cases h.symm.trans hput

/-- With one outer signature at most, taking it out leaves the other elements. -/
theorem children_removePart_outerSignature {removed : Option Tlv} {staged : Request}
    (hfew : r.outerSignatures.length ≤ 1)
    (h : r.removePart .outerSignature = (.ok removed, staged)) :
    staged.node.children = r.enclosed := by
  cases hnode : r.node with
  | primitive root value =>
    have hedited := (editedAt_removePart h).node
    rw [hnode] at hedited
    rcases hedited.eq_or_constructed with hsame | ⟨_, _, _, hcontra, -⟩
    · rw [hsame, enclosed, hnode]
      rfl
    · cases hcontra
  | constructed root cs =>
    have hroot := Tlv.root_tag_of_removeChild (edited_eq_ok.mp h).1
    rw [hnode] at hroot
    cases hroot
    cases h.symm.trans (removePart_outerSignature hnode)
    rw [outerSignatures, hnode] at hfew
    rw [enclosed, hnode]
    exact Tlv.eraseP_eq_filter hfew

theorem filter_enclosed (r : Request) :
    (r.enclosed.filter fun c => c.tag == Layout.signature) = [] ∧
      (r.enclosed.filter fun c => c.tag != Layout.signature) = r.enclosed := by
  rw [enclosed, List.filter_filter, List.filter_filter]
  constructor <;> simp

/-- With one outer signature at most, signing the wrapper signs the other elements and
leaves the new signature as the only one. -/
theorem WrapperSigned.of_few {staged : Request} {signature : Bytes}
    (h : WrapperSigned staged signature r r') (hfew : r.outerSignatures.length ≤ 1) :
    staged.outerSignedData = Tlv.encodeAll r.enclosed ∧
      r'.outerSignatures = [.primitive Layout.signature signature] ∧
      r'.enclosed = r.enclosed := by
  obtain ⟨removed, hremoved⟩ := h.removed
  have hchildren := children_removePart_outerSignature hfew hremoved
  obtain ⟨root, cs, hstaged, hput⟩ :=
    Tlv.addChild_eq_ok.mp (map_pair_eq_ok.mp (edited_eq_ok.mp h.added).1)
  obtain ⟨-, hstaged⟩ := Tlv.child?_eq_some.mp hstaged
  have hnode : staged.node = .constructed root cs := Option.some.inj hstaged
  have hsigned : r'.node.children = r.enclosed ++ [.primitive Layout.signature signature] := by
    rw [hput, ← hchildren, hnode]
    rfl
  obtain ⟨hnone, hall⟩ := r.filter_enclosed
  refine ⟨by rw [outerSignedData, hchildren], ?_, ?_⟩
  · rw [outerSignatures, hsigned, List.filter_append, hnone]
    rfl
  · rw [enclosed, hsigned, List.filter_append, hall]
    exact List.append_nil _

/-- The first outer signature is checked, against the elements that are left without it. -/
theorem verifyOuter_first {cs : List Tlv} {first : Tlv} (hshape : r.shape = .authentication)
    (hnode : r.node = .constructed Layout.authentication cs)
    (hfirst : r.outerSignatures.head? = some first) (key : VerificationKey) :
    r.verifyOuter key
      = key.verify (Tlv.encodeAll (cs.eraseP fun c => c.tag == Layout.signature)) first.value := by
  have hroot : r.node.tag = Layout.authentication := congrArg Tlv.tag hnode
  rw [← part?_outerSignature hroot] at hfirst
  rw [verifyOuter, hshape]
  dsimp only
  rw [bind_of_ok (required_eq_ok.mpr hfirst), removePart_outerSignature hnode]
  rfl

/-- The only outer signature is checked against all the other elements. -/
theorem verifyOuter_eq (hshape : r.shape = .authentication)
    (hroot : r.node.tag = Layout.authentication) {signature : Bytes}
    (h : r.outerSignatures = [.primitive Layout.signature signature]) (key : VerificationKey) :
    r.verifyOuter key = key.verify (Tlv.encodeAll r.enclosed) signature := by
  obtain ⟨cs, hnode⟩ : ∃ cs, r.node = .constructed Layout.authentication cs := by
    cases hnode : r.node with
    | primitive root value =>
      rw [outerSignatures, hnode] at h
      cases h
    | constructed root cs =>
      rw [hnode] at hroot
      exact ⟨cs, congrArg (Tlv.constructed · cs) hroot⟩
  have hcs : r.node.children = cs := congrArg Tlv.children hnode
  have hfew : (cs.filter fun c => c.tag == Layout.signature).length ≤ 1 := by
    rw [← hcs]
    exact Nat.le_of_eq (congrArg List.length h)
  rw [verifyOuter_first hshape hnode (congrArg List.head? h), Tlv.eraseP_eq_filter hfew, enclosed, hcs]
  rfl

end Request
end CardAccess

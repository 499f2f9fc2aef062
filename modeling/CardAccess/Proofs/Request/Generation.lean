import CardAccess.Proofs.Key.Public
import CardAccess.Proofs.Request.Signing
import CardAccess.Proofs.Tlv.RoundTrip
import CardAccess.Request.Generation

/-!
# What a generated request carries

Nothing is assumed about the key service, so what holds of the result holds because
the stages check it or because they do not touch it.  Each stage has one lemma that
says which parts it leaves alone; the reference, put in first, and the inner
signature, checked in the middle, are carried through the later stages by these.
-/

namespace CardAccess

namespace Tlv

theorem Regular.get? {t found : Tlv} {steps : List Step} (h : t.Regular)
    (hfound : t.get? steps = some found) : found.Regular := by
  induction steps generalizing t with
  | nil =>
    cases hfound
    exact h
  | cons s steps ih =>
    obtain ⟨root, cs, front, c, back, rfl, hsplit, hc⟩ := exists_of_get?_cons hfound
    obtain ⟨-, -, -, hchildren⟩ := h
    refine ih (hchildren.of_mem ?_) hc
    rw [hsplit.parts]
    exact List.mem_append_right _ (List.mem_cons_self)

theorem Regular.of_mem_siblings {t c : Tlv} {holder : List Step} {tag : Tag} (h : t.Regular)
    (hc : c ∈ t.siblings holder tag) : c.Regular := by
  obtain ⟨i, hi⟩ := List.mem_iff_getElem?.mp hc
  exact h.get? ((t.getElem?_siblings holder ⟨"", tag, i⟩).symm.trans hi)

/-- A regular element with a tag for bytes becomes the element with the bytes that are set. -/
theorem setValue_eq_primitive {t changed : Tlv} {value : Bytes} (h : t.Regular)
    (hkind : t.tag.isConstructed = false) (hset : t.setValue value = .ok changed) :
    changed = .primitive t.tag value := by
  cases t with
  | primitive root old =>
    cases hset
    rfl
  | constructed root cs =>
    obtain ⟨-, hconstructed, -⟩ := h
    exact absurd (hconstructed.symm.trans hkind) (by decide)

end Tlv

namespace Request

variable {r r' : Request}

/-- The bytes of the value at a place. -/
def value? (r : Request) (part : RequestPart) : Option Bytes := (r.part? part).map Tlv.value

/-! ## Extensions -/

/-- The extensions go out and those of the certificate, if it has any, come in. -/
theorem copyExtensions_cases {old : Certificate} (h : r.copyExtensions old = .ok r') :
    ∃ removed cleared, r.removePart .extensions = (.ok removed, cleared) ∧
      (old.extensions = none ∧ r' = cleared ∨
        ∃ extensions, old.extensions = some extensions ∧ extensions.tag = Layout.extensions ∧
          cleared.addPart .certificateBody extensions = (.ok (), r')) := by
  obtain ⟨cleared, hremoved, h⟩ := bind_eq_ok.mp h
  obtain ⟨removed, hremoved⟩ := committed_eq_ok.mp hremoved
  refine ⟨removed, cleared, hremoved, ?_⟩
  split at h
  · next hnone =>
    cases h
    exact .inl ⟨hnone, rfl⟩
  next extensions hextensions =>
  obtain ⟨⟨⟩, hadded⟩ := committed_eq_ok.mp h
  exact .inr ⟨extensions, hextensions, Tlv.tag_of_child? (by decide) hextensions, hadded⟩

theorem editedAt_copyExtensions {old : Certificate} (h : r.copyExtensions old = .ok r') :
    r.EditedAt .extensions r' := by
  obtain ⟨_, cleared, hremoved, ⟨-, rfl⟩ | ⟨_, -, htag, hadded⟩⟩ := copyExtensions_cases h
  · exact editedAt_removePart hremoved
  · exact (editedAt_removePart hremoved).trans (editedAt_addPart rfl htag hadded)

/-- An identifier was read, or there is none, and it is not that of descriptions. -/
def NotDescribing (r : Request) (part : RequestPart) : Prop :=
  ∃ id, r.partId? part = .ok id ∧ id ≠ some Description.extensionId

/-- What setting a description comes down to, with what was found before. -/
inductive SetsDescription (digest : Bytes) (r r' : Request) : Prop where
  | first (hid : r.partId? .firstTemplateId = .ok (some Description.extensionId))
      (hset : r.setValue .firstTemplateHash digest = (.ok (), r')) : SetsDescription digest r r'
  | second (hfirst : r.NotDescribing .firstTemplateId)
      (hid : r.partId? .secondTemplateId = .ok (some Description.extensionId))
      (hset : r.setValue .secondTemplateHash digest = (.ok (), r')) : SetsDescription digest r r'
  | beside (hfirst : r.NotDescribing .firstTemplateId)
      (hsecond : r.NotDescribing .secondTemplateId)
      (hadded : r.addPart .extensions (descriptionTemplate digest) = (.ok (), r')) :
      SetsDescription digest r r'
  | alone {cleared : Request} {removed : Option Tlv} (hnone : r.part? .firstTemplate = none)
      (hremoved : r.removePart .extensions = (.ok removed, cleared))
      (hadded : cleared.addPart .certificateBody
        (.constructed Layout.extensions [descriptionTemplate digest]) = (.ok (), r')) :
      SetsDescription digest r r'

theorem setsDescription_of_setDescription {description : Description} {root : Certificate}
    (h : r.setDescription description root = .ok r') :
    ∃ algorithm, root.signatureAlgorithm = .ok algorithm ∧
      SetsDescription (description.digest algorithm.hash) r r' := by
  obtain ⟨algorithm, halgorithm, h⟩ := bind_eq_ok.mp h
  refine ⟨algorithm, halgorithm, ?_⟩
  obtain ⟨first, hfirst, h⟩ := bind_eq_ok.mp h
  split at h
  · next hid =>
    obtain ⟨⟨⟩, hset⟩ := committed_eq_ok.mp h
    exact .first (hid ▸ hfirst) hset
  next hother =>
  obtain ⟨second, hsecond, h⟩ := bind_eq_ok.mp h
  split at h
  · next hid =>
    obtain ⟨⟨⟩, hset⟩ := committed_eq_ok.mp h
    exact .second ⟨first, hfirst, hother⟩ (hid ▸ hsecond) hset
  next hneither =>
  split at h
  · obtain ⟨⟨⟩, hadded⟩ := committed_eq_ok.mp h
    exact .beside ⟨first, hfirst, hother⟩ ⟨second, hsecond, hneither⟩ hadded
  next hempty =>
  obtain ⟨cleared, hremoved, h⟩ := bind_eq_ok.mp h
  obtain ⟨_, hremoved⟩ := committed_eq_ok.mp hremoved
  obtain ⟨⟨⟩, hadded⟩ := committed_eq_ok.mp h
  exact .alone (Option.not_isSome_iff_eq_none.mp hempty) hremoved hadded

theorem SetsDescription.editedAt {digest : Bytes} (h : SetsDescription digest r r') :
    r.EditedAt .extensions r' := by
  cases h with
  | first hid hset =>
    have hfirst : r.EditedAt .firstTemplate r' :=
      (editedAt_setValue (by decide) hset).widen rfl (by decide)
    exact hfirst.widen rfl (by decide)
  | second hfirst hid hset =>
    have hsecond : r.EditedAt .secondTemplate r' :=
      (editedAt_setValue (by decide) hset).widen rfl (by decide)
    exact hsecond.widen rfl (by decide)
  | beside hfirst hsecond hadded =>
    have hadded : r.EditedAt .firstTemplate r' := editedAt_addPart rfl rfl hadded
    exact hadded.widen rfl (by decide)
  | alone hnone hremoved hadded =>
    exact (editedAt_removePart hremoved).trans (editedAt_addPart rfl rfl hadded)

/-! ## Around the certificate -/

/-- What is found inside the certificate of a request. -/
theorem part?_of_certificate {certificate : Tlv} (h : r.part? .cvCertificate = some certificate)
    {part : RequestPart} {steps : List Tlv.Step}
    (hsteps : part.path.steps = RequestPart.cvCertificate.path.steps ++ steps) :
    r.part? part = certificate.get? steps := by
  rw [part?_below hsteps, h, Option.bind_some]

theorem part?_cvCertificate_wrap {certificate : Tlv} (shape : RequestShape)
    (htag : certificate.tag = Layout.cvCertificate) :
    (⟨wrap certificate, shape⟩ : Request).part? .cvCertificate = some certificate := by
  refine Tlv.child?_eq_some.mpr ⟨rfl, ?_⟩
  have hsplit : Tlv.Splits Layout.cvCertificate 0 [certificate] [] certificate [] := ⟨rfl, htag, rfl⟩
  exact hsplit.get? (s := ⟨"CV_CERTIFICATE", Layout.cvCertificate, 0⟩) Layout.authentication []

theorem exists_part?_cvCertificate (h : (r.part? .certificateBody).isSome) :
    ∃ certificate, r.part? .cvCertificate = some certificate ∧
      certificate.tag = Layout.cvCertificate := by
  obtain ⟨body, hbody⟩ := Option.isSome_iff_exists.mp h
  obtain ⟨hroot, hget⟩ := Tlv.child?_eq_some.mp hbody
  have hsteps : RequestPart.certificateBody.path.steps
      = RequestPart.cvCertificate.path.steps ++ [RequestPart.certificateBody.path.target] := rfl
  rw [hsteps, Tlv.get?_append] at hget
  obtain ⟨certificate, hcertificate, -⟩ := Option.bind_eq_some_iff.mp hget
  have hfound : r.part? .cvCertificate = some certificate :=
    Tlv.child?_eq_some.mpr ⟨hroot, hcertificate⟩
  exact ⟨certificate, hfound, Tlv.tag_of_child? (by decide) hfound⟩

theorem certificate_eq {certificate : Tlv} (h : r.part? .cvCertificate = some certificate) :
    r.certificate = certificate := by
  have hfirst : r.node.first? Layout.cvCertificate = some certificate := by
    obtain ⟨-, hget⟩ := Tlv.child?_eq_some.mp h
    change r.node.get? [⟨"CV_CERTIFICATE", Layout.cvCertificate, 0⟩] = _ at hget
    rwa [Tlv.get?_singleton] at hget
  rw [Request.certificate, hfirst, Option.getD_some]

theorem intoBare_eq {certificate : Tlv} (h : r.part? .cvCertificate = some certificate) :
    r.intoBare = ⟨wrap certificate, .bare⟩ := by
  rw [intoBare, certificate_eq h]

/-- Taking the wrapper off leaves what is inside the certificate where it is, and
nothing beside it. -/
structure Bared (r r' : Request) : Prop where
  shape : r'.shape = .bare
  part?_eq : ∀ (part : RequestPart) (steps : List Tlv.Step),
    part.path.steps = RequestPart.cvCertificate.path.steps ++ steps → r'.part? part = r.part? part
  outerCaReference : r'.part? .outerCaReference = none
  outerSignature : r'.part? .outerSignature = none

theorem bared_intoBare (h : (r.part? .certificateBody).isSome) : Bared r r.intoBare := by
  obtain ⟨certificate, hcertificate, htag⟩ := exists_part?_cvCertificate h
  have hother {tag : Tlv.Tag} {name : String} (hne : tag ≠ Layout.cvCertificate) :
      (wrap certificate).get? [⟨name, tag, 0⟩] = none := by
    rw [Tlv.get?_cons, wrap, Tlv.nth?, Tlv.children, Tlv.filter_cons_ne]
    · rfl
    · rw [htag]
      exact hne.symm
  rw [intoBare_eq hcertificate]
  refine ⟨rfl, fun part steps hsteps => ?_, hother (by decide), hother (by decide)⟩
  rw [part?_of_certificate (part?_cvCertificate_wrap _ htag) hsteps,
    part?_of_certificate hcertificate hsteps]

theorem check_eq_ok {taken : Request} :
    ofTlv.check taken = .ok r ↔ (taken.part? .certificateBody).isSome ∧ r = taken := by
  rw [ofTlv.check, ← part?]
  cases taken.part? .certificateBody with
  | none =>
    constructor
    · intro h
      cases h
    · rintro ⟨hbody, -⟩
      cases hbody
  | some body =>
    constructor
    · intro h
      cases h
      exact ⟨rfl, rfl⟩
    · rintro ⟨-, rfl⟩
      rfl

/-- What is taken in is a wrapper, or a certificate for which one is made, with a body. -/
theorem ofTlv_eq_ok {node : Tlv} :
    ofTlv node = .ok r ↔ (r.part? .certificateBody).isSome ∧
      (node.tag = Layout.authentication ∧ r = ⟨node, .authentication⟩ ∨
        node.tag = Layout.cvCertificate ∧ r = ⟨wrap node, .bare⟩) := by
  rw [ofTlv]
  by_cases hwrapper : node.tag = Layout.authentication
  · have hother : node.tag ≠ Layout.cvCertificate := by
      rw [hwrapper]
      decide
    rw [if_pos hwrapper, check_eq_ok]
    constructor
    · rintro ⟨hbody, rfl⟩
      exact ⟨hbody, .inl ⟨hwrapper, rfl⟩⟩
    · rintro ⟨hbody, ⟨-, rfl⟩ | ⟨hcertificate, -⟩⟩
      · exact ⟨hbody, rfl⟩
      · exact absurd hcertificate hother
  rw [if_neg hwrapper]
  by_cases hcertificate : node.tag = Layout.cvCertificate
  · rw [if_pos hcertificate, check_eq_ok]
    constructor
    · rintro ⟨hbody, rfl⟩
      exact ⟨hbody, .inr ⟨hcertificate, rfl⟩⟩
    · rintro ⟨hbody, ⟨hcontra, -⟩ | ⟨-, rfl⟩⟩
      · exact absurd hcontra hwrapper
      · exact ⟨hbody, rfl⟩
  · rw [if_neg hcertificate]
    refine ⟨(nomatch ·), ?_⟩
    rintro ⟨-, ⟨hcontra, -⟩ | ⟨hcontra, -⟩⟩
    · exact absurd hcontra hwrapper
    · exact absurd hcontra hcertificate

theorem ofTlv_wrap {certificate : Tlv} (h : ofTlv (wrap certificate) = .ok r) :
    r = ⟨wrap certificate, .authentication⟩ := by
  have hother : Layout.authentication ≠ Layout.cvCertificate := by decide
  obtain ⟨-, ⟨-, hr⟩ | ⟨hcontra, -⟩⟩ := ofTlv_eq_ok.mp h
  · exact hr
  · exact absurd hcontra hother

end Request

namespace Generation

open KeyService (Procedure)

variable {input : GenerationInput}

/-! ## The stages before signing -/

/-- What the removal of a part preserves holds after all removals. -/
theorem foldlM_removePart {parts : List RequestPart} {r r' : Request} {P : Request → Prop}
    (hkept : ∀ removed ∈ parts, ∀ {r r' : Request} {found : Option Tlv},
      r.removePart removed = (.ok found, r') → P r → P r')
    (h : parts.foldlM (fun r part => Request.committed (r.removePart part)) r = .ok r')
    (hr : P r) : P r' := by
  induction parts generalizing r with
  | nil =>
    cases h
    exact hr
  | cons removed parts ih =>
    rw [List.foldlM_cons] at h
    obtain ⟨r₁, hr₁, h⟩ := bind_eq_ok.mp h
    obtain ⟨_, hremoved⟩ := Request.committed_eq_ok.mp hr₁
    exact ih (fun removed hmem => hkept removed (.tail _ hmem)) h
      (hkept removed (.head _) hremoved hr)

theorem cleanRequest_preserves {P : Request → Prop} {root : Certificate} {r : Request}
    {reference : String} (h : cleanRequest root = .ok (r, reference))
    (hkept : ∀ removed ∈ clearedParts, ∀ {r r' : Request} {found : Option Tlv},
      r.removePart removed = (.ok found, r') → P r → P r')
    (hwrapped : P ⟨Request.wrap root.node, .authentication⟩) : P r := by
  obtain ⟨reference', -, h⟩ := bind_eq_ok.mp h
  obtain ⟨template, htemplate, h⟩ := bind_eq_ok.mp h
  obtain ⟨r', hcleared, h⟩ := bind_eq_ok.mp h
  cases h
  cases Request.ofTlv_wrap htemplate
  exact foldlM_removePart hkept hcleared hwrapped

theorem observe_cleanRequest {α : Type} {root : Certificate} {r : Request} {reference : String}
    (h : cleanRequest root = .ok (r, reference)) (observe : Request → α)
    (hkept : ∀ removed ∈ clearedParts, ∀ {r r' : Request}, r.EditedAt removed r' →
      observe r' = observe r) :
    observe r = observe ⟨Request.wrap root.node, .authentication⟩ :=
  cleanRequest_preserves
    (P := fun r => observe r = observe ⟨Request.wrap root.node, .authentication⟩) h
    (fun removed hmem _ _ _ hremoved hr =>
      (hkept removed hmem (Request.editedAt_removePart hremoved)).trans hr) rfl

theorem cleanRequest_eq_ok {root : Certificate} {r : Request} {reference : String}
    (h : cleanRequest root = .ok (r, reference)) :
    r.shape = .authentication ∧ ∀ part, (∀ removed ∈ clearedParts, removed.spares part = true) →
      r.part? part = (⟨Request.wrap root.node, .authentication⟩ : Request).part? part :=
  ⟨observe_cleanRequest h Request.shape fun _ _ => (·.shape), fun part hspares =>
    observe_cleanRequest h (·.part? part) fun removed hmem => (·.part?_eq (hspares removed hmem))⟩

/-- The reference of the new certificate: the additional one unless that is missing or
empty, or else the next after that of the certificate to renew. -/
def IsReference (input : GenerationInput) (reference : String) : Prop :=
  match input.additional.bind AdditionalInput.reference? with
  | some given => reference = given
  | none => ∃ old oldReference, input.old = some old ∧ old.holderReference = .ok oldReference ∧
      HolderReference.next oldReference input.nextNumber = .ok reference

/-- What has been read of the certificate to renew, if there is one. -/
inductive ReadsOld : Option Certificate → Option String → Prop where
  | first : ReadsOld none none
  | renewal {old : Certificate} {reference : String} (h : old.holderReference = .ok reference) :
      ReadsOld (some old) (some reference)

theorem readsOld_of_mapM {old : Option Certificate} {reference : Option String}
    (h : old.mapM Certificate.holderReference = .ok reference) : ReadsOld old reference := by
  cases old with
  | none =>
    cases h
    exact .first
  | some old =>
    obtain ⟨found, hread, h⟩ := bind_eq_ok.mp h
    cases h
    exact .renewal hread

theorem isReference_of_newReference {old : Option String} {reference : String}
    (hold : ReadsOld input.old old) (h : newReference input old = .ok reference) :
    IsReference input reference := by
  rw [newReference.eq_def] at h
  rw [IsReference]
  cases hgiven : input.additional.bind AdditionalInput.reference? with
  | some given =>
    rw [hgiven] at h
    cases h
    rfl
  | none =>
    rw [hgiven] at h
    generalize input.old = certificate at hold
    cases hold with
    | first => cases h
    | renewal hread => exact ⟨_, _, rfl, hread, atStage_eq_ok.mp h⟩

/-- The request with the extensions of the certificate to renew, if there is one. -/
def carryExtensions (input : GenerationInput) (r : Request) : Except Error Request :=
  match input.old with
  | none => .ok r
  | some certificate => atStage .copyExtensions (r.copyExtensions certificate)

/-- The request bound to the description, if there is one. -/
def bindDescription (input : GenerationInput) (r : Request) : Except Error Request :=
  match input.description with
  | none => .ok r
  | some description => atStage .setDescription (r.setDescription description input.root)

theorem prepare_eq (input : GenerationInput) (old : Option String) :
    prepare input old = (do
      let (template, rootReference) ← atStage .cleanRequest (cleanRequest input.root)
      let reference ← newReference input old
      let named ← atStage .setHolderReference
        (Request.committed (template.setValue .holderReference (Text.toUtf8 reference)))
      let extended ← carryExtensions input named
      let described ← bindDescription input extended
      return (described, reference, rootReference)) := by
  obtain ⟨root, oldCertificate, oldKey, description, additional, usePresentKey, signerAlias,
    signerKey, nextNumber⟩ := input
  cases oldCertificate <;> cases description <;> rfl

/-- The stages of a preparation that succeeds. -/
theorem prepare_stages {old : Option String} {r : Request} {reference rootReference : String}
    (h : prepare input old = .ok (r, reference, rootReference)) :
    newReference input old = .ok reference ∧ ∃ template named extended,
      cleanRequest input.root = .ok (template, rootReference) ∧
      template.setValue .holderReference (Text.toUtf8 reference) = (.ok (), named) ∧
      carryExtensions input named = .ok extended ∧ bindDescription input extended = .ok r := by
  rw [prepare_eq] at h
  obtain ⟨⟨template, rootReference'⟩, hclean, h⟩ := bind_eq_ok.mp h
  obtain ⟨reference', hreference, h⟩ := bind_eq_ok.mp h
  obtain ⟨named, hnamed, h⟩ := bind_eq_ok.mp h
  obtain ⟨extended, hextended, h⟩ := bind_eq_ok.mp h
  obtain ⟨described, hdescribed, h⟩ := bind_eq_ok.mp h
  cases h
  obtain ⟨_, hset⟩ := Request.committed_eq_ok.mp (atStage_eq_ok.mp hnamed)
  exact ⟨hreference, template, named, extended, atStage_eq_ok.mp hclean, hset, hextended,
    hdescribed⟩

theorem editedAt_carryExtensions {r r' : Request} (h : carryExtensions input r = .ok r') :
    r.EditedAt .extensions r' := by
  rw [carryExtensions] at h
  split at h
  · cases h
    exact .same _ _
  · exact Request.editedAt_copyExtensions (atStage_eq_ok.mp h)

theorem editedAt_bindDescription {r r' : Request} (h : bindDescription input r = .ok r') :
    r.EditedAt .extensions r' := by
  rw [bindDescription] at h
  split at h
  · cases h
    exact .same _ _
  · obtain ⟨_, -, hset⟩ := Request.setsDescription_of_setDescription (atStage_eq_ok.mp h)
    exact hset.editedAt

/-- The element that the new holder reference is put in. -/
def referenceElement (reference : String) : Tlv :=
  .primitive Layout.holderReference (Text.toUtf8 reference)

/-- The reference in the template is that of the root, which was read, so it holds bytes. -/
theorem setValue_holderReference {template : Request} {rootReference reference : String}
    {old changed : Tlv} (hregular : input.root.node.Regular)
    (htag : input.root.node.tag = Layout.cvCertificate)
    (hclean : cleanRequest input.root = .ok (template, rootReference))
    (hold : template.part? .holderReference = some old)
    (hchanged : old.setValue (Text.toUtf8 reference) = .ok changed) :
    changed = referenceElement reference := by
  have holdtag : old.tag = Layout.holderReference := Tlv.tag_of_child? (by decide) hold
  rw [(cleanRequest_eq_ok hclean).2 _ (by decide),
    Request.part?_of_certificate (Request.part?_cvCertificate_wrap _ htag) rfl] at hold
  rw [referenceElement, ← holdtag]
  exact Tlv.setValue_eq_primitive (hregular.get? hold) (by rw [holdtag]; decide) hchanged

theorem prepare_eq_ok {old : Option String} {r : Request} {reference rootReference : String}
    (hregular : input.root.node.Regular) (htag : input.root.node.tag = Layout.cvCertificate)
    (h : prepare input old = .ok (r, reference, rootReference)) :
    newReference input old = .ok reference ∧ r.shape = .authentication ∧
      r.value? .holderReference = some (Text.toUtf8 reference) := by
  obtain ⟨hreference, template, named, extended, hclean, hset, hextended, hdescribed⟩ :=
    prepare_stages h
  have hlater := (editedAt_carryExtensions hextended).trans (editedAt_bindDescription hdescribed)
  refine ⟨hreference, ?_, ?_⟩
  · rw [hlater.shape, (Request.editedAt_setValue (by decide) hset).shape,
      (cleanRequest_eq_ok hclean).1]
  · obtain ⟨found, changed, hfound, hchanged, hvalue⟩ := Request.part?_setValue hset
    rw [Request.value?, hlater.part?_eq rfl, hvalue,
      setValue_holderReference hregular htag hclean hfound hchanged]
    rfl

/-! ## Signing -/

section signing

variable {σ : Type} {service : KeyService σ} {s s' : σ} {r r' : Request}

/-- The signature of the body is one that was just made, and it was checked. -/
theorem signBody_runs {key : VerificationKey} {keyAlias : String}
    (h : Procedure.Yields service s (signBody r key keyAlias) r' s') :
    (r.signInner key keyAlias).run service s = ((.ok (), r'), s') ∧ r'.verifyInner = .ok () := by
  obtain ⟨⟨result, after⟩, hrun, hchecked⟩ := Procedure.yields_mk_bind_done.mp h
  obtain ⟨signed, hsigned, hchecked⟩ := bind_eq_ok.mp hchecked
  obtain ⟨⟨⟩, hverified, hchecked⟩ := bind_eq_ok.mp hchecked
  cases hchecked
  obtain ⟨⟨⟩, hresult⟩ := Request.committed_eq_ok.mp hsigned
  cases hresult
  exact ⟨hrun, hverified⟩

theorem signBody_yields {key : VerificationKey} {keyAlias : String}
    (h : Procedure.Yields service s (signBody r key keyAlias) r' s') :
    r'.verifyInner = .ok () ∧ ∃ body signature, Request.BodySigned key body signature r r' := by
  obtain ⟨hrun, hverified⟩ := signBody_runs h
  rcases Request.run_signInner hrun with ⟨⟨e, he⟩, -⟩ | ⟨-, _, body, signature, -, -, hbody⟩
  · cases he
  · exact ⟨hverified, body, signature, hbody⟩

/-- The request `r'` is `r` with the wrapper signed in the name of `signer`. -/
structure Wrapped (signer : String) (r r' : Request) : Prop where
  shape : r'.shape = .authentication
  reference : r'.value? .outerCaReference = some (Text.toUtf8 signer)
  signature : (r'.part? .outerSignature).isSome
  part?_eq : ∀ part, RequestPart.outerCaReference.spares part = true →
    RequestPart.outerSignature.spares part = true → r'.part? part = r.part? part

/-- Whichever service signed the wrapper, a success has the same effect. -/
theorem wrapped_of_signOuter {named : Request} {signer : String} {id : ObjectId} {u : Unit}
    (hnamed : r.setOuterAuthorityReference signer = (.ok u, named))
    (h : (named.signOuter (some signer) id).run service s = ((.ok (), r'), s')) :
    Wrapped signer r r' := by
  obtain ⟨-, _, staged, hremoved, hput⟩ := Request.setOuterAuthorityReference_eq_ok.mp hnamed
  have hreferenced := Request.editedAt_putPart rfl rfl hput
  rcases Request.run_signOuter h with
    ⟨⟨e, he⟩, -⟩ | ⟨-, _, removed, signature, -, hauthentication, -, hsigned⟩
  · cases he
  refine ⟨?_, ?_, hsigned.isSome, fun part hcaReference houterSignature => ?_⟩
  · rw [hsigned.edits.2.shape, hsigned.edits.1.shape, hauthentication]
  · rw [Request.value?, hsigned.part?_eq rfl, Request.part?_putPart rfl rfl rfl hput]
    rfl
  · rw [hsigned.part?_eq houterSignature, hreferenced.part?_eq hcaReference,
      (Request.editedAt_removePart hremoved).part?_eq houterSignature]

/-- The signer is named, and the wrapper is signed by the service or, with a raw key, by keys in
memory of which that is the only one. -/
theorem signWrapper_runs {signer : String} {key : Option PrivateKey} {id : ObjectId}
    (h : Procedure.Yields service s (signWrapper r signer key id) r' s') :
    ∃ named, r.setOuterAuthorityReference signer = (.ok (), named) ∧
      (key = none ∧ (named.signOuter (some signer) id).run service s = ((.ok (), r'), s') ∨
        ∃ raw store keys, key = some raw ∧
          KeyStore.empty.importKey signer raw true = .ok store ∧
          (named.signOuter (some signer) id).run SoftwareKeys.service (.ofStore store)
            = ((.ok (), r'), keys) ∧ s' = s) := by
  rw [signWrapper.eq_def] at h
  split at h
  · cases h
  next named hnamed =>
  obtain ⟨⟨⟩, hnamed⟩ := Request.committed_eq_ok.mp hnamed
  refine ⟨named, hnamed, ?_⟩
  split at h
  · obtain ⟨outcome, hrun, hcommitted⟩ := Procedure.yields_mk_bind_done.mp h
    obtain ⟨⟨⟩, rfl⟩ := Request.committed_eq_ok.mp hcommitted
    exact .inl ⟨rfl, hrun⟩
  next raw =>
  split at h
  · cases h
  next store hstore =>
  obtain ⟨hcommitted, hsame⟩ := Procedure.yields_ofExcept.mp h
  obtain ⟨⟨⟩, hrun⟩ := Request.committed_eq_ok.mp hcommitted
  exact .inr ⟨raw, store, _, rfl, hstore, Prod.ext hrun rfl, hsame⟩

theorem signWrapper_yields {signer : String} {key : Option PrivateKey} {id : ObjectId}
    (h : Procedure.Yields service s (signWrapper r signer key id) r' s') :
    Wrapped signer r r' := by
  obtain ⟨named, hnamed, ⟨-, hrun⟩ | ⟨_, _, _, -, -, hrun, -⟩⟩ := signWrapper_runs h
  · exact wrapped_of_signOuter hnamed hrun
  · exact wrapped_of_signOuter hnamed hrun

/-- Whether the wrapper is kept and signed. -/
def isWrapped (input : GenerationInput) : Bool := input.signerAlias.isSome || input.old.isSome

/-- Who signs the wrapper: the request signer if there is one, or else the holder of
the certificate to renew. -/
def IsSigner (input : GenerationInput) (signer : String) : Prop :=
  match input.signerAlias with
  | some given => signer = given
  | none => ∃ old, input.old = some old ∧ old.holderReference = .ok signer

/-- Who signs the wrapper, with which raw key, if one is given, and under which identifier. -/
inductive SignsWrapper (input : GenerationInput) : String → Option PrivateKey → ObjectId → Prop where
  | requestSigner {signer : String} (h : input.signerAlias = some signer) :
      SignsWrapper input signer input.signerKey signerAlgorithm
  | holder {old : Certificate} {reference : String} {id : ObjectId}
      (hnone : input.signerAlias = none) (hold : input.old = some old)
      (hread : old.holderReference = .ok reference) (hid : old.publicKeyId = .ok id) :
      SignsWrapper input reference input.oldKey id

theorem SignsWrapper.isSigner {signer : String} {key : Option PrivateKey} {id : ObjectId}
    (h : SignsWrapper input signer key id) : IsSigner input signer := by
  rw [IsSigner]
  cases h with
  | requestSigner h => rw [h]
  | holder hnone hold hread hid =>
    rw [hnone]
    exact ⟨_, hold, hread⟩

theorem finish_cases {old : Option String} (hold : ReadsOld input.old old)
    (h : Procedure.Yields service s (finish input old r) r' s') :
    (isWrapped input = true ∧ ∃ signer key id, SignsWrapper input signer key id ∧
        Procedure.Yields service s (signWrapper r signer key id) r' s') ∨
      (isWrapped input = false ∧ r' = r.intoBare) := by
  rw [finish.eq_def] at h
  rw [isWrapped]
  generalize hcertificate : input.old = certificate at h hold
  split at h
  · next signer hsigner =>
    exact .inl ⟨by rw [hsigner]; rfl, _, _, _, .requestSigner hsigner, Procedure.yields_at.mp h⟩
  · next certificate reference hsigner =>
    obtain ⟨id, s₁, hread, hwrapped⟩ := Procedure.yields_bind.mp (Procedure.yields_at.mp h)
    obtain ⟨hid, rfl⟩ := Procedure.yields_ofExcept.mp hread
    cases hold with
    | renewal hread =>
      exact .inl ⟨by rw [hsigner]; rfl, _, _, _, .holder hsigner hcertificate hread hid, hwrapped⟩
  · next hneither hrenewal =>
    obtain ⟨hr, -⟩ := Procedure.yields_pure.mp h
    refine .inr ⟨?_, hr.symm⟩
    cases hsigner : input.signerAlias with
    | some signer => exact absurd hsigner (hneither signer)
    | none =>
      cases hold with
      | first => rfl
      | renewal hread => exact absurd rfl (hrenewal _ _ hsigner rfl)

theorem finish_yields {old : Option String} (hold : ReadsOld input.old old)
    (h : Procedure.Yields service s (finish input old r) r' s') :
    (isWrapped input = true ∧ ∃ signer, IsSigner input signer ∧ Wrapped signer r r') ∨
      (isWrapped input = false ∧ r' = r.intoBare) :=
  (finish_cases hold h).imp_left fun ⟨hwrapped, signer, _, _, hsigner, hyields⟩ =>
    ⟨hwrapped, signer, hsigner.isSigner, signWrapper_yields hyields⟩

end signing

/-! ## The whole -/

/-- The authorization that goes with the request: the additional one if there is one,
or else that of the certificate to renew. -/
def IsChat (input : GenerationInput) (chat : Chat) : Prop :=
  match input.additional.bind AdditionalInput.chat with
  | some given => chat = given
  | none => ∃ old, input.old = some old ∧ old.chat = .ok (some chat)

theorem isChat_of_chat {authorization : Chat} (h : chat input = .ok authorization) :
    IsChat input authorization := by
  rw [chat] at h
  rw [IsChat]
  cases hgiven : input.additional.bind AdditionalInput.chat with
  | some given =>
    rw [hgiven] at h
    cases h
    rfl
  | none =>
    rw [hgiven] at h
    dsimp only at h
    split at h
    · cases h
    next certificate hcertificate =>
    obtain ⟨read, hread, h⟩ := bind_eq_ok.mp h
    split at h
    · cases h
    · cases h
      exact ⟨certificate, hcertificate, hread⟩

/-- What a generated request carries. -/
structure Carries (input : GenerationInput) (data : GeneratedRequest) : Prop where
  inner : data.request.verifyInner = .ok ()
  holderReference : ∃ reference, IsReference input reference ∧
    data.request.value? .holderReference = some (Text.toUtf8 reference)
  shape : data.request.shape = if isWrapped input then .authentication else .bare
  state : data.request.state = if isWrapped input then .outerSigned else .innerSigned
  bare : isWrapped input = false →
    data.request.part? .outerCaReference = none ∧ data.request.part? .outerSignature = none
  signer : isWrapped input = true → ∃ signer, IsSigner input signer ∧
    data.request.value? .outerCaReference = some (Text.toUtf8 signer)
  chat : IsChat input data.chat

/-- The stages of a generation that succeeds, one after the other. -/
theorem generate_stages {σ : Type} {service : KeyService σ} {s s' : σ} {data : GeneratedRequest}
    (h : Procedure.Yields service s (generate input) data s') :
    ∃ old prepared reference rootReference key signed s₁ s₂,
      ReadsOld input.old old ∧ prepare input old = .ok (prepared, reference, rootReference) ∧
      Procedure.Yields service s
        (KeyService.provide input.root (some rootReference) reference (disposition input)) key s₁ ∧
      Procedure.Yields service s₁ (signBody prepared key.publicKey reference) signed s₂ ∧
      chat input = .ok data.chat ∧
      Procedure.Yields service s₂ (finish input old signed) data.request s' := by
  rw [generate] at h
  split at h
  · obtain ⟨_, _, hthrow, -⟩ := Procedure.yields_bind.mp h
    exact absurd hthrow Procedure.not_yields_throw
  obtain ⟨old, s₀, hold, h⟩ := Procedure.yields_bind.mp h
  obtain ⟨⟨prepared, reference, rootReference⟩, _, hprepare, h⟩ := Procedure.yields_bind.mp h
  obtain ⟨key, s₁, hkey, h⟩ := Procedure.yields_bind.mp h
  obtain ⟨signed, s₂, hsigned, h⟩ := Procedure.yields_bind.mp h
  obtain ⟨authorization, _, hchat, h⟩ := Procedure.yields_bind.mp h
  obtain ⟨finished, s₃, hfinish, h⟩ := Procedure.yields_bind.mp h
  obtain ⟨privateKey, _, hprivate, hdata⟩ := Procedure.yields_bind.mp h
  obtain ⟨hread, rfl⟩ := Procedure.yields_ofExcept.mp hold
  obtain ⟨hprepared, rfl⟩ := Procedure.yields_ofExcept.mp hprepare
  obtain ⟨hauthorized, rfl⟩ := Procedure.yields_ofExcept.mp hchat
  obtain ⟨-, rfl⟩ := Procedure.yields_ofExcept.mp hprivate
  obtain ⟨rfl, rfl⟩ := Procedure.yields_pure.mp hdata
  exact ⟨old, prepared, reference, rootReference, key, signed, s₁, _,
    readsOld_of_mapM (atStage_eq_ok.mp hread), hprepared, Procedure.yields_at.mp hkey,
    Procedure.yields_at.mp hsigned, atStage_eq_ok.mp hauthorized, hfinish⟩

/-- A generation that succeeds has been through all stages. -/
theorem generate_yields {σ : Type} {service : KeyService σ} {s s' : σ} {data : GeneratedRequest}
    (h : Procedure.Yields service s (generate input) data s') :
    ∃ old prepared reference rootReference keyAlias key signed s₁ s₂,
      ReadsOld input.old old ∧ prepare input old = .ok (prepared, reference, rootReference) ∧
      Procedure.Yields service s₁ (signBody prepared key keyAlias) signed s₂ ∧
      chat input = .ok data.chat ∧
      Procedure.Yields service s₂ (finish input old signed) data.request s' := by
  obtain ⟨old, prepared, reference, rootReference, key, signed, s₁, s₂, hold, hprepare, -, hsigned,
    hchat, hfinish⟩ := generate_stages h
  exact ⟨old, prepared, reference, rootReference, reference, key.publicKey, signed, s₁, s₂, hold,
    hprepare, hsigned, hchat, hfinish⟩

/-- Signing and wrapping change nothing else inside the certificate, and the wrapper
names its signer. -/
theorem generate_prepares {σ : Type} {service : KeyService σ} {s s' : σ} {data : GeneratedRequest}
    (h : Procedure.Yields service s (generate input) data s') :
    ∃ old prepared reference rootReference,
      ReadsOld input.old old ∧ prepare input old = .ok (prepared, reference, rootReference) ∧
      (∀ (part : RequestPart) (steps : List Tlv.Step),
        part.path.steps = RequestPart.cvCertificate.path.steps ++ steps →
        (∀ edited ∈ [RequestPart.publicKey, .signature, .outerCaReference, .outerSignature],
          edited.spares part = true) → data.request.part? part = prepared.part? part) ∧
      (isWrapped input = true → ∃ signer, IsSigner input signer ∧
        data.request.value? .outerCaReference = some (Text.toUtf8 signer)) := by
  obtain ⟨old, prepared, reference, rootReference, keyAlias, key, signed, s₁, s₂, hold, hprepare,
    hsigned, -, hfinish⟩ := generate_yields h
  obtain ⟨hinner, body, signature, hbody⟩ := signBody_yields hsigned
  refine ⟨old, prepared, reference, rootReference, hold, hprepare, ?_⟩
  rcases finish_yields hold hfinish with ⟨hwrapped, signer, hsigner, h⟩ | ⟨hbare, h⟩
  · refine ⟨fun part steps _ hspares => ?_, fun _ => ⟨signer, hsigner, h.reference⟩⟩
    rw [h.part?_eq part (hspares _ (by decide)) (hspares _ (by decide)),
      hbody.part?_eq (hspares _ (by decide)) (hspares _ (by decide))]
  · obtain ⟨-, hsomebody, -⟩ := Request.part?_of_verifyInner hinner
    refine ⟨fun part steps hsteps hspares => ?_, fun hwrapped => ?_⟩
    · rw [h, (Request.bared_intoBare hsomebody).part?_eq part steps hsteps,
        hbody.part?_eq (hspares _ (by decide)) (hspares _ (by decide))]
    · rw [hbare] at hwrapped
      cases hwrapped

theorem parse_of_ofBytes {bytes : Bytes} {certificate : Certificate}
    (h : Certificate.ofBytes bytes = .ok certificate) :
    Tlv.parse bytes = .ok certificate.node ∧ certificate.node.tag = Layout.cvCertificate := by
  obtain ⟨node, hparse, h⟩ := bind_eq_ok.mp h
  rw [Certificate.ofTlv] at h
  split at h
  · cases h
  next htag =>
  split at h
  · cases h
  cases h
  exact ⟨mapError_eq_ok.mp hparse, not_not.mp htag⟩

theorem wellFormed_of_ofBytes {bytes : Bytes} {certificate : Certificate}
    (h : Certificate.ofBytes bytes = .ok certificate) :
    certificate.node.WellFormed ∧ certificate.node.tag = Layout.cvCertificate :=
  ⟨Tlv.wellFormed_of_parse (parse_of_ofBytes h).1, (parse_of_ofBytes h).2⟩

theorem regular_of_ofBytes {bytes : Bytes} {certificate : Certificate}
    (h : Certificate.ofBytes bytes = .ok certificate) :
    certificate.node.Regular ∧ certificate.node.tag = Layout.cvCertificate :=
  ⟨(wellFormed_of_ofBytes h).1.1, (wellFormed_of_ofBytes h).2⟩

/-- Whatever a key service does, and whichever of the optional inputs are given: a
request that is generated has an inner signature that verifies, the reference, shape,
state and outer reference that the input asks for, and goes with the authorization
asked for.  Of the certificates only the root has to have been read from bytes, which
makes its reference an element with raw content. -/
theorem carries_of_generate {σ : Type} (service : KeyService σ) (s : σ) {bytes : Bytes}
    (hroot : Certificate.ofBytes bytes = .ok input.root) {data : GeneratedRequest}
    (h : ((generate input).run.run service s).1 = .ok data) : Carries input data := by
  obtain ⟨hregular, htag⟩ := regular_of_ofBytes hroot
  have hyields : Procedure.Yields service s (generate input) data
      ((generate input).run.run service s).2 := Prod.ext h rfl
  obtain ⟨old, prepared, reference, rootReference, keyAlias, key, signed, s₁, s₂, hold, hprepare,
    hsigned, hchat, hfinish⟩ := generate_yields hyields
  obtain ⟨hreference, hshape, hvalue⟩ := prepare_eq_ok hregular htag hprepare
  obtain ⟨hinner, body, signature, hbody⟩ := signBody_yields hsigned
  have hreference := isReference_of_newReference hold hreference
  have hsignedvalue : signed.value? .holderReference = some (Text.toUtf8 reference) := by
    rw [Request.value?, hbody.part?_eq rfl rfl]
    exact hvalue
  -- the inner signature was checked before the last stage, which spares what the check looks at
  rcases finish_yields hold hfinish with ⟨hwrapped, signer, hsigner, h⟩ | ⟨hbare, h⟩
  · refine ⟨?_, ⟨reference, hreference, ?_⟩, ?_, ?_, ?_, ?_, isChat_of_chat hchat⟩
    · rw [Request.verifyInner_congr (h.part?_eq _ rfl rfl) (h.part?_eq _ rfl rfl)
        (h.part?_eq _ rfl rfl), hinner]
    · rw [Request.value?, h.part?_eq _ rfl rfl]
      exact hsignedvalue
    · rw [h.shape, if_pos hwrapped]
    · rw [Request.state, if_pos h.signature, if_pos hwrapped]
    · rw [hwrapped]
      exact (nomatch ·)
    · exact fun _ => ⟨signer, hsigner, h.reference⟩
  · obtain ⟨-, hsomebody, hsomesignature⟩ := Request.part?_of_verifyInner hinner
    have hbared := Request.bared_intoBare hsomebody
    rw [← h] at hbared
    have hsignature : data.request.part? .signature = signed.part? .signature :=
      hbared.part?_eq _ _ rfl
    refine ⟨?_, ⟨reference, hreference, ?_⟩, ?_, ?_, fun _ => ⟨hbared.outerCaReference,
      hbared.outerSignature⟩, ?_, isChat_of_chat hchat⟩
    · rw [Request.verifyInner_congr (hbared.part?_eq _ _ rfl) (hbared.part?_eq _ _ rfl) hsignature,
        hinner]
    · rw [Request.value?, hbared.part?_eq _ _ rfl]
      exact hsignedvalue
    · rw [hbared.shape, hbare]
      rfl
    · rw [Request.state, hbared.outerSignature, hsignature, if_neg (by decide),
        if_pos hsomesignature, hbare]
      rfl
    · rw [hbare]
      exact (nomatch ·)

/-- A certificate over the small curve, for an inspection system. -/
def smallCertificate : Certificate :=
  ⟨.constructed Layout.cvCertificate
    [.constructed Layout.certificateBody
      [.primitive Layout.caReference [0x41], VerificationKey.small.toTlv true,
        .primitive Layout.holderReference [0x41, 0x30, 0x30, 0x30, 0x30, 0x31],
        Chat.toTlv ⟨Chat.inspectionSystems, [0x03]⟩],
      .primitive Layout.signature [1, 1]]⟩

/-- A certificate over the small curve with another reference and more in its body. -/
def smallCertificateWith (reference : Bytes) (more : List Tlv) : Certificate :=
  ⟨.constructed Layout.cvCertificate
    [.constructed Layout.certificateBody
      ([.primitive Layout.caReference [0x41], VerificationKey.small.toTlv true,
        .primitive Layout.holderReference reference,
        Chat.toTlv ⟨Chat.inspectionSystems, [0x03]⟩] ++ more),
      .primitive Layout.signature [1, 1]]⟩

/-- A service that has one public key and answers every request for a signature with
the same bytes. -/
def fixedService (signature : Bytes) : KeyService Unit where
  answer call state := ((match call with
    | .sign _ _ _ => .ok signature
    | .generateKeyPair _ => .ok ⟨VerificationKey.small.key, none⟩
    | .containsKey _ => .ok true
    | .publicKey _ => .ok VerificationKey.small.key
    | .importPrivateKey _ _ _ => .ok ()
    | .deleteKey _ => .ok true : KeyService.Reply call), state)

/-- The private key one on the small curve. -/
def smallStored : StoredKey := ⟨⟨Domain.small, [1]⟩, VerificationKey.small.key, none, none⟩

/-- That key in memory under each of some aliases. -/
def smallKeys (aliases : List String) : SoftwareKeys :=
  .ofStore ⟨aliases.map fun keyAlias => (keyAlias, smallStored)⟩

/-- The renewal of a certificate that is its own root. -/
def smallRenewal : GenerationInput :=
  ⟨smallCertificate, some smallCertificate, none, none, none, false, none, none, none⟩

/-- The bytes are a signature of the body.  Nothing asks whether they are one of the
wrapper. -/
theorem carries_of_generate_renewal : ∃ data,
    ((generate smallRenewal).run.run (fixedService [3, 2]) ()).1 = .ok data ∧
      Carries smallRenewal data := by
  have hroot : Certificate.ofBytes smallCertificate.encode = .ok smallRenewal.root := by
    decide +kernel
  have hok : ((generate smallRenewal).run.run (fixedService [3, 2]) ()).1.toOption.isSome := by
    decide +kernel
  cases h : ((generate smallRenewal).run.run (fixedService [3, 2]) ()).1 with
  | error e =>
    rw [h] at hok
    cases hok
  | ok data => exact ⟨data, rfl, carries_of_generate (fixedService [3, 2]) () hroot h⟩

end Generation
end CardAccess

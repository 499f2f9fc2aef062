import CardAccess.Proofs.Request.Generation

/-!
# What is left of the root

The root certificate is the template of a request: what the issuer decides is taken out of its
body, the holder reference and the public key are exchanged, and the extensions are those of the
certificate to renew.  Each of these changes is told by what it does to the list of elements in
the body (`body_removePart`, `body_replacePart`, `filter_of_editedAt_extensions`), so that list is
carried through the stages.

An element is taken out by its place, which is that of the first one with its tag.  A root that
states, say, two authorities leaves the second one in the request: `cleaned_of_generate` says
exactly what is left, and `second_authority_left` is a request with an authority in it.
-/

namespace CardAccess

/-- The elements in the body of a certificate. -/
def Certificate.bodyElements (c : Certificate) : List Tlv := (c.part? .body).elim [] Tlv.children

namespace Request

/-- The elements in the body. -/
def bodyElements (r : Request) : List Tlv := (r.part? .certificateBody).elim [] Tlv.children

section body

variable {r r' : Request} {part : RequestPart} {tag : Tlv.Tag} {cs : List Tlv}
  (hbody : r.part? .certificateBody = some (.constructed tag cs))

include hbody

theorem body_put (ds : List Tlv) (shape : RequestShape) :
    (⟨r.node.put RequestPart.certificateBody.path.steps (.constructed tag ds), shape⟩ :
      Request).part? .certificateBody = some (.constructed tag ds) :=
  Tlv.child?_put hbody rfl

/-! ## Changes in the body -/

/-- A change of the extensions leaves the other elements. -/
theorem filter_of_editedAt_extensions (h : r.EditedAt .extensions r') :
    ∃ ds, r'.part? .certificateBody = some (.constructed tag ds) ∧
      (ds.filter fun c => c.tag != Layout.extensions)
        = cs.filter fun c => c.tag != Layout.extensions := by
  obtain ⟨hroot, hget⟩ := Tlv.child?_eq_some.mp hbody
  obtain ⟨found, hfound, hedited⟩ := h.node.exists_get? hget
  have hpart : r'.part? .certificateBody = some found :=
    Tlv.child?_eq_some.mpr ⟨hroot.trans h.node.tag_eq.symm, hfound⟩
  rcases hedited.eq_or_constructed with rfl | ⟨root, _, ds, hsame, rfl⟩
  · exact ⟨cs, hpart, rfl⟩
  · cases hsame
    exact ⟨ds, hpart, hedited.filter_others⟩

section

variable (hsteps : part.path.steps
    = RequestPart.certificateBody.path.steps ++ [part.path.target])
  (hindex : part.path.index = 0)

include hsteps hindex

/-- A part is missing if no element in the body has its tag. -/
theorem part?_eq_none_iff :
    r.part? part = none ↔ (cs.filter fun c => c.tag == part.path.tag) = [] := by
  have hfirst : r.part? part = (Tlv.constructed tag cs).first? part.path.tag := by
    rw [part?_below hsteps, hbody, Option.bind_some, Tlv.get?_singleton]
    exact congrArg ((Tlv.constructed tag cs).nth? part.path.tag) hindex
  rw [hfirst, Tlv.first?, Tlv.nth?, ← List.head?_eq_getElem?, List.head?_eq_none_iff]
  rfl

theorem body_removePart {removed : Option Tlv} (h : r.removePart part = (.ok removed, r')) :
    r'.part? .certificateBody
      = some (.constructed tag (cs.eraseP fun c => c.tag == part.path.tag)) := by
  obtain ⟨hroot, hget⟩ := Tlv.child?_eq_some.mp hbody
  rw [removePart_below hroot.symm hsteps hindex hget] at h
  cases h
  exact body_put hbody _ _

theorem body_replacePart {new old : Tlv} (h : r.replacePart part new = (.ok old, r')) :
    r'.part? .certificateBody
      = some (.constructed tag (Tlv.exchangeFirst part.path.tag new cs)) := by
  obtain ⟨hroot, hget⟩ := Tlv.child?_eq_some.mp hbody
  have hafter : r' = (r.replacePart part new).2 := by rw [h]
  rw [hafter, replacePart_below hroot.symm hsteps hindex hget]
  exact body_put hbody _ _

end

end body

/-- Setting a value is replacing the element by one with that value. -/
theorem replacePart_of_setValue {r r' : Request} {part : RequestPart} {value : Bytes}
    (hsteps : part.path.steps ≠ []) (h : r.setValue part value = (.ok (), r')) :
    ∃ old changed, r.part? part = some old ∧ old.setValue value = .ok changed ∧
      r.replacePart part changed = (.ok old, r') := by
  obtain ⟨hnode, hshape⟩ := edited_eq_ok.mp h
  obtain ⟨old, changed, hold, hchanged, hput⟩ := Tlv.setValueAt_eq_ok.mp (map_pair_eq_ok.mp hnode)
  exact ⟨old, changed, hold, hchanged,
    edited_eq_ok.mpr ⟨Tlv.replaceChild_eq_ok.mpr ⟨hsteps, hold, hput⟩, hshape⟩⟩

end Request

namespace Generation

open KeyService (Procedure)

variable {input : GenerationInput} {tag : Tlv.Tag} {cs : List Tlv}

/-- What the issuer decides. -/
def issuerParts : List RequestPart := [.caReference, .effectiveDate, .expirationDate, .chat]

def issuerTags : List Tlv.Tag := issuerParts.map fun part => part.path.tag

/-! ## The stages -/

theorem body_wrap {root : Certificate} (htag : root.node.tag = Layout.cvCertificate)
    (shape : RequestShape) :
    (⟨Request.wrap root.node, shape⟩ : Request).part? .certificateBody = root.part? .body := by
  have hroot : root.part? .body = root.node.get? CertificatePart.body.path.steps :=
    if_pos htag.symm
  rw [Request.part?_of_certificate (Request.part?_cvCertificate_wrap shape htag) rfl, hroot]
  exact (Tlv.get?_singleton _ _).trans (Tlv.get?_singleton _ _).symm

theorem body_foldlM_removePart {parts : List RequestPart} {r r' : Request}
    (hparts : ∀ part ∈ parts, part.path.steps
      = RequestPart.certificateBody.path.steps ++ [part.path.target] ∧ part.path.index = 0)
    (hbody : r.part? .certificateBody = some (.constructed tag cs))
    (h : parts.foldlM (fun r part => Request.committed (r.removePart part)) r = .ok r') :
    r'.part? .certificateBody
      = some (.constructed tag (Tlv.eraseFirsts (parts.map fun part => part.path.tag) cs)) := by
  induction parts generalizing r cs with
  | nil =>
    cases h
    exact hbody
  | cons part parts ih =>
    obtain ⟨⟨hsteps, hindex⟩, hrest⟩ := List.forall_mem_cons.mp hparts
    rw [List.foldlM_cons] at h
    obtain ⟨r₁, hr₁, h⟩ := bind_eq_ok.mp h
    obtain ⟨_, hremoved⟩ := Request.committed_eq_ok.mp hr₁
    exact ih hrest (Request.body_removePart hbody hsteps hindex hremoved) h

theorem body_cleanRequest {root : Certificate} {r : Request} {reference : String}
    (htag : root.node.tag = Layout.cvCertificate)
    (hroot : root.part? .body = some (.constructed tag cs))
    (h : cleanRequest root = .ok (r, reference)) :
    r.part? .certificateBody = some (.constructed tag (Tlv.eraseFirsts issuerTags cs)) := by
  obtain ⟨_, -, h⟩ := bind_eq_ok.mp h
  obtain ⟨template, htemplate, h⟩ := bind_eq_ok.mp h
  obtain ⟨cleared, hcleared, h⟩ := bind_eq_ok.mp h
  cases h
  cases Request.ofTlv_wrap htemplate
  have hparts : clearedParts = issuerParts ++ [.signature] := rfl
  rw [hparts, List.foldlM_append] at hcleared
  obtain ⟨stripped, hstripped, hcleared⟩ := bind_eq_ok.mp hcleared
  -- the signature is beside the body
  rw [List.foldlM_cons] at hcleared
  obtain ⟨_, hsignature, hcleared⟩ := bind_eq_ok.mp hcleared
  cases hcleared
  obtain ⟨_, hsignature⟩ := Request.committed_eq_ok.mp hsignature
  rw [(Request.editedAt_removePart hsignature).part?_eq rfl]
  exact body_foldlM_removePart (by decide) ((body_wrap htag _).trans hroot) hstripped

theorem body_prepare {old : Option String} {prepared : Request} {reference rootReference : String}
    (hregular : input.root.node.Regular) (htag : input.root.node.tag = Layout.cvCertificate)
    (hroot : input.root.part? .body = some (.constructed tag cs))
    (h : prepare input old = .ok (prepared, reference, rootReference)) :
    ∃ ds, prepared.part? .certificateBody = some (.constructed tag ds) ∧
      (ds.filter fun c => c.tag != Layout.extensions)
        = (Tlv.exchangeFirst Layout.holderReference (referenceElement reference)
            (Tlv.eraseFirsts issuerTags cs)).filter fun c => c.tag != Layout.extensions := by
  obtain ⟨-, template, named, extended, hclean, hset, hextended, hdescribed⟩ := prepare_stages h
  have htemplate := body_cleanRequest htag hroot hclean
  obtain ⟨found, changed, hfound, hchanged, hreplaced⟩ :=
    Request.replacePart_of_setValue (by decide) hset
  have hnamed := Request.body_replacePart htemplate rfl rfl hreplaced
  have hlater := (editedAt_carryExtensions hextended).trans (editedAt_bindDescription hdescribed)
  rw [setValue_holderReference hregular htag hclean hfound hchanged] at hnamed
  exact Request.filter_of_editedAt_extensions hnamed hlater

/-- A root that says which algorithm its key is for has a key in its body. -/
theorem exists_of_signatureAlgorithm {root : Certificate} {algorithm : SignatureAlgorithm}
    (h : root.signatureAlgorithm = .ok algorithm) :
    ∃ tag cs, root.part? .body = some (.constructed tag cs) ∧
      (cs.filter fun c => c.tag == Layout.publicKey) ≠ [] := by
  obtain ⟨id, hid, -⟩ := bind_eq_ok.mp h
  rw [Certificate.publicKeyId, Certificate.required] at hid
  obtain ⟨node, hnode, -⟩ := bind_eq_ok.mp hid
  split at hnode
  · cases hnode
  next hpart =>
  obtain ⟨hroot, hget⟩ := Tlv.child?_eq_some.mp hpart
  have hsteps : CertificatePart.publicKeyId.path.steps = CertificatePart.body.path.steps
      ++ [CertificatePart.publicKey.path.target, CertificatePart.publicKeyId.path.target] := rfl
  rw [hsteps, Tlv.get?_append] at hget
  obtain ⟨body, hbody, hget⟩ := Option.bind_eq_some_iff.mp hget
  obtain ⟨tag, cs, front, key, back, rfl, hsplit, -⟩ := Tlv.exists_of_get?_cons hget
  refine ⟨tag, cs, Tlv.child?_eq_some.mpr ⟨hroot, hbody⟩, fun hnone => ?_⟩
  have hfound := hsplit.getElem?
  rw [show CertificatePart.publicKey.path.target.tag = Layout.publicKey from rfl, hnone] at hfound
  cases hfound

/-- The key takes the place of the one in the body, and the signature goes beside the body. -/
theorem body_signInner {σ : Type} {service : KeyService σ} {s s' : σ} {r r' : Request}
    {key : VerificationKey} {keyAlias : String}
    (hbody : r.part? .certificateBody = some (.constructed tag cs))
    (hkey : (cs.filter fun c => c.tag == Layout.publicKey) ≠ [])
    (h : (r.signInner key keyAlias).run service s = ((.ok (), r'), s')) :
    r'.part? .certificateBody
      = some (.constructed tag (Tlv.exchangeFirst Layout.publicKey (key.toTlv true) cs)) := by
  rcases Request.run_signInner_puts h with
    ⟨⟨e, he⟩, -⟩ | ⟨-, algorithm, body, signature, staged, -, hput, -, -, hsigned⟩
  · cases he
  rw [(Request.editedAt_putPart rfl rfl hsigned).part?_eq rfl]
  rcases Request.putPart_cases hput with ⟨-, replaced, hreplaced, hresult⟩ | ⟨hnone, -⟩
  · cases replaced with
    | error e => cases hresult
    | ok old => exact Request.body_replacePart hbody rfl rfl hreplaced
  · exact absurd ((Request.part?_eq_none_iff hbody rfl rfl).mp hnone) hkey

/-! ## The whole -/

/-- What a request has in its body: the elements of the root's, but for the first one of each of
those that the issuer decides, with the reference and the key exchanged and with extensions of
its own. -/
structure Cleaned (root : Certificate) (reference : String) (key : VerificationKey)
    (r : Request) : Prop where
  elements : (r.bodyElements.filter fun c => c.tag != Layout.extensions)
    = Tlv.exchangeFirst Layout.publicKey (key.toTlv true)
      (Tlv.exchangeFirst Layout.holderReference (referenceElement reference)
        (Tlv.eraseFirsts issuerTags
          (root.bodyElements.filter fun c => c.tag != Layout.extensions)))
  missing_iff : ∀ part ∈ issuerParts, r.part? part = none ↔
    (root.bodyElements.filter fun c => c.tag == part.path.tag).length ≤ 1
  of_few : (∀ tag ∈ issuerTags, (root.bodyElements.filter fun c => c.tag == tag).length ≤ 1) →
    (r.bodyElements.filter fun c => c.tag != Layout.extensions)
      = Tlv.exchangeFirst Layout.publicKey (key.toTlv true)
        (Tlv.exchangeFirst Layout.holderReference (referenceElement reference)
          (root.bodyElements.filter fun c =>
            c.tag != Layout.extensions && issuerTags.all fun tag => c.tag != tag))

theorem cleaned_of_body {root : Certificate} {r : Request} {reference : String}
    {key : VerificationKey} {ds : List Tlv} (hroot : root.part? .body = some (.constructed tag cs))
    (hbody : r.part? .certificateBody
      = some (.constructed tag (Tlv.exchangeFirst Layout.publicKey (key.toTlv true) ds)))
    (hprepared : (ds.filter fun c => c.tag != Layout.extensions)
      = (Tlv.exchangeFirst Layout.holderReference (referenceElement reference)
          (Tlv.eraseFirsts issuerTags cs)).filter fun c => c.tag != Layout.extensions) :
    Cleaned root reference key r := by
  have hbefore : root.bodyElements = cs := by rw [Certificate.bodyElements, hroot]; rfl
  have hafter : r.bodyElements = Tlv.exchangeFirst Layout.publicKey (key.toTlv true) ds := by
    rw [Request.bodyElements, hbody]
    rfl
  have hkeytag : (key.toTlv true).tag = Layout.publicKey := rfl
  have hreferencetag : (referenceElement reference).tag = Layout.holderReference := rfl
  have hkept {tag : Tlv.Tag} (hne : tag ≠ Layout.extensions) (c : Tlv) (hc : c.tag = tag) :
      (c.tag != Layout.extensions) = true := by
    rw [hc]
    exact bne_iff_ne.mpr hne
  have helements : (r.bodyElements.filter fun c => c.tag != Layout.extensions)
      = Tlv.exchangeFirst Layout.publicKey (key.toTlv true)
        (Tlv.exchangeFirst Layout.holderReference (referenceElement reference)
          (Tlv.eraseFirsts issuerTags
            (root.bodyElements.filter fun c => c.tag != Layout.extensions))) := by
    rw [hafter, hbefore, Tlv.filter_exchangeFirst rfl (hkept (by decide)), hprepared,
      Tlv.filter_exchangeFirst rfl (hkept (by decide)), Tlv.eraseFirsts_filter (by decide)]
  refine ⟨helements, fun part hpart => ?_, fun hfew => ?_⟩
  · have hplace : part.path.steps
        = RequestPart.certificateBody.path.steps ++ [part.path.target] ∧ part.path.index = 0 := by
      revert part
      decide
    have hothers : part.path.tag ≠ Layout.publicKey ∧ part.path.tag ≠ Layout.extensions ∧
        part.path.tag ≠ Layout.holderReference ∧ part.path.tag ∈ issuerTags := by
      revert part
      decide
    obtain ⟨hkey, hextensions, hreference, hissuer⟩ := hothers
    -- none of the later stages has to do with elements of this tag
    rw [Request.part?_eq_none_iff hbody hplace.1 hplace.2,
      Tlv.filter_exchangeFirst_of_ne hkeytag hkey, Tlv.EditedAt.filter_of_ne hprepared hextensions,
      Tlv.filter_exchangeFirst_of_ne hreferencetag hreference,
      Tlv.filter_eraseFirsts (by decide) hissuer, hbefore, ← List.length_eq_zero_iff,
      List.length_tail]
    omega
  · rw [helements, Tlv.eraseFirsts_filter (by decide), Tlv.eraseFirsts_of_few hfew,
      List.filter_filter]

/-- Whatever the key service does, and whichever of the optional inputs are given: a request
has in its body what `Cleaned` says, whatever root it was made from that can be read.  It has
nothing that the issuer decides exactly if the root states nothing of it twice. -/
theorem cleaned_of_generate {σ : Type} (service : KeyService σ) (s : σ) {bytes : Bytes}
    (hroot : Certificate.ofBytes bytes = .ok input.root) {data : GeneratedRequest}
    (h : ((generate input).run.run service s).1 = .ok data) :
    ∃ reference key, IsReference input reference ∧ Cleaned input.root reference key data.request := by
  obtain ⟨hregular, htag⟩ := regular_of_ofBytes hroot
  have hyields : Procedure.Yields service s (generate input) data
      ((generate input).run.run service s).2 := Prod.ext h rfl
  obtain ⟨old, prepared, reference, rootReference, key, signed, s₁, s₂, hold, hprepare, hprovide,
    hsigned, -, hfinish⟩ := generate_stages hyields
  obtain ⟨algorithm, _, halgorithm, -⟩ := Procedure.yields_bind.mp hprovide
  obtain ⟨halgorithm, -⟩ := Procedure.yields_ofExcept.mp halgorithm
  obtain ⟨tag, cs, hbody, hkey⟩ := exists_of_signatureAlgorithm halgorithm
  obtain ⟨ds, hprepared, hfilter⟩ := body_prepare hregular htag hbody hprepare
  have hreference := isReference_of_newReference hold (prepare_eq_ok hregular htag hprepare).1
  obtain ⟨hrun, hinner⟩ := signBody_runs hsigned
  have hstillkey : (ds.filter fun c => c.tag == Layout.publicKey) ≠ [] := by
    have hreferencetag : (referenceElement reference).tag = Layout.holderReference := rfl
    rw [Tlv.EditedAt.filter_of_ne hfilter (by decide),
      Tlv.filter_exchangeFirst_of_ne hreferencetag (by decide),
      Tlv.filter_eraseFirsts_of_not_mem (by decide)]
    exact hkey
  have hsignedbody := body_signInner hprepared hstillkey hrun
  refine ⟨reference, key.publicKey, hreference, cleaned_of_body hbody ?_ hfilter⟩
  rcases finish_yields hold hfinish with ⟨-, signer, -, h⟩ | ⟨-, h⟩
  · rw [h.part?_eq .certificateBody rfl rfl]
    exact hsignedbody
  · rw [h, (Request.bared_intoBare (Request.part?_of_verifyInner hinner).2.1).part?_eq
      .certificateBody _ rfl]
    exact hsignedbody

/-- The renewal of a certificate that is its own root, which states one authority. -/
theorem cleaned_of_generate_renewal : ∃ data,
    ((generate smallRenewal).run.run (fixedService [3, 2]) ()).1 = .ok data ∧
      data.request.part? .caReference = none ∧ data.request.part? .chat = none := by
  have hroot : Certificate.ofBytes smallCertificate.encode = .ok smallRenewal.root := by
    decide +kernel
  have hok : ((generate smallRenewal).run.run (fixedService [3, 2]) ()).1.toOption.any
      fun _ => true := by
    decide +kernel
  obtain ⟨data, h, -⟩ := exists_ok_of_any hok
  obtain ⟨reference, key, -, hcleaned⟩ := cleaned_of_generate (fixedService [3, 2]) () hroot h
  exact ⟨data, h, (hcleaned.missing_iff .caReference (by decide)).mpr (by decide),
    (hcleaned.missing_iff .chat (by decide)).mpr (by decide)⟩

/-- A root that states a second authority behind its authorization. -/
def ambiguousRoot : Certificate :=
  smallCertificateWith [0x41, 0x30, 0x30, 0x30, 0x30, 0x31] [.primitive Layout.caReference [0x42]]

/-- The renewal of a certificate under a root that states two authorities. -/
def ambiguousRenewal : GenerationInput := { smallRenewal with root := ambiguousRoot }

/-- Once the first authority is taken out, the second one is in its place. -/
theorem second_authority_left :
    Certificate.ofBytes ambiguousRoot.encode = .ok ambiguousRenewal.root ∧
      ∃ data, ((generate ambiguousRenewal).run.run (fixedService [3, 4]) ()).1 = .ok data ∧
        data.request.part? .caReference = some (.primitive Layout.caReference [0x42]) := by
  refine ⟨by decide +kernel, ?_⟩
  have hleft : ((generate ambiguousRenewal).run.run (fixedService [3, 4]) ()).1.toOption.any
      fun data => decide (data.request.part? .caReference
        = some (.primitive Layout.caReference [0x42])) := by
    decide +kernel
  obtain ⟨data, h, hchecked⟩ := exists_ok_of_any hleft
  exact ⟨data, h, of_decide_eq_true hchecked⟩

end Generation
end CardAccess

import CardAccess.Proofs.KeyService.Calls
import CardAccess.Proofs.Request.Progress

/-!
# Signing a wrapper anew

A request may come with a signature of someone else.  Naming another signer drops an outer
signature, and so does signing the wrapper, before each puts in what is new; checking looks at
the first outer signature that is there.  So a request that came with two outer signatures or
fewer is checked against the new one, over the very bytes that were signed, and of a request that
came with more the third is checked instead.  Whatever else is in the wrapper stays as it was.
-/

namespace CardAccess
namespace Request

variable {σ : Type} {service : KeyService σ} {s s' : σ} {r r' : Request}

/-- What is in the wrapper beside the outer signatures and the reference of the outer signer,
which is the first reference there. -/
def others (r : Request) : List Tlv :=
  (r.node.children.eraseP fun c => c.tag == Layout.caReference).filter fun c =>
    c.tag != Layout.signature

theorem others_eq (r : Request) :
    r.others = r.enclosed.eraseP fun c => c.tag == Layout.caReference :=
  (Tlv.eraseP_filter (by decide) r.node.children).symm

/-! ## The single steps -/

theorem EditedAt.enclosed_eq (h : r.EditedAt .outerSignature r') : r'.enclosed = r.enclosed :=
  Tlv.EditedAt.filter_others h.node

theorem outerSignatures_removePart {removed : Option Tlv}
    (h : r.removePart .outerSignature = (.ok removed, r')) :
    r'.outerSignatures = r.outerSignatures.tail :=
  siblings_removePart rfl h

theorem outerSignatures_addPart {signature : Bytes}
    (h : r.addPart .authentication (.primitive Layout.signature signature) = (.ok (), r')) :
    r'.outerSignatures = r.outerSignatures ++ [.primitive Layout.signature signature] := by
  have hsiblings : r'.siblings .outerSignature
      = r.siblings .outerSignature ++ [.primitive Layout.signature signature] :=
    siblings_addPart rfl rfl h
  exact hsiblings

/-- A reference that is put in the wrapper is the first one there, and the rest of the wrapper
stays as it was. -/
theorem others_putPart {new : Tlv} (htag : new.tag = Layout.caReference)
    (h : r.putPart .outerCaReference .authentication new = (.ok (), r')) :
    r'.others = r.others := by
  have herased : (r'.node.children.eraseP fun c => c.tag == Layout.caReference)
      = r.node.children.eraseP fun c => c.tag == Layout.caReference := by
    rcases putPart_cases h with ⟨-, replaced, hreplace, hresult⟩ | ⟨hnone, hadded⟩
    · cases replaced with
      | error e => cases hresult
      | ok old =>
      obtain ⟨-, hfound, hput⟩ := Tlv.replaceChild_eq_ok.mp (edited_eq_ok.mp hreplace).1
      obtain ⟨-, hget⟩ := Tlv.child?_eq_some.mp hfound
      obtain ⟨root, cs, front, c, back, hnode, hsplit, -⟩ := Tlv.exists_of_get?_cons hget
      have hnode' : r'.node = .constructed root (front ++ new :: back) := by
        rw [hput, hnode]
        exact hsplit.put root [] new
      rw [hnode', hnode, Tlv.children, Tlv.children, hsplit.eraseP]
      exact (hsplit.exchange htag).eraseP
    · obtain ⟨root, cs, hplace, hput⟩ :=
        Tlv.addChild_eq_ok.mp (map_pair_eq_ok.mp (edited_eq_ok.mp hadded).1)
      obtain ⟨hroot, hget⟩ := Tlv.child?_eq_some.mp hplace
      have hnode : r.node = .constructed root cs := Option.some.inj hget
      have hnode' : r'.node = .constructed root (cs ++ [new]) := hput
      -- there was no reference, so the only one is behind everything else
      have hmissing : ∀ c ∈ cs, ¬ (c.tag == Layout.caReference) = true := by
        have hfirst : r.node.get? RequestPart.outerCaReference.path.steps = none :=
          (if_pos hroot).symm.trans hnone
        change r.node.get? [⟨"OUTER_CA_REFERENCE", Layout.caReference, 0⟩] = none at hfirst
        rw [hnode, Tlv.get?_singleton] at hfirst
        exact List.filter_eq_nil_iff.mp (List.head?_eq_none_iff.mp
          (List.head?_eq_getElem? ▸ hfirst))
      rw [hnode', hnode, Tlv.children, Tlv.children, List.eraseP_append_right _ hmissing,
        List.eraseP_cons_of_pos (by rw [htag]; decide), List.append_nil,
        List.eraseP_of_forall_not hmissing]
  rw [others, others, herased]

/-! ## Naming and signing -/

/-- The request `r'` is `r` with the outer signer named and a signature of `data` behind
everything else in the wrapper. -/
structure SignedAnew (reference : String) (data signature : Bytes) (r r' : Request) : Prop where
  shape : r'.shape = .authentication
  node : ∃ cs, r'.node = .constructed Layout.authentication
    (cs ++ [.primitive Layout.signature signature]) ∧ data = Tlv.encodeAll cs
  reference : r'.part? .outerCaReference
    = some (.primitive Layout.caReference (Text.toUtf8 reference))
  others : r'.others = r.others
  outerSignatures : r'.outerSignatures
    = r.outerSignatures.drop 2 ++ [.primitive Layout.signature signature]

theorem signedAnew_of_wrapperSigned {named staged : Request} {reference : String} {signature : Bytes}
    (hnamed : r.setOuterAuthorityReference reference = (.ok (), named))
    (hsigned : WrapperSigned staged signature named r') :
    SignedAnew reference staged.outerSignedData signature r r' := by
  obtain ⟨hshape, removed, dropped, hremoved, hput⟩ := setOuterAuthorityReference_eq_ok.mp hnamed
  obtain ⟨removed', hremoved'⟩ := hsigned.removed
  have hreferenced := editedAt_putPart rfl rfl hput
  obtain ⟨hunsigned, hadded⟩ := hsigned.edits
  obtain ⟨root, cs, hplace, hnode⟩ :=
    Tlv.addChild_eq_ok.mp (map_pair_eq_ok.mp (edited_eq_ok.mp hsigned.added).1)
  obtain ⟨hanchor, hget⟩ := Tlv.child?_eq_some.mp hplace
  have hstaged : staged.node = .constructed root cs := Option.some.inj hget
  refine ⟨?_, ⟨cs, ?_, ?_⟩, ?_, ?_, ?_⟩
  · rw [hadded.shape, hunsigned.shape, hreferenced.shape, (editedAt_removePart hremoved).shape,
      hshape]
  · rw [hstaged] at hanchor
    have hrootTag : root = Layout.authentication := hanchor.symm
    rw [hrootTag] at hnode
    exact hnode
  · rw [outerSignedData, hstaged]
    rfl
  · rw [hsigned.part?_eq rfl, part?_putPart rfl rfl rfl hput]
  · rw [others_eq, hadded.enclosed_eq, hunsigned.enclosed_eq, ← others_eq, others_putPart rfl hput,
      others_eq, others_eq, (editedAt_removePart hremoved).enclosed_eq]
  · rw [outerSignatures_addPart hsigned.added, outerSignatures_removePart hremoved',
      hreferenced.outerSignatures_eq (by decide), outerSignatures_removePart hremoved,
      ← List.drop_one, ← List.drop_one, List.drop_drop]

/-- With two outer signatures at most to drop, the new one is left, and it is checked against
what was signed. -/
theorem SignedAnew.verifyOuter_of_few {reference : String} {data signature : Bytes}
    (h : SignedAnew reference data signature r r') (hfew : r.outerSignatures.length ≤ 2)
    (key : VerificationKey) : r'.verifyOuter key = key.verify data signature := by
  obtain ⟨cs, hnode, hdata⟩ := h.node
  have hone : r'.outerSignatures = [.primitive Layout.signature signature] := by
    rw [h.outerSignatures, List.drop_eq_nil_of_le hfew, List.nil_append]
  have hchildren : (cs ++ [Tlv.primitive Layout.signature signature]).filter
      (fun c => c.tag == Layout.signature) = [.primitive Layout.signature signature] := by
    rw [Request.outerSignatures, hnode] at hone
    exact hone
  rw [List.filter_append] at hchildren
  have hnone : (cs.filter fun c => c.tag == Layout.signature) = [] :=
    List.append_left_eq_self.mp hchildren
  rw [verifyOuter_first h.shape hnode (congrArg List.head? hone),
    List.eraseP_append_right _ (List.filter_eq_nil_iff.mp hnone), hdata]
  have hlast : [Tlv.primitive Layout.signature signature].eraseP
      (fun c => c.tag == Layout.signature) = [] := rfl
  rw [hlast, List.append_nil]
  rfl

/-- A third outer signature is the first one afterwards, and it is what is checked. -/
theorem SignedAnew.verifyOuter_of_third {reference : String} {data signature : Bytes} {third : Tlv}
    (h : SignedAnew reference data signature r r') (hthird : r.outerSignatures[2]? = some third)
    (key : VerificationKey) :
    r'.verifyOuter key = key.verify
      (Tlv.encodeAll (r'.node.children.eraseP fun c => c.tag == Layout.signature))
      third.value := by
  obtain ⟨cs, hnode, -⟩ := h.node
  have hfirst : r'.outerSignatures.head? = some third := by
    rw [h.outerSignatures, List.head?_append, List.head?_drop, hthird]
    rfl
  rw [verifyOuter_first h.shape hnode hfirst, hnode]
  rfl

/-- Naming a signer and signing the wrapper, if both succeed, have asked the service for one
signature.  It stands behind everything else in the wrapper, which names the signer and holds the
same other elements in the same order.  If the request came with two outer signatures at most,
the check is that of the new signature over what was signed; if it came with more, the third of
them is checked instead. -/
theorem verifyOuter_of_signOuter (service : KeyService σ) (s : σ) {named : Request}
    {reference : String} {keyAlias : Option String} {id : ObjectId}
    (hnamed : r.setOuterAuthorityReference reference = (.ok (), named))
    (hsigned : ((named.signOuter keyAlias id).run service s).1 = (.ok (), r')) :
    ∃ signer data signature, keyAlias = some signer ∧
      (named.signOuter keyAlias id).calls service s = [.sign signer id data] ∧
      (service.answer (.sign signer id data) s).1 = .ok signature ∧
      SignedAnew reference data signature r r' ∧
      (r.outerSignatures.length ≤ 2 → ∀ key, r'.verifyOuter key = key.verify data signature) ∧
      ∀ third, r.outerSignatures[2]? = some third → ∀ key, r'.verifyOuter key = key.verify
        (Tlv.encodeAll (r'.node.children.eraseP fun c => c.tag == Layout.signature))
        third.value := by
  -- the record of the calls starts empty, so what it holds in the end is the calls
  have hrecorded : (named.signOuter keyAlias id).run (KeyService.recorded service) (s, [])
      = ((.ok (), r'), ((named.signOuter keyAlias id).run service s).2,
        (named.signOuter keyAlias id).calls service s) := by
    rw [KeyService.Dialogue.run_recorded, hsigned]
    rfl
  rcases run_signOuter hrecorded with ⟨⟨e, he⟩, -⟩ | ⟨-, signer, staged, signature, halias, -,
    hanswer, hwrapper⟩
  · cases he
  obtain ⟨hreply, hstate⟩ := Prod.mk.inj hanswer
  have hcalls : [KeyService.Call.sign signer id staged.outerSignedData]
      = (named.signOuter keyAlias id).calls service s := congrArg Prod.snd hstate
  have hanew := signedAnew_of_wrapperSigned hnamed hwrapper
  exact ⟨signer, staged.outerSignedData, signature, halias, hcalls.symm, hreply, hanew,
    hanew.verifyOuter_of_few, fun _ => hanew.verifyOuter_of_third⟩

/-- A request with an empty body that comes with some outer signatures. -/
def presigned (signatures : List Bytes) : Request :=
  ⟨.constructed Layout.authentication
    (.constructed Layout.cvCertificate [.constructed Layout.certificateBody []] ::
      signatures.map (.primitive Layout.signature)), .authentication⟩

/-- Two outer signatures are replaced by one that verifies. -/
theorem verifyOuter_of_signOuter_presigned :
    let r := presigned [[1], [2]]
    ∃ named r', r.setOuterAuthorityReference "A" = (.ok (), named) ∧
      ((named.signOuter (some "A") VerificationKey.small.id).run smallSigner [[8]]).1
        = (.ok (), r') ∧
      r'.verifyOuter .small = .ok () := by
  intro r
  have hnamed : r.setOuterAuthorityReference "A"
      = (.ok (), (r.setOuterAuthorityReference "A").2) := by decide +kernel
  generalize hname : (r.setOuterAuthorityReference "A").2 = named at hnamed
  have hsigned : ((named.signOuter (some "A") VerificationKey.small.id).run smallSigner [[8]]).1
      = (.ok (),
        ((named.signOuter (some "A") VerificationKey.small.id).run smallSigner [[8]]).1.2) := by
    rw [← hname]
    decide +kernel
  obtain ⟨signer, data, signature, -, -, hanswer, -, hfew, -⟩ :=
    verifyOuter_of_signOuter smallSigner [[8]] hnamed hsigned
  refine ⟨named, _, hnamed, hsigned, ?_⟩
  rw [hfew (by decide)]
  exact vouches_smallSigner [[8]] signer data signature hanswer

/-- The same done to three outer signatures signs the third along with the rest, and then the
third is checked in the place of the new one, which would verify. -/
theorem third_signature_checked :
    let r := presigned [[1], [2], [3]]
    let data : Bytes := [0x7F, 0x21, 0x03, 0x7F, 0x4E, 0x00, 0x5F, 0x37, 0x01, 0x03, 0x42, 0x01, 0x41]
    Request.ofBytes r.encode = .ok r ∧
      ∃ named r', r.setOuterAuthorityReference "A" = (.ok (), named) ∧
        ((named.signOuter (some "A") VerificationKey.small.id).run smallSigner [[8]]).1
          = (.ok (), r') ∧
        (named.signOuter (some "A") VerificationKey.small.id).calls smallSigner [[8]]
          = [.sign "A" VerificationKey.small.id data] ∧
        (smallSigner.answer (.sign "A" VerificationKey.small.id data) [[8]]).1 = .ok [5, 8] ∧
        VerificationKey.small.verify data [5, 8] = .ok () ∧
        r'.verifyOuter .small = .error .invalidSignature := by
  intro r data
  refine ⟨by decide +kernel, (r.setOuterAuthorityReference "A").2,
    (((r.setOuterAuthorityReference "A").2.signOuter (some "A") VerificationKey.small.id).run
      smallSigner [[8]]).1.2, ?_⟩
  refine ⟨by decide +kernel, by decide +kernel, by decide +kernel, ?_, by decide +kernel,
    by decide +kernel⟩
  show (Except.mapError KeyServiceError.crypto _ : Except KeyServiceError Bytes) = .ok [5, 8]
  decide +kernel

end Request
end CardAccess

import CardAccess.Proofs.Request.Operations

/-!
# Requests that lose their body

That a request has a body is asked when it is taken in and relied on ever after: the certificate
is looked for, and the whole tree is taken for it where there is none.  Signing never takes the
body away (`Operation.isSome_body`), but the parts of a request may also be changed one by one.
`Mutation.strips` tells which of these changes take it away: those of the body or on the way to
it, where what they leave there has no body, and those that put a certificate without one in
front.  All others leave it, so a request stands for a certificate throughout a run exactly if
none of its calls strips it (`certified_iff_keepsBody`).
-/

namespace CardAccess
namespace Request

/-! ## Runs -/

/-- A call that changes a request: a change of one part, or an operation. -/
inductive Mutation (σ : Type) where
  | setValue (part : RequestPart) (value : Bytes)
  | replace (part : RequestPart) (new : Tlv)
  | remove (part : RequestPart)
  | add (parent : RequestPart) (child : Tlv)
  | operate (operation : Operation σ)

variable {σ : Type}

/-- The request and the state of the key services after a call, whether or not it succeeds. -/
def Mutation.apply : Mutation σ → Request × σ → Request × σ
  | .setValue part value, (r, s) => ((r.setValue part value).2, s)
  | .replace part new, (r, s) => ((r.replacePart part new).2, s)
  | .remove part, (r, s) => ((r.removePart part).2, s)
  | .add parent child, (r, s) => ((r.addPart parent child).2, s)
  | .operate operation, start => operation.apply start

/-- The same after several calls, one after the other. -/
def mutateAll (mutations : List (Mutation σ)) (start : Request × σ) : Request × σ :=
  mutations.foldl (fun reached mutation => mutation.apply reached) start

/-! ## What takes the body away -/

/-- Whether one of the elements in a certificate is a body. -/
def holdsBody (cs : List Tlv) : Bool := cs.any fun c => c.tag == Layout.certificateBody

/-- Whether the first certificate among the elements in a wrapper has a body. -/
def housesBody (cs : List Tlv) : Bool :=
  (cs.find? fun c => c.tag == Layout.cvCertificate).any fun c => holdsBody c.children

/-- Whether a call takes the body away: the elements it leaves in the wrapper have no certificate
with a body in front, or those it leaves in the certificate no body. -/
def Mutation.strips (r : Request) : Mutation σ → Bool
  | .setValue .authentication value => (Tlv.parseAll value).toOption.any fun cs => !housesBody cs
  | .setValue .cvCertificate value => (Tlv.parseAll value).toOption.any fun cs => !holdsBody cs
  | .replace .cvCertificate new =>
    !housesBody (Tlv.exchangeFirst Layout.cvCertificate new r.node.children)
  | .replace .outerCaReference new =>
    !housesBody (Tlv.exchangeFirst Layout.caReference new r.node.children)
  | .replace .outerSignature new =>
    !housesBody (Tlv.exchangeFirst Layout.signature new r.node.children)
  | .replace .certificateBody new =>
    !holdsBody (Tlv.exchangeFirst Layout.certificateBody new r.certificate.children)
  | .remove .cvCertificate =>
    !housesBody (r.node.children.eraseP fun c => c.tag == Layout.cvCertificate)
  | .remove .certificateBody =>
    !holdsBody (r.certificate.children.eraseP fun c => c.tag == Layout.certificateBody)
  | _ => false

/-- Whether no call of a run takes the body away. -/
def keepsBody : List (Mutation σ) → Request × σ → Bool
  | [], _ => true
  | mutation :: mutations, start =>
    !mutation.strips start.1 && keepsBody mutations (mutation.apply start)

/-! ## Where the body is -/

section body

variable {r : Request}

theorem isSome_get?_body (certificate : Tlv) :
    (certificate.get? [RequestPart.certificateBody.path.target]).isSome
      = holdsBody certificate.children := by
  have hfirst : certificate.get? [RequestPart.certificateBody.path.target]
      = certificate.first? Layout.certificateBody := Tlv.get?_singleton _ _
  rw [hfirst, Tlv.first?_eq_find?, List.isSome_find?]
  rfl

/-- The body is looked for in the certificate. -/
theorem isSome_body_certificate {certificate : Tlv}
    (h : r.part? .cvCertificate = some certificate) :
    (r.part? .certificateBody).isSome = holdsBody certificate.children := by
  rw [part?_of_certificate h rfl]
  exact isSome_get?_body certificate

/-- The certificate is the first one in the wrapper. -/
theorem isSome_body_wrapper (cs : List Tlv) (shape : RequestShape) :
    ((⟨.constructed Layout.authentication cs, shape⟩ : Request).part? .certificateBody).isSome
      = housesBody cs := by
  have hpart : (⟨.constructed Layout.authentication cs, shape⟩ : Request).part? .certificateBody
      = ((Tlv.constructed Layout.authentication cs).first? Layout.cvCertificate).bind fun c =>
        c.get? [RequestPart.certificateBody.path.target] :=
    Tlv.get?_cons _ _ _
  rw [hpart, Tlv.first?_eq_find?, Option.isSome_bind, housesBody]
  exact congrArg (Option.any · _) (funext isSome_get?_body)

/-- A request with a body has a certificate, and that has the body. -/
theorem exists_of_body (h : (r.part? .certificateBody).isSome) :
    ∃ cs ds, r.node = .constructed Layout.authentication cs ∧
      r.part? .cvCertificate = some (.constructed Layout.cvCertificate ds) ∧
      holdsBody ds = true := by
  obtain ⟨certificate, hcertificate, htag⟩ := exists_part?_cvCertificate h
  obtain ⟨hroot, hget⟩ := Tlv.child?_eq_some.mp hcertificate
  rw [isSome_body_certificate hcertificate] at h
  obtain ⟨root, cs, front, c, back, hnode, -, -⟩ := Tlv.exists_of_get?_cons hget
  rw [hnode] at hroot
  cases hroot
  cases certificate with
  | primitive tag value => cases h
  | constructed tag ds =>
    cases htag
    exact ⟨cs, ds, hnode, hcertificate, h⟩

theorem isSome_body_put {ds : List Tlv}
    (h : r.part? .cvCertificate = some (.constructed Layout.cvCertificate ds)) (cs : List Tlv)
    (shape : RequestShape) :
    ((⟨r.node.put RequestPart.cvCertificate.path.steps (.constructed Layout.cvCertificate cs),
      shape⟩ : Request).part? .certificateBody).isSome = holdsBody cs := by
  have hput : (⟨r.node.put RequestPart.cvCertificate.path.steps
      (.constructed Layout.cvCertificate cs), shape⟩ : Request).part? .cvCertificate
        = some (.constructed Layout.cvCertificate cs) := Tlv.child?_put h rfl
  exact isSome_body_certificate hput

/-! ## One call -/

/-- A new value of an element that holds others is read as elements. -/
theorem setValue_constructed {part : RequestPart} {root : Tlv.Tag} {cs : List Tlv}
    (h : r.part? part = some (.constructed root cs)) (value : Bytes) :
    (r.setValue part value).2
      = (Tlv.parseAll value).toOption.elim r fun ds =>
        ⟨r.node.put part.path.steps (.constructed root ds), r.shape⟩ := by
  rw [setValue, Tlv.setValueAt, Tlv.place_eq_ok.mpr h]
  dsimp only
  rw [Tlv.setValue]
  cases Tlv.parseAll value <;> rfl

/-- A value below the body is set in the body. -/
theorem isSome_body_setValue_below {part : RequestPart} {more : List Tlv.Step}
    (hsteps : part.path.steps = RequestPart.certificateBody.path.steps ++ more)
    (h : (r.part? .certificateBody).isSome) (value : Bytes) :
    ((r.setValue part value).2.part? .certificateBody).isSome := by
  rcases hset : r.setValue part value with ⟨result | result, r'⟩
  · rw [edited_error hset]
    exact h
  · obtain ⟨old, changed, -, -, hchanged⟩ := part?_setValue hset
    exact isSome_part?_of_below hsteps (Option.isSome_of_eq_some hchanged)

/-- A value beside the way to the body leaves the body. -/
theorem isSome_body_setValue_beside {part : RequestPart} (hsteps : part.path.steps ≠ [])
    (hspares : part.spares .certificateBody = true) (h : (r.part? .certificateBody).isSome)
    (value : Bytes) : ((r.setValue part value).2.part? .certificateBody).isSome := by
  have hedited : r.EditedAt part (r.setValue part value).2 := editedAt_setValue hsteps rfl
  rw [hedited.part?_eq hspares]
  exact h

theorem isSome_body_setValue (h : (r.part? .certificateBody).isSome) (part : RequestPart)
    (value : Bytes) :
    ((r.setValue part value).2.part? .certificateBody).isSome
      = !(Mutation.setValue part value : Mutation σ).strips r := by
  obtain ⟨cs, ds, hnode, hcertificate, -⟩ := exists_of_body h
  cases part with
  | authentication =>
    have hroot : r.part? .authentication = some (.constructed Layout.authentication cs) :=
      Tlv.child?_eq_some.mpr ⟨congrArg Tlv.tag hnode.symm, congrArg some hnode⟩
    rw [setValue_constructed hroot, Mutation.strips]
    cases Tlv.parseAll value with
    | error e => exact h
    | ok cs' => exact (isSome_body_wrapper cs' r.shape).trans (Bool.not_not _).symm
  | cvCertificate =>
    rw [setValue_constructed hcertificate, Mutation.strips]
    cases Tlv.parseAll value with
    | error e => exact h
    | ok ds' => exact (isSome_body_put hcertificate ds' r.shape).trans (Bool.not_not _).symm
  | outerCaReference | outerSignature | signature =>
    exact isSome_body_setValue_beside (by decide) rfl h value
  | _ => exact isSome_body_setValue_below rfl h value

/-- An exchange of elements with another tag leaves a body. -/
theorem holdsBody_exchangeFirst {tag : Tlv.Tag} {new : Tlv} {cs : List Tlv}
    (hne : tag ≠ Layout.certificateBody) (h : holdsBody cs = true) :
    holdsBody (Tlv.exchangeFirst tag new cs) = true := by
  rcases Tlv.splits_first_or_none tag cs with ⟨front, c, back, hsplit⟩ | hnone
  · obtain ⟨body, hmem, hbody⟩ := List.any_eq_true.mp h
    rw [hsplit.parts, List.mem_append, List.mem_cons] at hmem
    refine List.any_eq_true.mpr ⟨body, ?_, hbody⟩
    rw [hsplit.exchangeFirst, List.mem_append, List.mem_cons]
    refine hmem.imp_right fun hmem => .inr (hmem.resolve_left fun hsame => hne ?_)
    rw [← hsplit.tagged, ← hsame]
    exact beq_iff_eq.mp hbody
  · rw [Tlv.exchangeFirst_of_none hnone]
    exact h

/-- What is put below the body is in the body. -/
theorem isSome_body_replace_below {part : RequestPart} {s : Tlv.Step} {more : List Tlv.Step}
    (hsteps : part.path.steps = RequestPart.certificateBody.path.steps ++ s :: more)
    (h : (r.part? .certificateBody).isSome) (new : Tlv) :
    ((r.replacePart part new).2.part? .certificateBody).isSome := by
  rcases hreplace : r.replacePart part new with ⟨result | result, r'⟩
  · rw [edited_error hreplace]
    exact h
  · obtain ⟨-, hfound, hput⟩ := Tlv.replaceChild_eq_ok.mp (edited_eq_ok.mp hreplace).1
    obtain ⟨hroot, hget⟩ := Tlv.child?_eq_some.mp hfound
    rw [hsteps] at hget hput
    have htag : r'.node.tag = Layout.authentication := by
      rw [hput, ← part.root_tag, hroot]
      exact Tlv.tag_put_cons _ _ _ _
    have hbody : r'.part? .certificateBody
        = r'.node.get? RequestPart.certificateBody.path.steps := if_pos htag.symm
    show (r'.part? .certificateBody).isSome
    rw [hbody, hput]
    exact Tlv.isSome_get?_put_below hget

theorem isSome_body_replace (h : (r.part? .certificateBody).isSome) (part : RequestPart)
    (new : Tlv) :
    ((r.replacePart part new).2.part? .certificateBody).isSome
      = !(Mutation.replace part new : Mutation σ).strips r := by
  obtain ⟨cs, ds, hnode, hcertificate, hholds⟩ := exists_of_body h
  have hroot : r.node.tag = Layout.authentication := congrArg Tlv.tag hnode
  have hwrapper : r.node.get? [] = some (.constructed Layout.authentication cs) :=
    congrArg some hnode
  obtain ⟨-, hinner⟩ := Tlv.child?_eq_some.mp hcertificate
  cases part with
  | authentication =>
    -- the root is never exchanged
    rcases hreplace : r.replacePart .authentication new with ⟨result | result, r'⟩
    · rw [edited_error hreplace]
      exact h
    · exact absurd rfl (Tlv.replaceChild_eq_ok.mp (edited_eq_ok.mp hreplace).1).1
  | cvCertificate | outerCaReference | outerSignature =>
    rw [replacePart_below hroot rfl rfl hwrapper, Mutation.strips, Bool.not_not, hnode]
    exact isSome_body_wrapper _ _
  | certificateBody =>
    rw [replacePart_below hroot rfl rfl hinner, Mutation.strips, Bool.not_not,
      certificate_eq hcertificate]
    exact isSome_body_put hcertificate _ _
  | signature =>
    rw [replacePart_below hroot rfl rfl hinner]
    exact (isSome_body_put hcertificate _ _).trans (holdsBody_exchangeFirst (by decide) hholds)
  | _ => exact isSome_body_replace_below rfl h new

/-- What is taken out below the body is taken out of the body. -/
theorem isSome_body_remove_below {part : RequestPart} {more : List Tlv.Step}
    (hsteps : part.path.steps.dropLast = RequestPart.certificateBody.path.steps ++ more)
    (h : (r.part? .certificateBody).isSome) :
    ((r.removePart part).2.part? .certificateBody).isSome := by
  have hedited : r.EditedAt part (r.removePart part).2 := editedAt_removePart rfl
  rw [hedited.isSome_part? hsteps]
  exact h

/-- What is taken out beside the way to the body leaves the body. -/
theorem isSome_body_remove_beside {part : RequestPart}
    (hspares : part.spares .certificateBody = true) (h : (r.part? .certificateBody).isSome) :
    ((r.removePart part).2.part? .certificateBody).isSome := by
  have hedited : r.EditedAt part (r.removePart part).2 := editedAt_removePart rfl
  rw [hedited.part?_eq hspares]
  exact h

theorem isSome_body_remove (h : (r.part? .certificateBody).isSome) (part : RequestPart) :
    ((r.removePart part).2.part? .certificateBody).isSome
      = !(Mutation.remove part : Mutation σ).strips r := by
  obtain ⟨cs, ds, hnode, hcertificate, hholds⟩ := exists_of_body h
  have hroot : r.node.tag = Layout.authentication := congrArg Tlv.tag hnode
  have hwrapper : r.node.get? [] = some (.constructed Layout.authentication cs) :=
    congrArg some hnode
  obtain ⟨-, hinner⟩ := Tlv.child?_eq_some.mp hcertificate
  cases part with
  | cvCertificate =>
    rw [removePart_below hroot rfl rfl hwrapper, Mutation.strips, Bool.not_not, hnode]
    exact isSome_body_wrapper _ _
  | certificateBody =>
    rw [removePart_below hroot rfl rfl hinner, Mutation.strips, Bool.not_not,
      certificate_eq hcertificate]
    exact isSome_body_put hcertificate _ _
  | authentication | outerCaReference | outerSignature | signature =>
    exact isSome_body_remove_beside rfl h
  | _ => exact isSome_body_remove_below rfl h

theorem isSome_body_add (h : (r.part? .certificateBody).isSome) (parent : RequestPart)
    (child : Tlv) : ((r.addPart parent child).2.part? .certificateBody).isSome := by
  rcases hadded : r.addPart parent child with ⟨result | result, r'⟩
  · rw [edited_error hadded]
    exact h
  · have hnode := map_pair_eq_ok.mp (edited_eq_ok.mp hadded).1
    obtain ⟨body, hbody⟩ := Option.isSome_iff_exists.mp h
    obtain ⟨hroot, hget⟩ := Tlv.child?_eq_some.mp hbody
    rw [part?, Tlv.child?, (Tlv.editedAt_addChild hnode).tag_eq, if_pos hroot]
    exact Tlv.isSome_get?_addChild hnode (Option.isSome_of_eq_some hget)

/-- After a call the body is there exactly if the call does not take it away. -/
theorem isSome_body_apply (h : (r.part? .certificateBody).isSome) (mutation : Mutation σ) (s : σ) :
    ((mutation.apply (r, s)).1.part? .certificateBody).isSome = !mutation.strips r := by
  cases mutation with
  | setValue part value => exact isSome_body_setValue h part value
  | replace part new => exact isSome_body_replace h part new
  | remove part => exact isSome_body_remove h part
  | add parent child => exact isSome_body_add h parent child
  | operate operation => exact operation.isSome_body h

end body

/-! ## Whole runs -/

/-- The request stands for a certificate: it has a body, what is taken for its certificate is
the certificate element, and if it is bare, its bytes begin with the tag of certificates. -/
structure Certified (r : Request) : Prop where
  body : (r.part? .certificateBody).isSome
  certificate : r.part? .cvCertificate = some r.certificate
  tag : r.certificate.tag = Layout.cvCertificate
  bare : r.shape = .bare → [0x7F, 0x21] <+: r.encode

variable {r : Request}

theorem certified_of_body (h : (r.part? .certificateBody).isSome) : r.Certified := by
  obtain ⟨cs, ds, -, hcertificate, -⟩ := exists_of_body h
  have hsame := certificate_eq hcertificate
  refine ⟨h, ?_, ?_, fun hbare => ?_⟩
  · rw [hsame, hcertificate]
  · rw [hsame]
    rfl
  · rw [encode, hbare]
    dsimp only
    rw [hsame, Tlv.encode, Tlv.frame]
    exact List.prefix_append [0x7F, 0x21] _

/-- Over any run of calls on a request that was taken in, with any parts, values and elements
and whatever becomes of the calls: the request stands for a certificate all the time exactly if
no call takes the body away. -/
theorem certified_iff_keepsBody {node : Tlv} (htaken : ofTlv node = .ok r)
    (mutations : List (Mutation σ)) (s : σ) :
    (∀ n, (mutateAll (mutations.take n) (r, s)).1.Certified) ↔ keepsBody mutations (r, s) = true := by
  have hbody := (ofTlv_eq_ok.mp htaken).1
  clear htaken
  induction mutations generalizing r s with
  | nil => exact ⟨fun _ => rfl, fun _ n => by rw [List.take_nil]; exact certified_of_body hbody⟩
  | cons mutation mutations ih =>
    have hstep := isSome_body_apply hbody mutation s
    rw [keepsBody, Bool.and_eq_true]
    constructor
    · intro hall
      have hafter := (hall 1).body
      change ((mutation.apply (r, s)).1.part? .certificateBody).isSome at hafter
      refine ⟨hstep.symm.trans hafter, (ih (mutation.apply (r, s)).2 hafter).mp fun n => hall (n + 1)⟩
    · rintro ⟨hkept, hrest⟩ n
      cases n with
      | zero => exact certified_of_body hbody
      | succ n => exact (ih (mutation.apply (r, s)).2 (hstep.trans hkept)).mpr hrest n

/-- A run that signs a request between changes of its body and then takes the wrapper off. -/
def signedBetweenChanges : List (Mutation (List Bytes)) :=
  [.add .certificateBody (.primitive Layout.caReference [0x41]),
    .operate (.sign smallSigner (.signBody .small "A")), .remove .caReference, .operate .unwrap]

theorem certified_iff_keepsBody_unwrapped :
    (mutateAll signedBetweenChanges (emptyRequest, freshRun.state)).1.Certified := by
  have htaken : ofTlv emptyRequest.node = .ok emptyRequest := by decide +kernel
  have hkept : keepsBody signedBetweenChanges (emptyRequest, freshRun.state) = true := by
    decide +kernel
  exact (certified_iff_keepsBody htaken signedBetweenChanges freshRun.state).mpr hkept 4

/-- Without its certificate a bare request is written as an empty wrapper. -/
theorem removed_certificate_is_missed :
    ofBytes [0x7F, 0x21, 0x03, 0x7F, 0x4E, 0x00] = .ok emptyRequest.intoBare ∧
      let after := (mutateAll [.remove .cvCertificate] (emptyRequest.intoBare, ())).1
      after.shape = .bare ∧ after.part? .certificateBody = none ∧
        after.certificate.tag = Layout.authentication ∧ after.encode = [0x67, 0x00] := by
  decide +kernel

end Request
end CardAccess

import CardAccess.Proofs.Request.Progress
import CardAccess.Proofs.Request.ReadBack

/-!
# Reading a request back at any time

A request of either shape is kept inside a wrapper, which only a wrapped one is written with, so
a bare request reads back as itself only as long as nothing but its certificate gets into that
wrapper.  `Sound` is what keeps the two in step, along with the body that every reader asks for
and with the room that reading leaves: the one level that the wrapper of a bare request takes
up beyond those that are read.  Every operation preserves it, in whichever order they come and
whatever becomes of them, and from it `readsBack_of_operations` concludes.
-/

namespace CardAccess
namespace Request

/-! ## Runs -/

/-- An operation on a request: a call that takes part in signing, with the key service that it is
made to, or taking the wrapper off. -/
inductive Operation (σ : Type) where
  | sign (service : KeyService σ) (call : SigningCall)
  | unwrap

variable {σ : Type}

/-- The request and the state of the key services after an operation, whether or not it
succeeds. -/
def Operation.apply : Operation σ → Request × σ → Request × σ
  | .sign service call, (r, s) =>
    let ((_, r), s) := (call.dialogue r).run service s
    (r, s)
  | .unwrap, (r, s) => (r.intoBare, s)

/-- The same after several operations, one after the other. -/
def applyAll (operations : List (Operation σ)) (start : Request × σ) : Request × σ :=
  operations.foldl (fun reached operation => operation.apply reached) start

variable {service : KeyService σ} {s s' : σ} {r r' : Request}

/-! ## The body -/

/-- Signing writes into the body, beside it and into the wrapper, but never in its place. -/
theorem SigningCall.isSome_body {call : SigningCall} {result : Except Error Unit}
    (h : (r.part? .certificateBody).isSome)
    (hrun : (call.dialogue r).run service s = ((result, r'), s')) :
    (r'.part? .certificateBody).isSome := by
  cases result with
  | error e =>
    rw [SigningCall.request_of_error hrun]
    exact h
  | ok =>
  cases call with
  | nameSigner reference =>
    obtain ⟨-, removed, staged, hremoved, hput⟩ :=
      setOuterAuthorityReference_eq_ok.mp (congrArg Prod.fst hrun)
    rw [(editedAt_putPart rfl rfl hput).part?_eq rfl, (editedAt_removePart hremoved).part?_eq rfl]
    exact h
  | signBody key keyAlias =>
    rcases run_signInner hrun with ⟨⟨e, he⟩, -⟩ | ⟨-, algorithm, body, signature, -, -, hsigned⟩
    · cases he
    · rw [hsigned.body]
      rfl
  | signWrapper keyAlias key =>
    rcases run_signOuter hrun with ⟨⟨e, he⟩, -⟩ | ⟨-, signer, staged, signature, -, -, -, hsigned⟩
    · cases he
    · rw [hsigned.part?_eq rfl]
      exact h

theorem Operation.isSome_body (operation : Operation σ) (h : (r.part? .certificateBody).isSome) :
    ((operation.apply (r, s)).1.part? .certificateBody).isSome := by
  cases operation with
  | sign service call => exact SigningCall.isSome_body h rfl
  | unwrap =>
    rw [Operation.apply, (bared_intoBare h).part?_eq .certificateBody _ rfl]
    exact h

/-! ## What every operation preserves -/

/-- There is nothing in the wrapper beside a certificate. -/
def HasOnlyCertificate (r : Request) : Prop :=
  ∃ certificate, certificate.tag = Layout.cvCertificate ∧ r.node = wrap certificate

/-- The request has a body and is not too deep, and if it is bare, then there is nothing beside
its certificate. -/
structure Sound (r : Request) : Prop where
  body : (r.part? .certificateBody).isSome
  fits : r.node.Fits (Tlv.maxLevels + 1)
  bare : r.shape = .bare → r.HasOnlyCertificate

theorem HasOnlyCertificate.node_eq (h : r.HasOnlyCertificate) : r.node = wrap r.certificate := by
  obtain ⟨certificate, htag, hnode⟩ := h
  obtain ⟨node, shape⟩ := r
  cases hnode
  exact congrArg wrap (certificate_eq (part?_cvCertificate_wrap shape htag)).symm

/-- An edit inside the certificate puts nothing beside it. -/
theorem HasOnlyCertificate.of_editedAt (h : r.HasOnlyCertificate) {part : RequestPart}
    {holder : List Tlv.Step} (hedited : r.EditedAt part r')
    (hinside : part.path.steps.dropLast = RequestPart.cvCertificate.path.target :: holder) :
    r'.HasOnlyCertificate := by
  obtain ⟨certificate, htag, hnode⟩ := h
  have hinner := hedited.node
  rw [hinside, hnode, wrap] at hinner
  obtain ⟨certificate', htag', hnode'⟩ := hinner.of_singleton
  exact ⟨certificate', htag'.trans htag, hnode'⟩

theorem hasOnlyCertificate_intoBare (h : (r.part? .certificateBody).isSome) :
    r.intoBare.HasOnlyCertificate := by
  obtain ⟨certificate, hcertificate, htag⟩ := exists_part?_cvCertificate h
  exact ⟨certificate, htag, congrArg node (intoBare_eq hcertificate)⟩

/-- A request that was taken in is sound. -/
theorem sound_of_ofTlv {node : Tlv} (hwhole : node.WellFormed) (h : ofTlv node = .ok r) :
    r.Sound := by
  obtain ⟨hregular, hlevels⟩ := hwhole
  obtain ⟨hbody, ⟨-, rfl⟩ | ⟨htag, rfl⟩⟩ := ofTlv_eq_ok.mp h
  · exact ⟨hbody, hregular.fits node (Nat.le_succ_of_le hlevels), (nomatch ·)⟩
  · exact ⟨hbody, fits_wrap (hregular.fits node hlevels), fun _ => ⟨node, htag, rfl⟩⟩

/-- A wrapped request may have anything beside its certificate. -/
theorem Sound.of_wrapped (hbody : (r.part? .certificateBody).isSome)
    (hfits : r.node.Fits (Tlv.maxLevels + 1)) (hshape : r.shape = .authentication) : r.Sound :=
  ⟨hbody, hfits, fun hbare => nomatch hshape.symm.trans hbare⟩

/-- What a call preserves.  One that fails leaves the request as it was. -/
theorem Sound.of_run {call : SigningCall} {result : Except Error Unit} (h : r.Sound)
    (hrun : (call.dialogue r).run service s = ((result, r'), s')) : r'.Sound := by
  have hbody := SigningCall.isSome_body h.body hrun
  cases result with
  | error e =>
    rw [SigningCall.request_of_error hrun]
    exact h
  | ok =>
  cases call with
  | nameSigner reference =>
    have hnamed : r.setOuterAuthorityReference reference = (.ok (), r') := congrArg Prod.fst hrun
    obtain ⟨hshape, removed, staged, hremoved, hput⟩ := setOuterAuthorityReference_eq_ok.mp hnamed
    refine .of_wrapped hbody (fits_nameSigner (by decide) h.fits hnamed) ?_
    rw [(editedAt_putPart rfl rfl hput).shape, (editedAt_removePart hremoved).shape, hshape]
  | signBody key keyAlias =>
    refine ⟨hbody, fits_signInner (by decide) h.fits hrun, fun hbare => ?_⟩
    rcases run_signInner hrun with ⟨⟨e, he⟩, -⟩ | ⟨-, algorithm, body, signature, -, -, hsigned⟩
    · cases he
    -- the key goes into the body and the signature beside it, both inside the certificate
    obtain ⟨staged, hstaged, hedited⟩ := hsigned.edits
    rw [hedited.shape, hstaged.shape] at hbare
    exact ((h.bare hbare).of_editedAt hstaged rfl).of_editedAt hedited rfl
  | signWrapper keyAlias key =>
    refine .of_wrapped hbody (fits_signOuter (by decide) h.fits hrun) ?_
    rcases run_signOuter hrun with
      ⟨⟨e, he⟩, -⟩ | ⟨-, signer, staged, signature, -, hshape, -, hsigned⟩
    · cases he
    rw [hsigned.edits.2.shape, hsigned.edits.1.shape, hshape]

/-- What one operation preserves. -/
theorem Sound.apply (h : r.Sound) (operation : Operation σ) :
    (operation.apply (r, s)).1.Sound := by
  cases operation with
  | sign service call => exact h.of_run rfl
  | unwrap =>
    exact ⟨Operation.isSome_body .unwrap h.body, fits_wrap (fits_certificate h.fits h.body),
      fun _ => hasOnlyCertificate_intoBare h.body⟩

theorem Sound.applyAll (h : r.Sound) (operations : List (Operation σ)) :
    (applyAll operations (r, s)).1.Sound := by
  induction operations generalizing r s with
  | nil => exact h
  | cons operation operations ih => exact ih (h.apply operation)

/-! ## What a sound request is written as -/

/-- Taking the wrapper off once more changes nothing. -/
theorem Sound.intoBare_eq (h : r.Sound) (hbare : r.shape = .bare) : r.intoBare = r := by
  have hnode := (h.bare hbare).node_eq
  obtain ⟨node, shape⟩ := r
  cases hbare
  exact congrArg (Request.mk · .bare) hnode.symm

/-- The bytes read back as the request exactly if what is written has no more levels than are
read. -/
theorem Sound.ofBytes_encode_iff (h : r.Sound) (hlength : r.encode.length < 2 ^ 32) :
    ofBytes r.encode = .ok r ↔ r.written.levels ≤ Tlv.maxLevels := by
  obtain ⟨room, hfits⟩ : ∃ room, r.written.Fits room := by
    rw [written]
    split
    · exact ⟨_, h.fits⟩
    · exact ⟨_, fits_certificate h.fits h.body⟩
  have htaken : ofTlv r.written = .ok r :=
    ofTlv_written h.body fun hbare => (h.bare hbare).node_eq
  obtain ⟨hshallow, hdeep⟩ := ofBytes_encode hfits hlength htaken
  refine ⟨fun hread => ?_, hshallow⟩
  by_contra hlevels
  obtain ⟨e, he⟩ := hdeep (Nat.lt_of_not_le hlevels)
  cases hread.symm.trans he

/-- A bare request has its certificate as the only element below the root, so neither a
reference nor a signature of an outer signer. -/
structure BareAlone (r : Request) : Prop where
  children : r.node.children = [r.certificate]
  certificate : r.certificate.tag = Layout.cvCertificate
  outerCaReference : r.part? .outerCaReference = none
  outerSignature : r.part? .outerSignature = none

theorem Sound.bareAlone (h : r.Sound) (hbare : r.shape = .bare) : r.BareAlone := by
  obtain ⟨certificate, hcertificate, htag⟩ := exists_part?_cvCertificate h.body
  have hbared := bared_intoBare h.body
  rw [h.intoBare_eq hbare] at hbared
  refine ⟨?_, ?_, hbared.outerCaReference, hbared.outerSignature⟩
  · rw [(h.bare hbare).node_eq]
    rfl
  · rw [certificate_eq hcertificate, htag]

/-- Whatever becomes of the operations, and whichever key services they are made to: a request
that was taken in from a tree that was read keeps its body, has nothing beside its certificate
once it is bare, and reads back as itself exactly as long as what is written has no more levels
than are read. -/
theorem readsBack_of_operations {bytes : Bytes} {node : Tlv} (hparse : Tlv.parse bytes = .ok node)
    (htaken : ofTlv node = .ok r) (s : σ) (operations : List (Operation σ)) :
    let after := (applyAll operations (r, s)).1
    (after.part? .certificateBody).isSome ∧ (after.shape = .bare → after.BareAlone) ∧
      (after.encode.length < 2 ^ 32 →
        (ofBytes after.encode = .ok after ↔ after.written.levels ≤ Tlv.maxLevels)) := by
  have hsound : r.Sound := sound_of_ofTlv (Tlv.wellFormed_of_parse hparse) htaken
  have hafter := hsound.applyAll (s := s) operations
  exact ⟨hafter.body, hafter.bareAlone, hafter.ofBytes_encode_iff⟩

/-- A request is signed in full and loses its wrapper, and what is left reads back. -/
theorem readsBack_of_operations_unwrapped :
    let operations := bodyThenWrapper.map (.sign smallSigner) ++ [.unwrap]
    let after := (applyAll operations (emptyRequest, freshRun.state)).1
    after.shape = .bare ∧ after.state = .innerSigned ∧ after.BareAlone ∧
      ofBytes after.encode = .ok after := by
  intro operations after
  have hparse : Tlv.parse emptyRequest.encode = .ok emptyRequest.node := by decide +kernel
  have htaken : ofTlv emptyRequest.node = .ok emptyRequest := by decide +kernel
  obtain ⟨-, halone, hback⟩ :=
    readsBack_of_operations hparse htaken freshRun.state operations
  have hafter : after.shape = .bare ∧ after.state = .innerSigned ∧
      after.encode.length < 2 ^ 32 ∧ after.written.levels ≤ Tlv.maxLevels := by
    decide +kernel
  obtain ⟨hbare, hstate, hlength, hlevels⟩ := hafter
  exact ⟨hbare, hstate, halone hbare, (hback hlength).mpr hlevels⟩

end Request
end CardAccess

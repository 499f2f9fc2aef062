import CardAccess.Proofs.Key.ReadBack
import CardAccess.Proofs.Request.Generation
import CardAccess.Proofs.Tlv.Fitting

/-!
# Reading a generated request back

What a generation puts together has been read before or is built flat, so all that can go
wrong when it is read again is that it has become too deep.  The wrapper is one level above
the certificate: a root or a certificate to renew that takes up all the levels that are read
comes out with one level too many.  `fits_of_generate` carries the room that the certificates
take through all stages, and no stage asks for more than that level.
-/

namespace CardAccess
namespace Request

variable {r r' : Request} {part parent : RequestPart} {room : Nat}

/-- The element that is written: the wrapper, or what is in it if the request is bare. -/
def written (r : Request) : Tlv :=
  match r.shape with
  | .authentication => r.node
  | .bare => r.certificate

theorem encode_eq (r : Request) : r.encode = r.written.encode := by
  rw [encode, written]
  cases r.shape <;> rfl

/-- What is written is taken in as the same request, if there is a body and a bare request has
nothing beside the certificate. -/
theorem ofTlv_written (hbody : (r.part? .certificateBody).isSome)
    (hbare : r.shape = .bare → r.node = wrap r.certificate) : ofTlv r.written = .ok r := by
  obtain ⟨body, hfound⟩ := Option.isSome_iff_exists.mp hbody
  obtain ⟨hroot, -⟩ := Tlv.child?_eq_some.mp hfound
  obtain ⟨certificate, hcertificate, htag⟩ := exists_part?_cvCertificate hbody
  refine ofTlv_eq_ok.mpr ⟨hbody, ?_⟩
  obtain ⟨node, shape⟩ := r
  cases shape with
  | authentication => exact .inl ⟨hroot.symm, rfl⟩
  | bare =>
    have hwritten : written ⟨node, .bare⟩ = certificate := certificate_eq hcertificate
    have hwrapped : node = wrap certificate :=
      (hbare rfl).trans (congrArg wrap (certificate_eq hcertificate))
    rw [hwritten]
    exact .inr ⟨htag, congrArg (Request.mk · .bare) hwrapped⟩

/-- The bytes of a request that fits at all read back as the request, unless it is too deep. -/
theorem ofBytes_encode (hfits : r.written.Fits room) (hlength : r.encode.length < 2 ^ 32)
    (htaken : ofTlv r.written = .ok r) :
    (r.written.levels ≤ Tlv.maxLevels → ofBytes r.encode = .ok r) ∧
      (Tlv.maxLevels < r.written.levels → ∃ e, ofBytes r.encode = .error e) := by
  rw [encode_eq] at hlength ⊢
  obtain ⟨hshallow, hdeep⟩ := hfits.parse_encode hlength
  constructor
  · intro hlevels
    rw [ofBytes, bind_of_ok (mapError_eq_ok.mpr (hshallow hlevels)), htaken]
  · intro hlevels
    obtain ⟨e, he⟩ := hdeep hlevels
    refine ⟨.ofDecode e, ?_⟩
    rw [ofBytes, he]
    rfl

/-! ## Room for edits -/

theorem fits_removePart {removed : Option Tlv} (h : r.node.Fits room)
    (hremoved : r.removePart part = (.ok removed, r')) : r'.node.Fits room :=
  h.removeChild (edited_eq_ok.mp hremoved).1

theorem fits_setValue {value : Bytes} (h : r.node.Fits room) (hsteps : part.path.steps ≠ [])
    (hkind : part.path.tag.isConstructed = false) (hset : r.setValue part value = (.ok (), r')) :
    r'.node.Fits room :=
  h.setValueAt hsteps hkind (map_pair_eq_ok.mp (edited_eq_ok.mp hset).1)

theorem fits_addPart {child : Tlv} (h : r.node.Fits room)
    (hchild : child.Fits (room - (parent.path.steps.length + 1)))
    (hadded : r.addPart parent child = (.ok (), r')) : r'.node.Fits room :=
  h.addChild hchild (map_pair_eq_ok.mp (edited_eq_ok.mp hadded).1)

theorem fits_putPart {new : Tlv} (h : r.node.Fits room)
    (hbelow : part.path.steps.length = parent.path.steps.length + 1)
    (hnew : new.Fits (room - part.path.steps.length))
    (hput : r.putPart part parent new = (.ok (), r')) : r'.node.Fits room := by
  rcases putPart_cases hput with ⟨-, replaced, hreplace, hresult⟩ | ⟨-, hadded⟩
  · cases replaced with
    | error e => cases hresult
    | ok old => exact h.replaceChild hnew (edited_eq_ok.mp hreplace).1
  · rw [hbelow] at hnew
    exact fits_addPart h hnew hadded

/-! ## Room for each stage -/

theorem fits_descriptionTemplate (digest : Bytes) (hroom : 2 ≤ room) :
    (descriptionTemplate digest).Fits room := by
  refine Tlv.fits_constructed.mpr ⟨by decide, by decide, by omega, ?_⟩
  rw [List.forall_mem_cons, List.forall_mem_singleton]
  exact ⟨Tlv.fits_primitive.mpr ⟨by decide, by decide, by omega⟩,
    Tlv.fits_primitive.mpr ⟨by decide, by decide, by omega⟩⟩

/-- The extensions of a certificate lie one level deeper in a request. -/
theorem fits_copyExtensions {old : Certificate} (h : r.node.Fits (room + 1))
    (hold : old.node.Fits room) (hcopied : r.copyExtensions old = .ok r') :
    r'.node.Fits (room + 1) := by
  obtain ⟨_, cleared, hremoved, hcases⟩ := copyExtensions_cases hcopied
  have hcleared := fits_removePart h hremoved
  obtain ⟨-, rfl⟩ | ⟨extensions, hextensions, -, hadded⟩ := hcases
  · exact hcleared
  have hfits := hold.get? (Tlv.child?_eq_some.mp hextensions).2
  -- a certificate has its extensions two steps down, and a request three
  have hroom : room + 1 - (RequestPart.certificateBody.path.steps.length + 1)
      = room - CertificatePart.extensions.path.steps.length := Nat.add_sub_add_right room 1 2
  rw [← hroom] at hfits
  exact fits_addPart hcleared hfits hadded

theorem fits_setDescription {description : Description} {root : Certificate} (hroom : 6 ≤ room)
    (h : r.node.Fits room) (hbound : r.setDescription description root = .ok r') :
    r'.node.Fits room := by
  obtain ⟨algorithm, -, hset⟩ := setsDescription_of_setDescription hbound
  cases hset with
  | first hid hset => exact fits_setValue h (by decide) (by decide) hset
  | second hfirst hid hset => exact fits_setValue h (by decide) (by decide) hset
  | beside hfirst hsecond hadded =>
    have hleft : 2 ≤ room - (RequestPart.extensions.path.steps.length + 1) :=
      Nat.le_sub_of_add_le hroom
    exact fits_addPart h (fits_descriptionTemplate _ hleft) hadded
  | alone hnone hremoved hadded =>
    have hleft : 3 ≤ room - (RequestPart.certificateBody.path.steps.length + 1) :=
      Nat.le_sub_of_add_le hroom
    refine fits_addPart (fits_removePart h hremoved) ?_ hadded
    refine Tlv.fits_constructed.mpr ⟨by decide, by decide, by omega, ?_⟩
    rw [List.forall_mem_singleton]
    exact fits_descriptionTemplate _ (by omega)

variable {σ : Type} {service : KeyService σ} {s s' : σ}

theorem fits_signInner {key : VerificationKey} {keyAlias : String} (hroom : 5 ≤ room)
    (h : r.node.Fits room)
    (hrun : (r.signInner key keyAlias).run service s = ((.ok (), r'), s')) :
    r'.node.Fits room := by
  rcases run_signInner_puts hrun with ⟨⟨e, he⟩, -⟩ | ⟨-, algorithm, body, signature, staged, -,
    hkey, -, -, hsigned⟩
  · cases he
  have hleft : 2 ≤ room - RequestPart.publicKey.path.steps.length := Nat.le_sub_of_add_le hroom
  have hstaged := fits_putPart h rfl (key.fits_toTlv true hleft) hkey
  have hlast : 0 < room - RequestPart.signature.path.steps.length :=
    Nat.le_sub_of_add_le (Nat.le_trans (by decide) hroom)
  exact fits_putPart hstaged rfl (Tlv.fits_primitive.mpr ⟨by decide, by decide, hlast⟩) hsigned

theorem fits_nameSigner {reference : String} (hroom : 2 ≤ room) (h : r.node.Fits room)
    (hnamed : r.setOuterAuthorityReference reference = (.ok (), r')) : r'.node.Fits room := by
  obtain ⟨-, removed, staged, hremoved, hput⟩ := setOuterAuthorityReference_eq_ok.mp hnamed
  have hlast : 0 < room - RequestPart.outerCaReference.path.steps.length :=
    Nat.le_sub_of_add_le hroom
  exact fits_putPart (fits_removePart h hremoved) rfl
    (Tlv.fits_primitive.mpr ⟨by decide, by decide, hlast⟩) hput

theorem fits_signOuter {keyAlias : Option String} {id : ObjectId} (hroom : 2 ≤ room)
    (h : r.node.Fits room) (hrun : (r.signOuter keyAlias id).run service s = ((.ok (), r'), s')) :
    r'.node.Fits room := by
  rcases run_signOuter hrun with ⟨⟨e, he⟩, -⟩ | ⟨-, signer, unsigned, signature, -, -, -, hsigned⟩
  · cases he
  obtain ⟨found, hfound⟩ := hsigned.removed
  have hleft : 0 < room - (RequestPart.authentication.path.steps.length + 1) :=
    Nat.le_sub_of_add_le hroom
  exact fits_addPart (fits_removePart h hfound)
    (Tlv.fits_primitive.mpr ⟨by decide, by decide, hleft⟩) hsigned.added

theorem fits_wrap {certificate : Tlv} (h : certificate.Fits room) :
    (wrap certificate).Fits (room + 1) := by
  refine Tlv.fits_constructed.mpr ⟨by decide, by decide, Nat.succ_pos room, ?_⟩
  rw [List.forall_mem_singleton]
  exact h

/-- The wrapper takes one level, which the certificate in it does not need. -/
theorem fits_certificate (h : r.node.Fits (room + 1)) (hbody : (r.part? .certificateBody).isSome) :
    r.certificate.Fits room := by
  obtain ⟨certificate, hcertificate, -⟩ := exists_part?_cvCertificate hbody
  rw [certificate_eq hcertificate]
  exact h.get? (Tlv.child?_eq_some.mp hcertificate).2

/-- A request without the wrapper is the certificate, and nothing beside it. -/
theorem fits_intoBare (h : r.node.Fits (room + 1)) (hbody : (r.part? .certificateBody).isSome) :
    r.intoBare.certificate.Fits room ∧ r.intoBare.node = wrap r.intoBare.certificate := by
  obtain ⟨certificate, hcertificate, htag⟩ := exists_part?_cvCertificate hbody
  have hsame : r.intoBare.certificate = r.certificate := by
    rw [intoBare_eq hcertificate, certificate_eq (part?_cvCertificate_wrap .bare htag),
      certificate_eq hcertificate]
  rw [hsame]
  exact ⟨fits_certificate h hbody, rfl⟩

end Request

namespace Generation

open KeyService (Procedure)

variable {input : GenerationInput} {room : Nat}

/-! ## Room for the whole -/

theorem fits_cleanRequest {root : Certificate} {template : Request} {reference : String}
    (hroot : root.node.Fits room) (h : cleanRequest root = .ok (template, reference)) :
    template.node.Fits (room + 1) := by
  exact cleanRequest_preserves (P := fun r => r.node.Fits (room + 1)) h
    (fun _ _ _ _ _ hremoved hfits => Request.fits_removePart hfits hremoved)
    (Request.fits_wrap hroot)

theorem fits_prepare {old : Option String} {prepared : Request} {reference rootReference : String}
    (hroom : 5 ≤ room) (hroot : input.root.node.Fits room)
    (hold : ∀ old, input.old = some old → old.node.Fits room)
    (h : prepare input old = .ok (prepared, reference, rootReference)) :
    prepared.node.Fits (room + 1) := by
  obtain ⟨-, template, named, extended, hclean, hset, hextended, hdescribed⟩ := prepare_stages h
  have hnamed : named.node.Fits (room + 1) :=
    Request.fits_setValue (fits_cleanRequest hroot hclean) (by decide) (by decide) hset
  have hcarried : extended.node.Fits (room + 1) := by
    rw [carryExtensions] at hextended
    split at hextended
    · cases hextended
      exact hnamed
    next certificate hcertificate =>
      exact Request.fits_copyExtensions hnamed (hold certificate hcertificate)
        (atStage_eq_ok.mp hextended)
  rw [bindDescription] at hdescribed
  split at hdescribed
  · cases hdescribed
    exact hcarried
  · exact Request.fits_setDescription (Nat.succ_le_succ hroom) hcarried
      (atStage_eq_ok.mp hdescribed)

/-- The request takes one level more than the certificates it is made from, and a bare one
without the wrapper no more than they do. -/
theorem fits_of_generate {σ : Type} {service : KeyService σ} {s s' : σ} {data : GeneratedRequest}
    (hroom : 5 ≤ room) (hroot : input.root.node.Fits room)
    (hold : ∀ old, input.old = some old → old.node.Fits room)
    (h : Procedure.Yields service s (generate input) data s') :
    (isWrapped input = true → data.request.node.Fits (room + 1)) ∧
      (isWrapped input = false → data.request.certificate.Fits room ∧
        data.request.node = Request.wrap data.request.certificate) := by
  obtain ⟨old, prepared, reference, rootReference, key, signed, s₁, s₂, hread, hprepare, -, hsigned,
    -, hfinish⟩ := generate_stages h
  obtain ⟨hrun, hinner⟩ := signBody_runs hsigned
  have hfits : signed.node.Fits (room + 1) :=
    Request.fits_signInner (Nat.le_succ_of_le hroom) (fits_prepare hroom hroot hold hprepare) hrun
  rcases finish_cases hread hfinish with ⟨hwrapped, signer, key, id, -, hyields⟩ | ⟨hbare, h⟩
  · refine ⟨fun _ => ?_, fun hbare => absurd (hwrapped.symm.trans hbare) (by decide)⟩
    have hroom' : 2 ≤ room + 1 := by omega
    obtain ⟨named, hnamed, hruns⟩ := signWrapper_runs hyields
    have hreferenced := Request.fits_nameSigner hroom' hfits hnamed
    rcases hruns with ⟨-, hrun⟩ | ⟨_, _, _, -, -, hrun, -⟩
    · exact Request.fits_signOuter hroom' hreferenced hrun
    · exact Request.fits_signOuter hroom' hreferenced hrun
  · refine ⟨fun hwrapped => absurd (hbare.symm.trans hwrapped) (by decide), fun _ => ?_⟩
    rw [h]
    exact Request.fits_intoBare hfits (Request.part?_of_verifyInner hinner).2.1

/-- What is written fits, and is taken in as the same request. -/
theorem written_of_generate {σ : Type} {service : KeyService σ} {s s' : σ}
    {data : GeneratedRequest} (hroom : 5 ≤ room) (hroot : input.root.node.Fits room)
    (hold : ∀ old, input.old = some old → old.node.Fits room) (hcarries : Carries input data)
    (h : Procedure.Yields service s (generate input) data s') :
    data.request.written.Fits (if isWrapped input then room + 1 else room) ∧
      Request.ofTlv data.request.written = .ok data.request := by
  obtain ⟨hwhole, hbare⟩ := fits_of_generate hroom hroot hold h
  have hbody := (Request.part?_of_verifyInner hcarries.inner).2.1
  have hshape := hcarries.shape
  cases hwrapped : isWrapped input with
  | true =>
    rw [hwrapped] at hshape
    refine ⟨?_, Request.ofTlv_written hbody fun hbare => nomatch hshape.symm.trans hbare⟩
    rw [Request.written, hshape]
    exact hwhole hwrapped
  | false =>
    obtain ⟨hcertificate, hnode⟩ := hbare hwrapped
    rw [hwrapped] at hshape
    refine ⟨?_, Request.ofTlv_written hbody fun _ => hnode⟩
    rw [Request.written, hshape]
    exact hcertificate

/-- Whatever the key service does: a request made from certificates that were read from bytes
reads back as itself if what is written has no more levels than are read, and is refused
otherwise.  The levels suffice if the request is bare, and if all the certificates have one to
spare. -/
theorem readsBack_of_generate {σ : Type} (service : KeyService σ) (s : σ) {bytes : Bytes}
    (hroot : Certificate.ofBytes bytes = .ok input.root)
    (hold : ∀ old, input.old = some old → ∃ bytes, Certificate.ofBytes bytes = .ok old)
    {data : GeneratedRequest} (h : ((generate input).run.run service s).1 = .ok data)
    (hlength : data.request.encode.length < 2 ^ 32) :
    (data.request.written.levels ≤ Tlv.maxLevels →
        Request.ofBytes data.request.encode = .ok data.request) ∧
      (Tlv.maxLevels < data.request.written.levels →
        ∃ e, Request.ofBytes data.request.encode = .error e) ∧
      (isWrapped input = false ∨ input.root.node.levels < Tlv.maxLevels ∧
          (∀ old, input.old = some old → old.node.levels < Tlv.maxLevels) →
        data.request.written.levels ≤ Tlv.maxLevels) := by
  have hyields : Procedure.Yields service s (generate input) data
      ((generate input).run.run service s).2 := Prod.ext h rfl
  have hcarries := carries_of_generate service s hroot h
  obtain ⟨hregular, hlevels⟩ := (wellFormed_of_ofBytes hroot).1
  have holds : ∀ old, input.old = some old → old.node.WellFormed := by
    intro old hsome
    obtain ⟨oldBytes, hread⟩ := hold old hsome
    exact (wellFormed_of_ofBytes hread).1
  obtain ⟨hfits, htaken⟩ := written_of_generate (by decide) (hregular.fits _ hlevels)
    (fun old hsome => (holds old hsome).1.fits _ (holds old hsome).2) hcarries hyields
  obtain ⟨hshallow, hdeep⟩ := Request.ofBytes_encode hfits hlength htaken
  refine ⟨hshallow, hdeep, ?_⟩
  rintro (hbare | ⟨hrootless, holdless⟩)
  · rw [hbare] at hfits
    exact hfits.levels_le
  · -- the certificates fit into one level less, so the request fits into all of them
    have hspare : 5 ≤ Tlv.maxLevels - 1 := by decide
    obtain ⟨hless, -⟩ := written_of_generate hspare
      (hregular.fits _ (Nat.le_sub_one_of_lt hrootless))
      (fun old hsome => (holds old hsome).1.fits _ (Nat.le_sub_one_of_lt (holdless old hsome)))
      hcarries hyields
    refine Nat.le_trans hless.levels_le ?_
    split <;> decide

/-- The renewal of a certificate that is its own root reads back. -/
theorem readsBack_of_generate_renewal : ∃ data,
    ((generate smallRenewal).run.run (fixedService [3, 2]) ()).1 = .ok data ∧
      Request.ofBytes data.request.encode = .ok data.request := by
  have hroot : Certificate.ofBytes smallCertificate.encode = .ok smallRenewal.root := by
    decide +kernel
  have hold : ∀ old, smallRenewal.old = some old → ∃ bytes, Certificate.ofBytes bytes = .ok old :=
    fun old hsome => ⟨smallCertificate.encode, by cases hsome; exact hroot⟩
  have hok : ((generate smallRenewal).run.run (fixedService [3, 2]) ()).1.toOption.any fun data =>
      data.request.encode.length < 2 ^ 32 := by
    decide +kernel
  obtain ⟨data, h, hlength⟩ := exists_ok_of_any hok
  obtain ⟨hback, -, hlevels⟩ := readsBack_of_generate (fixedService [3, 2]) () hroot hold h
    (of_decide_eq_true hlength)
  refine ⟨data, h, hback (hlevels (.inr ⟨by decide, fun old hsome => ?_⟩))⟩
  cases hsome
  decide

/-- Sequences inside each other. -/
def nested : Nat → Tlv
  | 0 => .primitive Tlv.Tag.octetString []
  | depth + 1 => .constructed Tlv.Tag.sequence [nested depth]

/-- A certificate with as many levels as are read. -/
def deepCertificate : Certificate :=
  smallCertificateWith [0x41, 0x30, 0x30, 0x30, 0x30, 0x31] [nested 29]

/-- The renewal of a certificate, under a root with as many levels as are read, as number
five. -/
def deepRenewal : GenerationInput :=
  { smallRenewal with root := deepCertificate, nextNumber := some 5 }

/-- The wrapper is the one level too many: the software service makes the request, and its
reader refuses it. -/
theorem deep_request_refused :
    Certificate.ofBytes deepCertificate.encode = .ok deepRenewal.root ∧
      (∀ old, deepRenewal.old = some old → Certificate.ofBytes old.encode = .ok old) ∧
      ∃ data, ((generate deepRenewal).run.run SoftwareKeys.service
          (smallKeys ["A00001", "A00005"])).1 = .ok data ∧
        data.request.encode.length < 2 ^ 32 ∧
        Request.ofBytes data.request.encode = .error (.tlv (.decode ⟨116, .tooDeep⟩)) := by
  refine ⟨by decide +kernel, fun old hsome => ?_, ?_⟩
  · cases hsome
    decide +kernel
  have hrefused : ((generate deepRenewal).run.run SoftwareKeys.service
      (smallKeys ["A00001", "A00005"])).1.toOption.any
      fun data => decide (data.request.encode.length < 2 ^ 32) &&
        decide (Request.ofBytes data.request.encode
          = .error (.tlv (.decode ⟨116, .tooDeep⟩))) := by
    decide +kernel
  obtain ⟨data, h, hchecked⟩ := exists_ok_of_any hrefused
  obtain ⟨hlength, hdeep⟩ := Bool.and_eq_true_iff.mp hchecked
  exact ⟨data, h, of_decide_eq_true hlength, of_decide_eq_true hdeep⟩

end Generation
end CardAccess

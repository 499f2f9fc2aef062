import CardAccess.Proofs.Request.Binding

/-!
# The extensions that a renewal keeps

The body of a request can have several extensions elements, since only the first one of
the root is taken out before that of the certificate to renew is put behind the others.
So the first one, which is the one that a description is set in, need not be the copied
one.  Either way an extensions element goes out only where it has no extensions, and a
change in the first one changes an extension for descriptions or adds one.

`KeepsOthers` is what each step keeps: to each extensions element there is one with the
same extensions, those for descriptions apart.
-/

namespace CardAccess
namespace Request

/-! ## Extensions that are not for descriptions -/

/-- The extensions in an extensions element that are not for descriptions. -/
def otherTemplates (extensions : Tlv) : List Tlv :=
  (templates (some extensions)).filter fun t => !describes t

/-- An element that is left out may be exchanged for another that is left out. -/
theorem filter_set_of_not {α : Type} {p : α → Bool} {cs : List α} {i : Nat} {old new : α}
    (hold : cs[i]? = some old) (hleft : p old = false) (hnew : p new = false) :
    (cs.set i new).filter p = cs.filter p := by
  induction cs generalizing i with
  | nil => rfl
  | cons c cs ih =>
    cases i with
    | zero =>
      have hc : c = old := by simpa using hold
      simp [hc, hleft, hnew]
    | succ i =>
      have hrest := ih (i := i) (by simpa using hold)
      simp only [List.set_cons_succ, List.filter_cons, hrest]

theorem Rebound.others_eq {digest : Bytes} {before after : List Tlv}
    (h : Rebound digest before after) :
    after.filter (fun t => !describes t) = before.filter fun t => !describes t := by
  cases h with
  | updated hslot hdescribes hbound =>
    obtain ⟨old, hold, holddescribes⟩ := exists_of_slot hslot
    exact filter_set_of_not hold (by simp [holddescribes]) (by simp [hdescribes])
  | added hslot => simp [describes_descriptionTemplate]

variable {r r' : Request} {digest : Bytes}

/-- Each extensions element is still there, as far as its extensions are not for
descriptions. -/
def KeepsOthers (r r' : Request) : Prop :=
  ∀ e ∈ r.siblings .extensions, ∃ e' ∈ r'.siblings .extensions,
    otherTemplates e' = otherTemplates e

/-! ## Setting a description -/

theorem isSome_certificateBody (h : (r.part? .extensions).isSome) :
    (r.part? .certificateBody).isSome := by
  have hsteps : RequestPart.extensions.path.steps
      = RequestPart.certificateBody.path.steps ++ [RequestPart.extensions.path.target] := rfl
  exact isSome_part?_of_below hsteps h

/-- A change inside the first extensions element. -/
theorem keepsOthers_of_first {edited : RequestPart} {more : List Tlv.Step}
    (hedited : r.EditedAt edited r')
    (hinside : edited.path.steps.dropLast = RequestPart.extensions.path.steps ++ more)
    (hmisses : ∀ index, Tlv.misses edited.path.tag edited.path.steps.dropLast
      (RequestPart.extensions.path.steps.dropLast
        ++ [⟨"", RequestPart.extensions.path.tag, index + 1⟩]) = true)
    (hsome : (r.part? .extensions).isSome)
    (h : Rebound digest (templates (r.part? .extensions)) (templates (r'.part? .extensions))) :
    KeepsOthers r r' := by
  have hsome' : (r'.part? .extensions).isSome := by
    rw [hedited.isSome_part? hinside]
    exact hsome
  have hfront {r : Request} (h : (r.part? .extensions).isSome) : r.siblings .extensions
      = (r.part? .extensions).toList ++ (r.siblings .extensions).tail :=
    siblings_eq rfl rfl (isSome_certificateBody h)
  obtain ⟨first, hfirst⟩ := Option.isSome_iff_exists.mp hsome
  obtain ⟨first', hfirst'⟩ := Option.isSome_iff_exists.mp hsome'
  rw [hfirst, hfirst'] at h
  rw [KeepsOthers, hfront hsome, hfront hsome', hfirst, hfirst',
    hedited.tail_siblings_eq hmisses]
  intro e he
  rcases List.mem_cons.mp he with rfl | hrest
  · exact ⟨first', List.mem_cons_self, h.others_eq⟩
  · exact ⟨e, List.mem_cons_of_mem _ hrest, rfl⟩

/-- The first extensions element has no extensions, so it can go. -/
theorem keepsOthers_of_alone {cleared : Request} {removed : Option Tlv}
    (hnone : templates (r.part? .extensions) = [])
    (hremoved : r.removePart .extensions = (.ok removed, cleared))
    (hadded : cleared.addPart .certificateBody
      (.constructed Layout.extensions [descriptionTemplate digest]) = (.ok (), r')) :
    KeepsOthers r r' := by
  have hbody : (cleared.part? .certificateBody).isSome = (r.part? .certificateBody).isSome :=
    (editedAt_removePart hremoved).isSome_part? (List.append_nil _).symm
  have hbody := hbody.symm.trans (isSome_of_addPart hadded)
  have hafter : r'.siblings .extensions = cleared.siblings .extensions
      ++ [.constructed Layout.extensions [descriptionTemplate digest]] :=
    siblings_addPart rfl rfl hadded
  rw [siblings_removePart rfl hremoved] at hafter
  intro e he
  rw [siblings_eq rfl rfl hbody] at he
  rw [hafter]
  rcases List.mem_append.mp he with hfirst | hrest
  · refine ⟨.constructed Layout.extensions [descriptionTemplate digest], by simp, ?_⟩
    rw [Option.mem_toList] at hfirst
    rw [hfirst] at hnone
    rw [otherTemplates, otherTemplates, hnone]
    rfl
  · exact ⟨e, List.mem_append_left _ hrest, rfl⟩

theorem SetsDescription.keepsOthers (hregular : ∀ e ∈ r.siblings .extensions, e.Regular)
    (h : SetsDescription digest r r') : KeepsOthers r r' := by
  have hregular : ∀ e, r.part? .extensions = some e → e.Regular := by
    intro e he
    have hbody := isSome_certificateBody (Option.isSome_iff_exists.mpr ⟨e, he⟩)
    refine hregular e ?_
    rw [siblings_eq rfl rfl hbody, he]
    exact List.mem_cons_self
  cases h with
  | first hid hset =>
    exact keepsOthers_of_first (editedAt_setValue (by decide) hset) rfl (fun _ => rfl)
      (isSome_part?_of_below rfl (isSome_of_setValue hset))
      (rebound_setValue rfl hregular (slot_of_first hid) hset)
  | second hfirst hid hset =>
    exact keepsOthers_of_first (editedAt_setValue (by decide) hset) rfl (fun _ => rfl)
      (isSome_part?_of_below rfl (isSome_of_setValue hset))
      (rebound_setValue rfl hregular (slot_of_second hfirst hid) hset)
  | beside hfirst hsecond hadded =>
    have hedited : r.EditedAt .firstTemplate r' := editedAt_addPart rfl rfl hadded
    have hrebound : Rebound digest (templates (r.part? .extensions))
        (templates (r'.part? .extensions)) := by
      rw [templates_addPart rfl hadded]
      exact .added (slot_of_neither hfirst hsecond)
    exact keepsOthers_of_first hedited (List.append_nil _).symm (fun _ => rfl)
      (isSome_of_addPart hadded) hrebound
  | alone hnone hremoved hadded =>
    exact keepsOthers_of_alone (templates_of_first_none hnone) hremoved hadded

/-! ## Copying the extensions -/

/-- Only the first extensions element goes out, and what comes in is put behind the others. -/
theorem siblings_copyExtensions {old : Certificate} (h : r.copyExtensions old = .ok r') :
    r'.siblings .extensions = (r.siblings .extensions).tail ++ old.extensions.toList := by
  obtain ⟨_, cleared, hremoved, hcases⟩ := copyExtensions_cases h
  rw [← siblings_removePart rfl hremoved]
  obtain ⟨hnone, rfl⟩ | ⟨extensions, hextensions, htag, hadded⟩ := hcases
  · simp [hnone]
  · rw [hextensions]
    exact siblings_addPart rfl htag hadded

end Request

namespace Generation

open KeyService (Procedure)
open Request (otherTemplates)

variable {input : GenerationInput} {old : Certificate}

theorem extended_of_prepare {oldReference : Option String} {prepared : Request}
    {reference rootReference : String} (htag : input.root.node.tag = Layout.cvCertificate)
    (hold : input.old = some old)
    (h : prepare input oldReference = .ok (prepared, reference, rootReference)) :
    ∃ extended, bindDescription input extended = .ok prepared ∧
      extended.siblings .extensions
        = (extensionsElements input.root).tail ++ old.extensions.toList := by
  obtain ⟨-, template, named, extended, hclean, hset, hextended, hdescribed⟩ := prepare_stages h
  refine ⟨extended, hdescribed, ?_⟩
  rw [carryExtensions, hold] at hextended
  have hnamed : named.siblings .extensions = template.siblings .extensions :=
    (Request.editedAt_setValue (by decide) hset).siblings_eq fun _ => rfl
  rw [Request.siblings_copyExtensions (atStage_eq_ok.mp hextended), hnamed,
    (extensions_cleanRequest htag hclean).2]

/-- Signing the body and the wrapper changes none of the extensions elements. -/
theorem siblings_of_generate {σ : Type} {service : KeyService σ} {s s' : σ}
    {data : GeneratedRequest} (h : Procedure.Yields service s (generate input) data s') :
    ∃ oldReference prepared reference rootReference,
      prepare input oldReference = .ok (prepared, reference, rootReference) ∧
      data.request.siblings .extensions = prepared.siblings .extensions := by
  obtain ⟨oldReference, prepared, reference, rootReference, keyAlias, key, signed, s₁, s₂, hold,
    hprepare, hsigned, -, hfinish⟩ := generate_yields h
  refine ⟨oldReference, prepared, reference, rootReference, hprepare, ?_⟩
  obtain ⟨hinner, body, signature, hbody⟩ := signBody_yields hsigned
  obtain ⟨staged, hstaged, hsigned⟩ := hbody.edits
  have hbefore : signed.siblings .extensions = prepared.siblings .extensions :=
    (hsigned.siblings_eq fun _ => rfl).trans (hstaged.siblings_eq fun _ => rfl)
  -- the body is the same element in the request that was signed and in the one with a wrapper
  have hfinished : data.request.part? .certificateBody = signed.part? .certificateBody := by
    rcases finish_yields hold hfinish with ⟨-, signer, -, h⟩ | ⟨-, h⟩
    · exact h.part?_eq _ rfl rfl
    · rw [h]
      refine (Request.bared_intoBare ?_).part?_eq _ _ rfl
      exact (Request.part?_of_verifyInner hinner).2.1
  have hafter : data.request.part? .certificateBody = some body := hfinished.trans hbody.body
  rw [← hbefore, Request.siblings_of_part? rfl hafter, Request.siblings_of_part? rfl hbody.body]

/-- The extensions elements of regular certificates are regular. -/
theorem regular_elements (hroot : input.root.node.Regular) (hold : old.node.Regular) :
    ∀ e ∈ (extensionsElements input.root).tail ++ old.extensions.toList, e.Regular := by
  intro e he
  rcases List.mem_append.mp he with hfront | hcopied
  · exact hroot.of_mem_siblings (List.mem_of_mem_tail hfront)
  · exact hold.get? (Tlv.child?_eq_some.mp (Option.mem_toList.mp hcopied)).2

/-- What a request keeps of the extensions of the certificate that it renews. -/
structure KeepsExtensions (input : GenerationInput) (old : Certificate) (r : Request) : Prop where
  kept : ∀ extensions, old.extensions = some extensions → ∃ e ∈ r.siblings .extensions,
    otherTemplates e = otherTemplates extensions ∧ (input.description = none → e = extensions)
  undescribed : input.description = none →
    r.siblings .extensions = (extensionsElements input.root).tail ++ old.extensions.toList

/-- The extensions of the certificate to renew that are not for descriptions are in one
extensions element of the request, the same ones in the same order.  Without a
description that element is the one of the certificate. -/
theorem keepsExtensions_of_generate {σ : Type} (service : KeyService σ) (s : σ)
    {bytes oldBytes : Bytes} (hroot : Certificate.ofBytes bytes = .ok input.root)
    (hold : input.old = some old) (hread : Certificate.ofBytes oldBytes = .ok old)
    {data : GeneratedRequest} (h : ((generate input).run.run service s).1 = .ok data) :
    KeepsExtensions input old data.request := by
  obtain ⟨hregular, htag⟩ := regular_of_ofBytes hroot
  have hyields : Procedure.Yields service s (generate input) data
      ((generate input).run.run service s).2 := Prod.ext h rfl
  obtain ⟨oldReference, prepared, reference, rootReference, hprepare, hsigned⟩ :=
    siblings_of_generate hyields
  obtain ⟨extended, hdescribed, helements⟩ := extended_of_prepare htag hold hprepare
  have hregulars := regular_elements hregular (regular_of_ofBytes hread).1
  rw [← helements] at hregulars
  have hcopied : ∀ extensions, old.extensions = some extensions →
      extensions ∈ extended.siblings .extensions := by
    intro extensions hextensions
    simp [helements, hextensions]
  rw [bindDescription] at hdescribed
  cases hdescription : input.description with
  | none =>
    rw [hdescription] at hdescribed
    cases hdescribed
    rw [← hsigned] at hcopied helements
    exact ⟨fun e he => ⟨e, hcopied e he, rfl, fun _ => rfl⟩, fun _ => helements⟩
  | some description =>
    rw [hdescription] at hdescribed
    obtain ⟨algorithm, -, hset⟩ :=
      Request.setsDescription_of_setDescription (atStage_eq_ok.mp hdescribed)
    have hkeeps := hset.keepsOthers hregulars
    have hgiven : input.description ≠ none := by simp [hdescription]
    refine ⟨fun extensions hextensions => ?_, fun hnone => absurd hnone hgiven⟩
    obtain ⟨e, he, hothers⟩ := hkeeps extensions (hcopied extensions hextensions)
    rw [← hsigned] at he
    exact ⟨e, he, hothers, fun hnone => absurd hnone hgiven⟩

/-- The first of two extensions is kept while the description is set in the second. -/
theorem keepsExtensions_of_generate_second :
    let input := describedRenewal boundBySecond
    ∃ data, ((generate input).run.run (fixedService [13, 7]) ()).1 = .ok data ∧
      KeepsExtensions input boundBySecond data.request ∧
      boundBySecond.extensions.map otherTemplates = some [extension sectorId []] := by
  intro input
  have hroot : Certificate.ofBytes smallCertificate.encode = .ok input.root := by decide +kernel
  have hread : Certificate.ofBytes boundBySecond.encode = .ok boundBySecond := by decide +kernel
  have hok : ((generate input).run.run (fixedService [13, 7]) ()).1.toOption.any fun _ => true := by
    decide +kernel
  obtain ⟨data, h, -⟩ := exists_ok_of_any hok
  exact ⟨data, h, keepsExtensions_of_generate (fixedService [13, 7]) () hroot rfl hread h,
    by decide +kernel⟩

end Generation
end CardAccess

import CardAccess.Proofs.Request.Generation

/-!
# The extension that binds the description

A request is bound to its description by an extension with the identifier of
descriptions and the hash of the description.  The extensions are those of the
certificate to renew, or of the root for a first request, so there can be any number
of them, and any of them can have the identifier.

Only the first two are looked at.  `slot` is the place of the one that is updated;
without one, an extension is added.  `Binds` says what comes of this: there is always
an extension that binds the description, but one with the identifier outside the slot
keeps the hash that it had.
-/

namespace CardAccess
namespace Request

/-! ## Lists of extensions -/

/-- The extensions in an extensions element, none where there is no such element. -/
def templates : Option Tlv → List Tlv
  | none => []
  | some extensions => extensions.children.filter fun c => c.tag == Layout.discretionaryTemplate

/-- Whether an extension has the identifier of descriptions. -/
def describes (template : Tlv) : Bool :=
  match template.first? Tlv.Tag.objectIdentifier with
  | none => false
  | some id => id.toObjectId.toOption == some Description.extensionId

/-- Whether the hash in an extension is `digest`. -/
def boundTo (digest : Bytes) (template : Tlv) : Bool :=
  (template.first? Layout.extensionHash).map Tlv.value == some digest

/-- Which extension is updated: the first one for descriptions, if it is among the first
two of all. -/
def slot (before : List Tlv) : Option Nat := (before.take 2).findIdx? describes

/-- What binding a description makes of the extensions. -/
inductive Rebound (digest : Bytes) (before : List Tlv) : List Tlv → Prop where
  | updated {i : Nat} {template : Tlv} (hslot : slot before = some i)
      (hdescribes : describes template = true) (hbound : boundTo digest template = true) :
      Rebound digest before (before.set i template)
  | added (hslot : slot before = none) :
      Rebound digest before (before ++ [descriptionTemplate digest])

/-- How the extensions bind a description. -/
structure Binds (digest : Bytes) (before after : List Tlv) : Prop where
  exists_bound : ∃ t ∈ after, describes t = true ∧ boundTo digest t = true
  all_bound_iff : (∀ t ∈ after, describes t = true → boundTo digest t = true) ↔
    ∀ i t, before[i]? = some t → describes t = true →
      slot before = some i ∨ boundTo digest t = true
  countP : after.countP describes
    = before.countP describes + if (slot before).isSome then 0 else 1

theorem describes_descriptionTemplate (digest : Bytes) :
    describes (descriptionTemplate digest) = true := by
  rfl

theorem boundTo_descriptionTemplate (digest : Bytes) :
    boundTo digest (descriptionTemplate digest) = true :=
  beq_self_eq_true (some digest)

section lists

variable {digest : Bytes} {before after : List Tlv} {i : Nat}

theorem slot_eq (before : List Tlv) :
    slot before = if before[0]?.any describes then some 0
      else if before[1]?.any describes then some 1 else none := by
  match before with
  | [] => rfl
  | [first] =>
    rw [slot, List.take_succ_cons, List.take_nil, List.findIdx?_cons]
    rfl
  | first :: second :: rest =>
    rw [slot, List.take_succ_cons, List.take_succ_cons, List.take_zero, List.findIdx?_cons,
      List.findIdx?_cons]
    cases hfirst : describes first <;> cases hsecond : describes second <;> simp [hfirst, hsecond]

theorem exists_of_slot (h : slot before = some i) :
    ∃ t, before[i]? = some t ∧ describes t = true := by
  obtain ⟨hlt, hdescribes, -⟩ := List.findIdx?_eq_some_iff_getElem.mp h
  rw [List.getElem_take] at hdescribes
  exact ⟨_, List.getElem?_eq_getElem _, hdescribes⟩

/-- What holds of all elements once one of them has been exchanged. -/
theorem forall_mem_set {α : Type} {p : α → Prop} {cs : List α} {new : α} (h : i < cs.length) :
    (∀ c ∈ cs.set i new, p c) ↔ p new ∧ ∀ (j : Nat) (c : α), cs[j]? = some c → j ≠ i → p c := by
  constructor
  · intro hall
    refine ⟨hall new (List.mem_set h new), fun j c hc hji => ?_⟩
    rw [← List.getElem?_set_ne hji.symm (a := new)] at hc
    exact hall c (List.mem_of_getElem? hc)
  · rintro ⟨hnew, hothers⟩ c hc
    obtain ⟨j, hj⟩ := List.mem_iff_getElem?.mp hc
    by_cases hji : j = i
    · rw [hji, List.getElem?_set_self h] at hj
      exact Option.some.inj hj ▸ hnew
    · rw [List.getElem?_set_ne (Ne.symm hji)] at hj
      exact hothers j c hj hji

theorem Rebound.exists_bound (h : Rebound digest before after) :
    ∃ t ∈ after, describes t = true ∧ boundTo digest t = true := by
  cases h with
  | @updated i template hslot hdescribes hbound =>
    obtain ⟨old, hold, -⟩ := exists_of_slot hslot
    obtain ⟨hlt, -⟩ := List.getElem?_eq_some_iff.mp hold
    exact ⟨template, List.mem_set hlt template, hdescribes, hbound⟩
  | added hslot =>
    exact ⟨_, List.mem_append_right _ (.head _), describes_descriptionTemplate digest,
      boundTo_descriptionTemplate digest⟩

theorem Rebound.all_bound_iff (h : Rebound digest before after) :
    (∀ t ∈ after, describes t = true → boundTo digest t = true) ↔
      ∀ i t, before[i]? = some t → describes t = true →
        slot before = some i ∨ boundTo digest t = true := by
  cases h with
  | @updated i template hslot hdescribes hbound =>
    obtain ⟨old, hold, -⟩ := exists_of_slot hslot
    obtain ⟨hlt, -⟩ := List.getElem?_eq_some_iff.mp hold
    rw [forall_mem_set hlt, hslot]
    constructor
    · rintro ⟨-, hothers⟩ j t ht hdescribes'
      by_cases hji : j = i
      · exact .inl (congrArg some hji.symm)
      · exact .inr (hothers j t ht hji hdescribes')
    · intro hall
      refine ⟨fun _ => hbound, fun j t ht hji hdescribes' => ?_⟩
      exact (hall j t ht hdescribes').resolve_left fun hij => hji (Option.some.inj hij).symm
  | added hslot =>
    rw [List.forall_mem_append, hslot]
    constructor
    · rintro ⟨hall, -⟩ j t ht hdescribes
      exact .inr (hall t (List.mem_of_getElem? ht) hdescribes)
    · intro hall
      refine ⟨fun t ht hdescribes => ?_, fun t ht _ => ?_⟩
      · obtain ⟨j, hj⟩ := List.mem_iff_getElem?.mp ht
        exact (hall j t hj hdescribes).resolve_left (nomatch ·)
      · rw [List.mem_singleton.mp ht]
        exact boundTo_descriptionTemplate digest

theorem Rebound.countP (h : Rebound digest before after) :
    after.countP describes
      = before.countP describes + if (slot before).isSome then 0 else 1 := by
  cases h with
  | @updated i template hslot hdescribes hbound =>
    obtain ⟨old, hold, holddescribes⟩ := exists_of_slot hslot
    obtain ⟨hlt, hget⟩ := List.getElem?_eq_some_iff.mp hold
    -- one extension for descriptions goes out and one comes in
    have hsome : 0 < before.countP describes :=
      List.countP_pos_iff.mpr ⟨old, List.mem_of_getElem? hold, holddescribes⟩
    rw [List.countP_set hlt, hget, if_pos holddescribes, if_pos hdescribes, hslot,
      Option.isSome_some, if_pos rfl]
    omega
  | added hslot =>
    rw [List.countP_append, List.countP_singleton,
      if_pos (describes_descriptionTemplate digest), hslot]
    rfl

theorem Rebound.binds (h : Rebound digest before after) : Binds digest before after :=
  ⟨h.exists_bound, h.all_bound_iff, h.countP⟩

end lists

/-! ## Setting the description -/

section requests

variable {r r' : Request} {part : RequestPart} {digest : Bytes} {i : Nat}

theorem get?_template (extensions : Option Tlv) (name : String) (i : Nat) :
    (extensions.bind fun e => e.get? [⟨name, Layout.discretionaryTemplate, i⟩])
      = (templates extensions)[i]? := by
  cases extensions with
  | none => rfl
  | some extensions => exact (extensions.getElem?_siblings [] _).symm

theorem get?_in_template (extensions : Option Tlv) (name name' : String) (tag : Tlv.Tag) (i : Nat) :
    (extensions.bind fun e =>
        e.get? [⟨name, Layout.discretionaryTemplate, i⟩, ⟨name', tag, 0⟩])
      = (templates extensions)[i]?.bind fun template => template.first? tag := by
  cases extensions with
  | none => rfl
  | some extensions =>
    rw [Option.bind_some, ← List.singleton_append, Tlv.get?_append, ← get?_template _ name]
    refine Option.bind_congr fun template _ => ?_
    exact Tlv.get?_singleton template _

section slots

variable {name name' : String}

/-- An identifier that can be read tells whether the extension at its place is for descriptions. -/
theorem describes_iff {id : Option ObjectId}
    (hsteps : part.path.steps = RequestPart.extensions.path.steps
      ++ [⟨name, Layout.discretionaryTemplate, i⟩, ⟨name', Tlv.Tag.objectIdentifier, 0⟩])
    (h : r.partId? part = .ok id) :
    id = some Description.extensionId
      ↔ (templates (r.part? .extensions))[i]?.any describes = true := by
  rw [partId?, part?_below hsteps, get?_in_template] at h
  cases htemplate : (templates (r.part? .extensions))[i]? with
  | none =>
    rw [htemplate] at h
    cases h
    exact ⟨(nomatch ·), (nomatch ·)⟩
  | some template =>
    rw [htemplate, Option.bind_some] at h
    rw [Option.any_some, describes]
    cases hfound : template.first? Tlv.Tag.objectIdentifier with
    | none =>
      rw [hfound] at h
      cases h
      exact ⟨(nomatch ·), (nomatch ·)⟩
    | some found =>
      rw [hfound] at h
      dsimp only at h ⊢
      cases hread : found.toObjectId with
      | error e =>
        rw [hread] at h
        cases h
      | ok read =>
        rw [hread] at h
        cases h
        exact beq_iff_eq.symm

theorem not_describes
    (hsteps : part.path.steps = RequestPart.extensions.path.steps
      ++ [⟨name, Layout.discretionaryTemplate, i⟩, ⟨name', Tlv.Tag.objectIdentifier, 0⟩])
    (h : r.NotDescribing part) :
    ¬ (templates (r.part? .extensions))[i]?.any describes = true := by
  obtain ⟨id, hread, hother⟩ := h
  exact fun hdescribes => hother ((describes_iff hsteps hread).mpr hdescribes)

end slots

theorem slot_of_first (h : r.partId? .firstTemplateId = .ok (some Description.extensionId)) :
    slot (templates (r.part? .extensions)) = some 0 := by
  rw [slot_eq, if_pos ((describes_iff rfl h).mp rfl)]

theorem slot_of_second (hfirst : r.NotDescribing .firstTemplateId)
    (h : r.partId? .secondTemplateId = .ok (some Description.extensionId)) :
    slot (templates (r.part? .extensions)) = some 1 := by
  rw [slot_eq, if_neg (not_describes rfl hfirst), if_pos ((describes_iff rfl h).mp rfl)]

theorem slot_of_neither (hfirst : r.NotDescribing .firstTemplateId)
    (hsecond : r.NotDescribing .secondTemplateId) :
    slot (templates (r.part? .extensions)) = none := by
  rw [slot_eq, if_neg (not_describes rfl hfirst), if_neg (not_describes rfl hsecond)]

theorem templates_of_first_none (h : r.part? .firstTemplate = none) :
    templates (r.part? .extensions) = [] := by
  have hfirst : r.part? .firstTemplate = (templates (r.part? .extensions))[0]? :=
    (part?_below rfl).trans (get?_template (r.part? .extensions) _ 0)
  rw [hfirst, List.getElem?_eq_none_iff] at h
  exact List.length_eq_zero_iff.mp (Nat.le_zero.mp h)

/-- A hash written into an extension leaves its identifier as it was. -/
theorem boundTo_put {template old changed : Tlv} {name : String}
    (hold : template.get? [⟨name, Layout.extensionHash, 0⟩] = some old) (hregular : old.Regular)
    (hset : old.setValue digest = .ok changed) :
    describes (template.put [⟨name, Layout.extensionHash, 0⟩] changed) = describes template ∧
      boundTo digest (template.put [⟨name, Layout.extensionHash, 0⟩] changed) = true := by
  have htag : old.tag = Layout.extensionHash := @Tlv.tag_of_get?_concat _ _ [] _ hold
  have hchanged : changed.tag = old.tag := Tlv.tag_setValue hset
  have hedited := @Tlv.editedAt_put_concat [] _ _ _ changed hold (hchanged.trans htag)
  have hother : Tlv.Tag.objectIdentifier ≠ Layout.extensionHash := by decide
  constructor
  · have hid : (template.put [⟨name, Layout.extensionHash, 0⟩] changed).first?
        Tlv.Tag.objectIdentifier = template.first? Tlv.Tag.objectIdentifier := by
      rw [Tlv.first?, Tlv.first?, Tlv.nth?, Tlv.nth?]
      exact congrArg (fun cs => cs[0]?) (hedited.filter_children hother)
    rw [describes, describes, hid]
  · have hhash := Tlv.get?_put hold hchanged
    rw [Tlv.get?_singleton] at hhash
    have hfirst : (template.put [⟨name, Layout.extensionHash, 0⟩] changed).first?
        Layout.extensionHash = some changed := hhash
    rw [boundTo, hfirst, Tlv.setValue_eq_primitive hregular (by rw [htag]; decide) hset]
    exact beq_self_eq_true _

theorem rebound_setValue {hash : RequestPart} {name name' : String}
    (hsteps : hash.path.steps = RequestPart.extensions.path.steps
      ++ [⟨name, Layout.discretionaryTemplate, i⟩, ⟨name', Layout.extensionHash, 0⟩])
    (hregular : ∀ extensions, r.part? .extensions = some extensions → extensions.Regular)
    (hslot : slot (templates (r.part? .extensions)) = some i)
    (h : r.setValue hash digest = (.ok (), r')) :
    Rebound digest (templates (r.part? .extensions)) (templates (r'.part? .extensions)) := by
  obtain ⟨old, changed, hold, hchanged, hnode⟩ :=
    Tlv.setValueAt_eq_ok.mp (map_pair_eq_ok.mp (edited_eq_ok.mp h).1)
  have hinside : r.part? hash = some old := hold
  rw [part?_below hsteps] at hinside
  obtain ⟨extensions, hfound, hinside⟩ := Option.bind_eq_some_iff.mp hinside
  have holdregular := (hregular extensions hfound).get? hinside
  -- down to the extension and from there to its hash
  rw [← List.singleton_append, Tlv.get?_append] at hinside
  obtain ⟨template, htemplate, hhash⟩ := Option.bind_eq_some_iff.mp hinside
  obtain ⟨-, hget⟩ := Tlv.child?_eq_some.mp hfound
  rw [hsteps, Tlv.put_append hget, ← List.singleton_append, Tlv.put_append htemplate] at hnode
  have htag := Tlv.tag_put hhash (Tlv.tag_setValue hchanged)
  have hafter := Tlv.child?_put hfound (Tlv.tag_put htemplate htag)
  rw [← hnode] at hafter
  have hafter : r'.part? .extensions = some _ := hafter
  have hset := Tlv.filter_put_cons htemplate
    (htag.trans (@Tlv.tag_of_get?_concat _ _ [] _ htemplate))
  obtain ⟨hsame, hbound⟩ := boundTo_put hhash holdregular hchanged
  obtain ⟨template', htemplate', hdescribes⟩ := exists_of_slot hslot
  have hplace : (templates (some extensions))[i]? = some template :=
    (extensions.getElem?_siblings [] _).trans htemplate
  rw [hfound] at htemplate' hslot
  cases hplace.symm.trans htemplate'
  rw [hafter, hfound]
  show Rebound digest _ ((Tlv.put extensions _ _).children.filter _)
  rw [hset]
  exact .updated hslot (hsame.trans hdescribes) hbound

theorem templates_addPart {template : Tlv} (htag : template.tag = Layout.discretionaryTemplate)
    (h : r.addPart .extensions template = (.ok (), r')) :
    templates (r'.part? .extensions) = templates (r.part? .extensions) ++ [template] := by
  obtain ⟨root, cs, hfound, hnode⟩ :=
    Tlv.addChild_eq_ok.mp (map_pair_eq_ok.mp (edited_eq_ok.mp h).1)
  have hgrown : (Tlv.constructed root (cs ++ [template])).tag = (Tlv.constructed root cs).tag := rfl
  have hafter : r'.part? .extensions = some (.constructed root (cs ++ [template])) := by
    rw [part?, hnode]
    exact Tlv.child?_put hfound hgrown
  have hbefore : r.part? .extensions = some (.constructed root cs) := hfound
  have hlast : [template].filter (fun c => c.tag == Layout.discretionaryTemplate) = [template] :=
    Tlv.filter_cons_tag htag
  rw [hafter, hbefore, templates, templates, Tlv.children, Tlv.children, List.filter_append, hlast]

/-- Binding a description rebinds the extensions, if there is one extensions element at
most and its elements can be read back. -/
theorem SetsDescription.rebound
    (hregular : ∀ extensions, r.part? .extensions = some extensions → extensions.Regular)
    (hfew : (r.siblings .extensions).length ≤ 1) (h : SetsDescription digest r r') :
    Rebound digest (templates (r.part? .extensions)) (templates (r'.part? .extensions)) := by
  cases h with
  | first hid hset => exact rebound_setValue rfl hregular (slot_of_first hid) hset
  | second hfirst hid hset => exact rebound_setValue rfl hregular (slot_of_second hfirst hid) hset
  | beside hfirst hsecond hadded =>
    rw [templates_addPart rfl hadded]
    exact .added (slot_of_neither hfirst hsecond)
  | @alone cleared removed hnone hremoved hadded =>
    have hcleared : cleared.part? .extensions = none :=
      part?_of_siblings_nil (by decide) (siblings_removePart_of_few rfl hfew hremoved)
    have hafter : r'.part? .extensions
        = some (.constructed Layout.extensions [descriptionTemplate digest]) := by
      rw [part?_addPart rfl rfl rfl hadded, hcleared, Option.getD_none]
    rw [templates_of_first_none hnone, hafter]
    exact .added rfl

end requests

end Request

namespace Generation

open KeyService (Procedure)
open Request (templates describes boundTo Binds)

variable {input : GenerationInput}

/-! ## Up to the description -/

/-- The extensions that a request is given: those of the certificate to renew, or for a
first request those of the root. -/
def copiedExtensions (input : GenerationInput) : Option Tlv :=
  match input.old with
  | none => input.root.extensions
  | some old => old.extensions

/-- The extensions elements in the body of a certificate, of which there should be one at
most. -/
def extensionsElements (certificate : Certificate) : List Tlv :=
  certificate.node.siblings CertificatePart.body.path.steps Layout.extensions

theorem extensions_cleanRequest {root : Certificate} {template : Request} {reference : String}
    (htag : root.node.tag = Layout.cvCertificate)
    (h : cleanRequest root = .ok (template, reference)) :
    template.part? .extensions = root.extensions ∧
      template.siblings .extensions = extensionsElements root := by
  have hwrapped := Request.part?_cvCertificate_wrap .authentication htag
  constructor
  · have hroot : root.extensions = root.node.get? CertificatePart.extensions.path.steps :=
      if_pos htag.symm
    rw [(cleanRequest_eq_ok h).2 _ (by decide), Request.part?_of_certificate hwrapped rfl, hroot]
    rfl
  · have hsteps : RequestPart.certificateBody.path.steps
        = RequestPart.cvCertificate.path.steps ++ [RequestPart.certificateBody.path.target] := rfl
    have hbody : (Request.wrap root.node).get? RequestPart.certificateBody.path.steps
        = root.node.get? CertificatePart.body.path.steps := by
      obtain ⟨-, hget⟩ := Tlv.child?_eq_some.mp hwrapped
      rw [hsteps, Tlv.get?_append, hget]
      rfl
    rw [observe_cleanRequest h (·.siblings .extensions)]
    · show Tlv.siblings (Request.wrap root.node) RequestPart.certificateBody.path.steps
        Layout.extensions = _
      rw [Tlv.siblings, hbody]
      rfl
    · intro removed hmem r r' hedited
      refine hedited.siblings_eq fun index => ?_
      simp only [clearedParts, List.mem_cons, List.not_mem_nil, or_false] at hmem
      rcases hmem with rfl | rfl | rfl | rfl | rfl <;> rfl

theorem extensions_carryExtensions {named extended : Request}
    (hnamed : named.part? .extensions = input.root.extensions)
    (hfew : (named.siblings .extensions).length ≤ 1)
    (h : carryExtensions input named = .ok extended) :
    extended.part? .extensions = copiedExtensions input ∧
      (extended.siblings .extensions).length ≤ 1 := by
  rw [carryExtensions] at h
  rw [copiedExtensions]
  cases hold : input.old with
  | none =>
    rw [hold] at h
    cases h
    exact ⟨hnamed, hfew⟩
  | some old =>
  rw [hold] at h
  obtain ⟨_, cleared, hremoved, hcases⟩ := Request.copyExtensions_cases (atStage_eq_ok.mp h)
  have hnil : cleared.siblings .extensions = [] :=
    Request.siblings_removePart_of_few rfl hfew hremoved
  have hnone := Request.part?_of_siblings_nil (by decide) hnil
  dsimp only
  obtain ⟨hempty, rfl⟩ | ⟨extensions, hextensions, htag, hadded⟩ := hcases
  · rw [hempty, hnil]
    exact ⟨hnone, Nat.zero_le 1⟩
  · rw [Request.part?_addPart rfl htag rfl hadded, hnone, Option.getD_none, hextensions,
      Request.siblings_addPart rfl htag hadded, hnil]
    exact ⟨rfl, Nat.le_refl 1⟩

theorem regular_copiedExtensions (hroot : input.root.node.Regular)
    (hold : ∀ old, input.old = some old → old.node.Regular) {extensions : Tlv}
    (h : copiedExtensions input = some extensions) : extensions.Regular := by
  rw [copiedExtensions] at h
  split at h
  · exact hroot.get? (Tlv.child?_eq_some.mp h).2
  next old hsome => exact (hold old hsome).get? (Tlv.child?_eq_some.mp h).2

/-! ## The whole -/

/-- A request that is generated with a description has an extension that binds it.  All
its extensions for descriptions do so exactly if those among the copied ones that are not
in the slot did already, and there is one more of them than before if nothing was in the
slot. -/
theorem binds_of_generate {σ : Type} (service : KeyService σ) (s : σ) {bytes : Bytes}
    (hroot : Certificate.ofBytes bytes = .ok input.root)
    (hold : ∀ old, input.old = some old → ∃ bytes, Certificate.ofBytes bytes = .ok old)
    (hfew : (extensionsElements input.root).length ≤ 1) {description : Description}
    (hdescription : input.description = some description) {data : GeneratedRequest}
    (h : ((generate input).run.run service s).1 = .ok data) :
    ∃ algorithm, input.root.signatureAlgorithm = .ok algorithm ∧
      Binds (description.digest algorithm.hash) (templates (copiedExtensions input))
        (templates (data.request.part? .extensions)) := by
  obtain ⟨hregular, htag⟩ := regular_of_ofBytes hroot
  have hyields : Procedure.Yields service s (generate input) data
      ((generate input).run.run service s).2 := Prod.ext h rfl
  obtain ⟨old, prepared, reference, rootReference, -, hprepare, hkept, -⟩ :=
    generate_prepares hyields
  obtain ⟨-, template, named, extended, hclean, hset, hextended, hdescribed⟩ :=
    prepare_stages hprepare
  obtain ⟨htemplate, helements⟩ := extensions_cleanRequest htag hclean
  have hnamed := Request.editedAt_setValue (by decide) hset
  rw [← helements, ← hnamed.siblings_eq fun _ => rfl] at hfew
  rw [← hnamed.part?_eq rfl] at htemplate
  obtain ⟨hcopied, hfew⟩ := extensions_carryExtensions htemplate hfew hextended
  rw [bindDescription, hdescription] at hdescribed
  have hcopiedregular : ∀ extensions, extended.part? .extensions = some extensions →
      extensions.Regular := by
    intro extensions hfound
    refine regular_copiedExtensions hregular (fun old hsome => ?_) (hcopied.symm.trans hfound)
    obtain ⟨oldBytes, hread⟩ := hold old hsome
    exact (regular_of_ofBytes hread).1
  obtain ⟨algorithm, halgorithm, hset⟩ :=
    Request.setsDescription_of_setDescription (atStage_eq_ok.mp hdescribed)
  refine ⟨algorithm, halgorithm, ?_⟩
  rw [hkept .extensions _ rfl (by decide), ← hcopied]
  exact (hset.rebound hcopiedregular hfew).binds

/-- An extension with an identifier and a hash. -/
def extension (id : ObjectId) (hash : Bytes) : Tlv :=
  .constructed Layout.discretionaryTemplate [id.toTlv, .primitive Layout.extensionHash hash]

/-- The identifier of terminal sectors, `0.4.0.127.0.7.3.1.3.2`. -/
def sectorId : ObjectId := ⟨[0x04, 0x00, 0x7F, 0x00, 0x07, 0x03, 0x01, 0x03, 0x02]⟩

/-- A certificate over the small curve with extensions. -/
def extendedCertificate (extensions : List Tlv) : Certificate :=
  smallCertificateWith [0x41, 0x30, 0x30, 0x30, 0x30, 0x31]
    [.constructed Layout.extensions extensions]

/-- A certificate that is bound to a description by the second extension, with an empty hash. -/
def boundBySecond : Certificate :=
  extendedCertificate [extension sectorId [], extension Description.extensionId []]

/-- A certificate that is bound to a description by the third extension, with an empty hash. -/
def boundByThird : Certificate :=
  extendedCertificate
    [extension sectorId [], extension sectorId [], extension Description.extensionId []]

def shortDescription : Description := .create "A" "B" (.plain "C")

/-- The renewal of a certificate with a description. -/
def describedRenewal (old : Certificate) : GenerationInput :=
  ⟨smallCertificate, some old, none, some shortDescription, none, false, none, none, none⟩

/-- The second of two extensions is updated. -/
theorem binds_of_generate_second :
    let input := describedRenewal boundBySecond
    ∃ data, ((generate input).run.run (fixedService [13, 7]) ()).1 = .ok data ∧
      ∃ algorithm, input.root.signatureAlgorithm = .ok algorithm ∧
        Binds (shortDescription.digest algorithm.hash) (templates (copiedExtensions input))
          (templates (data.request.part? .extensions)) := by
  intro input
  have hroot : Certificate.ofBytes smallCertificate.encode = .ok input.root := by decide +kernel
  have hold : ∀ old, input.old = some old → ∃ bytes, Certificate.ofBytes bytes = .ok old := by
    intro old hsome
    cases hsome
    exact ⟨boundBySecond.encode, by decide +kernel⟩
  have hok : ((generate input).run.run (fixedService [13, 7]) ()).1.toOption.any fun _ => true := by
    decide +kernel
  obtain ⟨data, h, -⟩ := exists_ok_of_any hok
  exact ⟨data, h, binds_of_generate (fixedService [13, 7]) () hroot hold (by decide) rfl h⟩

/-- The third of three extensions is not: it keeps the hash that it had, and another
extension for descriptions is put behind it. -/
theorem stale_third_extension :
    let input := describedRenewal boundByThird
    Certificate.ofBytes input.root.encode = .ok input.root ∧
      (∀ old, input.old = some old → Certificate.ofBytes old.encode = .ok old) ∧
      input.root.signatureAlgorithm = .ok ⟨.sha1⟩ ∧
      (templates (copiedExtensions input)).countP describes = 1 ∧
      ∃ data, ((generate input).run.run (fixedService [13, 7]) ()).1 = .ok data ∧
        (templates (data.request.part? .extensions)).countP describes = 2 ∧
        ∃ t ∈ templates (data.request.part? .extensions),
          describes t = true ∧ boundTo (shortDescription.digest .sha1) t = false := by
  intro input
  have hold : ∀ old, input.old = some old → Certificate.ofBytes old.encode = .ok old := by
    intro old hsome
    cases hsome
    decide +kernel
  refine ⟨by decide +kernel, hold, by decide +kernel, by decide +kernel, ?_⟩
  have hstale : ((generate input).run.run (fixedService [13, 7]) ()).1.toOption.any fun data =>
      (templates (data.request.part? .extensions)).countP describes == 2 &&
        (templates (data.request.part? .extensions)).any fun t =>
          describes t && !boundTo (shortDescription.digest .sha1) t := by
    decide +kernel
  obtain ⟨data, h, hcounted⟩ := exists_ok_of_any hstale
  obtain ⟨hcount, hany⟩ := Bool.and_eq_true_iff.mp hcounted
  obtain ⟨t, ht, hkept⟩ := List.any_eq_true.mp hany
  obtain ⟨hdescribes, hbound⟩ := Bool.and_eq_true_iff.mp hkept
  exact ⟨data, h, beq_iff_eq.mp hcount, t, ht, hdescribes, (Bool.not_eq_true' _).mp hbound⟩

end Generation
end CardAccess

import CardAccess.Certificate.Description
import CardAccess.Proofs.ObjectId
import CardAccess.Proofs.Text
import CardAccess.Proofs.Tlv.Fitting

/-!
# Descriptions read back

Each part of a description is the value of the first element inside the first child with a tag of
its own, and `Reads` says so of all parts at once: a description is read from an element exactly
if the element has these parts.  Since the element that a description is written in has them, the
description reads back, unless its value is too long for a length field.  After it was read that
cannot be: `Reads.valueLength_le` finds for each child that is written a child of the element that
was read, with the same tag and at least as long.
-/

namespace CardAccess

namespace Terms

theorem ofBytes_format (terms : Terms) :
    ObjectId.ofBytes terms.format.content = .ok terms.format := by
  cases terms <;> rfl

theorem ofValue_eq_ok {format : ObjectId} {value : Bytes} {terms : Terms} :
    ofValue format value = .ok terms ↔ terms.format = format ∧ terms.toTlv.value = value := by
  constructor
  · intro h
    rw [ofValue] at h
    split at h
    · next hpdf =>
      cases h
      exact ⟨hpdf.symm, rfl⟩
    split at h
    · cases h
    next text htext =>
    have hvalue := Text.ofUtf8?_eq_some.mp htext
    split at h
    · next hhtml =>
      cases h
      exact ⟨hhtml.symm, hvalue⟩
    split at h
    · next hplain =>
      cases h
      exact ⟨hplain.symm, hvalue⟩
    · cases h
  · rintro ⟨rfl, rfl⟩
    have hread (text : String) : Text.ofUtf8? (Text.toUtf8 text) = some text :=
      Text.ofUtf8?_eq_some.mpr rfl
    cases terms with
    | plain text => simp +decide [ofValue, format, toTlv, Tlv.value, hread]
    | html text => simp +decide [ofValue, format, toTlv, Tlv.value, hread]
    | pdf content => rfl

end Terms

namespace Description

variable {node : Tlv} {tag : Tlv.Tag} {d : Description}

/-! ## What is read -/

/-- The bytes of the part that the tag is for. -/
def partValue? (node : Tlv) (tag : Tlv.Tag) : Option Bytes := (part? node tag).map Tlv.value

/-- The element has the parts of the description under their tags. -/
structure Reads (node : Tlv) (d : Description) : Prop where
  tag : node.tag = Tlv.Tag.sequence
  format : (node.first? Tlv.Tag.objectIdentifier).map Tlv.value = some d.terms.format.content
  terms : partValue? node termsTag = some d.terms.toTlv.value
  commCertificates : ((part? node commCertificatesTag).elim [] fun hashes =>
    hashes.children.map Tlv.value) = d.commCertificates
  issuerName : partValue? node issuerNameTag = some (Text.toUtf8 d.issuerName)
  issuerUrl : partValue? node issuerUrlTag = d.issuerUrl.map Text.toUtf8
  subjectName : partValue? node subjectNameTag = some (Text.toUtf8 d.subjectName)
  subjectUrl : partValue? node subjectUrlTag = d.subjectUrl.map Text.toUtf8
  redirectUrl : partValue? node redirectUrlTag = d.redirectUrl.map Text.toUtf8

theorem text?_eq_ok {found : Option String} :
    text? node tag = .ok found ↔ partValue? node tag = found.map Text.toUtf8 := by
  rw [text?, partValue?]
  cases part? node tag with
  | none =>
    cases found with
    | none => exact ⟨fun _ => rfl, fun _ => rfl⟩
    | some text => exact ⟨(nomatch ·), (nomatch ·)⟩
  | some part =>
    dsimp only
    cases htext : Text.ofUtf8? part.value with
    | none =>
      refine ⟨(nomatch ·), fun h => ?_⟩
      obtain ⟨text, rfl, hvalue⟩ := Option.map_eq_some_iff.mp h.symm
      cases htext.symm.trans (Text.ofUtf8?_eq_some.mpr hvalue)
    | some text =>
      have hvalue := Text.ofUtf8?_eq_some.mp htext
      constructor
      · intro h
        cases h
        exact congrArg some hvalue.symm
      · intro h
        obtain ⟨text', rfl, hvalue'⟩ := Option.map_eq_some_iff.mp h.symm
        cases htext.symm.trans (Text.ofUtf8?_eq_some.mpr hvalue')
        rfl

theorem text_eq_ok {name found : String} :
    text node tag name = .ok found ↔ partValue? node tag = some (Text.toUtf8 found) := by
  have hsome : text? node tag = .ok (some found) ↔
      partValue? node tag = some (Text.toUtf8 found) := text?_eq_ok
  rw [← hsome, text]
  cases text? node tag with
  | error e => exact ⟨(nomatch ·), (nomatch ·)⟩
  | ok read =>
    cases read with
    | none => exact ⟨(nomatch ·), (nomatch ·)⟩
    | some text' =>
      constructor
      · intro h
        cases h
        rfl
      · intro h
        cases h
        rfl

/-- The parts are all that is read. -/
theorem ofTlv_eq_ok : ofTlv node = .ok d ↔ Reads node d := by
  constructor
  · intro h
    rw [ofTlv] at h
    split at h
    · cases h
    next htag =>
    split at h
    · cases h
    next formatNode hformatNode =>
    obtain ⟨format, hformat, h⟩ := bind_eq_ok.mp h
    obtain ⟨-, hformat⟩ := Tlv.toObjectId_eq_ok.mp (mapError_eq_ok.mp hformat)
    split at h
    · cases h
    next termsNode htermsNode =>
    obtain ⟨terms, hterms, h⟩ := bind_eq_ok.mp h
    obtain ⟨hkind, hvalue⟩ := Terms.ofValue_eq_ok.mp hterms
    obtain ⟨issuerName, hissuerName, h⟩ := bind_eq_ok.mp h
    obtain ⟨issuerUrl, hissuerUrl, h⟩ := bind_eq_ok.mp h
    obtain ⟨subjectName, hsubjectName, h⟩ := bind_eq_ok.mp h
    obtain ⟨subjectUrl, hsubjectUrl, h⟩ := bind_eq_ok.mp h
    obtain ⟨redirectUrl, hredirectUrl, h⟩ := bind_eq_ok.mp h
    cases h
    exact
      { tag := not_not.mp htag
        format := by
          rw [hformatNode, hkind, ObjectId.content_of_ofBytes hformat]
          rfl
        terms := by
          rw [partValue?, htermsNode, hvalue]
          rfl
        commCertificates := by
          cases part? node commCertificatesTag <;> rfl
        issuerName := text_eq_ok.mp hissuerName
        issuerUrl := text?_eq_ok.mp hissuerUrl
        subjectName := text_eq_ok.mp hsubjectName
        subjectUrl := text?_eq_ok.mp hsubjectUrl
        redirectUrl := text?_eq_ok.mp hredirectUrl }
  · intro h
    obtain ⟨formatNode, hformatNode, hformat⟩ := Option.map_eq_some_iff.mp h.format
    obtain ⟨termsNode, htermsNode, hterms⟩ := Option.map_eq_some_iff.mp h.terms
    have hid : formatNode.toObjectId = .ok d.terms.format := by
      refine Tlv.toObjectId_eq_ok.mpr ⟨Tlv.tag_of_first? hformatNode, ?_⟩
      rw [hformat, Terms.ofBytes_format]
    rw [ofTlv, if_neg (not_not.mpr h.tag), hformatNode]
    dsimp only
    rw [bind_of_ok (mapError_eq_ok.mpr hid), htermsNode]
    dsimp only
    rw [bind_of_ok (Terms.ofValue_eq_ok.mpr ⟨rfl, hterms.symm⟩),
      bind_of_ok (text_eq_ok.mpr h.issuerName), bind_of_ok (text?_eq_ok.mpr h.issuerUrl),
      bind_of_ok (text_eq_ok.mpr h.subjectName), bind_of_ok (text?_eq_ok.mpr h.subjectUrl),
      bind_of_ok (text?_eq_ok.mpr h.redirectUrl)]
    refine congrArg (fun hashes => Except.ok { d with commCertificates := hashes }) ?_
    rw [← h.commCertificates]
    cases part? node commCertificatesTag <;> rfl

/-! ## What is written

The children of a description stand in slots, one for each tag, and a slot for an optional part
may be empty. -/

section

variable {slots : List (Tlv.Tag × List Tlv)} {s : Tlv.Tag × List Tlv} {found : List Tlv}

/-- Each slot holds nothing or one element, which has the tag of the slot, and no two slots have
the same tag. -/
structure Slotted (slots : List (Tlv.Tag × List Tlv)) : Prop where
  single : ∀ s ∈ slots, s.2.map Tlv.tag = [] ∨ s.2.map Tlv.tag = [s.1]
  distinct : (slots.map Prod.fst).Nodup

theorem Slotted.tag_eq (h : Slotted slots) (hs : s ∈ slots) {c : Tlv} (hc : c ∈ s.2) :
    c.tag = s.1 := by
  have hmem : c.tag ∈ s.2.map Tlv.tag := List.mem_map_of_mem hc
  rcases h.single s hs with hnone | hone
  · rw [hnone] at hmem
    cases hmem
  · rw [hone] at hmem
    exact List.mem_singleton.mp hmem

theorem Slotted.nodup_tags (h : Slotted slots) :
    ((slots.flatMap Prod.snd).map Tlv.tag).Nodup := by
  refine h.distinct.sublist ?_
  have hsingle := h.single
  clear h
  induction slots with
  | nil => exact List.Sublist.slnil
  | cons s slots ih =>
    obtain ⟨hs, hslots⟩ := List.forall_mem_cons.mp hsingle
    have hslot : (s.2.map Tlv.tag).Sublist [s.1] := by
      rcases hs with hs | hs
      · rw [hs]
        exact List.nil_sublist _
      · exact hs ▸ List.Sublist.refl _
    rw [List.flatMap_cons, List.map_append, List.map_cons]
    exact hslot.append (ih hslots)

/-- What is found under the tag of a slot is what the slot holds. -/
theorem Slotted.find? (h : Slotted slots) (hs : (tag, found) ∈ slots) :
    (slots.flatMap Prod.snd).find? (fun c => c.tag == tag) = found.head? := by
  obtain ⟨front, back, rfl⟩ := List.append_of_mem hs
  have hdistinct := h.distinct
  rw [List.map_append, List.map_cons, List.perm_middle.nodup_iff, List.nodup_cons,
    List.mem_append] at hdistinct
  obtain ⟨hnew, -⟩ := hdistinct
  have hothers {others : List (Tlv.Tag × List Tlv)}
      (hmem : ∀ s ∈ others, s ∈ front ++ (tag, found) :: back)
      (hne : tag ∉ others.map Prod.fst) :
      (others.flatMap Prod.snd).find? (fun c => c.tag == tag) = none := by
    refine List.find?_eq_none.mpr fun c hc htag => ?_
    obtain ⟨s, hs, hc⟩ := List.mem_flatMap.mp hc
    have hown := h.tag_eq (hmem s hs) hc
    exact hne (List.mem_map.mpr ⟨s, hs, hown.symm.trans (beq_iff_eq.mp htag)⟩)
  have hfront := hothers (fun s hs => List.mem_append_left _ hs) fun hs => hnew (.inl hs)
  have hback := hothers (fun s hs => List.mem_append_right _ (List.mem_cons_of_mem _ hs))
    fun hs => hnew (.inr hs)
  have hfound : found.find? (fun c => c.tag == tag) = found.head? := by
    cases found with
    | nil => rfl
    | cons c found => exact List.find?_cons_of_pos (beq_iff_eq.mpr (h.tag_eq hs List.mem_cons_self))
  rw [List.flatMap_append, List.flatMap_cons, List.find?_append, List.find?_append, hfront, hback,
    hfound, Option.none_or, Option.or_none]

end

/-- The children that are written, by the tag that they are found under. -/
def slots (d : Description) : List (Tlv.Tag × List Tlv) :=
  [(Tlv.Tag.objectIdentifier, [d.terms.format.toTlv]),
    (issuerNameTag, [nameTlv issuerNameTag d.issuerName]),
    (issuerUrlTag, urlTlv issuerUrlTag d.issuerUrl),
    (subjectNameTag, [nameTlv subjectNameTag d.subjectName]),
    (subjectUrlTag, urlTlv subjectUrlTag d.subjectUrl),
    (termsTag, [.constructed termsTag [d.terms.toTlv]]),
    (redirectUrlTag, urlTlv redirectUrlTag d.redirectUrl),
    (commCertificatesTag, commCertificatesTlv d.commCertificates)]

theorem children_toTlv (d : Description) : d.toTlv.children = d.slots.flatMap Prod.snd := by
  simp only [toTlv, Tlv.children, slots, List.flatMap_cons, List.flatMap_nil, List.append_assoc,
    List.cons_append, List.nil_append, List.append_nil]

theorem forall_mem_slots {P : Tlv.Tag × List Tlv → Prop} : (∀ s ∈ d.slots, P s) ↔
    P (Tlv.Tag.objectIdentifier, [d.terms.format.toTlv])
      ∧ P (issuerNameTag, [nameTlv issuerNameTag d.issuerName])
      ∧ P (issuerUrlTag, urlTlv issuerUrlTag d.issuerUrl)
      ∧ P (subjectNameTag, [nameTlv subjectNameTag d.subjectName])
      ∧ P (subjectUrlTag, urlTlv subjectUrlTag d.subjectUrl)
      ∧ P (termsTag, [.constructed termsTag [d.terms.toTlv]])
      ∧ P (redirectUrlTag, urlTlv redirectUrlTag d.redirectUrl)
      ∧ P (commCertificatesTag, commCertificatesTlv d.commCertificates) := by
  simp only [slots, List.forall_mem_cons, List.not_mem_nil, false_implies, implies_true, and_true]

theorem urlTlv_single (tag : Tlv.Tag) (text : Option String) :
    (urlTlv tag text).map Tlv.tag = [] ∨ (urlTlv tag text).map Tlv.tag = [tag] := by
  cases text
  · exact .inl rfl
  · exact .inr rfl

theorem commCertificatesTlv_single (hashes : List Bytes) :
    (commCertificatesTlv hashes).map Tlv.tag = []
      ∨ (commCertificatesTlv hashes).map Tlv.tag = [commCertificatesTag] := by
  cases hashes
  · exact .inl rfl
  · exact .inr rfl

theorem slotted_slots (d : Description) : Slotted d.slots where
  single := forall_mem_slots.mpr ⟨.inr rfl, .inr rfl, urlTlv_single _ _, .inr rfl,
    urlTlv_single _ _, .inr rfl, urlTlv_single _ _, commCertificatesTlv_single _⟩
  distinct := by
    simp only [slots, List.map_cons, List.map_nil]
    decide

theorem first?_toTlv {found : List Tlv} (place : Nat) (h : d.slots[place]? = some (tag, found)) :
    d.toTlv.first? tag = found.head? := by
  rw [Tlv.first?_eq_find?, children_toTlv]
  exact d.slotted_slots.find? (List.mem_of_getElem? h)

/-- A description is read from its own element. -/
theorem reads_toTlv (d : Description) : Reads d.toTlv d := by
  have hpart {tag : Tlv.Tag} {inner : Tlv} (place : Nat)
      (h : d.slots[place]? = some (tag, [.constructed tag [inner]])) :
      partValue? d.toTlv tag = some inner.value := by
    rw [partValue?, part?, first?_toTlv place h]
    rfl
  have hurl {tag : Tlv.Tag} {text : Option String} (place : Nat)
      (h : d.slots[place]? = some (tag, urlTlv tag text)) :
      partValue? d.toTlv tag = text.map Text.toUtf8 := by
    rw [partValue?, part?, first?_toTlv place h]
    cases text <;> rfl
  exact
    { tag := rfl
      format := by
        rw [first?_toTlv 0 rfl]
        rfl
      terms := hpart 5 rfl
      commCertificates := by
        rw [part?, first?_toTlv 7 rfl]
        cases d.commCertificates with
        | nil => rfl
        | cons first hashes => exact List.map_map.trans (List.map_id'' (fun _ => rfl) _)
      issuerName := hpart 1 rfl
      issuerUrl := hurl 2 rfl
      subjectName := hpart 3 rfl
      subjectUrl := hurl 4 rfl
      redirectUrl := hurl 6 rfl }

/-! ## Written again -/

/-- The element has a longer child, or one of the same length, for each of the given ones. -/
def Covers (node : Tlv) (es : List Tlv) : Prop :=
  ∀ e ∈ es, ∃ c ∈ node.children, c.tag = e.tag ∧ e.encodedLength ≤ c.encodedLength

theorem covers_of_part {found inner : Tlv} (hfound : part? node tag = some found)
    (htag : inner.tag.length = 1) (hvalue : inner.valueLength ≤ found.valueLength) :
    Covers node [.constructed tag [inner]] := by
  obtain ⟨holder, hholder, hhead⟩ := Option.bind_eq_some_iff.mp hfound
  have hown := Tlv.tag_of_first? hholder
  have hinner : inner.encodedLength ≤ found.encodedLength := by
    refine Tlv.encodedLength_le ?_ hvalue
    rw [htag]
    exact found.tag.length_pos
  have hlength : (Tlv.constructed tag [inner]).valueLength ≤ holder.valueLength :=
    calc (Tlv.constructed tag [inner]).valueLength
        = inner.encodedLength := Nat.add_zero _
      _ ≤ found.encodedLength := hinner
      _ ≤ Tlv.encodedLengthAll holder.children :=
          Tlv.encodedLength_le_encodedLengthAll (List.mem_of_mem_head? hhead)
      _ ≤ holder.valueLength := Tlv.encodedLengthAll_le_valueLength holder
  refine List.forall_mem_singleton.mpr ⟨holder, Tlv.mem_of_first? hholder, hown, ?_⟩
  exact Tlv.encodedLength_le (Nat.le_of_eq (congrArg _ hown.symm)) hlength

theorem covers_of_partValue {innerTag : Tlv.Tag} {value : Bytes} (htag : innerTag.length = 1)
    (hread : partValue? node tag = some value) :
    Covers node [.constructed tag [.primitive innerTag value]] := by
  obtain ⟨found, hfound, rfl⟩ := Option.map_eq_some_iff.mp hread
  have hvalue : (Tlv.primitive innerTag found.value).valueLength ≤ found.valueLength :=
    Nat.le_of_eq found.length_value
  exact covers_of_part hfound htag hvalue

theorem covers_urlTlv {text : Option String}
    (hread : partValue? node tag = text.map Text.toUtf8) : Covers node (urlTlv tag text) := by
  cases text with
  | none => exact fun _ he => nomatch he
  | some text => exact covers_of_partValue rfl hread

theorem encodedLengthAll_octets_le (hashes : List Tlv) :
    Tlv.encodedLengthAll ((hashes.map Tlv.value).map (.primitive Tlv.Tag.octetString))
      ≤ Tlv.encodedLengthAll hashes := by
  induction hashes with
  | nil => exact Nat.le_refl _
  | cons found hashes ih =>
    have hfound : (Tlv.primitive Tlv.Tag.octetString found.value).encodedLength
        ≤ found.encodedLength :=
      Tlv.encodedLength_le found.tag.length_pos (Nat.le_of_eq found.length_value)
    rw [List.map_cons, List.map_cons, Tlv.encodedLengthAll, Tlv.encodedLengthAll]
    exact Nat.add_le_add hfound ih

theorem Reads.covers_commCertificates (h : Reads node d) :
    Covers node (commCertificatesTlv d.commCertificates) := by
  rw [← h.commCertificates]
  cases hpart : part? node commCertificatesTag with
  | none => exact fun _ he => nomatch he
  | some hashes =>
    rw [Option.elim_some, commCertificatesTlv]
    split
    · exact fun _ he => nomatch he
    · refine covers_of_part hpart rfl ?_
      exact Nat.le_trans (encodedLengthAll_octets_le hashes.children)
        (Tlv.encodedLengthAll_le_valueLength hashes)

theorem Reads.covers_format (h : Reads node d) : Covers node [d.terms.format.toTlv] := by
  obtain ⟨found, hfound, hvalue⟩ := Option.map_eq_some_iff.mp h.format
  have hown := Tlv.tag_of_first? hfound
  have hlength : d.terms.format.toTlv.valueLength = found.valueLength := by
    rw [← found.length_value, hvalue]
    rfl
  refine List.forall_mem_singleton.mpr ⟨found, Tlv.mem_of_first? hfound, hown, ?_⟩
  exact Tlv.encodedLength_le (Nat.le_of_eq (congrArg _ hown.symm)) (Nat.le_of_eq hlength)

theorem Reads.covers_terms (h : Reads node d) :
    Covers node [.constructed termsTag [d.terms.toTlv]] := by
  have hterms := h.terms
  cases hkind : d.terms <;> rw [hkind] at hterms <;> exact covers_of_partValue rfl hterms

/-- A description that was read takes no more bytes than what it was read from. -/
theorem Reads.valueLength_le (h : Reads node d) : d.toTlv.valueLength ≤ node.valueLength := by
  have hslots : ∀ s ∈ d.slots, Covers node s.2 := forall_mem_slots.mpr
    ⟨h.covers_format, covers_of_partValue rfl h.issuerName, covers_urlTlv h.issuerUrl,
      covers_of_partValue rfl h.subjectName, covers_urlTlv h.subjectUrl, h.covers_terms,
      covers_urlTlv h.redirectUrl, h.covers_commCertificates⟩
  have hcovers : Covers node d.toTlv.children := by
    intro e he
    rw [children_toTlv] at he
    obtain ⟨s, hs, he⟩ := List.mem_flatMap.mp he
    exact hslots s hs e he
  have hdistinct : (d.toTlv.children.map Tlv.tag).Nodup := by
    rw [children_toTlv]
    exact d.slotted_slots.nodup_tags
  calc d.toTlv.valueLength
      = Tlv.encodedLengthAll d.toTlv.children := rfl
    _ ≤ Tlv.encodedLengthAll node.children := Tlv.encodedLengthAll_le hdistinct hcovers
    _ ≤ node.valueLength := Tlv.encodedLengthAll_le_valueLength node

theorem fits_part {tag innerTag : Tlv.Tag} {value : Bytes} (htag : tag.Decodable)
    (hkind : tag.isConstructed = true) (hinner : innerTag.Decodable)
    (hraw : innerTag.isConstructed = false) :
    ∀ c ∈ [Tlv.constructed tag [.primitive innerTag value]], c.Fits 3 := by
  refine List.forall_mem_singleton.mpr (Tlv.fits_constructed.mpr ⟨htag, hkind, by decide, ?_⟩)
  exact List.forall_mem_singleton.mpr (Tlv.fits_primitive.mpr ⟨hinner, hraw, by decide⟩)

theorem fits_urlTlv {text : Option String} (htag : tag.Decodable)
    (hkind : tag.isConstructed = true) : ∀ c ∈ urlTlv tag text, c.Fits 3 := by
  cases text with
  | none => exact fun _ hc => nomatch hc
  | some text => exact fits_part htag hkind (by decide) rfl

theorem fits_commCertificatesTlv (hashes : List Bytes) :
    ∀ c ∈ commCertificatesTlv hashes, c.Fits 3 := by
  rw [commCertificatesTlv]
  split
  · exact fun _ hc => nomatch hc
  · refine List.forall_mem_singleton.mpr
      (Tlv.fits_constructed.mpr ⟨by decide, rfl, by decide, ?_⟩)
    refine List.forall_mem_singleton.mpr
      (Tlv.fits_constructed.mpr ⟨by decide, rfl, by decide, ?_⟩)
    intro c hc
    obtain ⟨hash, -, rfl⟩ := List.mem_map.mp hc
    exact Tlv.fits_primitive.mpr ⟨by decide, rfl, by decide⟩

theorem fits_toTlv (d : Description) : d.toTlv.Fits 4 := by
  have hname {tag : Tlv.Tag} {text : String} (htag : tag.Decodable)
      (hkind : tag.isConstructed = true) : ∀ c ∈ [nameTlv tag text], c.Fits 3 :=
    fits_part htag hkind (by decide) rfl
  have hformat : ∀ c ∈ [d.terms.format.toTlv], c.Fits 3 :=
    List.forall_mem_singleton.mpr (Tlv.fits_primitive.mpr ⟨by decide, rfl, by decide⟩)
  have hterms : ∀ c ∈ [Tlv.constructed termsTag [d.terms.toTlv]], c.Fits 3 := by
    cases d.terms <;> exact fits_part (by decide) rfl (by decide) rfl
  have hslots : ∀ s ∈ d.slots, ∀ c ∈ s.2, c.Fits 3 := forall_mem_slots.mpr
    ⟨hformat, hname (by decide) rfl, fits_urlTlv (by decide) rfl, hname (by decide) rfl,
      fits_urlTlv (by decide) rfl, hterms, fits_urlTlv (by decide) rfl,
      fits_commCertificatesTlv d.commCertificates⟩
  have hchildren : ∀ c ∈ d.toTlv.children, c.Fits 3 := by
    intro c hc
    rw [children_toTlv] at hc
    obtain ⟨s, hs, hc⟩ := List.mem_flatMap.mp hc
    exact hslots s hs c hc
  exact Tlv.fits_constructed.mpr ⟨by decide, rfl, by decide, hchildren⟩

/-! ## Reading back -/

theorem valueLength_lt_of_ofBytes {bytes : Bytes} (h : ofBytes bytes = .ok d) :
    d.toTlv.valueLength < 2 ^ 32 := by
  obtain ⟨node, hparse, hread⟩ := bind_eq_ok.mp h
  have hwell := Tlv.wellFormed_of_parse (mapError_eq_ok.mp hparse)
  exact Nat.lt_of_le_of_lt (ofTlv_eq_ok.mp hread).valueLength_le hwell.1.valueLength_lt

theorem ofBytes_encode_iff : ofBytes d.encode = .ok d ↔ d.toTlv.valueLength < 2 ^ 32 := by
  refine ⟨valueLength_lt_of_ofBytes, fun h => ?_⟩
  have hparse := Tlv.parse_encode (d.fits_toTlv.wellFormed (by decide) h)
  rw [ofBytes, encode, bind_of_ok (mapError_eq_ok.mpr hparse)]
  exact ofTlv_eq_ok.mpr d.reads_toTlv

/-- A description reads back from its encoding, unless that reaches `2 ^ 32` bytes, so no two
descriptions have the same shorter encoding.  A description that was read reads back whatever it
was read from: other lengths, children that are read past, repeated or in another order. -/
theorem ofBytes_encode_of_lt_or_read :
    (∀ d : Description, d.encode.length < 2 ^ 32 → ofBytes d.encode = .ok d) ∧
    (∀ d d' : Description, d.encode.length < 2 ^ 32 → d.encode = d'.encode → d = d') ∧
    (∀ (bytes : Bytes) (d : Description), ofBytes bytes = .ok d → ofBytes d.encode = .ok d) := by
  have hshort (d : Description) (h : d.encode.length < 2 ^ 32) : ofBytes d.encode = .ok d := by
    refine ofBytes_encode_iff.mpr ?_
    rw [encode, Tlv.length_encode, Tlv.encodedLength_eq] at h
    omega
  refine ⟨hshort, fun d d' hlength hencode => ?_, fun bytes d h => ?_⟩
  · have hread := hshort d hlength
    have hread' := hshort d' (hencode ▸ hlength)
    rw [hencode, hread'] at hread
    cases hread
    rfl
  · exact ofBytes_encode_iff.mpr (valueLength_lt_of_ofBytes h)

/-- Read from an element with the name of the subject in front, a second text beside the name of
the issuer, the terms of usage under another tag and a length that takes a byte too many. -/
theorem ofBytes_encode_reordered :
    let d := { create "A" "B" (.pdf [0x25]) with
      issuerUrl := some "é", commCertificates := [[0x01], []] }
    let bytes := [0x30, 0x81, 0x2D, 0xA3, 0x03, 0x0C, 0x01, 0x42, 0xA5, 0x03, 0x0C, 0x01, 0x25,
      0xA1, 0x06, 0x0C, 0x01, 0x41, 0x0C, 0x01, 0x43, 0xA2, 0x04, 0x0C, 0x02, 0xC3, 0xA9,
      0xA7, 0x07, 0x31, 0x05, 0x04, 0x01, 0x01, 0x04, 0x00, 0x06, 0x0A] ++ Terms.pdfId.content
    ofBytes bytes = .ok d ∧ bytes ≠ d.encode ∧ d.encode.length < 2 ^ 32 ∧
      ofBytes d.encode = .ok d ∧ ∀ d', d.encode = d'.encode → d = d' := by
  intro d bytes
  have hread : ofBytes bytes = .ok d := by decide +kernel
  have hlength : d.encode.length < 2 ^ 32 := by decide +kernel
  obtain ⟨-, hdistinct, hagain⟩ := ofBytes_encode_of_lt_or_read
  exact ⟨hread, by decide +kernel, hlength, hagain bytes d hread, fun d' => hdistinct d d' hlength⟩

end Description
end CardAccess

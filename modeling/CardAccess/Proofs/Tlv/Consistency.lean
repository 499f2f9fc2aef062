import CardAccess.Proofs.Tlv.Fitting

/-!
# Trees under edits

An element may be built with any tag, but in a tree that was read every tag can be read again and
says what its content is.  `Consistent` says so of all elements of a tree, and every edit keeps it
as long as what is put in was read itself: a new value is read where the content is a list of
elements and taken as it is elsewhere, so the kind of content never changes under its tag.  How
deep a tree becomes and how long its values get is not bounded by any edit, and just these two
are left to ask for when the bytes of an edited tree are to be read back (`consistent_of_edits`).

No edit has to mend a length.  Lengths are computed from the content when a tree is written, so
the field of each element states what stands behind it, of those above an edited place as well
(`Measured`).
-/

namespace CardAccess
namespace Tlv

/-- What holds of raw content, and of a list of elements if it holds of each, holds of all
trees. -/
theorem induction {motive : Tlv → Prop}
    (primitive : ∀ tag value, motive (.primitive tag value))
    (constructed : ∀ tag cs, (∀ c ∈ cs, motive c) → motive (.constructed tag cs))
    (t : Tlv) : motive t := by
  cases t with
  | primitive tag value => exact primitive tag value
  | constructed tag cs => exact constructed tag cs fun c _ => induction primitive constructed c

/-! ## All elements of a tree -/

mutual

/-- The element and all those inside it, at whatever level. -/
def elements : Tlv → List Tlv
  | .primitive tag value => [.primitive tag value]
  | .constructed tag cs => .constructed tag cs :: elementsAll cs

def elementsAll : List Tlv → List Tlv
  | [] => []
  | c :: cs => elements c ++ elementsAll cs

end

/-- The tag can be read, and it says which of the two the content is. -/
def Labelled (t : Tlv) : Prop := t.tag.Decodable ∧ t.isConstructed = t.tag.isConstructed

/-- All elements of the tree are labelled with what they hold. -/
def Consistent (t : Tlv) : Prop := ∀ e ∈ t.elements, e.Labelled

variable {t t' found new : Tlv} {cs : List Tlv} {room : Nat} {steps : List Step}

theorem forall_mem_elementsAll {p : Tlv → Prop} :
    (∀ e ∈ elementsAll cs, p e) ↔ ∀ c ∈ cs, ∀ e ∈ c.elements, p e := by
  induction cs with
  | nil => exact ⟨fun _ _ hc => (nomatch hc), fun _ _ he => (nomatch he)⟩
  | cons c cs ih => rw [elementsAll, List.forall_mem_append, ih, List.forall_mem_cons]

theorem forall_mem_elements {p : Tlv → Prop} {tag : Tag} :
    (∀ e ∈ (constructed tag cs).elements, p e) ↔
      p (.constructed tag cs) ∧ ∀ c ∈ cs, ∀ e ∈ c.elements, p e := by
  rw [elements, List.forall_mem_cons, forall_mem_elementsAll]

theorem consistent_primitive {tag : Tag} {value : Bytes} :
    (primitive tag value).Consistent ↔ tag.Decodable ∧ tag.isConstructed = false := by
  rw [Consistent, elements, List.forall_mem_singleton, Labelled, isConstructed, Tlv.tag, eq_comm]

theorem consistent_constructed {tag : Tag} :
    (constructed tag cs).Consistent ↔
      tag.Decodable ∧ tag.isConstructed = true ∧ ∀ c ∈ cs, c.Consistent := by
  rw [Consistent, forall_mem_elements, Labelled, isConstructed, Tlv.tag, and_assoc,
    eq_comm (a := true)]
  rfl

/-! ## How this relates to fitting and to reading back -/

theorem levelsAll_le : levelsAll cs ≤ room ↔ ∀ c ∈ cs, c.levels ≤ room := by
  induction cs with
  | nil => exact ⟨fun _ _ hc => (nomatch hc), fun _ => Nat.zero_le _⟩
  | cons c cs ih => rw [levelsAll, Nat.max_le, ih, List.forall_mem_cons]

theorem regularAll_iff : RegularAll cs ↔ ∀ c ∈ cs, c.Regular := by
  induction cs with
  | nil => exact ⟨fun _ _ hc => (nomatch hc), fun _ => trivial⟩
  | cons c cs ih => rw [RegularAll, ih, List.forall_mem_cons]

/-- A tree fits where it is consistent and there is room for its levels. -/
theorem fits_iff : t.Fits room ↔ t.Consistent ∧ t.levels ≤ room := by
  induction t using Tlv.induction generalizing room with
  | primitive tag value =>
    rw [fits_primitive, consistent_primitive, levels, and_assoc, Nat.succ_le_iff]
  | constructed tag cs ih =>
    have hlevels : (constructed tag cs).levels ≤ room ↔ 0 < room ∧ levelsAll cs ≤ room - 1 := by
      rw [levels]
      omega
    rw [fits_constructed, consistent_constructed, hlevels, levelsAll_le]
    constructor
    · rintro ⟨htag, hkind, hroom, hchildren⟩
      exact ⟨⟨htag, hkind, fun c hc => ((ih c hc).mp (hchildren c hc)).1⟩, hroom,
        fun c hc => ((ih c hc).mp (hchildren c hc)).2⟩
    · rintro ⟨⟨htag, hkind, hchildren⟩, hroom, hle⟩
      exact ⟨htag, hkind, hroom, fun c hc => (ih c hc).mpr ⟨hchildren c hc, hle c hc⟩⟩

theorem Consistent.fits (h : t.Consistent) (hlevels : t.levels ≤ room) : t.Fits room :=
  fits_iff.mpr ⟨h, hlevels⟩

theorem Fits.consistent (h : t.Fits room) : t.Consistent := (fits_iff.mp h).1

theorem regular_primitive {tag : Tag} {value : Bytes} :
    (primitive tag value).Regular ↔
      tag.Decodable ∧ tag.isConstructed = false ∧ value.length < 2 ^ 32 := Iff.rfl

theorem regular_constructed {tag : Tag} :
    (constructed tag cs).Regular ↔
      tag.Decodable ∧ tag.isConstructed = true ∧ encodedLengthAll cs < 2 ^ 32 ∧ RegularAll cs :=
  Iff.rfl

/-- A tree is regular if it is consistent and none of its values is too long. -/
theorem regular_iff :
    t.Regular ↔ t.Consistent ∧ ∀ e ∈ t.elements, e.value.length < 2 ^ 32 := by
  induction t using Tlv.induction with
  | primitive tag value =>
    rw [regular_primitive, consistent_primitive, elements, List.forall_mem_singleton, Tlv.value,
      and_assoc]
  | constructed tag cs ih =>
    rw [regular_constructed, consistent_constructed, forall_mem_elements, regularAll_iff,
      Tlv.value, length_encodeAll]
    constructor
    · rintro ⟨htag, hkind, hlength, hchildren⟩
      exact ⟨⟨htag, hkind, fun c hc => ((ih c hc).mp (hchildren c hc)).1⟩, hlength,
        fun c hc => ((ih c hc).mp (hchildren c hc)).2⟩
    · rintro ⟨⟨htag, hkind, hchildren⟩, hlength, hshort⟩
      exact ⟨htag, hkind, hlength, fun c hc => (ih c hc).mpr ⟨hchildren c hc, hshort c hc⟩⟩

theorem consistent_of_parse {input : Bytes} (h : parse input = .ok t) : t.Consistent :=
  (regular_iff.mp (wellFormed_of_parse h).1).1

/-- The bytes of a consistent tree read back unless it is too deep or a value is too long. -/
theorem Consistent.parse_encode_iff (h : t.Consistent) :
    parse t.encode = .ok t ↔
      t.levels ≤ maxLevels ∧ ∀ e ∈ t.elements, e.value.length < 2 ^ 32 := by
  rw [parse_encode_iff_wellFormed.1, WellFormed, regular_iff]
  exact ⟨fun hwell => ⟨hwell.2, hwell.1.2⟩, fun hsmall => ⟨⟨h, hsmall.2⟩, hsmall.1⟩⟩

/-! ## Edits -/

/-- A change of a tree: at a place, at the root itself, or of the value of the element that is
looked up at a place, where nothing happens if there is none. -/
inductive Edit where
  | addChild (parent : Path) (child : Tlv)
  | removeChild (path : Path)
  | replaceChild (path : Path) (new : Tlv)
  | setValueAt (path : Path) (value : Bytes)
  | push (child : Tlv)
  | setValue (value : Bytes)
  | setFound (path : Path) (value : Bytes)
  deriving Repr

namespace Edit

/-- The element that is put in, if there is one. -/
def inserted? : Edit → Option Tlv
  | .addChild _ child => some child
  | .replaceChild _ new => some new
  | .push child => some child
  | _ => none

def run (t : Tlv) : Edit → Except Error Tlv
  | .addChild parent child => (t.addChild parent child).mapError .edit
  | .removeChild path => (t.removeChild path).mapError .edit |>.map Prod.fst
  | .replaceChild path new => (t.replaceChild path new).mapError .edit |>.map Prod.fst
  | .setValueAt path value => t.setValueAt path value
  | .push child => (t.push child).mapError .edit
  | .setValue value => (t.setValue value).mapError .decode
  | .setFound path value =>
    match t.child? path with
    | none => .ok t
    | some found => (found.setValue value).mapError .decode |>.map (t.put path.steps)

/-- The tree after an edit, which is the same tree if the edit fails. -/
def apply (t : Tlv) (edit : Edit) : Tlv :=
  match edit.run t with
  | .ok t' => t'
  | .error _ => t

/-- The tree after several edits, one after the other. -/
def applyAll (t : Tlv) (edits : List Edit) : Tlv := edits.foldl apply t

end Edit

/-! ## What every edit preserves -/

theorem Consistent.get? (h : t.Consistent) (hfound : t.get? steps = some found) :
    found.Consistent :=
  ((h.fits (Nat.le_refl _)).get? hfound).consistent

theorem Consistent.put (h : t.Consistent) (hfound : t.get? steps = some found)
    (hnew : new.Consistent) : (t.put steps new).Consistent := by
  have hroom : t.Fits (t.levels + (steps.length + new.levels)) := h.fits (by omega)
  exact (hroom.put hfound (hnew.fits (by omega))).consistent

theorem Consistent.setValue {value : Bytes} (h : t.Consistent)
    (hset : t.setValue value = .ok t') : t'.Consistent := by
  cases t with
  | primitive tag old =>
    cases hset
    exact consistent_primitive.mpr (consistent_primitive.mp h)
  | constructed tag cs =>
    obtain ⟨htag, hkind, -⟩ := consistent_constructed.mp h
    rw [Tlv.setValue] at hset
    cases hparse : parseAll value with
    | error e =>
      rw [hparse] at hset
      cases hset
    | ok ds =>
      rw [hparse] at hset
      cases hset
      exact consistent_constructed.mpr
        ⟨htag, hkind, fun d hd => (regular_iff.mp (wellFormed_of_parseAll hparse hd).1).1⟩

theorem Consistent.push (h : t.Consistent) (hnew : new.Consistent)
    (hpush : t.push new = .ok t') : t'.Consistent := by
  cases t with
  | primitive tag value => cases hpush
  | constructed tag cs =>
    cases hpush
    obtain ⟨htag, hkind, hchildren⟩ := consistent_constructed.mp h
    refine consistent_constructed.mpr ⟨htag, hkind, ?_⟩
    rw [List.forall_mem_append, List.forall_mem_singleton]
    exact ⟨hchildren, hnew⟩

/-- An edit that succeeds, one case for each kind. -/
theorem Consistent.run {edit : Edit} (h : t.Consistent)
    (hnew : ∀ new, edit.inserted? = some new → new.Consistent) (hrun : edit.run t = .ok t') :
    t'.Consistent := by
  cases edit with
  | addChild parent child =>
    obtain ⟨root, cs, hplace, rfl⟩ := addChild_eq_ok.mp (mapError_eq_ok.mp hrun)
    have hget := (child?_eq_some.mp hplace).2
    exact h.put hget ((h.get? hget).push (hnew child rfl) rfl)
  | removeChild path =>
    obtain ⟨⟨rest, removed⟩, hremoved, rfl⟩ := map_eq_ok.mp hrun
    exact ((h.fits (Nat.le_refl _)).removeChild (mapError_eq_ok.mp hremoved)).consistent
  | replaceChild path new =>
    obtain ⟨⟨changed, old⟩, hreplaced, rfl⟩ := map_eq_ok.mp hrun
    obtain ⟨-, hfound, rfl⟩ := replaceChild_eq_ok.mp (mapError_eq_ok.mp hreplaced)
    exact h.put (child?_eq_some.mp hfound).2 (hnew new rfl)
  | setValueAt path value =>
    obtain ⟨old, changed, hfound, hchanged, rfl⟩ := setValueAt_eq_ok.mp hrun
    have hget := (child?_eq_some.mp hfound).2
    exact h.put hget ((h.get? hget).setValue hchanged)
  | push child => exact h.push (hnew child rfl) (mapError_eq_ok.mp hrun)
  | setValue value => exact h.setValue (mapError_eq_ok.mp hrun)
  | setFound path value =>
    rw [Edit.run] at hrun
    split at hrun
    · cases hrun
      exact h
    next old hfound =>
    have hget := (child?_eq_some.mp hfound).2
    obtain ⟨changed, hset, rfl⟩ := map_eq_ok.mp hrun
    exact h.put hget ((h.get? hget).setValue (mapError_eq_ok.mp hset))

/-- What one edit preserves, whether or not it succeeds. -/
theorem Consistent.apply {edit : Edit} (h : t.Consistent)
    (hnew : ∀ new, edit.inserted? = some new → new.Consistent) : (edit.apply t).Consistent := by
  rw [Edit.apply]
  split
  · next t' hrun => exact h.run hnew hrun
  · exact h

theorem Consistent.applyAll {edits : List Edit} (h : t.Consistent)
    (hnew : ∀ edit ∈ edits, ∀ new, edit.inserted? = some new → new.Consistent) :
    (Edit.applyAll t edits).Consistent := by
  induction edits generalizing t with
  | nil => exact h
  | cons edit edits ih =>
    obtain ⟨hfirst, hrest⟩ := List.forall_mem_cons.mp hnew
    exact ih (h.apply hfirst) hrest

/-! ## Lengths -/

/-- The lengths of an element are those of the bytes that stand for it: its value, which is the
encodings of the elements inside if there are any, and the whole of it.  Its length field, unless
the value is too long for one, states the number of bytes behind it up to its end. -/
structure Measured (t : Tlv) : Prop where
  content : t.isConstructed = true → t.value = t.children.flatMap encode
  valueLength : t.valueLength = t.value.length
  encodedLength : t.encodedLength = t.encode.length
  field : t.value.length < 2 ^ 32 → ∀ (offset : Nat) (rest : Bytes), ∃ behindTag behindField,
    Tag.read ⟨offset, t.encode ++ rest⟩ = .ok (t.tag, behindTag) ∧
      Length.read behindTag = .ok (t.value.length, behindField) ∧
      behindField.bytes = t.value ++ rest

theorem encodeAll_eq_flatMap : encodeAll cs = cs.flatMap encode := by
  induction cs with
  | nil => rfl
  | cons c cs ih => rw [encodeAll, ih, List.flatMap_cons]

theorem encode_eq_frame (t : Tlv) : t.encode = frame t.tag t.value := by
  cases t <;> rfl

theorem Labelled.measured (h : t.Labelled) : t.Measured where
  content := by
    cases t with
    | primitive tag value => exact (nomatch ·)
    | constructed tag cs => exact fun _ => encodeAll_eq_flatMap
  valueLength := (length_value t).symm
  encodedLength := (length_encode t).symm
  field := by
    intro hlength offset rest
    have hbytes : t.encode ++ rest
        = t.tag.toBytes ++ (Length.encode t.value.length ++ (t.value ++ rest)) := by
      rw [encode_eq_frame, frame, List.append_assoc, List.append_assoc]
    rw [hbytes]
    exact ⟨_, _, Tag.read_eq_ok.mpr ⟨h.1, Cursor.spans_mk offset _ _⟩,
      Length.read_eq_ok.mpr ⟨_, Length.field_encode hlength, Cursor.spans_mk _ _ _⟩, rfl⟩

/-- Whatever edits are made to a tree that was read, and whichever of them fail: if what they put
in was read as well, every tag of the tree can be read and says what its content is.  So its bytes
read back as the tree exactly if it has no more levels than are read and all its values are short
enough to state their length; and all its elements, those above the edited places among them, are
written with the length of what is in them now. -/
theorem consistent_of_edits {input : Bytes} (hparse : parse input = .ok t) (edits : List Edit)
    (hnew : ∀ edit ∈ edits, ∀ new, edit.inserted? = some new → ∃ bytes, parse bytes = .ok new) :
    let after := Edit.applyAll t edits
    after.Consistent ∧
      (parse after.encode = .ok after ↔
        after.levels ≤ maxLevels ∧ ∀ e ∈ after.elements, e.value.length < 2 ^ 32) ∧
      ∀ e ∈ after.elements, e.Measured := by
  intro after
  have hafter : after.Consistent := by
    refine (consistent_of_parse hparse).applyAll fun edit hedit new hinserted => ?_
    obtain ⟨bytes, hbytes⟩ := hnew edit hedit new hinserted
    exact consistent_of_parse hbytes
  exact ⟨hafter, hafter.parse_encode_iff, fun e he => (hafter e he).measured⟩

/-- Data that outgrows the short form of its length and the one of the element around it, an
element beside it, and one inside it, for which there is no room. -/
theorem consistent_of_edits_long :
    let data := (Path.ofRoot "ROOT" Tag.sequence).child "DATA" Tag.octetString 0
    let t : Tlv := .constructed Tag.sequence [.primitive Tag.octetString [0xFF]]
    let edits : List Edit := [.setValueAt data (Bytes.zeros 200), .push (.constructed Tag.set []),
      .addChild data (.constructed Tag.set [])]
    let after := Edit.applyAll t edits
    parse after.encode = .ok after ∧
      after.encode.take 3 = [0x30, 0x81, 0xCD] ∧ after.Measured := by
  intro data t edits after
  have hparse : parse [0x30, 0x03, 0x04, 0x01, 0xFF] = .ok t := by decide +kernel
  have hempty : parse [0x31, 0x00] = .ok (.constructed Tag.set []) := by decide +kernel
  have hnew : ∀ edit ∈ edits, ∀ new, edit.inserted? = some new →
      ∃ bytes, parse bytes = .ok new := by
    intro edit hedit new hinserted
    have hset : new = .constructed Tag.set [] := by
      revert new
      revert edit
      simp [edits, Edit.inserted?]
    exact ⟨_, hset ▸ hempty⟩
  obtain ⟨-, hback, hmeasured⟩ := consistent_of_edits hparse edits hnew
  exact ⟨hback.mpr (by decide +kernel), by decide +kernel, hmeasured after List.mem_cons_self⟩

end Tlv
end CardAccess

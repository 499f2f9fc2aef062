import CardAccess.Proofs.Tlv.Canonical
import CardAccess.Proofs.Tlv.Place

/-!
# Trees that fit

The encoding of a tree that was edited reads back if the tags still agree with the content and
no branch has become too deep.  `Fits` says both, for a given number of levels that there is
room for: each step down takes one level, so what is written at a place has to fit into what the
steps to that place have left.  Lengths are left out, since those of all elements are bounded by
that of the whole.
-/

namespace CardAccess
namespace Tlv

/-- A tag can be read back exactly if it is read from its own bytes, which can be tried. -/
theorem Tag.decodable_iff_read {tag : Tag} :
    tag.Decodable ↔ Tag.read ⟨0, tag.toBytes⟩ = .ok (tag, ⟨tag.toBytes.length, []⟩) := by
  rw [Tag.read_eq_ok]
  constructor
  · exact fun h => ⟨h, (List.append_nil _).symm, (Nat.zero_add _).symm⟩
  · exact fun h => h.1

instance : DecidablePred Tag.Decodable := fun _ =>
  decidable_of_iff _ Tag.decodable_iff_read.symm

mutual

/-- Every tag in the element can be read back and agrees with its content, and there are at
most `room` levels. -/
def Fits : Tlv → (room : Nat) → Prop
  | .primitive tag _, room => tag.Decodable ∧ tag.isConstructed = false ∧ 0 < room
  | .constructed tag cs, room =>
    tag.Decodable ∧ tag.isConstructed = true ∧ 0 < room ∧ FitsAll cs (room - 1)

/-- Every one of several elements fits. -/
def FitsAll : List Tlv → (room : Nat) → Prop
  | [], _ => True
  | c :: cs, room => Fits c room ∧ FitsAll cs room

end

section

variable {t found new : Tlv} {cs : List Tlv} {room : Nat} {steps : List Step}

theorem fitsAll_iff : FitsAll cs room ↔ ∀ c ∈ cs, Fits c room := by
  induction cs with
  | nil => exact ⟨fun _ _ hc => (nomatch hc), fun _ => trivial⟩
  | cons c cs ih => rw [FitsAll, ih, List.forall_mem_cons]

theorem fits_primitive {tag : Tag} {value : Bytes} :
    Fits (.primitive tag value) room ↔
      tag.Decodable ∧ tag.isConstructed = false ∧ 0 < room := by
  rw [Fits]

theorem fits_constructed {tag : Tag} :
    Fits (.constructed tag cs) room ↔
      tag.Decodable ∧ tag.isConstructed = true ∧ 0 < room ∧ ∀ c ∈ cs, Fits c (room - 1) := by
  rw [Fits, fitsAll_iff]

/-! ## How fitting relates to reading back -/

mutual

theorem Regular.fits : (t : Tlv) → {room : Nat} → Regular t → t.levels ≤ room → Fits t room
  | .primitive _ _, _, ⟨htag, hkind, _⟩, hlevels => ⟨htag, hkind, hlevels⟩
  | .constructed _ cs, _, ⟨htag, hkind, _, hchildren⟩, hlevels => by
    rw [levels] at hlevels
    exact ⟨htag, hkind, by omega, RegularAll.fitsAll cs hchildren (by omega)⟩

theorem RegularAll.fitsAll : (cs : List Tlv) → {room : Nat} → RegularAll cs →
    levelsAll cs ≤ room → FitsAll cs room
  | [], _, _, _ => trivial
  | c :: cs, _, ⟨hhead, htail⟩, hlevels => by
    rw [levelsAll] at hlevels
    exact ⟨Regular.fits c hhead (by omega), RegularAll.fitsAll cs htail (by omega)⟩

end

mutual

theorem Fits.levels_le : (t : Tlv) → {room : Nat} → Fits t room → t.levels ≤ room
  | .primitive _ _, _, ⟨_, _, hroom⟩ => hroom
  | .constructed _ cs, _, ⟨_, _, hroom, hchildren⟩ => by
    have hle := FitsAll.levelsAll_le cs hchildren
    rw [levels]
    omega

theorem FitsAll.levelsAll_le : (cs : List Tlv) → {room : Nat} → FitsAll cs room →
    levelsAll cs ≤ room
  | [], _, _ => Nat.zero_le _
  | c :: cs, _, ⟨hhead, htail⟩ =>
    Nat.max_le.mpr ⟨Fits.levels_le c hhead, FitsAll.levelsAll_le cs htail⟩

end

mutual

theorem Fits.regular : (t : Tlv) → {room : Nat} → Fits t room → t.encodedLength < 2 ^ 32 →
    Regular t
  | .primitive _ _, _, ⟨htag, hkind, _⟩, hlength => by
    rw [encodedLength] at hlength
    exact ⟨htag, hkind, by omega⟩
  | .constructed _ cs, _, ⟨htag, hkind, _, hchildren⟩, hlength => by
    rw [encodedLength] at hlength
    exact ⟨htag, hkind, by omega, FitsAll.regularAll cs hchildren (by omega)⟩

theorem FitsAll.regularAll : (cs : List Tlv) → {room : Nat} → FitsAll cs room →
    encodedLengthAll cs < 2 ^ 32 → RegularAll cs
  | [], _, _, _ => trivial
  | c :: cs, _, ⟨hhead, htail⟩, hlength => by
    rw [encodedLengthAll] at hlength
    exact ⟨Fits.regular c hhead (by omega), FitsAll.regularAll cs htail (by omega)⟩

end

/-- A tree that fits where all its levels can be read is well-formed, unless its value is too
long. -/
theorem Fits.wellFormed (h : t.Fits room) (hroom : room ≤ maxLevels)
    (hlength : t.valueLength < 2 ^ 32) : t.WellFormed := by
  refine ⟨?_, Nat.le_trans (h.levels_le t) hroom⟩
  cases t with
  | primitive tag value =>
    obtain ⟨htag, hkind, -⟩ := h
    exact ⟨htag, hkind, hlength⟩
  | constructed tag cs =>
    obtain ⟨htag, hkind, -, hchildren⟩ := h
    exact ⟨htag, hkind, hlength, hchildren.regularAll cs hlength⟩

/-- A tree that fits at all and is short enough reads back exactly if it is not too deep, and
nothing else is read from its bytes. -/
theorem Fits.parse_encode (h : Fits t room) (hlength : t.encode.length < 2 ^ 32) :
    (t.levels ≤ maxLevels → parse t.encode = .ok t) ∧
      (maxLevels < t.levels → ∃ e, parse t.encode = .error e) := by
  rw [length_encode] at hlength
  have hregular := h.regular t hlength
  refine ⟨fun hlevels => Tlv.parse_encode ⟨hregular, hlevels⟩, fun hdeep => ?_⟩
  cases hparse : parse t.encode with
  | error e => exact ⟨e, rfl⟩
  | ok read =>
    -- bytes encode one element only, so what was read would be the tree that is too deep
    obtain ⟨hlevels, hencodes⟩ := parse_eq_ok.mp hparse
    have hbytes : t.encode ++ [] = t.encode ++ [] := rfl
    obtain ⟨rfl, -, -⟩ := hencodes.split_unique (Regular.encodes t hregular) hbytes
    exact absurd hlevels (Nat.not_le_of_lt hdeep)

theorem Fits.parse_encode_of_le (h : Fits t room) (hroom : room ≤ maxLevels)
    (hlength : t.encode.length < 2 ^ 32) : parse t.encode = .ok t :=
  (h.parse_encode hlength).1 (Nat.le_trans (h.levels_le t) hroom)

/-! ## Edits -/

/-- What is found some steps down has as many levels less. -/
theorem Fits.get? (h : Fits t room) (hfound : t.get? steps = some found) :
    Fits found (room - steps.length) := by
  induction steps generalizing t room with
  | nil =>
    cases hfound
    exact h
  | cons s steps ih =>
    obtain ⟨root, cs, front, c, back, rfl, hsplit, hc⟩ := exists_of_get?_cons hfound
    obtain ⟨-, -, -, hchildren⟩ := fits_constructed.mp h
    have hmem : c ∈ cs := by
      rw [hsplit.parts]
      exact List.mem_append_right _ List.mem_cons_self
    have hfits := ih (hchildren c hmem) hc
    rwa [Nat.sub_sub, Nat.add_comm] at hfits

theorem Fits.put (h : Fits t room) (hfound : t.get? steps = some found)
    (hnew : Fits new (room - steps.length)) : Fits (t.put steps new) room := by
  induction steps generalizing t room with
  | nil => exact hnew
  | cons s steps ih =>
    obtain ⟨root, cs, front, c, back, rfl, hsplit, hc⟩ := exists_of_get?_cons hfound
    obtain ⟨htag, hkind, hroom, hchildren⟩ := fits_constructed.mp h
    rw [hsplit.parts, List.forall_mem_append, List.forall_mem_cons] at hchildren
    obtain ⟨hfront, hfits, hback⟩ := hchildren
    rw [List.length_cons, Nat.add_comm, ← Nat.sub_sub] at hnew
    rw [hsplit.put, fits_constructed, List.forall_mem_append, List.forall_mem_cons]
    exact ⟨htag, hkind, hroom, hfront, ih hfits hc hnew, hback⟩

variable {t' child : Tlv} {path : Path}

theorem Fits.addChild (h : Fits t room) (hchild : Fits child (room - (path.steps.length + 1)))
    (hadded : t.addChild path child = .ok t') : Fits t' room := by
  obtain ⟨root, cs, hfound, rfl⟩ := addChild_eq_ok.mp hadded
  obtain ⟨-, hget⟩ := child?_eq_some.mp hfound
  obtain ⟨htag, hkind, hroom, hchildren⟩ := fits_constructed.mp (h.get? hget)
  refine h.put hget (fits_constructed.mpr ⟨htag, hkind, hroom, ?_⟩)
  rw [List.forall_mem_append, List.forall_mem_singleton, Nat.sub_sub]
  rw [Nat.sub_sub] at hchildren
  exact ⟨hchildren, hchild⟩

theorem Fits.replaceChild {old : Tlv} (h : Fits t room)
    (hnew : Fits new (room - path.steps.length))
    (hreplaced : t.replaceChild path new = .ok (t', old)) : Fits t' room := by
  obtain ⟨-, hfound, rfl⟩ := replaceChild_eq_ok.mp hreplaced
  exact h.put (child?_eq_some.mp hfound).2 hnew

theorem Fits.withChildren (h : Fits t room) (hcs : ∀ c ∈ cs, c ∈ t.children) :
    Fits (t.withChildren cs) room := by
  cases t with
  | primitive tag value => exact h
  | constructed tag ds =>
    obtain ⟨htag, hkind, hroom, hchildren⟩ := fits_constructed.mp h
    exact fits_constructed.mpr ⟨htag, hkind, hroom, fun c hc => hchildren c (hcs c hc)⟩

theorem Fits.removeChild {removed : Option Tlv} (h : Fits t room)
    (hremoved : t.removeChild path = .ok (t', removed)) : Fits t' room := by
  rw [Tlv.removeChild] at hremoved
  obtain ⟨⟨⟩, -, hremoved⟩ := bind_eq_ok.mp hremoved
  split at hremoved
  · cases hremoved
  split at hremoved
  · cases hremoved
    exact h
  next holder hholder =>
  split at hremoved
  · cases hremoved
    exact h
  · cases hremoved
    exact h.put hholder ((h.get? hholder).withChildren fun c hc => List.mem_of_mem_eraseIdx hc)

/-- A value set where the tag asks for bytes takes no more levels than the one before. -/
theorem Fits.setValueAt {value : Bytes} (h : Fits t room) (hsteps : path.steps ≠ [])
    (hkind : path.tag.isConstructed = false) (hset : t.setValueAt path value = .ok t') :
    Fits t' room := by
  obtain ⟨old, changed, hfound, hchanged, rfl⟩ := setValueAt_eq_ok.mp hset
  obtain ⟨-, hget⟩ := child?_eq_some.mp hfound
  have hfits := h.get? hget
  refine h.put hget ?_
  cases old with
  | primitive tag old =>
    cases hchanged
    exact hfits
  | constructed tag cs =>
    -- the last step was taken by the tag, which would be that of a constructed element
    have htag : tag = path.tag := tag_of_child? hsteps hfound
    rw [← htag, hfits.2.1] at hkind
    cases hkind

end

end Tlv
end CardAccess

import CardAccess.Proofs.Tlv.Position

/-!
# Edits in place

An edit as it happens to a tree that is held once and written where it stands.  `slot?` goes down
to a place by itself, without the look up, and comes back with the element there and with the whole
tree around it as a function of that element, so whatever is left in the slot is in the tree
afterwards, also where the edit fails.

The edits made so are those of `Tlv.Edit` (`InPlace`), and none that fails leaves a trace.  One
that succeeds exchanges the element at the position of its path and nothing else, and
`edits_one_position` says for what: for one with a child more at the end, for one with a child
less, for the new element or for the same element with another value.
-/

namespace CardAccess
namespace Tlv

/-! ## Slots -/

/-- A place that may be written: the element there, and what is around it as a function of the
element. -/
structure Slot (α : Type) where
  element : Tlv
  write : Tlv → α

/-- The slot with more around it. -/
def Slot.map {α β : Type} (slot : Slot α) (f : α → β) : Slot β := ⟨slot.element, f ∘ slot.write⟩

/-- The slot of the `index`-th of the elements with tag `tag`. -/
def slotIn (tag : Tag) : (index : Nat) → List Tlv → Option (Slot (List Tlv))
  | _, [] => none
  | index, c :: cs =>
    if c.tag = tag then
      match index with
      | 0 => some ⟨c, (· :: cs)⟩
      | index + 1 => (slotIn tag index cs).map (·.map (c :: ·))
    else (slotIn tag index cs).map (·.map (c :: ·))

/-- The slot of the `index`-th child with tag `tag`. -/
def nthSlot? (t : Tlv) (tag : Tag) (index : Nat) : Option (Slot Tlv) :=
  match t with
  | .primitive _ _ => none
  | .constructed root cs => (slotIn tag index cs).map (·.map (.constructed root))

/-- The slot that the steps lead to. -/
def slot? (t : Tlv) : List Step → Option (Slot Tlv)
  | [] => some ⟨t, id⟩
  | s :: steps =>
    match t.nthSlot? s.tag s.index with
    | none => none
    | some slot => (slot.element.slot? steps).map (·.map slot.write)

/-- The slot at a path, if the path starts at this element's tag. -/
def childSlot? (t : Tlv) (path : Path) : Option (Slot Tlv) :=
  if path.root.tag = t.tag then t.slot? path.steps else none

/-! ## Edits -/

/-- The outcome of an edit next to the tree that it leaves, which is the same tree if it fails. -/
def leaving {α ε : Type} (t : Tlv) : Except ε (Tlv × α) → Except ε α × Tlv
  | .ok (t', result) => (.ok result, t')
  | .error e => (.error e, t)

def pushInPlace (t child : Tlv) : Except StructureError Unit × Tlv :=
  match t with
  | .primitive tag _ => (.error (.primitive tag), t)
  | .constructed tag cs => (.ok (), .constructed tag (cs ++ [child]))

def setValueInPlace (t : Tlv) (value : Bytes) : Except DecodeError Unit × Tlv :=
  match t with
  | .primitive tag _ => (.ok (), .primitive tag value)
  | .constructed tag _ =>
    match parseAll value with
    | .error e => (.error e, t)
    | .ok cs => (.ok (), .constructed tag cs)

def addChildInPlace (t : Tlv) (parent : Path) (child : Tlv) : Except StructureError Unit × Tlv :=
  match t.anchored parent with
  | .error e => (.error e, t)
  | .ok () =>
    match t.childSlot? parent with
    | none => (.error (.missing parent.name), t)
    | some slot =>
      let (result, element) := slot.element.pushInPlace child
      (result, slot.write element)

def removeChildInPlace (t : Tlv) (path : Path) : Except StructureError (Option Tlv) × Tlv :=
  match t.anchored path with
  | .error e => (.error e, t)
  | .ok () =>
    match path.parent? with
    | none => (.error (.root path.name), t)
    | some above =>
      match t.childSlot? above with
      | none => (.ok none, t)
      | some slot =>
        match positionIn path.tag path.index slot.element.children with
        | none => (.ok none, t)
        | some i =>
          match slot.element with
          | .primitive _ _ => (.ok none, t)
          | .constructed root cs => (.ok cs[i]?, slot.write (.constructed root (cs.eraseIdx i)))

def replaceChildInPlace (t : Tlv) (path : Path) (new : Tlv) : Except StructureError Tlv × Tlv :=
  match t.anchored path with
  | .error e => (.error e, t)
  | .ok () =>
    if path.parent?.isNone then (.error (.root path.name), t)
    else
      match t.childSlot? path with
      | none => (.error (.missing path.name), t)
      | some slot => (.ok slot.element, slot.write new)

def setValueAtInPlace (t : Tlv) (path : Path) (value : Bytes) : Except Error Unit × Tlv :=
  match t.anchored path with
  | .error e => (.error (.edit e), t)
  | .ok () =>
    match t.childSlot? path with
    | none => (.error (.edit (.missing path.name)), t)
    | some slot =>
      let (result, element) := slot.element.setValueInPlace value
      (result.mapError .decode, slot.write element)

variable {t t' found : Tlv} {path : Path} {cs front back : List Tlv} {c : Tlv} {tag : Tag}
  {index : Nat} {steps : List Step}

/-! ## A slot is what the look up finds -/

theorem slotIn_cons_succ {first : Tlv} (h : first.tag = tag) :
    slotIn tag (index + 1) (first :: cs) = (slotIn tag index cs).map (·.map (first :: ·)) :=
  if_pos h

theorem slotIn_cons_ne {first : Tlv} (h : first.tag ≠ tag) :
    slotIn tag index (first :: cs) = (slotIn tag index cs).map (·.map (first :: ·)) := by
  cases index <;> exact if_neg h

theorem slotIn_of_splits (h : Splits tag index cs front c back) :
    slotIn tag index cs = some ⟨c, fun new => front ++ new :: back⟩ := by
  obtain ⟨rfl, htag, hcount⟩ := h
  induction front generalizing index with
  | nil =>
    cases hcount
    exact if_pos htag
  | cons first front ih =>
    by_cases hfirst : first.tag = tag
    · rw [filter_cons_tag hfirst, List.length_cons] at hcount
      cases hcount
      rw [List.cons_append, slotIn_cons_succ hfirst, ih rfl]
      rfl
    · rw [filter_cons_ne hfirst] at hcount
      rw [List.cons_append, slotIn_cons_ne hfirst, ih hcount]
      rfl

theorem slotIn_eq_none (h : (cs.filter fun d => d.tag == tag)[index]? = none) :
    slotIn tag index cs = none := by
  induction cs generalizing index with
  | nil => rfl
  | cons first cs ih =>
    by_cases hfirst : first.tag = tag
    · rw [filter_cons_tag hfirst] at h
      cases index with
      | zero => cases h
      | succ index =>
        rw [slotIn_cons_succ hfirst, ih h]
        rfl
    · rw [filter_cons_ne hfirst] at h
      rw [slotIn_cons_ne hfirst, ih h]
      rfl

/-- There is a slot exactly where a look up finds something, and what is written into it is
written at that place. -/
theorem slot?_eq (t : Tlv) (steps : List Step) :
    t.slot? steps = (t.get? steps).map fun found => ⟨found, t.put steps⟩ := by
  induction steps generalizing t with
  | nil => rfl
  | cons s steps ih =>
    cases hfound : t.get? (s :: steps) with
    | some found =>
      obtain ⟨root, cs, front, c, back, rfl, hsplit, hc⟩ := exists_of_get?_cons hfound
      have hwrite : (constructed root cs).put (s :: steps)
          = fun new => constructed root (front ++ c.put steps new :: back) :=
        funext fun new => hsplit.put root steps new
      rw [slot?, nthSlot?, slotIn_of_splits hsplit, hwrite]
      simp only [Option.map_some, Slot.map, ih, hc]
      rfl
    | none =>
      rw [slot?]
      cases t with
      | primitive root value => rfl
      | constructed root cs =>
        cases hnth : (cs.filter fun d => d.tag == s.tag)[s.index]? with
        | none => rw [nthSlot?, slotIn_eq_none hnth]; rfl
        | some c =>
          obtain ⟨front, back, hsplit⟩ := exists_splits hnth
          rw [hsplit.get?] at hfound
          rw [nthSlot?, slotIn_of_splits hsplit]
          simp [Slot.map, ih, hfound]

theorem childSlot?_eq (t : Tlv) (path : Path) :
    t.childSlot? path = (t.child? path).map fun found => ⟨found, t.put path.steps⟩ := by
  rw [childSlot?, child?]
  split
  · exact t.slot?_eq path.steps
  · rfl

/-! ## The edits in place are the edits -/

theorem anchored_of_ne (h : path.root.tag ≠ t.tag) :
    t.anchored path = .error (.notAnchored path.name t.tag) := if_neg h

theorem place_of_anchored (h : path.root.tag = t.tag) :
    t.place path = (t.child? path).elim (.error (.missing path.name)) .ok := by
  rw [place, bind_of_ok (anchored_eq_ok.mpr h), child?, if_pos h]
  cases t.get? path.steps <;> rfl

theorem place_of_not_anchored (h : path.root.tag ≠ t.tag) :
    t.place path = .error (.notAnchored path.name t.tag) := by
  rw [place, anchored_of_ne h]
  rfl

theorem addChildInPlace_eq (t : Tlv) (path : Path) (child : Tlv) :
    t.addChildInPlace path child
      = t.leaving ((t.addChild path child).map fun t' => (t', ())) := by
  rw [addChildInPlace, addChild]
  by_cases hroot : path.root.tag = t.tag
  · rw [place_of_anchored hroot, anchored_eq_ok.mpr hroot, childSlot?_eq]
    cases hfound : t.child? path with
    | none => rfl
    | some found =>
      cases found with
      | constructed tag cs => rfl
      | primitive tag value =>
        -- the element is left in its slot
        show (_, t.put path.steps _) = _
        rw [put_get? (child?_eq_some.mp hfound).2]
        rfl
  · rw [place_of_not_anchored hroot, anchored_of_ne hroot]
    rfl

theorem setValueAtInPlace_eq (t : Tlv) (path : Path) (value : Bytes) :
    t.setValueAtInPlace path value
      = t.leaving ((t.setValueAt path value).map fun t' => (t', ())) := by
  rw [setValueAtInPlace, setValueAt]
  by_cases hroot : path.root.tag = t.tag
  · rw [place_of_anchored hroot, anchored_eq_ok.mpr hroot, childSlot?_eq]
    cases hfound : t.child? path with
    | none => rfl
    | some found =>
      cases found with
      | primitive tag old => rfl
      | constructed tag cs =>
        simp only [Option.map_some, Option.elim_some, setValueInPlace, setValue]
        cases parseAll value with
        | ok ds => rfl
        | error e =>
          show (_, t.put path.steps _) = _
          rw [put_get? (child?_eq_some.mp hfound).2]
          rfl
  · rw [place_of_not_anchored hroot, anchored_of_ne hroot]
    rfl

theorem replaceChildInPlace_eq (t : Tlv) (path : Path) (new : Tlv) :
    t.replaceChildInPlace path new = t.leaving (t.replaceChild path new) := by
  rw [replaceChildInPlace, replaceChild, Path.parent?]
  by_cases hroot : path.root.tag = t.tag
  · rw [place_of_anchored hroot, anchored_eq_ok.mpr hroot, childSlot?_eq]
    cases path.steps.isEmpty with
    | true => rfl
    | false => cases t.child? path <;> rfl
  · rw [anchored_of_ne hroot]
    rfl

theorem removeChildInPlace_eq (t : Tlv) (path : Path) :
    t.removeChildInPlace path = t.leaving (t.removeChild path) := by
  rw [removeChildInPlace, removeChild]
  by_cases hroot : path.root.tag = t.tag
  · rw [anchored_eq_ok.mpr hroot]
    cases habove : path.parent? with
    | none => rfl
    | some above =>
      obtain ⟨-, rfl⟩ := Path.parent?_eq_some.mp habove
      simp only [childSlot?_eq, child?, hroot, if_true]
      cases t.get? path.steps.dropLast with
      | none => rfl
      | some holder =>
        cases holder with
        | primitive root value => rfl
        | constructed root cs =>
          simp only [Option.map_some, children]
          cases hposition : positionIn path.tag path.index cs with
          | none => simp [leaving, bind, Except.bind]
          | some i => simp [leaving, bind, Except.bind, withChildren]
  · rw [anchored_of_ne hroot]
    rfl

/-! ## Removing -/

theorem removeChild_of_none (hroot : path.root.tag = t.tag) (hsteps : path.steps ≠ [])
    (hnone : t.child? path = none) : t.removeChild path = .ok (t, none) := by
  rw [child?, if_pos hroot, Path.steps_eq hsteps, get?_append] at hnone
  rw [removeChild, bind_of_ok (anchored_eq_ok.mpr hroot),
    Path.parent?_eq_some.mpr ⟨hsteps, rfl⟩]
  dsimp only
  cases hholder : t.get? path.steps.dropLast with
  | none => rfl
  | some holder =>
    rw [hholder, Option.bind_some, get?_singleton] at hnone
    dsimp only
    rw [Path.tag, Path.index, positionIn_eq_none hnone]

theorem removeChild_of_splits {root : Tag} (hroot : path.root.tag = t.tag)
    (hsteps : path.steps ≠ [])
    (hholder : t.get? path.steps.dropLast = some (.constructed root cs))
    (hsplit : Splits path.tag path.index cs front c back) :
    t.removeChild path
      = .ok (t.put path.steps.dropLast (.constructed root (front ++ back)), some c) := by
  rw [removeChild, bind_of_ok (anchored_eq_ok.mpr hroot),
    Path.parent?_eq_some.mpr ⟨hsteps, rfl⟩]
  dsimp only
  rw [hholder]
  dsimp only
  rw [children, hsplit.positionIn]
  dsimp only
  rw [withChildren, hsplit.eraseIdx, hsplit.parts, getElem?_between]

/-! ## What the edits do -/

/-- The look up and the slot of a path are at the position that the path leads to, or there is
none of the three. -/
def SamePlace (t : Tlv) (path : Path) : Prop :=
  (∃ pos found write, t.position? path = some pos ∧ t.child? path = some found ∧
      t.childSlot? path = some ⟨found, write⟩ ∧ ∀ new, ExchangedAt pos found new t (write new)) ∨
    t.position? path = none ∧ t.child? path = none ∧ t.childSlot? path = none

/-- All paths to positions that are neither at, above nor below one lead to the same elements
in both trees. -/
def SparesPaths (pos : List Nat) (t t' : Tlv) : Prop :=
  ∀ path there, t.position? path = some there → ¬ pos <+: there → ¬ there <+: pos →
    t'.position? path = some there ∧ t'.child? path = t.child? path

/-- The path that goes over a sibling of the element at this path, and further on. -/
def Path.aside (path : Path) (s : Step) (more : List Step) : Path :=
  ⟨path.root, path.steps.dropLast ++ s :: more⟩

/-- Adding a child succeeds where the path leads to an element with children, and puts it behind
them. -/
structure Adds (t : Tlv) (path : Path) (child : Tlv) : Prop where
  inPlace : t.addChildInPlace path child
    = t.leaving ((t.addChild path child).map fun t' => (t', ()))
  ok_iff : ∀ t', t.addChild path child = .ok t' ↔ ∃ pos root cs, t.position? path = some pos ∧
    ExchangedAt pos (.constructed root cs) (.constructed root (cs ++ [child])) t t'

/-- Removing succeeds on every path from the root downwards, finds what the look up finds, and
takes just this child out of those around it, or nothing if there is none. -/
structure Removes (t : Tlv) (path : Path) : Prop where
  inPlace : t.removeChildInPlace path = t.leaving (t.removeChild path)
  ok_iff : ∀ t' removed, t.removeChild path = .ok (t', removed) ↔
    path.root.tag = t.tag ∧ path.steps ≠ [] ∧ removed = t.child? path ∧
      match t.position? path with
      | none => t' = t
      | some pos => ∃ above root front c back, pos = above ++ [front.length] ∧ removed = some c ∧
          ExchangedAt above (.constructed root (front ++ c :: back))
            (.constructed root (front ++ back)) t t'
  siblings : ∀ t' c, t.removeChild path = .ok (t', some c) → ∀ s more,
    t'.child? (path.aside s more) = t.child? (path.aside (s.before path.tag path.index) more)

/-- Replacing succeeds on every path below the root that leads somewhere, and exchanges just the
element there.  The path finds the new element, and leads back to the tree as it was, if the new
element has the tag of the path and not else. -/
structure Replaces (t : Tlv) (path : Path) (new : Tlv) : Prop where
  inPlace : t.replaceChildInPlace path new = t.leaving (t.replaceChild path new)
  ok_iff : ∀ t' old, t.replaceChild path new = .ok (t', old) ↔
    path.steps ≠ [] ∧ t.child? path = some old ∧
      ∃ pos, t.position? path = some pos ∧ ExchangedAt pos old new t t'
  found : ∀ t' old, t.replaceChild path new = .ok (t', old) → new.tag = path.tag →
    t'.child? path = some new
  restored : ∀ t' old, t.replaceChild path new = .ok (t', old) →
    (t'.replaceChild path old = .ok (t, new) ↔ new.tag = path.tag)
  spares : ∀ t' old pos, t.replaceChild path new = .ok (t', old) → t.position? path = some pos →
    new.tag = path.tag → SparesPaths pos t t'

/-- Setting a value succeeds where the path leads to an element that takes the value, and exchanges
just this element for one with the same tag and the same kind of content. -/
structure SetsValue (t : Tlv) (path : Path) (value : Bytes) : Prop where
  inPlace : t.setValueAtInPlace path value
    = t.leaving ((t.setValueAt path value).map fun t' => (t', ()))
  ok_iff : ∀ t', t.setValueAt path value = .ok t' ↔
    ∃ pos old changed, t.position? path = some pos ∧ old.setValue value = .ok changed ∧
      changed.tag = old.tag ∧ changed.isConstructed = old.isConstructed ∧
      ExchangedAt pos old changed t t'
  spares : ∀ t' pos, t.setValueAt path value = .ok t' → t.position? path = some pos →
    SparesPaths pos t t'

variable {old new : Tlv} {pos there : List Nat}

theorem exists_position? (h : t.child? path = some found) :
    ∃ pos, t.position? path = some pos ∧ t.at? pos = some found := by
  rw [child?_eq_bind] at h
  exact Option.bind_eq_some_iff.mp h

theorem child?_of_position? (h : t.position? path = some pos) : t.child? path = t.at? pos := by
  rw [child?_eq_bind, h, Option.bind_some]

/-- Writing at a path exchanges the element at its position. -/
theorem exchangedAt_put (hpos : t.position? path = some pos) (hold : t.child? path = some old)
    (new : Tlv) : ExchangedAt pos old new t (t.put path.steps new) :=
  (position?_eq_some.mp hpos).2.exchangedAt_put (child?_eq_some.mp hold).2 new

theorem put_eq_of_exchangedAt (hpos : t.position? path = some pos)
    (h : ExchangedAt pos old new t t') : t.child? path = some old ∧ t' = t.put path.steps new := by
  have hold : t.child? path = some old := (child?_of_position? hpos).trans h.before
  exact ⟨hold, h.unique (exchangedAt_put hpos hold new)⟩

theorem position?_of_exchangedAt (h : t.position? path = some there)
    (hexchanged : ExchangedAt pos old new t t') (htag : new.tag = old.tag)
    (hbelow : pos <+: there → there = pos) : t'.position? path = some there := by
  obtain ⟨hroot, hleads⟩ := position?_eq_some.mp h
  exact position?_eq_some.mpr ⟨hroot.trans (hexchanged.tag_eq htag).symm,
    hleads.of_exchangedAt hexchanged htag hbelow⟩

theorem sparesPaths_of_exchangedAt (h : ExchangedAt pos old new t t') (htag : new.tag = old.tag) :
    SparesPaths pos t t' := by
  intro path there hthere hbelow habove
  have hthere' := position?_of_exchangedAt hthere h htag fun hprefix => absurd hprefix hbelow
  refine ⟨hthere', ?_⟩
  rw [child?_of_position? hthere', child?_of_position? hthere, h.beside there hbelow habove]

theorem position?_eq_none (h : t.child? path = none) : t.position? path = none := by
  cases hpos : t.position? path with
  | none => rfl
  | some pos =>
    have hsome := (position?_eq_some.mp hpos).2.isSome
    rw [← child?_of_position? hpos, h] at hsome
    cases hsome

theorem samePlace (t : Tlv) (path : Path) : t.SamePlace path := by
  cases hfound : t.child? path with
  | some found =>
    obtain ⟨pos, hpos, -⟩ := exists_position? hfound
    refine .inl ⟨pos, found, t.put path.steps, hpos, hfound, ?_, exchangedAt_put hpos hfound⟩
    rw [childSlot?_eq, hfound, Option.map_some]
  | none =>
    exact .inr ⟨position?_eq_none hfound, hfound, by rw [childSlot?_eq, hfound, Option.map_none]⟩

theorem adds (t : Tlv) (path : Path) (child : Tlv) : t.Adds path child where
  inPlace := addChildInPlace_eq t path child
  ok_iff t' := by
    rw [addChild_eq_ok]
    constructor
    · rintro ⟨root, cs, hplace, rfl⟩
      obtain ⟨pos, hpos, -⟩ := exists_position? hplace
      exact ⟨pos, root, cs, hpos, exchangedAt_put hpos hplace _⟩
    · rintro ⟨pos, root, cs, hpos, hexchanged⟩
      obtain ⟨hplace, hput⟩ := put_eq_of_exchangedAt hpos hexchanged
      exact ⟨root, cs, hplace, hput⟩

theorem replaces (t : Tlv) (path : Path) (new : Tlv) : t.Replaces path new where
  inPlace := replaceChildInPlace_eq t path new
  ok_iff t' old := by
    rw [replaceChild_eq_ok]
    constructor
    · rintro ⟨hsteps, hold, rfl⟩
      obtain ⟨pos, hpos, -⟩ := exists_position? hold
      exact ⟨hsteps, hold, pos, hpos, exchangedAt_put hpos hold new⟩
    · rintro ⟨hsteps, hold, pos, hpos, hexchanged⟩
      exact ⟨hsteps, hold, (put_eq_of_exchangedAt hpos hexchanged).2⟩
  found t' old h htag := child?_replaceChild h htag
  restored t' old h := by
    obtain ⟨hsteps, hold, rfl⟩ := replaceChild_eq_ok.mp h
    constructor
    · intro hback
      exact tag_of_child? hsteps (replaceChild_eq_ok.mp hback).2.1
    · intro htag
      have htag' : new.tag = old.tag := htag.trans (tag_of_child? hsteps hold).symm
      obtain ⟨pos, hpos, -⟩ := exists_position? hold
      have hexchanged := exchangedAt_put hpos hold new
      have hpos' := position?_of_exchangedAt hpos hexchanged htag' fun _ => rfl
      obtain ⟨hnew, hback⟩ := put_eq_of_exchangedAt hpos' hexchanged.symm
      exact replaceChild_eq_ok.mpr ⟨hsteps, hnew, hback⟩
  spares t' old pos h hpos htag := by
    obtain ⟨hsteps, hold, rfl⟩ := replaceChild_eq_ok.mp h
    exact sparesPaths_of_exchangedAt (exchangedAt_put hpos hold new)
      (htag.trans (tag_of_child? hsteps hold).symm)

theorem isConstructed_setValue {changed : Tlv} {value : Bytes}
    (h : old.setValue value = .ok changed) : changed.isConstructed = old.isConstructed := by
  cases old with
  | primitive root value => cases h; rfl
  | constructed root cs =>
    obtain ⟨ds, -, rfl⟩ := map_eq_ok.mp h
    rfl

theorem setsValue (t : Tlv) (path : Path) (value : Bytes) : t.SetsValue path value where
  inPlace := setValueAtInPlace_eq t path value
  ok_iff t' := by
    rw [setValueAt_eq_ok]
    constructor
    · rintro ⟨old, changed, hold, hset, rfl⟩
      obtain ⟨pos, hpos, -⟩ := exists_position? hold
      exact ⟨pos, old, changed, hpos, hset, tag_setValue hset, isConstructed_setValue hset,
        exchangedAt_put hpos hold changed⟩
    · rintro ⟨pos, old, changed, hpos, hset, -, -, hexchanged⟩
      obtain ⟨hold, hput⟩ := put_eq_of_exchangedAt hpos hexchanged
      exact ⟨old, changed, hold, hset, hput⟩
  spares t' pos h hpos := by
    obtain ⟨old, changed, hold, hset, rfl⟩ := setValueAt_eq_ok.mp h
    exact sparesPaths_of_exchangedAt (exchangedAt_put hpos hold changed) (tag_setValue hset)

theorem exists_removed (hroot : path.root.tag = t.tag) (hsteps : path.steps ≠ [])
    (hfound : t.child? path = some c) :
    ∃ above root front back, t.position? path = some (above ++ [front.length]) ∧
      Splits path.tag path.index (front ++ c :: back) front c back ∧
      t.get? path.steps.dropLast = some (.constructed root (front ++ c :: back)) ∧
      ExchangedAt above (.constructed root (front ++ c :: back)) (.constructed root (front ++ back))
        t (t.put path.steps.dropLast (.constructed root (front ++ back))) ∧
      t.removeChild path
        = .ok (t.put path.steps.dropLast (.constructed root (front ++ back)), some c) := by
  obtain ⟨pos, hpos, hat⟩ := exists_position? hfound
  have hleads := (position?_eq_some.mp hpos).2
  rw [Path.steps_eq hsteps] at hleads
  obtain ⟨above, root, cs, front, c', back, habove, hholder, hsplit, rfl⟩ := hleads.exists_concat
  have hparts := hsplit.parts
  subst hparts
  rw [at?_append, hholder, Option.bind_some, at?_between] at hat
  cases hat
  have hget := habove.get?.trans hholder
  exact ⟨above, root, front, back, hpos, hsplit, hget, habove.exchangedAt_put hget _,
    removeChild_of_splits hroot hsteps hget hsplit⟩

theorem child?_aside (hroot : path.root.tag = t.tag) (s : Step) (more : List Step) :
    t.child? (path.aside s more) = t.get? (path.steps.dropLast ++ s :: more) := if_pos hroot

theorem anchored_of_removeChild {removed : Option Tlv}
    (h : t.removeChild path = .ok (t', removed)) : path.root.tag = t.tag ∧ path.steps ≠ [] := by
  have hroot := root_tag_of_removeChild h
  refine ⟨hroot, fun hnil => ?_⟩
  rw [removeChild, bind_of_ok (anchored_eq_ok.mpr hroot), Path.parent?, hnil] at h
  cases h

theorem removes (t : Tlv) (path : Path) : t.Removes path where
  inPlace := removeChildInPlace_eq t path
  ok_iff t' removed := by
    constructor
    · intro h
      obtain ⟨hroot, hsteps⟩ := anchored_of_removeChild h
      refine ⟨hroot, hsteps, ?_⟩
      cases hfound : t.child? path with
      | none =>
        rw [removeChild_of_none hroot hsteps hfound] at h
        cases h
        rw [position?_eq_none hfound]
        exact ⟨rfl, rfl⟩
      | some c =>
        obtain ⟨above, root, front, back, hpos, -, -, hexchanged, hremoved⟩ :=
          exists_removed hroot hsteps hfound
        rw [hremoved] at h
        cases h
        rw [hpos]
        exact ⟨rfl, above, root, front, c, back, rfl, rfl, hexchanged⟩
    · rintro ⟨hroot, hsteps, rfl, h⟩
      cases hfound : t.child? path with
      | none =>
        rw [position?_eq_none hfound] at h
        cases h
        exact removeChild_of_none hroot hsteps hfound
      | some c =>
        obtain ⟨above, root, front, back, hpos, -, -, hexchanged, hremoved⟩ :=
          exists_removed hroot hsteps hfound
        rw [hpos] at h
        obtain ⟨above', root', front', c', back', hsame, hc', hexchanged'⟩ := h
        obtain ⟨rfl, hlength⟩ := List.append_inj' hsame rfl
        -- both exchanges are in one element, and it is cut at one place
        obtain ⟨rfl, hcs⟩ := constructed.inj
          (Option.some.inj (hexchanged.before.symm.trans hexchanged'.before))
        obtain ⟨rfl, hrest⟩ := List.append_inj hcs (List.singleton_inj.mp hlength)
        cases hrest
        rw [hremoved, hexchanged.unique hexchanged']
  siblings t' c h s more := by
    obtain ⟨hroot, hsteps⟩ := anchored_of_removeChild h
    cases hfound : t.child? path with
    | none => cases (removeChild_of_none hroot hsteps hfound).symm.trans h
    | some d =>
      obtain ⟨above, root, front, back, -, hsplit, hget, hexchanged, hremoved⟩ :=
        exists_removed hroot hsteps hfound
      cases hremoved.symm.trans h
      have htag : (constructed root (front ++ back)).tag
          = (constructed root (front ++ c :: back)).tag := rfl
      rw [child?_aside hroot, child?_aside (hroot.trans (hexchanged.tag_eq htag).symm),
        get?_put_append hget htag, get?_append, hget, Option.bind_some, hsplit.get?_erased]

/-- Over all trees and paths: looking up a path and going down it to write lead to the same
position or both to none, and each edit exchanges the element at one position for the one it says
and nothing else, or fails and leaves the tree as it was. -/
theorem edits_one_position (t : Tlv) (path : Path) :
    t.SamePlace path ∧ (∀ child, t.Adds path child) ∧ t.Removes path ∧
      (∀ new, t.Replaces path new) ∧ ∀ value, t.SetsValue path value :=
  ⟨t.samePlace path, t.adds path, t.removes path, t.replaces path, t.setsValue path⟩

-- an element with another tag hides from the path, which finds the next one instead
example :
    let path := (Path.ofRoot "ROOT" Tag.sequence).child "DATA" Tag.octetString 0
    let t := constructed Tag.sequence
      [.primitive Tag.octetString [1], .primitive Tag.octetString [2]]
    (t.replaceChild path (.primitive Tag.set [])).map (fun edited => edited.1.child? path)
      = .ok (some (.primitive Tag.octetString [2])) := by
  decide

end Tlv
end CardAccess

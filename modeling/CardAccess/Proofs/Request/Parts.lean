import CardAccess.Proofs.Tlv.Siblings
import CardAccess.Request.Extensions

/-!
# Requests that differ at one part

Each operation on a request, whether it succeeds or fails, changes at most the
elements that share a tag and the element above with one part (`EditedAt`).  Which
parts are looked up in the same way afterwards is read off the paths: `spares` can
be evaluated for any two parts.
-/

namespace CardAccess

/-- Whether a change at `edited` leaves what is found at `part` as it was. -/
def RequestPart.spares (edited part : RequestPart) : Bool :=
  Tlv.misses edited.path.tag edited.path.steps.dropLast part.path.steps

theorem RequestPart.root_tag (part : RequestPart) : part.path.root.tag = Layout.authentication := by
  cases part <;> rfl

namespace Request

/-- The two requests differ at most at one part and its siblings of the same tag. -/
structure EditedAt (part : RequestPart) (r r' : Request) : Prop where
  shape : r'.shape = r.shape
  node : Tlv.EditedAt part.path.tag part.path.steps.dropLast r.node r'.node

theorem EditedAt.same (part : RequestPart) (r : Request) : r.EditedAt part r :=
  ⟨rfl, .same _ _⟩

theorem EditedAt.part?_eq {edited part : RequestPart} {r r' : Request} (h : r.EditedAt edited r')
    (hspares : edited.spares part = true) : r'.part? part = r.part? part := by
  rw [part?, part?, Tlv.child?, Tlv.child?, h.node.tag_eq, h.node.get?_eq hspares]

theorem EditedAt.trans {part : RequestPart} {r r' r'' : Request} (h : r.EditedAt part r')
    (h' : r'.EditedAt part r'') : r.EditedAt part r'' :=
  ⟨h'.shape.trans h.shape, h.node.trans h'.node⟩

/-- A change below a part is a change of that part. -/
theorem EditedAt.widen {part parent : RequestPart} {r r' : Request} (h : r.EditedAt part r')
    (hparent : part.path.parent? = some parent.path) (hsteps : parent.path.steps ≠ []) :
    r.EditedAt parent r' := by
  have habove : part.path.steps.dropLast = parent.path.steps :=
    (congrArg Tlv.Path.steps (Tlv.Path.parent?_eq_some.mp hparent).2).symm
  have hnode := h.node
  rw [habove, Tlv.Path.steps_eq hsteps] at hnode
  exact ⟨h.shape, hnode.widen⟩

/-! ## The operations -/

section

variable {r r' : Request} {part parent : RequestPart}

theorem edited_cases {α ε : Type} (r : Request) (wrap : ε → Error) (x : Except ε (Tlv × α)) :
    (∃ e, r.edited wrap x = (.error (wrap e), r)) ∨
      ∃ node result, x = .ok (node, result) ∧
        r.edited wrap x = (.ok result, { r with node := node }) := by
  cases x with
  | error e => exact .inl ⟨e, rfl⟩
  | ok x => exact .inr ⟨x.1, x.2, rfl, rfl⟩

theorem edited_eq_ok {α ε : Type} {wrap : ε → Error} {x : Except ε (Tlv × α)} {result : α} :
    r.edited wrap x = (.ok result, r') ↔
      x = .ok (r'.node, result) ∧ r'.shape = r.shape := by
  constructor
  · intro h
    rcases edited_cases r wrap x with ⟨e, he⟩ | ⟨node, result', hx, hok⟩
    · rw [he] at h
      cases h
    · rw [hok] at h
      cases h
      exact ⟨hx, rfl⟩
  · rintro ⟨rfl, hshape⟩
    obtain ⟨node', shape'⟩ := r'
    cases hshape
    rfl

theorem edited_error {α ε : Type} {wrap : ε → Error} {x : Except ε (Tlv × α)} {e : Error}
    (h : r.edited wrap x = (.error e, r')) : r' = r := by
  rcases edited_cases r wrap x with ⟨e', he⟩ | ⟨node, result, -, hok⟩
  · exact congrArg Prod.snd (h.symm.trans he)
  · cases h.symm.trans hok

/-- A failed edit changes nothing, so it suffices to look at one that succeeds. -/
theorem editedAt_of_edited {α ε : Type} {wrap : ε → Error} {x : Except ε (Tlv × α)}
    {result : Except Error α} (h : r.edited wrap x = (result, r'))
    (hedit : ∀ {node : Tlv} {result : α}, x = .ok (node, result) →
      Tlv.EditedAt part.path.tag part.path.steps.dropLast r.node node) :
    r.EditedAt part r' := by
  rcases edited_cases r wrap x with ⟨e, he⟩ | ⟨node, result', hx, hok⟩
  · rw [he] at h
    cases h
    exact .same part r
  · rw [hok] at h
    cases h
    exact ⟨rfl, hedit hx⟩

theorem map_pair_eq_ok {ε : Type} {x : Except ε Tlv} {node : Tlv} {result : Unit} :
    x.map (fun node => (node, ())) = .ok (node, result) ↔ x = .ok node := by
  cases x with
  | error e => exact ⟨(nomatch ·), (nomatch ·)⟩
  | ok t =>
    constructor
    · intro h
      cases h
      rfl
    · intro h
      cases h
      rfl

theorem editedAt_setValue {value : Bytes} {result : Except Error Unit}
    (hsteps : part.path.steps ≠ []) (h : r.setValue part value = (result, r')) :
    r.EditedAt part r' :=
  editedAt_of_edited h fun hnode => Tlv.editedAt_setValueAt hsteps (map_pair_eq_ok.mp hnode)

theorem editedAt_replacePart {new : Tlv} {result : Except Error Tlv}
    (htag : new.tag = part.path.tag) (h : r.replacePart part new = (result, r')) :
    r.EditedAt part r' :=
  editedAt_of_edited h fun hnode => Tlv.editedAt_replaceChild hnode htag

theorem editedAt_removePart {result : Except Error (Option Tlv)}
    (h : r.removePart part = (result, r')) : r.EditedAt part r' :=
  editedAt_of_edited h fun hnode => Tlv.editedAt_removeChild hnode

theorem editedAt_addPart {child : Tlv} {result : Except Error Unit}
    (hparent : part.path.parent? = some parent.path) (htag : child.tag = part.path.tag)
    (h : r.addPart parent child = (result, r')) : r.EditedAt part r' := by
  refine editedAt_of_edited h fun hnode => ?_
  have hedit := Tlv.editedAt_addChild (map_pair_eq_ok.mp hnode)
  rwa [htag, (Tlv.Path.parent?_eq_some.mp hparent).2] at hedit

/-- Putting an element in a place replaces one or appends one. -/
theorem putPart_cases {new : Tlv} {result : Except Error Unit}
    (h : r.putPart part parent new = (result, r')) :
    ((r.part? part).isSome ∧ ∃ replaced, r.replacePart part new = (replaced, r') ∧
        result = replaced.map fun _ => ()) ∨
      r.part? part = none ∧ r.addPart parent new = (result, r') := by
  rw [putPart] at h
  by_cases hsome : (r.part? part).isSome
  · rw [if_pos hsome] at h
    refine .inl ⟨hsome, ?_⟩
    cases hreplace : r.replacePart part new with
    | mk replaced r₁ =>
      rw [hreplace] at h
      cases replaced <;> cases h <;> exact ⟨_, rfl, rfl⟩
  · rw [if_neg hsome] at h
    exact .inr ⟨Option.not_isSome_iff_eq_none.mp hsome, h⟩

theorem putPart_error {new : Tlv} {e : Error}
    (h : r.putPart part parent new = (.error e, r')) : r' = r := by
  rcases putPart_cases h with ⟨-, replaced, hreplace, hresult⟩ | ⟨-, hadd⟩
  · cases replaced with
    | error e' => exact edited_error hreplace
    | ok old => cases hresult
  · exact edited_error hadd

theorem editedAt_putPart {new : Tlv} {result : Except Error Unit}
    (hparent : part.path.parent? = some parent.path) (htag : new.tag = part.path.tag)
    (h : r.putPart part parent new = (result, r')) : r.EditedAt part r' := by
  rcases putPart_cases h with ⟨-, replaced, hreplace, -⟩ | ⟨-, hadd⟩
  · exact editedAt_replacePart htag hreplace
  · exact editedAt_addPart hparent htag hadd

/-! ## What is found where an element was put -/

theorem part?_addPart {child : Tlv} (hparent : part.path.parent? = some parent.path)
    (htag : child.tag = part.path.tag) (hindex : part.path.index = 0)
    (h : r.addPart parent child = (.ok (), r')) :
    r'.part? part = some ((r.part? part).getD child) :=
  Tlv.child?_addChild (map_pair_eq_ok.mp (edited_eq_ok.mp h).1) hparent htag hindex

theorem part?_putPart {new : Tlv} (hparent : part.path.parent? = some parent.path)
    (htag : new.tag = part.path.tag) (hindex : part.path.index = 0)
    (h : r.putPart part parent new = (.ok (), r')) : r'.part? part = some new := by
  rcases putPart_cases h with ⟨-, replaced, hreplace, hresult⟩ | ⟨hnone, hadd⟩
  · cases replaced with
    | error e => cases hresult
    | ok old => exact Tlv.child?_replaceChild (edited_eq_ok.mp hreplace).1 htag
  · rw [part?_addPart hparent htag hindex hadd, hnone, Option.getD_none]

theorem part?_setValue {value : Bytes} (h : r.setValue part value = (.ok (), r')) :
    ∃ old changed, r.part? part = some old ∧ old.setValue value = .ok changed ∧
      r'.part? part = some changed :=
  Tlv.child?_setValueAt (map_pair_eq_ok.mp (edited_eq_ok.mp h).1)

theorem isSome_of_setValue {value : Bytes} (h : r.setValue part value = (.ok (), r')) :
    (r.part? part).isSome := by
  obtain ⟨old, -, hold, -⟩ := part?_setValue h
  rw [hold]
  rfl

theorem isSome_of_addPart {child : Tlv} (h : r.addPart part child = (.ok (), r')) :
    (r.part? part).isSome := by
  obtain ⟨root, cs, hfound, -⟩ := Tlv.addChild_eq_ok.mp (map_pair_eq_ok.mp (edited_eq_ok.mp h).1)
  rw [part?, hfound]
  rfl

theorem required_eq_ok {found : Tlv} : r.required part = .ok found ↔ r.part? part = some found := by
  rw [required]
  cases r.part? part with
  | none => exact ⟨(nomatch ·), (nomatch ·)⟩
  | some found' =>
    constructor
    · intro h
      cases h
      rfl
    · intro h
      cases h
      rfl

theorem committed_eq_ok {α : Type} {outcome : Except Error α × Request} :
    committed outcome = .ok r' ↔ ∃ result, outcome = (.ok result, r') := by
  obtain ⟨result, after⟩ := outcome
  cases result with
  | error e => exact ⟨(nomatch ·), fun ⟨_, h⟩ => nomatch h⟩
  | ok a =>
    constructor
    · intro h
      cases h
      exact ⟨a, rfl⟩
    · rintro ⟨result, h⟩
      cases h
      rfl

/-! ## Below a part and beside it -/

/-- A change below a part neither fills nor empties its place. -/
theorem EditedAt.isSome_part? {edited : RequestPart} {more : List Tlv.Step}
    (h : r.EditedAt edited r')
    (hsteps : edited.path.steps.dropLast = part.path.steps ++ more) :
    (r'.part? part).isSome = (r.part? part).isSome := by
  have hnode := h.node
  rw [hsteps] at hnode
  rw [part?, part?, Tlv.child?, Tlv.child?, hnode.tag_eq]
  split
  · exact hnode.isSome_get?
  · rfl

theorem part?_below {below : RequestPart} {steps : List Tlv.Step}
    (hsteps : below.path.steps = part.path.steps ++ steps) :
    r.part? below = (r.part? part).bind fun found => found.get? steps := by
  rw [part?, part?, Tlv.child?, Tlv.child?, below.root_tag, part.root_tag]
  by_cases hroot : Layout.authentication = r.node.tag
  · rw [if_pos hroot, if_pos hroot, hsteps, Tlv.get?_append]
  · rw [if_neg hroot, if_neg hroot]
    rfl

theorem isSome_part?_of_below {below : RequestPart} {steps : List Tlv.Step}
    (hsteps : below.path.steps = part.path.steps ++ steps) (h : (r.part? below).isSome) :
    (r.part? part).isSome := by
  rw [part?_below hsteps] at h
  exact Option.isSome_of_isSome_bind h

section holder

variable {holder : List Tlv.Step} {s : Tlv.Step} {root : Tlv.Tag} {cs : List Tlv}
  (hroot : r.node.tag = Layout.authentication) (hsteps : part.path.steps = holder ++ [s])
  (hindex : s.index = 0) (hholder : r.node.get? holder = some (.constructed root cs))

include hroot hsteps hindex hholder

/-- Removing a part takes the first element with its tag out of those it is among. -/
theorem removePart_below :
    r.removePart part = (.ok (cs.find? fun c => c.tag == s.tag),
      ⟨r.node.put holder (.constructed root (cs.eraseP fun c => c.tag == s.tag)), r.shape⟩) :=
  edited_eq_ok.mpr ⟨Tlv.removeChild_below (part.root_tag.trans hroot.symm) hsteps hindex hholder,
    rfl⟩

/-- Replacing a part puts an element in the place of the first one with its tag, if there is
one. -/
theorem replacePart_below (new : Tlv) :
    (r.replacePart part new).2
      = ⟨r.node.put holder (.constructed root (Tlv.exchangeFirst s.tag new cs)), r.shape⟩ := by
  rcases Tlv.replaceChild_below (part.root_tag.trans hroot.symm) hsteps hindex hholder with
    ⟨old, hreplaced⟩ | ⟨⟨e, hfailed⟩, hsame⟩
  · rw [replacePart, hreplaced]
    rfl
  · rw [replacePart, hfailed, hsame, Tlv.put_get? hholder]
    rfl

end holder

/-- What a successful put has done to the elements that the part is among. -/
theorem putPart_below {s : Tlv.Step} {new : Tlv}
    (hsteps : part.path.steps = parent.path.steps ++ [s]) (hindex : s.index = 0)
    (h : r.putPart part parent new = (.ok (), r')) :
    ∃ root cs, r.node.get? parent.path.steps = some (.constructed root cs) ∧
      r' = ⟨r.node.put parent.path.steps (.constructed root (Tlv.putFirst s.tag new cs)),
        r.shape⟩ := by
  obtain ⟨node', shape'⟩ := r'
  rcases putPart_cases h with ⟨-, replaced, hreplace, hresult⟩ | ⟨hnone, hadd⟩
  · cases replaced with
    | error e => cases hresult
    | ok old =>
      obtain ⟨hreplace, rfl⟩ := edited_eq_ok.mp hreplace
      obtain ⟨-, hfound, rfl⟩ := Tlv.replaceChild_eq_ok.mp hreplace
      obtain ⟨-, hget⟩ := Tlv.child?_eq_some.mp hfound
      rw [hsteps, Tlv.get?_append] at hget
      obtain ⟨holder, hholder, hget⟩ := Option.bind_eq_some_iff.mp hget
      obtain ⟨root, cs, front, c, back, rfl, hsplit, -⟩ := Tlv.exists_of_get?_cons hget
      refine ⟨root, cs, hholder, ?_⟩
      rw [hsteps, Tlv.put_append hholder, hsplit.put root [] new]
      rw [hindex] at hsplit
      rw [hsplit.putFirst]
      rfl
  · obtain ⟨hadd, rfl⟩ := edited_eq_ok.mp hadd
    obtain ⟨root, cs, hfound, rfl⟩ := Tlv.addChild_eq_ok.mp (map_pair_eq_ok.mp hadd)
    obtain ⟨hroot, hholder⟩ := Tlv.child?_eq_some.mp hfound
    refine ⟨root, cs, hholder, ?_⟩
    rcases Tlv.splits_first_or_none s.tag cs with ⟨front, c, back, hsplit⟩ | hcs
    · -- a part that is there would have been replaced
      rw [← hindex] at hsplit
      have hpart : r.part? part = some c := by
        refine Tlv.child?_eq_some.mpr ⟨part.root_tag.trans (parent.root_tag.symm.trans hroot), ?_⟩
        rw [hsteps, Tlv.get?_append, hholder, Option.bind_some, hsplit.get?]
        rfl
      cases hnone.symm.trans hpart
    · rw [Tlv.putFirst_of_none hcs]

/-- The elements in the place of a part, of which its index picks one. -/
def siblings (r : Request) (part : RequestPart) : List Tlv :=
  r.node.siblings part.path.steps.dropLast part.path.tag

theorem siblings_of_part? {parent : RequestPart} {above : Tlv}
    (hparent : part.path.parent? = some parent.path) (h : r.part? parent = some above) :
    r.siblings part = above.children.filter fun c => c.tag == part.path.tag := by
  obtain ⟨-, hget⟩ := Tlv.child?_eq_some.mp h
  rw [(Tlv.Path.parent?_eq_some.mp hparent).2] at hget
  exact Tlv.siblings_of_get? hget

/-- A part without an index is the first of the elements in its place. -/
theorem siblings_eq {parent : RequestPart} (hparent : part.path.parent? = some parent.path)
    (hindex : part.path.index = 0) (h : (r.part? parent).isSome) :
    r.siblings part = (r.part? part).toList ++ (r.siblings part).tail := by
  obtain ⟨above, habove⟩ := Option.isSome_iff_exists.mp h
  obtain ⟨hsteps, hholder⟩ := Tlv.Path.parent?_eq_some.mp hparent
  have hroot : part.path.root.tag = r.node.tag :=
    part.root_tag.trans (parent.root_tag.symm.trans (Tlv.child?_eq_some.mp habove).1)
  have hfirst := r.node.getElem?_siblings part.path.steps.dropLast part.path.target
  rw [← Tlv.Path.steps_eq hsteps] at hfirst
  have hhead : (r.siblings part)[part.path.index]? = r.part? part :=
    hfirst.trans (if_pos hroot).symm
  rw [hindex, ← List.head?_eq_getElem?] at hhead
  rw [← hhead]
  cases r.siblings part <;> rfl

theorem part?_of_siblings_nil (hsteps : part.path.steps ≠ []) (h : r.siblings part = []) :
    r.part? part = none := by
  have hlast := r.node.getElem?_siblings part.path.steps.dropLast part.path.target
  rw [← Tlv.Path.steps_eq hsteps] at hlast
  have hnone : r.node.get? part.path.steps = none := by
    rw [← hlast]
    exact congrArg (fun found => found[part.path.target.index]?) h
  rw [part?, Tlv.child?, hnone, ite_self]

theorem siblings_removePart {removed : Option Tlv} (hindex : part.path.index = 0)
    (h : r.removePart part = (.ok removed, r')) : r'.siblings part = (r.siblings part).tail :=
  Tlv.siblings_removeChild hindex (edited_eq_ok.mp h).1

theorem siblings_removePart_of_few {removed : Option Tlv} (hindex : part.path.index = 0)
    (hfew : (r.siblings part).length ≤ 1) (h : r.removePart part = (.ok removed, r')) :
    r'.siblings part = [] := by
  rw [siblings_removePart hindex h]
  refine List.length_eq_zero_iff.mp ?_
  rw [List.length_tail]
  omega

theorem siblings_addPart {child : Tlv} (hparent : part.path.parent? = some parent.path)
    (htag : child.tag = part.path.tag) (h : r.addPart parent child = (.ok (), r')) :
    r'.siblings part = r.siblings part ++ [child] := by
  have hsiblings := Tlv.siblings_addChild (map_pair_eq_ok.mp (edited_eq_ok.mp h).1)
  rwa [htag, (Tlv.Path.parent?_eq_some.mp hparent).2] at hsiblings

theorem EditedAt.siblings_eq {edited : RequestPart} (h : r.EditedAt edited r')
    (hmisses : ∀ index, Tlv.misses edited.path.tag edited.path.steps.dropLast
      (part.path.steps.dropLast ++ [⟨"", part.path.tag, index⟩]) = true) :
    r'.siblings part = r.siblings part :=
  h.node.siblings_eq hmisses

/-- A change inside a part leaves the elements behind it as they are. -/
theorem EditedAt.tail_siblings_eq {edited : RequestPart} (h : r.EditedAt edited r')
    (hmisses : ∀ index, Tlv.misses edited.path.tag edited.path.steps.dropLast
      (part.path.steps.dropLast ++ [⟨"", part.path.tag, index + 1⟩]) = true) :
    (r'.siblings part).tail = (r.siblings part).tail :=
  h.node.tail_siblings_eq hmisses

end

end Request
end CardAccess

import CardAccess.Proofs.Tlv.Cursor
import CardAccess.Tlv.Edit

/-!
# What an edit leaves alone

Every edit changes children with one tag in the element at one place, and nothing
else.  `EditedAt` says this of two trees by descending to the place, one
constructor for a level that is passed through and one for the level of the
change, so what a look up finds afterwards is told by comparing its steps with
those of the place: `EditedAt.get?_eq` says that it finds what it did before if
the two part (`misses`).

A look up counts the children with one tag while an edit counts all of them.
`Splits` is what both counts agree on: the child between those in front of it and
those behind it.
-/

namespace CardAccess
namespace Tlv

/-! ## The children with one tag -/

/-- The `index`-th of the children tagged `tag` is `c`, between `front` and
`back`. -/
structure Splits (tag : Tag) (index : Nat) (cs front : List Tlv) (c : Tlv) (back : List Tlv) :
    Prop where
  parts : cs = front ++ c :: back
  tagged : c.tag = tag
  counted : (front.filter fun d => d.tag == tag).length = index

section Splits

variable {tag : Tag} {index : Nat} {cs front back : List Tlv} {c first : Tlv}

theorem filter_cons_tag (h : first.tag = tag) :
    ((first :: cs).filter fun d => d.tag == tag) = first :: cs.filter fun d => d.tag == tag :=
  List.filter_cons_of_pos (beq_iff_eq.mpr h)

theorem filter_cons_ne (h : first.tag ≠ tag) :
    ((first :: cs).filter fun d => d.tag == tag) = cs.filter fun d => d.tag == tag :=
  List.filter_cons_of_neg (by rwa [beq_iff_eq])

theorem positionIn_cons_zero (h : first.tag = tag) : positionIn tag 0 (first :: cs) = some 0 :=
  if_pos h

theorem positionIn_cons_succ (h : first.tag = tag) :
    positionIn tag (index + 1) (first :: cs) = (positionIn tag index cs).map (· + 1) :=
  if_pos h

theorem positionIn_cons_ne (h : first.tag ≠ tag) :
    positionIn tag index (first :: cs) = (positionIn tag index cs).map (· + 1) := by
  cases index <;> exact if_neg h

/-- The child at the position may be exchanged for another with its tag. -/
theorem Splits.exchange (h : Splits tag index cs front c back) {new : Tlv} (hnew : new.tag = tag) :
    Splits tag index (front ++ new :: back) front new back :=
  ⟨rfl, hnew, h.counted⟩

theorem Splits.filter (h : Splits tag index cs front c back) :
    (cs.filter fun d => d.tag == tag)
      = (front.filter fun d => d.tag == tag) ++ c :: back.filter fun d => d.tag == tag := by
  rw [h.parts, List.filter_append, filter_cons_tag h.tagged]

theorem Splits.filter_others (h : Splits tag index cs front c back) :
    (cs.filter fun d => d.tag != tag) = (front ++ back).filter fun d => d.tag != tag := by
  rw [h.parts, List.filter_append, List.filter_append, List.filter_cons_of_neg]
  rw [h.tagged, bne_self_eq_false]
  exact Bool.false_ne_true

theorem Splits.getElem? (h : Splits tag index cs front c back) :
    (cs.filter fun d => d.tag == tag)[index]? = some c := by
  rw [h.filter, ← h.counted, List.getElem?_append_right (Nat.le_refl _), Nat.sub_self,
    List.getElem?_cons_zero]

theorem exists_splits (h : (cs.filter fun d => d.tag == tag)[index]? = some c) :
    ∃ front back, Splits tag index cs front c back := by
  induction cs generalizing index with
  | nil => cases h
  | cons first cs ih =>
    by_cases hfirst : first.tag = tag
    · rw [filter_cons_tag hfirst] at h
      cases index with
      | zero =>
        cases h
        exact ⟨[], cs, rfl, hfirst, rfl⟩
      | succ index =>
        obtain ⟨front, back, hsplit⟩ := ih h
        refine ⟨first :: front, back, by rw [hsplit.parts]; rfl, hsplit.tagged, ?_⟩
        rw [filter_cons_tag hfirst, List.length_cons, hsplit.counted]
    · rw [filter_cons_ne hfirst] at h
      obtain ⟨front, back, hsplit⟩ := ih h
      refine ⟨first :: front, back, by rw [hsplit.parts]; rfl, hsplit.tagged, ?_⟩
      rw [filter_cons_ne hfirst, hsplit.counted]

theorem Splits.positionIn (h : Splits tag index cs front c back) :
    positionIn tag index cs = some front.length := by
  obtain ⟨rfl, htag, hcount⟩ := h
  induction front generalizing index with
  | nil =>
    cases hcount
    exact positionIn_cons_zero htag
  | cons first front ih =>
    rw [List.cons_append, List.length_cons]
    by_cases hfirst : first.tag = tag
    · rw [filter_cons_tag hfirst, List.length_cons] at hcount
      cases hcount
      rw [positionIn_cons_succ hfirst, ih rfl]
      rfl
    · rw [filter_cons_ne hfirst] at hcount
      rw [positionIn_cons_ne hfirst, ih hcount]
      rfl

/-- There is one way only to set a child apart. -/
theorem Splits.unique {front' back' : List Tlv} {c' : Tlv} (h : Splits tag index cs front c back)
    (h' : Splits tag index cs front' c' back') : front' = front ∧ c' = c ∧ back' = back := by
  have hlength : front'.length = front.length :=
    Option.some.inj (h'.positionIn.symm.trans h.positionIn)
  obtain ⟨hfront, hback⟩ := List.append_inj (h'.parts.symm.trans h.parts) hlength
  exact ⟨hfront, List.cons.inj hback⟩

theorem positionIn_eq_none (h : (cs.filter fun d => d.tag == tag)[index]? = none) :
    positionIn tag index cs = none := by
  induction cs generalizing index with
  | nil => rfl
  | cons first cs ih =>
    by_cases hfirst : first.tag = tag
    · rw [filter_cons_tag hfirst] at h
      cases index with
      | zero => cases h
      | succ index =>
        rw [positionIn_cons_succ hfirst, ih h]
        rfl
    · rw [filter_cons_ne hfirst] at h
      rw [positionIn_cons_ne hfirst, ih h]
      rfl

end Splits

/-! ## Looking up -/

theorem get?_cons (t : Tlv) (s : Step) (steps : List Step) :
    t.get? (s :: steps) = (t.nth? s.tag s.index).bind fun c => c.get? steps := by
  rw [get?]
  cases t.nth? s.tag s.index with
  | none => rfl
  | some c => rfl

theorem get?_singleton (t : Tlv) (s : Step) : t.get? [s] = t.nth? s.tag s.index := by
  rw [get?_cons]
  exact Option.bind_fun_some _

theorem first?_eq_find? (t : Tlv) (tag : Tag) :
    t.first? tag = t.children.find? fun c => c.tag == tag := by
  rw [first?, nth?, ← List.head?_eq_getElem?, List.head?_filter]

theorem tag_of_first? {t c : Tlv} {tag : Tag} (h : t.first? tag = some c) : c.tag = tag := by
  rw [first?_eq_find?] at h
  have htag := List.find?_some h
  exact beq_iff_eq.mp htag

theorem mem_of_first? {t c : Tlv} {tag : Tag} (h : t.first? tag = some c) : c ∈ t.children := by
  rw [first?_eq_find?] at h
  exact List.mem_of_find?_eq_some h

theorem get?_append (t : Tlv) (steps more : List Step) :
    t.get? (steps ++ more) = (t.get? steps).bind fun found => found.get? more := by
  induction steps generalizing t with
  | nil => rfl
  | cons s steps ih =>
    rw [List.cons_append, get?_cons, get?_cons]
    cases t.nth? s.tag s.index with
    | none => rfl
    | some c => exact ih c

theorem Splits.get? {s : Step} {cs front back : List Tlv} {c : Tlv}
    (h : Splits s.tag s.index cs front c back) (root : Tag) (steps : List Step) :
    (constructed root cs).get? (s :: steps) = c.get? steps := by
  rw [get?_cons, nth?, children, h.getElem?]
  rfl

theorem Splits.put {s : Step} {cs front back : List Tlv} {c : Tlv}
    (h : Splits s.tag s.index cs front c back) (root : Tag) (steps : List Step) (new : Tlv) :
    (constructed root cs).put (s :: steps) new
      = constructed root (front ++ c.put steps new :: back) := by
  rw [Tlv.put, nth?, children, h.getElem?, h.positionIn]
  dsimp only
  rw [withChildren, h.parts, List.set_append_right _ _ (Nat.le_refl _), Nat.sub_self,
    List.set_cons_zero]

/-- The way down to a place begins with one of the children. -/
theorem exists_of_get?_cons {t found : Tlv} {s : Step} {steps : List Step}
    (h : t.get? (s :: steps) = some found) :
    ∃ root cs front c back, t = constructed root cs ∧ Splits s.tag s.index cs front c back ∧
      c.get? steps = some found := by
  rw [get?_cons] at h
  obtain ⟨c, hc, hfound⟩ := Option.bind_eq_some_iff.mp h
  cases t with
  | primitive root value => cases hc
  | constructed root cs =>
    obtain ⟨front, back, hsplit⟩ := exists_splits hc
    exact ⟨root, cs, front, c, back, rfl, hsplit, hfound⟩

/-- What is found at a place has the tag of the last step. -/
theorem tag_of_get?_concat {t found : Tlv} {steps : List Step} {s : Step}
    (h : t.get? (steps ++ [s]) = some found) : found.tag = s.tag := by
  rw [get?_append] at h
  obtain ⟨holder, -, h⟩ := Option.bind_eq_some_iff.mp h
  obtain ⟨root, cs, front, c, back, -, hsplit, hc⟩ := exists_of_get?_cons h
  cases hc
  exact hsplit.tagged

/-! ## Writing -/

theorem put_append {t found : Tlv} {steps : List Step} (h : t.get? steps = some found)
    (more : List Step) (new : Tlv) :
    t.put (steps ++ more) new = t.put steps (found.put more new) := by
  induction steps generalizing t with
  | nil =>
    cases h
    rfl
  | cons s steps ih =>
    obtain ⟨root, cs, front, c, back, rfl, hsplit, hc⟩ := exists_of_get?_cons h
    rw [List.cons_append, hsplit.put, hsplit.put, ih hc]

/-- Writing what is there already changes nothing. -/
theorem put_get? {t found : Tlv} {steps : List Step} (h : t.get? steps = some found) :
    t.put steps found = t := by
  induction steps generalizing t with
  | nil =>
    cases h
    rfl
  | cons s steps ih =>
    obtain ⟨root, cs, front, c, back, rfl, hsplit, hc⟩ := exists_of_get?_cons h
    rw [hsplit.put, ih hc, ← hsplit.parts]

theorem tag_put {t found new : Tlv} {steps : List Step} (h : t.get? steps = some found)
    (htag : new.tag = found.tag) : (t.put steps new).tag = t.tag := by
  cases steps with
  | nil =>
    cases h
    exact htag
  | cons s steps =>
    obtain ⟨root, cs, front, c, back, rfl, hsplit, -⟩ := exists_of_get?_cons h
    rw [hsplit.put]
    rfl

theorem tag_put_cons (t : Tlv) (s : Step) (steps : List Step) (new : Tlv) :
    (t.put (s :: steps) new).tag = t.tag := by
  rw [put]
  split
  · cases t <;> rfl
  · rfl

/-- What is written at a place is found there. -/
theorem get?_put_append {t found new : Tlv} {steps : List Step} (h : t.get? steps = some found)
    (htag : new.tag = found.tag) (more : List Step) :
    (t.put steps new).get? (steps ++ more) = new.get? more := by
  induction steps generalizing t with
  | nil => rfl
  | cons s steps ih =>
    obtain ⟨root, cs, front, c, back, rfl, hsplit, hc⟩ := exists_of_get?_cons h
    have htag' : (c.put steps new).tag = s.tag := (tag_put hc htag).trans hsplit.tagged
    rw [hsplit.put, List.cons_append, (hsplit.exchange htag').get?]
    exact ih hc

theorem get?_put {t found new : Tlv} {steps : List Step} (h : t.get? steps = some found)
    (htag : new.tag = found.tag) : (t.put steps new).get? steps = some new := by
  have hput := get?_put_append h htag []
  rwa [List.append_nil] at hput

/-- Whatever is written below a place leaves the place occupied. -/
theorem isSome_get?_put_below {t found new : Tlv} {steps more : List Step} {s : Step}
    (h : t.get? (steps ++ s :: more) = some found) :
    ((t.put (steps ++ s :: more) new).get? steps).isSome := by
  rw [get?_append] at h
  obtain ⟨holder, hholder, h⟩ := Option.bind_eq_some_iff.mp h
  obtain ⟨root, cs, front, c, back, rfl, hsplit, -⟩ := exists_of_get?_cons h
  have htag : (constructed root (front ++ c.put more new :: back)).tag
      = (constructed root cs).tag := rfl
  rw [put_append hholder, hsplit.put, get?_put hholder htag]
  rfl

/-! ## Edited trees -/

/-- The two trees differ at most in the children tagged `tag` of the element at
`holder`. -/
inductive EditedAt (tag : Tag) : List Step → Tlv → Tlv → Prop where
  | same (holder : List Step) (t : Tlv) : EditedAt tag holder t t
  | here {root : Tag} {cs cs' : List Tlv}
      (h : (cs'.filter fun c => c.tag != tag) = cs.filter fun c => c.tag != tag) :
      EditedAt tag [] (.constructed root cs) (.constructed root cs')
  | inside {s : Step} {holder : List Step} {root : Tag} {cs front back : List Tlv} {c c' : Tlv}
      (hsplit : Splits s.tag s.index cs front c back) (htag : c'.tag = c.tag)
      (h : EditedAt tag holder c c') :
      EditedAt tag (s :: holder) (.constructed root cs) (.constructed root (front ++ c' :: back))

/-- Whether the steps `path` lead elsewhere than to or through a child tagged `tag`
of the element at `holder`. -/
def misses (tag : Tag) : (holder path : List Step) → Bool
  | [], q :: _ => q.tag != tag
  | s :: holder, q :: path =>
    if s.tag = q.tag ∧ s.index = q.index then misses tag holder path else true
  | _, [] => false

/-- The tag of the child through which a change is reached. -/
def entry (tag : Tag) : (holder : List Step) → Tag
  | [] => tag
  | s :: _ => s.tag

namespace EditedAt

variable {tag : Tag} {holder : List Step} {t t' : Tlv}

theorem tag_eq (h : EditedAt tag holder t t') : t'.tag = t.tag := by
  cases h <;> rfl

theorem eq_or_constructed (h : EditedAt tag holder t t') :
    t' = t ∨ ∃ root cs cs', t = constructed root cs ∧ t' = constructed root cs' := by
  cases h with
  | same => exact .inl rfl
  | here h => exact .inr ⟨_, _, _, rfl, rfl⟩
  | inside hsplit htag h => exact .inr ⟨_, _, _, rfl, rfl⟩

/-- Children with other tags than the one that changes are the same ones. -/
theorem filter_of_ne {other : Tag} {cs cs' : List Tlv}
    (h : (cs'.filter fun c => c.tag != tag) = cs.filter fun c => c.tag != tag)
    (hne : other ≠ tag) :
    (cs'.filter fun c => c.tag == other) = cs.filter fun c => c.tag == other := by
  have hother (ds : List Tlv) : (ds.filter fun c => c.tag == other)
      = (ds.filter fun c => c.tag != tag).filter fun c => c.tag == other := by
    rw [List.filter_filter]
    refine List.filter_congr fun c _ => ?_
    by_cases hc : c.tag = other
    · simp [hc, hne]
    · simp [hc]
  rw [hother cs', hother cs, h]

theorem filter_children {other : Tag} (h : EditedAt tag holder t t')
    (hne : other ≠ entry tag holder) :
    (t'.children.filter fun c => c.tag == other) = t.children.filter fun c => c.tag == other := by
  cases h with
  | same => rfl
  | here h => exact filter_of_ne h hne
  | inside hsplit htag h =>
    -- the child passed through keeps its tag
    rw [children, children, hsplit.parts, List.filter_append, List.filter_append, filter_cons_ne,
      filter_cons_ne]
    · rw [hsplit.tagged]
      exact hne.symm
    · rw [htag, hsplit.tagged]
      exact hne.symm

/-- Below the root itself, all other children are the same ones, in the same order. -/
theorem filter_others (h : EditedAt tag [] t t') :
    (t'.children.filter fun c => c.tag != tag) = t.children.filter fun c => c.tag != tag := by
  cases h with
  | same => rfl
  | here h => exact h

theorem nth?_of_ne {s : Step} {other : Tag} {index : Nat} (h : EditedAt tag (s :: holder) t t')
    (hne : ¬ (s.tag = other ∧ s.index = index)) : t'.nth? other index = t.nth? other index := by
  by_cases hother : other = s.tag
  · cases h with
    | same => rfl
    | inside hsplit htag h =>
      have hcount := hsplit.counted
      have hindex : s.index ≠ index := fun hindex => hne ⟨hother.symm, hindex⟩
      rw [hother, nth?, nth?, children, children,
        (hsplit.exchange (htag.trans hsplit.tagged)).filter, hsplit.filter, List.getElem?_append,
        List.getElem?_append, hcount]
      -- the two lists differ at one position, which is not the one asked for
      by_cases hlt : index < s.index
      · rw [if_pos hlt, if_pos hlt]
      · obtain ⟨more, hmore⟩ : ∃ more, index - s.index = more + 1 :=
          ⟨index - s.index - 1, by omega⟩
        rw [if_neg hlt, if_neg hlt, hmore, List.getElem?_cons_succ, List.getElem?_cons_succ]
  · rw [nth?, nth?, h.filter_children hother]

/-- A look up that misses what changes finds what it did before. -/
theorem get?_eq {path : List Step} (h : EditedAt tag holder t t')
    (hmisses : misses tag holder path = true) : t'.get? path = t.get? path := by
  induction h generalizing path with
  | same => rfl
  | here h =>
    cases path with
    | nil => cases hmisses
    | cons q path =>
      rw [get?_cons, get?_cons, nth?, nth?, children, children,
        filter_of_ne h (bne_iff_ne.mp hmisses)]
  | @inside s holder root cs front back c c' hsplit htag h ih =>
    cases path with
    | nil => cases hmisses
    | cons q path =>
      rw [misses] at hmisses
      by_cases hstep : s.tag = q.tag ∧ s.index = q.index
      · rw [if_pos hstep] at hmisses
        rw [hstep.1, hstep.2] at hsplit
        rw [hsplit.get?, (hsplit.exchange (htag.trans hsplit.tagged)).get?, ih hmisses]
      · rw [get?_cons, get?_cons, (EditedAt.inside hsplit htag h).nth?_of_ne hstep]

/-- The element above the children that change is found again, with these changes. -/
theorem exists_get? {found : Tlv} (h : EditedAt tag holder t t')
    (hfound : t.get? holder = some found) :
    ∃ found', t'.get? holder = some found' ∧ EditedAt tag [] found found' := by
  induction h with
  | same => exact ⟨found, hfound, .same _ _⟩
  | here h =>
    cases hfound
    exact ⟨_, rfl, .here h⟩
  | inside hsplit htag h ih =>
    rw [hsplit.get?] at hfound
    obtain ⟨found', hfound', hedited⟩ := ih hfound
    exact ⟨found', by rw [(hsplit.exchange (htag.trans hsplit.tagged)).get?, hfound'], hedited⟩

/-- An edit below a place neither fills nor empties it. -/
theorem isSome_get? {steps more : List Step} (h : EditedAt tag (steps ++ more) t t') :
    (t'.get? steps).isSome = (t.get? steps).isSome := by
  induction steps generalizing t t' with
  | nil => rfl
  | cons s steps ih =>
    cases h with
    | same => rfl
    | inside hsplit htag h =>
      rw [hsplit.get?, (hsplit.exchange (htag.trans hsplit.tagged)).get?, ih h]

theorem trans {t'' : Tlv} (h : EditedAt tag holder t t') (h' : EditedAt tag holder t' t'') :
    EditedAt tag holder t t'' := by
  induction h generalizing t'' with
  | same => exact h'
  | here h =>
    cases h' with
    | same => exact .here h
    | here h' => exact .here (h'.trans h)
  | inside hsplit htag h ih =>
    generalize hmiddle : constructed _ _ = middle at h'
    cases h' with
    | same =>
      cases hmiddle
      exact .inside hsplit htag h
    | inside hsplit' htag' h' =>
      cases hmiddle
      obtain ⟨rfl, rfl, rfl⟩ := (hsplit.exchange (htag.trans hsplit.tagged)).unique hsplit'
      exact .inside hsplit (htag'.trans htag) (ih h')

/-- A change further down is a change of the child that leads there. -/
theorem widen {s : Step} (h : EditedAt tag (holder ++ [s]) t t') : EditedAt s.tag holder t t' := by
  induction holder generalizing t t' with
  | nil =>
    cases h with
    | same => exact .same _ _
    | inside hsplit htag h =>
      have hexchange := (hsplit.exchange (htag.trans hsplit.tagged)).filter_others
      exact .here (hexchange.trans hsplit.filter_others.symm)
  | cons q holder ih =>
    cases h with
    | same => exact .same _ _
    | inside hsplit htag h => exact .inside hsplit htag (ih h)

/-- A change inside the only child leaves an only child. -/
theorem of_singleton {s : Step} {root : Tag} {c : Tlv}
    (h : EditedAt tag (s :: holder) (.constructed root [c]) t') :
    ∃ c', c'.tag = c.tag ∧ t' = .constructed root [c'] := by
  generalize hnode : constructed root [c] = t at h
  cases h with
  | same => exact ⟨c, rfl, hnode.symm⟩
  | inside hsplit htag h =>
    cases hnode
    rcases List.append_eq_singleton_iff.mp hsplit.parts.symm with ⟨rfl, honly⟩ | ⟨-, hcontra⟩
    · cases honly
      exact ⟨_, htag, rfl⟩
    · cases hcontra

end EditedAt

/-- Writing at a place edits the tree there as the element was edited. -/
theorem editedAt_put {tag : Tag} {holder : List Step} {t found new : Tlv}
    (h : t.get? holder = some found) (hedit : EditedAt tag [] found new) :
    EditedAt tag holder t (t.put holder new) := by
  induction holder generalizing t with
  | nil =>
    cases h
    exact hedit
  | cons s holder ih =>
    obtain ⟨root, cs, front, c, back, rfl, hsplit, hc⟩ := exists_of_get?_cons h
    rw [hsplit.put]
    exact .inside hsplit (tag_put hc hedit.tag_eq) (ih hc)

/-- Another element with the tag of the last step is an edit of the element
above. -/
theorem editedAt_put_concat {holder : List Step} {s : Step} {t found new : Tlv}
    (h : t.get? (holder ++ [s]) = some found) (htag : new.tag = s.tag) :
    EditedAt s.tag holder t (t.put (holder ++ [s]) new) := by
  have habove := h
  rw [get?_append] at habove
  obtain ⟨above, hholder, hlast⟩ := Option.bind_eq_some_iff.mp habove
  rw [put_append hholder]
  refine editedAt_put hholder ?_
  obtain ⟨root, cs, front, c, back, rfl, hsplit, -⟩ := exists_of_get?_cons hlast
  rw [hsplit.put]
  exact .here ((hsplit.exchange htag).filter_others.trans hsplit.filter_others.symm)

/-! ## Edits -/

section edits

variable {t t' found : Tlv} {path : Path}

theorem child?_eq_some :
    t.child? path = some found ↔ path.root.tag = t.tag ∧ t.get? path.steps = some found := by
  rw [child?]
  by_cases hroot : path.root.tag = t.tag
  · rw [if_pos hroot]
    exact ⟨fun h => ⟨hroot, h⟩, fun h => h.2⟩
  · rw [if_neg hroot]
    exact ⟨(nomatch ·), fun h => absurd h.1 hroot⟩

theorem anchored_eq_ok : t.anchored path = .ok () ↔ path.root.tag = t.tag := by
  rw [anchored]
  by_cases hroot : path.root.tag = t.tag
  · rw [if_pos hroot]
    exact ⟨fun _ => hroot, fun _ => rfl⟩
  · rw [if_neg hroot]
    exact ⟨(nomatch ·), fun h => absurd h hroot⟩

theorem place_eq_ok : t.place path = .ok found ↔ t.child? path = some found := by
  rw [place, bind_eq_ok, child?_eq_some]
  constructor
  · rintro ⟨⟨⟩, hroot, h⟩
    split at h
    · cases h
    · next hfound =>
      cases h
      exact ⟨anchored_eq_ok.mp hroot, hfound⟩
  · rintro ⟨hroot, hfound⟩
    rw [hfound]
    exact ⟨(), anchored_eq_ok.mpr hroot, rfl⟩

/-- Only an element that may have children takes one more. -/
theorem addChild_eq_ok {child : Tlv} :
    t.addChild path child = .ok t' ↔ ∃ root cs, t.child? path = some (.constructed root cs) ∧
      t' = t.put path.steps (.constructed root (cs ++ [child])) := by
  rw [addChild, bind_eq_ok]
  constructor
  · rintro ⟨target, htarget, h⟩
    obtain ⟨grown, hgrown, h⟩ := bind_eq_ok.mp h
    cases h
    cases target with
    | primitive root value => cases hgrown
    | constructed root cs =>
      cases hgrown
      exact ⟨root, cs, place_eq_ok.mp htarget, rfl⟩
  · rintro ⟨root, cs, htarget, rfl⟩
    exact ⟨_, place_eq_ok.mpr htarget, rfl⟩

theorem replaceChild_eq_ok {new old : Tlv} :
    t.replaceChild path new = .ok (t', old) ↔
      path.steps ≠ [] ∧ t.child? path = some old ∧ t' = t.put path.steps new := by
  rw [replaceChild, bind_eq_ok]
  constructor
  · rintro ⟨⟨⟩, -, h⟩
    split at h
    · cases h
    · next hsteps =>
      obtain ⟨found, hfound, h⟩ := bind_eq_ok.mp h
      cases h
      exact ⟨fun hnil => hsteps (List.isEmpty_iff.mpr hnil), place_eq_ok.mp hfound, rfl⟩
  · rintro ⟨hsteps, hfound, rfl⟩
    refine ⟨(), anchored_eq_ok.mpr (child?_eq_some.mp hfound).1, ?_⟩
    rw [if_neg (fun hnil => hsteps (List.isEmpty_iff.mp hnil))]
    exact bind_eq_ok.mpr ⟨old, place_eq_ok.mpr hfound, rfl⟩

theorem setValueAt_eq_ok {value : Bytes} :
    t.setValueAt path value = .ok t' ↔ ∃ old changed, t.child? path = some old ∧
      old.setValue value = .ok changed ∧ t' = t.put path.steps changed := by
  rw [setValueAt]
  constructor
  · intro h
    split at h
    · cases h
    · next old hold =>
      split at h
      · cases h
      · next changed hchanged =>
        cases h
        exact ⟨old, changed, place_eq_ok.mp hold, hchanged, rfl⟩
  · rintro ⟨old, changed, hold, hchanged, rfl⟩
    rw [place_eq_ok.mpr hold]
    dsimp only
    rw [hchanged]

theorem tag_setValue {changed : Tlv} {value : Bytes} (h : t.setValue value = .ok changed) :
    changed.tag = t.tag := by
  cases t with
  | primitive root old =>
    cases h
    rfl
  | constructed root cs =>
    rw [setValue] at h
    cases hparse : parseAll value with
    | error e =>
      rw [hparse] at h
      cases h
    | ok ds =>
      rw [hparse] at h
      cases h
      rfl

/-- The steps of a path that leads below the root end in its last one. -/
theorem Path.steps_eq (h : path.steps ≠ []) : path.steps = path.steps.dropLast ++ [path.target] := by
  rw [Path.target, List.getLastD_eq_getLast?, List.getLast?_eq_some_getLast h, Option.getD_some,
    List.dropLast_concat_getLast]

/-- Writing an element with the tag of the place is an edit of the element above. -/
theorem editedAt_put_path {new : Tlv} (hsteps : path.steps ≠ [])
    (hfound : t.child? path = some found) (htag : new.tag = path.tag) :
    EditedAt path.tag path.steps.dropLast t (t.put path.steps new) := by
  have hfound := (child?_eq_some.mp hfound).2
  rw [Path.steps_eq hsteps] at hfound
  rw [Path.steps_eq hsteps, List.dropLast_concat]
  exact editedAt_put_concat hfound htag

theorem tag_of_child? (hsteps : path.steps ≠ []) (hfound : t.child? path = some found) :
    found.tag = path.tag := by
  have hfound := (child?_eq_some.mp hfound).2
  rw [Path.steps_eq hsteps] at hfound
  exact tag_of_get?_concat hfound

/-- An element at the end leaves those with other tags alone. -/
theorem editedAt_append (root : Tag) (cs : List Tlv) (child : Tlv) :
    EditedAt child.tag [] (.constructed root cs) (.constructed root (cs ++ [child])) := by
  refine .here ?_
  rw [List.filter_append, List.filter_cons_of_neg (by simp), List.filter_nil, List.append_nil]

theorem editedAt_addChild {child : Tlv} (h : t.addChild path child = .ok t') :
    EditedAt child.tag path.steps t t' := by
  obtain ⟨root, cs, htarget, rfl⟩ := addChild_eq_ok.mp h
  exact editedAt_put (child?_eq_some.mp htarget).2 (editedAt_append root cs child)

theorem editedAt_replaceChild {new old : Tlv} (h : t.replaceChild path new = .ok (t', old))
    (htag : new.tag = path.tag) : EditedAt path.tag path.steps.dropLast t t' := by
  obtain ⟨hsteps, hold, rfl⟩ := replaceChild_eq_ok.mp h
  exact editedAt_put_path hsteps hold htag

theorem editedAt_setValueAt {value : Bytes} (hsteps : path.steps ≠ [])
    (h : t.setValueAt path value = .ok t') : EditedAt path.tag path.steps.dropLast t t' := by
  obtain ⟨old, changed, hold, hchanged, rfl⟩ := setValueAt_eq_ok.mp h
  exact editedAt_put_path hsteps hold ((tag_setValue hchanged).trans (tag_of_child? hsteps hold))

theorem root_tag_of_removeChild {removed : Option Tlv}
    (h : t.removeChild path = .ok (t', removed)) : path.root.tag = t.tag := by
  rw [removeChild] at h
  obtain ⟨⟨⟩, hroot, -⟩ := bind_eq_ok.mp h
  exact anchored_eq_ok.mp hroot

theorem editedAt_removeChild {removed : Option Tlv} (h : t.removeChild path = .ok (t', removed)) :
    EditedAt path.tag path.steps.dropLast t t' := by
  rw [removeChild] at h
  obtain ⟨⟨⟩, -, h⟩ := bind_eq_ok.mp h
  rw [Path.parent?] at h
  split at h
  · cases h
  next above habove =>
  split at habove
  · cases habove
  cases habove
  dsimp only at h
  split at h
  · cases h
    exact .same _ _
  next holder hholder =>
  split at h
  · cases h
    exact .same _ _
  next i hi =>
  cases h
  refine editedAt_put hholder ?_
  -- a position among the children was found, so there are children
  cases hnth : (holder.children.filter fun d => d.tag == path.tag)[path.index]? with
  | none =>
    rw [positionIn_eq_none hnth] at hi
    cases hi
  | some c =>
    obtain ⟨front, back, hsplit⟩ := exists_splits hnth
    rw [hsplit.positionIn] at hi
    cases hi
    cases holder with
    | primitive root value => cases hnth
    | constructed root cs =>
      have hparts : cs = front ++ c :: back := hsplit.parts
      have herased : cs.eraseIdx front.length = front ++ back := by
        rw [hparts, List.eraseIdx_append_of_length_le (Nat.le_refl _), Nat.sub_self,
          List.eraseIdx_cons_zero]
      refine .here ?_
      show ((cs.eraseIdx front.length).filter fun d => d.tag != path.tag) = _
      rw [herased]
      exact hsplit.filter_others.symm

/-! ## What is found where an edit was made -/

theorem first?_push (root : Tag) (cs : List Tlv) (child : Tlv) :
    (constructed root (cs ++ [child])).first? child.tag
      = some (((constructed root cs).first? child.tag).getD child) := by
  rw [first?, first?, nth?, nth?, children, children, List.filter_append, filter_cons_tag rfl]
  cases cs.filter fun d => d.tag == child.tag with
  | nil => rfl
  | cons first rest => rfl

theorem Path.parent?_eq_some {parent : Path} :
    path.parent? = some parent ↔ path.steps ≠ [] ∧ parent = ⟨path.root, path.steps.dropLast⟩ := by
  rw [parent?]
  by_cases hsteps : path.steps = []
  · rw [if_pos (List.isEmpty_iff.mpr hsteps)]
    exact ⟨(nomatch ·), fun h => absurd hsteps h.1⟩
  · rw [if_neg (fun hnil => hsteps (List.isEmpty_iff.mp hnil)), Option.some_inj]
    exact ⟨fun h => ⟨hsteps, h.symm⟩, fun h => h.2.symm⟩

/-- A child appended under a place is the first with its tag there, unless one was
there already. -/
theorem child?_addChild {parent : Path} {child : Tlv} (h : t.addChild parent child = .ok t')
    (hparent : path.parent? = some parent) (htag : child.tag = path.tag)
    (hindex : path.index = 0) : t'.child? path = some ((t.child? path).getD child) := by
  obtain ⟨hsteps, rfl⟩ := Path.parent?_eq_some.mp hparent
  obtain ⟨root, cs, htarget, rfl⟩ := addChild_eq_ok.mp h
  obtain ⟨hroot, hget⟩ := child?_eq_some.mp htarget
  have hlast (c : Tlv) : c.get? [path.target] = c.first? child.tag := by
    rw [get?_singleton, htag, first?, ← hindex]
    rfl
  have hgrown : (constructed root (cs ++ [child])).tag = (constructed root cs).tag := rfl
  dsimp only at hroot hget ⊢
  rw [child?, child?, if_pos hroot, if_pos (hroot.trans (tag_put hget hgrown).symm),
    Path.steps_eq hsteps, List.dropLast_concat, get?_put_append hget hgrown, get?_append, hget,
    Option.bind_some, hlast, hlast, first?_push]

/-- An element at the end is behind all others, so it hides none of them. -/
theorem isSome_get?_addChild {child : Tlv} {steps : List Step}
    (h : t.addChild path child = .ok t') (hfound : (t.get? steps).isSome) :
    (t'.get? steps).isSome := by
  obtain ⟨root, cs, hplace, rfl⟩ := addChild_eq_ok.mp h
  obtain ⟨-, hget⟩ := child?_eq_some.mp hplace
  clear h hplace
  generalize path.steps = holder at hget ⊢
  induction holder generalizing t steps with
  | nil =>
    cases hget
    cases steps with
    | nil => rfl
    | cons q steps =>
      obtain ⟨found, hfound⟩ := Option.isSome_iff_exists.mp hfound
      obtain ⟨_, _, front, c, back, hsame, hsplit, hc⟩ := exists_of_get?_cons hfound
      cases hsame
      have hlonger : Splits q.tag q.index (cs ++ [child]) front c (back ++ [child]) :=
        ⟨by rw [hsplit.parts, List.append_assoc, List.cons_append], hsplit.tagged, hsplit.counted⟩
      rw [put, hlonger.get?, hc]
      rfl
  | cons s holder ih =>
    cases steps with
    | nil => rfl
    | cons q steps =>
      by_cases hstep : s.tag = q.tag ∧ s.index = q.index
      · obtain ⟨root', cs', front, c, back, rfl, hsplit, hc⟩ := exists_of_get?_cons hget
        have htag : (c.put holder (.constructed root (cs ++ [child]))).tag = c.tag :=
          tag_put hc rfl
        rw [hsplit.put]
        rw [hstep.1, hstep.2] at hsplit
        rw [hsplit.get?] at hfound
        rw [(hsplit.exchange (htag.trans hsplit.tagged)).get?]
        exact ih hfound hc
      · rw [get?_cons, (editedAt_put hget (editedAt_append root cs child)).nth?_of_ne hstep,
          ← get?_cons]
        exact hfound

theorem child?_put {new : Tlv} (hfound : t.child? path = some found) (htag : new.tag = found.tag) :
    (t.put path.steps new).child? path = some new := by
  obtain ⟨hroot, hget⟩ := child?_eq_some.mp hfound
  exact child?_eq_some.mpr ⟨hroot.trans (tag_put hget htag).symm, get?_put hget htag⟩

theorem child?_replaceChild {new old : Tlv} (h : t.replaceChild path new = .ok (t', old))
    (htag : new.tag = path.tag) : t'.child? path = some new := by
  obtain ⟨hsteps, hold, rfl⟩ := replaceChild_eq_ok.mp h
  exact child?_put hold (htag.trans (tag_of_child? hsteps hold).symm)

theorem child?_setValueAt {value : Bytes} (h : t.setValueAt path value = .ok t') :
    ∃ old changed, t.child? path = some old ∧ old.setValue value = .ok changed ∧
      t'.child? path = some changed := by
  obtain ⟨old, changed, hold, hchanged, rfl⟩ := setValueAt_eq_ok.mp h
  exact ⟨old, changed, hold, hchanged, child?_put hold (tag_setValue hchanged)⟩

theorem positionIn_zero (tag : Tag) (cs : List Tlv) :
    positionIn tag 0 cs = cs.findIdx? fun d => d.tag == tag := by
  induction cs with
  | nil => rfl
  | cons first cs ih =>
    rw [List.findIdx?_cons]
    by_cases hfirst : first.tag = tag
    · rw [positionIn_cons_zero hfirst, if_pos (beq_iff_eq.mpr hfirst)]
    · rw [positionIn_cons_ne hfirst, if_neg (by rwa [beq_iff_eq]), ih]

/-- Without the first child with its tag, the others are left. -/
theorem Splits.eraseP {tag : Tag} {cs front back : List Tlv} {c : Tlv}
    (h : Splits tag 0 cs front c back) : (cs.eraseP fun d => d.tag == tag) = front ++ back := by
  rw [List.eraseP_eq_eraseIdx, ← positionIn_zero, h.positionIn, h.parts]
  dsimp only
  rw [List.eraseIdx_append_of_length_le (Nat.le_refl _), Nat.sub_self, List.eraseIdx_cons_zero]

/-- Removing the first child with a tag never fails where there is an element above it. -/
theorem removeChild_below {holder : List Step} {s : Step} {root : Tag} {cs : List Tlv}
    (hroot : path.root.tag = t.tag) (hsteps : path.steps = holder ++ [s]) (hindex : s.index = 0)
    (hholder : t.get? holder = some (.constructed root cs)) :
    t.removeChild path
      = .ok (t.put holder (.constructed root (cs.eraseP fun d => d.tag == s.tag)),
        cs.find? fun d => d.tag == s.tag) := by
  have hparent : path.parent? = some ⟨path.root, holder⟩ :=
    Path.parent?_eq_some.mpr ⟨by simp [hsteps], by rw [hsteps, List.dropLast_concat]⟩
  have htarget : path.target = s := by rw [Path.target, hsteps, List.getLastD_concat]
  rw [removeChild, bind_of_ok (anchored_eq_ok.mpr hroot), hparent]
  dsimp only
  rw [hholder]
  dsimp only
  rw [Path.tag, Path.index, htarget, hindex, children, positionIn_zero, List.eraseP_eq_eraseIdx,
    List.find?_eq_bind_findIdx?_getElem?]
  cases cs.findIdx? fun d => d.tag == s.tag with
  | none =>
    dsimp only
    rw [put_get? hholder]
    rfl
  | some i => rfl

end edits

end Tlv
end CardAccess

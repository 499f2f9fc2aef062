import CardAccess.Proofs.Tlv.Place

/-!
# Lists of siblings

A path counts the children with one tag, so what it can reach below an element is
the list of these children.  `siblings` is that list, and the edits are told by what
they do to it: one adds an element at the end, one takes the first away, one writes in
the middle, and any edit that a look up would miss leaves the list as it is.
-/

namespace CardAccess
namespace Tlv

/-- The children tagged `tag` of the element that the steps lead to. -/
def siblings (t : Tlv) (holder : List Step) (tag : Tag) : List Tlv :=
  match t.get? holder with
  | none => []
  | some found => found.children.filter fun c => c.tag == tag

variable {t t' found : Tlv} {holder : List Step} {tag : Tag}

theorem siblings_of_get? (h : t.get? holder = some found) :
    t.siblings holder tag = found.children.filter fun c => c.tag == tag := by
  rw [siblings, h]

/-- The last step of a path tells which of the siblings is meant. -/
theorem getElem?_siblings (t : Tlv) (holder : List Step) (s : Step) :
    (t.siblings holder s.tag)[s.index]? = t.get? (holder ++ [s]) := by
  rw [get?_append, siblings]
  cases t.get? holder with
  | none => rfl
  | some found =>
    rw [Option.bind_some, get?_singleton]
    rfl

theorem EditedAt.getElem?_siblings_eq {edited : List Step} {other : Tag}
    (h : EditedAt other edited t t') {index : Nat}
    (hmisses : misses other edited (holder ++ [⟨"", tag, index⟩]) = true) :
    (t'.siblings holder tag)[index]? = (t.siblings holder tag)[index]? := by
  have hafter := t'.getElem?_siblings holder ⟨"", tag, index⟩
  have hbefore := t.getElem?_siblings holder ⟨"", tag, index⟩
  dsimp only at hafter hbefore
  rw [hafter, hbefore, h.get?_eq hmisses]

theorem EditedAt.siblings_eq {edited : List Step} {other : Tag} (h : EditedAt other edited t t')
    (hmisses : ∀ index, misses other edited (holder ++ [⟨"", tag, index⟩]) = true) :
    t'.siblings holder tag = t.siblings holder tag :=
  List.ext_getElem? fun index => h.getElem?_siblings_eq (hmisses index)

/-- A change inside the first of the siblings leaves the others as they are. -/
theorem EditedAt.tail_siblings_eq {edited : List Step} {other : Tag} (h : EditedAt other edited t t')
    (hmisses : ∀ index, misses other edited (holder ++ [⟨"", tag, index + 1⟩]) = true) :
    (t'.siblings holder tag).tail = (t.siblings holder tag).tail := by
  refine List.ext_getElem? fun index => ?_
  rw [List.getElem?_tail, List.getElem?_tail, h.getElem?_siblings_eq (hmisses index)]

theorem siblings_put {new : Tlv} (h : t.get? holder = some found) (htag : new.tag = found.tag) :
    (t.put holder new).siblings holder tag = new.children.filter fun c => c.tag == tag :=
  siblings_of_get? (get?_put h htag)

/-- An element written in the place of one of the siblings. -/
theorem filter_put_cons {s : Step} {new : Tlv} (h : t.get? [s] = some found)
    (htag : new.tag = s.tag) :
    ((t.put [s] new).children.filter fun c => c.tag == s.tag)
      = (t.children.filter fun c => c.tag == s.tag).set s.index new := by
  obtain ⟨root, cs, front, c, back, rfl, hsplit, -⟩ := exists_of_get?_cons h
  have hcount := hsplit.counted
  have hput : (constructed root cs).put [s] new = constructed root (front ++ new :: back) :=
    hsplit.put root [] new
  rw [hput, children, children, (hsplit.exchange htag).filter, hsplit.filter,
    List.set_append_right _ _ (Nat.le_of_eq hcount), hcount, Nat.sub_self, List.set_cons_zero]

theorem siblings_addChild {path : Path} {child : Tlv} (h : t.addChild path child = .ok t') :
    t'.siblings path.steps child.tag = t.siblings path.steps child.tag ++ [child] := by
  obtain ⟨root, cs, htarget, rfl⟩ := addChild_eq_ok.mp h
  obtain ⟨-, hget⟩ := child?_eq_some.mp htarget
  have hgrown : (constructed root (cs ++ [child])).tag = (constructed root cs).tag := rfl
  have hlast : [child].filter (fun c => c.tag == child.tag) = [child] := filter_cons_tag rfl
  rw [siblings_put hget hgrown, siblings_of_get? hget, children, children, List.filter_append, hlast]

/-- Taking out the first element with a property leaves the later ones. -/
theorem filter_eraseP {α : Type} (p : α → Bool) (cs : List α) :
    (cs.eraseP p).filter p = (cs.filter p).tail := by
  induction cs with
  | nil => rfl
  | cons c cs ih =>
    by_cases hc : p c = true
    · rw [List.eraseP_cons_of_pos hc, List.filter_cons_of_pos hc, List.tail_cons]
    · rw [List.eraseP_cons_of_neg hc, List.filter_cons_of_neg hc, List.filter_cons_of_neg hc, ih]

/-- Where one element at most is to go, taking out the first is taking out all. -/
theorem eraseP_eq_filter {α : Type} {p : α → Bool} {cs : List α}
    (h : (cs.filter p).length ≤ 1) : cs.eraseP p = cs.filter fun c => !p c := by
  induction cs with
  | nil => rfl
  | cons c cs ih =>
    by_cases hc : p c = true
    · rw [List.filter_cons_of_pos hc, List.length_cons] at h
      have hnone : cs.filter p = [] := List.length_eq_zero_iff.mp (by omega)
      rw [List.eraseP_cons_of_pos hc, List.filter_cons_of_neg (by rw [hc]; decide)]
      refine (List.filter_eq_self.mpr fun d hd => ?_).symm
      rw [Bool.eq_false_iff.mpr (List.filter_eq_nil_iff.mp hnone d hd)]
      rfl
    · rw [List.filter_cons_of_neg hc] at h
      rw [List.eraseP_cons_of_neg hc, List.filter_cons_of_pos (by simp [hc]), ih h]

theorem children_withChildren (t : Tlv) {cs : List Tlv} (h : t.children = [] → cs = []) :
    (t.withChildren cs).children = cs := by
  cases t with
  | primitive root value => exact (h rfl).symm
  | constructed root ds => rfl

theorem siblings_removeChild {path : Path} {removed : Option Tlv} (hindex : path.index = 0)
    (h : t.removeChild path = .ok (t', removed)) :
    t'.siblings path.steps.dropLast path.tag
      = (t.siblings path.steps.dropLast path.tag).tail := by
  rw [removeChild] at h
  obtain ⟨⟨⟩, -, h⟩ := bind_eq_ok.mp h
  split at h
  · cases h
  next above habove =>
  obtain ⟨-, rfl⟩ := Path.parent?_eq_some.mp habove
  dsimp only at h
  rw [hindex] at h
  cases hholder : t.get? path.steps.dropLast with
  | none =>
    rw [hholder] at h
    cases h
    rw [siblings, hholder]
    rfl
  | some holder =>
    rw [hholder] at h
    dsimp only at h
    rw [positionIn_zero] at h
    rw [siblings_of_get? hholder, ← filter_eraseP, List.eraseP_eq_eraseIdx]
    split at h
    · next hnone =>
      cases h
      rw [hnone]
      exact siblings_of_get? hholder
    · next i hsome =>
      cases h
      rw [hsome, siblings_put hholder]
      · rw [children_withChildren]
        intro hnil
        rw [hnil]
        rfl
      · cases holder <;> rfl

/-! ## The first of the siblings -/

/-- A tag is on none of the elements, or there is a first one that it is on. -/
theorem splits_first_or_none (tag : Tag) (cs : List Tlv) :
    (∃ front c back, Splits tag 0 cs front c back) ∨ ∀ c ∈ cs, c.tag ≠ tag := by
  cases hfirst : cs.find? fun d => d.tag == tag with
  | none =>
    exact .inr fun c hc htag => List.find?_eq_none.mp hfirst c hc (beq_iff_eq.mpr htag)
  | some c =>
    rw [← List.head?_filter, List.head?_eq_getElem?] at hfirst
    obtain ⟨front, back, hsplit⟩ := exists_splits hfirst
    exact .inl ⟨front, c, back, hsplit⟩

theorem Splits.tag_ne {cs front back : List Tlv} {c : Tlv} (h : Splits tag 0 cs front c back) :
    ∀ d ∈ front, d.tag ≠ tag := by
  intro d hd htag
  have hnone := List.filter_eq_nil_iff.mp (List.length_eq_zero_iff.mp h.counted)
  exact hnone d hd (beq_iff_eq.mpr htag)

theorem splits_of_tag_ne {front back : List Tlv} {c : Tlv} (htag : c.tag = tag)
    (hfront : ∀ d ∈ front, d.tag ≠ tag) : Splits tag 0 (front ++ c :: back) front c back := by
  refine ⟨rfl, htag, List.length_eq_zero_iff.mpr (List.filter_eq_nil_iff.mpr fun d hd h => ?_)⟩
  exact hfront d hd (beq_iff_eq.mp h)

/-- The elements with another in the place of the first one tagged `tag`. -/
def exchangeFirst (tag : Tag) (new : Tlv) : List Tlv → List Tlv
  | [] => []
  | c :: cs => if c.tag = tag then new :: cs else c :: exchangeFirst tag new cs

theorem exchangeFirst_of_none {new : Tlv} {cs : List Tlv} (h : ∀ c ∈ cs, c.tag ≠ tag) :
    exchangeFirst tag new cs = cs := by
  induction cs with
  | nil => rfl
  | cons c cs ih =>
    obtain ⟨hfirst, hrest⟩ := List.forall_mem_cons.mp h
    rw [exchangeFirst, if_neg hfirst, ih hrest]

theorem Splits.exchangeFirst {cs front back : List Tlv} {c : Tlv}
    (h : Splits tag 0 cs front c back) (new : Tlv) :
    exchangeFirst tag new cs = front ++ new :: back := by
  have hfront := h.tag_ne
  obtain ⟨rfl, htag, -⟩ := h
  induction front with
  | nil => exact if_pos htag
  | cons first front ih =>
    obtain ⟨hfirst, hrest⟩ := List.forall_mem_cons.mp hfront
    rw [List.cons_append, Tlv.exchangeFirst, if_neg hfirst, ih hrest]
    rfl

/-- The elements with another in the place of the first one tagged `tag`, or at the end if there
is none. -/
def putFirst (tag : Tag) (new : Tlv) : List Tlv → List Tlv
  | [] => [new]
  | c :: cs => if c.tag = tag then new :: cs else c :: putFirst tag new cs

theorem putFirst_of_none {new : Tlv} {cs : List Tlv} (h : ∀ c ∈ cs, c.tag ≠ tag) :
    putFirst tag new cs = cs ++ [new] := by
  induction cs with
  | nil => rfl
  | cons c cs ih =>
    obtain ⟨hfirst, hrest⟩ := List.forall_mem_cons.mp h
    rw [putFirst, if_neg hfirst, ih hrest]
    rfl

theorem putFirst_of_mem {new c : Tlv} {cs : List Tlv} (hc : c ∈ cs) (htag : c.tag = tag) :
    putFirst tag new cs = exchangeFirst tag new cs := by
  induction cs with
  | nil => cases hc
  | cons first cs ih =>
    rw [putFirst, exchangeFirst]
    split
    · rfl
    · next hfirst =>
      rcases List.mem_cons.mp hc with rfl | hrest
      · exact absurd htag hfirst
      · rw [ih hrest]

theorem Splits.putFirst {cs front back : List Tlv} {c : Tlv} (h : Splits tag 0 cs front c back)
    (new : Tlv) : putFirst tag new cs = front ++ new :: back := by
  have hc : c ∈ cs := by
    rw [h.parts]
    exact List.mem_append_right _ List.mem_cons_self
  rw [putFirst_of_mem hc h.tagged, h.exchangeFirst]

/-- What is exchanged has one tag, so all elements with others stay. -/
theorem exchangeFirst_others {new : Tlv} (hnew : new.tag = tag) (cs : List Tlv) :
    ((exchangeFirst tag new cs).filter fun c => c.tag != tag) = cs.filter fun c => c.tag != tag := by
  rcases splits_first_or_none tag cs with ⟨front, c, back, hsplit⟩ | hnone
  · rw [hsplit.exchangeFirst, (hsplit.exchange hnew).filter_others, hsplit.filter_others]
  · rw [exchangeFirst_of_none hnone]

theorem filter_exchangeFirst_of_ne {other : Tag} {new : Tlv} (hnew : new.tag = tag)
    (hne : other ≠ tag) (cs : List Tlv) :
    ((exchangeFirst tag new cs).filter fun c => c.tag == other)
      = cs.filter fun c => c.tag == other :=
  EditedAt.filter_of_ne (exchangeFirst_others hnew cs) hne

/-- Elements may be sorted out before or after, unless the ones with the tag are. -/
theorem filter_exchangeFirst {p : Tlv → Bool} {new : Tlv} (hnew : p new = true)
    (hold : ∀ c, c.tag = tag → p c = true) (cs : List Tlv) :
    (exchangeFirst tag new cs).filter p = exchangeFirst tag new (cs.filter p) := by
  induction cs with
  | nil => rfl
  | cons c cs ih =>
    by_cases htag : c.tag = tag
    · rw [exchangeFirst, if_pos htag, List.filter_cons_of_pos hnew,
        List.filter_cons_of_pos (hold c htag), exchangeFirst, if_pos htag]
    rw [exchangeFirst, if_neg htag]
    by_cases hc : p c = true
    · rw [List.filter_cons_of_pos hc, List.filter_cons_of_pos hc, exchangeFirst, if_neg htag, ih]
    · rw [List.filter_cons_of_neg hc, List.filter_cons_of_neg hc, ih]

theorem eraseP_others (tag : Tag) (cs : List Tlv) :
    ((cs.eraseP fun c => c.tag == tag).filter fun c => c.tag != tag)
      = cs.filter fun c => c.tag != tag := by
  rcases splits_first_or_none tag cs with ⟨front, c, back, hsplit⟩ | hnone
  · rw [hsplit.eraseP, hsplit.filter_others]
  · rw [List.eraseP_of_forall_not fun c hc => by simpa using hnone c hc]

theorem eraseP_filter {other : Tag} (hne : tag ≠ other) (cs : List Tlv) :
    ((cs.filter fun c => c.tag != other).eraseP fun c => c.tag == tag)
      = (cs.eraseP fun c => c.tag == tag).filter fun c => c.tag != other := by
  rw [List.eraseP_filter]
  congr 2
  funext c
  by_cases hc : c.tag = tag
  · rw [hc, beq_self_eq_true, bne_iff_ne.mpr hne]
    rfl
  · rw [beq_eq_false_iff_ne.mpr hc, Bool.false_and]

/-! ## The first of several tags -/

/-- The elements without the first one of each of the tags. -/
def eraseFirsts (tags : List Tag) (cs : List Tlv) : List Tlv :=
  tags.foldl (fun cs tag => cs.eraseP fun c => c.tag == tag) cs

variable {tags : List Tag}

theorem eraseFirsts_filter {other : Tag} (h : other ∉ tags) (cs : List Tlv) :
    eraseFirsts tags (cs.filter fun c => c.tag != other)
      = (eraseFirsts tags cs).filter fun c => c.tag != other := by
  induction tags generalizing cs with
  | nil => rfl
  | cons tag tags ih =>
    rw [List.mem_cons, not_or] at h
    obtain ⟨hne, hrest⟩ := h
    rw [eraseFirsts, List.foldl_cons, eraseP_filter (Ne.symm hne)]
    exact ih hrest _

theorem filter_eraseFirsts_of_not_mem (h : tag ∉ tags) (cs : List Tlv) :
    ((eraseFirsts tags cs).filter fun c => c.tag == tag) = cs.filter fun c => c.tag == tag := by
  induction tags generalizing cs with
  | nil => rfl
  | cons first tags ih =>
    rw [List.mem_cons, not_or] at h
    obtain ⟨hne, hrest⟩ := h
    rw [eraseFirsts, List.foldl_cons]
    exact (ih hrest _).trans (EditedAt.filter_of_ne (eraseP_others first cs) hne)

/-- Of each of the tags one element is gone. -/
theorem filter_eraseFirsts (hnodup : tags.Nodup) (h : tag ∈ tags) (cs : List Tlv) :
    ((eraseFirsts tags cs).filter fun c => c.tag == tag)
      = (cs.filter fun c => c.tag == tag).tail := by
  induction tags generalizing cs with
  | nil => cases h
  | cons first tags ih =>
    obtain ⟨hfirst, hrest⟩ := List.nodup_cons.mp hnodup
    rw [eraseFirsts, List.foldl_cons]
    rcases List.mem_cons.mp h with rfl | hmem
    · exact (filter_eraseFirsts_of_not_mem hfirst _).trans (filter_eraseP _ cs)
    · have hne : tag ≠ first := fun hsame => hfirst (hsame ▸ hmem)
      refine (ih hrest hmem _).trans (congrArg List.tail ?_)
      exact EditedAt.filter_of_ne (eraseP_others first cs) hne

/-- Where there is one element at most of each of the tags, all of them are gone. -/
theorem eraseFirsts_of_few {cs : List Tlv}
    (hfew : ∀ tag ∈ tags, (cs.filter fun c => c.tag == tag).length ≤ 1) :
    eraseFirsts tags cs = cs.filter fun c => tags.all fun tag => c.tag != tag := by
  induction tags generalizing cs with
  | nil => exact (List.filter_eq_self.mpr fun _ _ => rfl).symm
  | cons first tags ih =>
    obtain ⟨hfirst, hrest⟩ := List.forall_mem_cons.mp hfew
    have hsub : (cs.filter fun c => !(c.tag == first)).Sublist cs := List.filter_sublist
    rw [eraseFirsts, List.foldl_cons, eraseP_eq_filter hfirst]
    refine (ih fun tag hmem => Nat.le_trans (hsub.filter _).length_le (hrest tag hmem)).trans ?_
    rw [List.filter_filter]
    refine List.filter_congr fun c _ => ?_
    rw [List.all_cons, Bool.and_comm]
    rfl

/-- Replacing the first child with a tag succeeds if there is one, and exchanging it changes
nothing if there is none. -/
theorem replaceChild_below {path : Path} {s : Step} {root : Tag} {cs : List Tlv} {new : Tlv}
    (hroot : path.root.tag = t.tag) (hsteps : path.steps = holder ++ [s]) (hindex : s.index = 0)
    (hholder : t.get? holder = some (.constructed root cs)) :
    (∃ old, t.replaceChild path new
        = .ok (t.put holder (.constructed root (exchangeFirst s.tag new cs)), old)) ∨
      (∃ e, t.replaceChild path new = .error e) ∧ exchangeFirst s.tag new cs = cs := by
  have hget : t.get? path.steps = (constructed root cs).get? [s] := by
    rw [hsteps, get?_append, hholder, Option.bind_some]
  rcases splits_first_or_none s.tag cs with ⟨front, old, back, hsplit⟩ | hnone
  · have hput : (constructed root cs).put [s] new
        = constructed root (exchangeFirst s.tag new cs) := by
      rw [hsplit.exchangeFirst]
      rw [← hindex] at hsplit
      exact hsplit.put root [] new
    rw [← hindex] at hsplit
    refine .inl ⟨old, replaceChild_eq_ok.mpr ⟨by simp [hsteps], child?_eq_some.mpr ⟨hroot, ?_⟩, ?_⟩⟩
    · rw [hget, hsplit.get?]
      rfl
    · rw [hsteps, put_append hholder, hput]
  · refine .inr ⟨?_, exchangeFirst_of_none hnone⟩
    cases hreplaced : t.replaceChild path new with
    | error e => exact ⟨e, rfl⟩
    | ok result =>
      obtain ⟨-, hfound, -⟩ := replaceChild_eq_ok.mp hreplaced
      obtain ⟨-, hfound⟩ := child?_eq_some.mp hfound
      rw [hget] at hfound
      obtain ⟨_, _, front, c, back, hsame, hsplit, -⟩ := exists_of_get?_cons hfound
      cases hsame
      refine absurd hsplit.tagged (hnone c ?_)
      rw [hsplit.parts]
      exact List.mem_append_right _ List.mem_cons_self

end Tlv
end CardAccess

import CardAccess.Proofs.Tlv.Place

/-!
# Positions

A path says by tags which element it means, so an edit may give a path another meaning.  A
position says where an element is: at each level which of the children, counting all of them.
`LeadsTo` is how the steps of a path lead to a position, and `positions?` finds it.

`ExchangedAt` says of two trees that they differ in the element at one position and nowhere else,
by what stands at all the others, and `exchangedAt_iff` that this leaves one tree only.  Where the
two elements have the same tag, the tags that a path counts are the same ones, so a path to
another position leads there still (`LeadsTo.of_exchangedAt`).
-/

namespace CardAccess
namespace Tlv

/-- The element at a position. -/
def at? (t : Tlv) : List Nat → Option Tlv
  | [] => some t
  | i :: pos => t.children[i]?.bind fun c => c.at? pos

/-- The tree with another element at a position, or the same tree if there is no such position. -/
def setAt (t : Tlv) : List Nat → Tlv → Tlv
  | [], new => new
  | i :: pos, new =>
    match t.children[i]? with
    | none => t
    | some c => t.withChildren (t.children.set i (c.setAt pos new))

/-- The position that a path leads to, if it starts at this element's tag. -/
def position? (t : Tlv) (path : Path) : Option (List Nat) :=
  if path.root.tag = t.tag then t.positions? path.steps else none

/-- The steps lead to a position: each to the child with the tag of the step that as many others
with this tag stand in front of as the step says. -/
inductive LeadsTo : Tlv → List Step → List Nat → Prop where
  | here (t : Tlv) : LeadsTo t [] []
  | inside {root : Tag} {s : Step} {steps : List Step} {cs front back : List Tlv} {c : Tlv}
      {pos : List Nat} (hsplit : Splits s.tag s.index cs front c back) (h : LeadsTo c steps pos) :
      LeadsTo (.constructed root cs) (s :: steps) (front.length :: pos)

variable {t t' old new found : Tlv} {cs front back : List Tlv} {c : Tlv} {root : Tag}
  {steps : List Step} {pos there : List Nat}

/-! ## Looking up by position -/

theorem at?_cons (t : Tlv) (i : Nat) (pos : List Nat) :
    t.at? (i :: pos) = t.children[i]?.bind fun c => c.at? pos := rfl

theorem at?_append (t : Tlv) (pos more : List Nat) :
    t.at? (pos ++ more) = (t.at? pos).bind fun found => found.at? more := by
  induction pos generalizing t with
  | nil => rfl
  | cons i pos ih =>
    rw [List.cons_append, at?_cons, at?_cons]
    cases t.children[i]? with
    | none => rfl
    | some c => exact ih c

theorem getElem?_between (front : List Tlv) (c : Tlv) (back : List Tlv) :
    (front ++ c :: back)[front.length]? = some c := by
  simp

theorem at?_between (root : Tag) (front : List Tlv) (c : Tlv) (back : List Tlv)
    (pos : List Nat) :
    (constructed root (front ++ c :: back)).at? (front.length :: pos) = c.at? pos := by
  rw [at?_cons, children, getElem?_between, Option.bind_some]

theorem setAt_between (root : Tag) (front : List Tlv) (c : Tlv) (back : List Tlv)
    (pos : List Nat) (new : Tlv) :
    (constructed root (front ++ c :: back)).setAt (front.length :: pos) new
      = constructed root (front ++ c.setAt pos new :: back) := by
  rw [setAt, children, getElem?_between]
  dsimp only
  rw [withChildren, List.set_append_right _ _ (Nat.le_refl _), Nat.sub_self, List.set_cons_zero]

/-- The way down to a position begins with one of the children. -/
theorem exists_of_at?_cons {i : Nat} (h : t.at? (i :: pos) = some found) :
    ∃ root front c back, t = constructed root (front ++ c :: back) ∧ front.length = i ∧
      c.at? pos = some found := by
  rw [at?_cons] at h
  obtain ⟨c, hc, hfound⟩ := Option.bind_eq_some_iff.mp h
  cases t with
  | primitive root value => cases hc
  | constructed root cs =>
    obtain ⟨hi, hget⟩ := List.getElem?_eq_some_iff.mp hc
    change i < cs.length at hi
    change cs[i] = c at hget
    refine ⟨root, cs.take i, c, cs.drop (i + 1), ?_, ?_, hfound⟩
    · rw [← hget, ← List.drop_eq_getElem_cons hi, List.take_append_drop]
    · rw [List.length_take]
      omega

/-! ## What steps lead to -/

theorem positions?_of_splits {s : Step} (hsplit : Splits s.tag s.index cs front c back)
    (root : Tag) (steps : List Step) :
    (constructed root cs).positions? (s :: steps)
      = (c.positions? steps).map (front.length :: ·) := by
  rw [positions?, nth?, children, hsplit.positionIn, hsplit.getElem?]

theorem positions?_eq_some : t.positions? steps = some pos ↔ LeadsTo t steps pos := by
  induction steps generalizing t pos with
  | nil =>
    constructor
    · intro h
      cases h
      exact .here t
    · intro h
      cases h
      rfl
  | cons s steps ih =>
    constructor
    · intro h
      cases hnth : t.nth? s.tag s.index with
      | none =>
        rw [positions?, hnth] at h
        split at h <;> simp_all
      | some c =>
        cases t with
        | primitive root value => cases hnth
        | constructed root cs =>
          have hfiltered : (cs.filter fun d => d.tag == s.tag)[s.index]? = some c := hnth
          obtain ⟨front, back, hsplit⟩ := exists_splits hfiltered
          rw [positions?_of_splits hsplit] at h
          obtain ⟨pos, hpos, rfl⟩ := Option.map_eq_some_iff.mp h
          exact .inside hsplit (ih.mp hpos)
    · intro h
      cases h with
      | inside hsplit h => rw [positions?_of_splits hsplit, ih.mpr h, Option.map_some]

theorem position?_eq_some {path : Path} :
    t.position? path = some pos ↔ path.root.tag = t.tag ∧ LeadsTo t path.steps pos := by
  rw [position?]
  by_cases hroot : path.root.tag = t.tag
  · simp [hroot, positions?_eq_some]
  · simp [hroot]

/-- A look up finds what stands at the position. -/
theorem LeadsTo.get? (h : LeadsTo t steps pos) : t.get? steps = t.at? pos := by
  induction h with
  | here t => rfl
  | inside hsplit h ih =>
    rw [hsplit.get?, ih, hsplit.parts, at?_between]

theorem LeadsTo.isSome (h : LeadsTo t steps pos) : (t.at? pos).isSome := by
  induction h with
  | here t => rfl
  | inside hsplit h ih => rwa [hsplit.parts, at?_between]

theorem LeadsTo.put (h : LeadsTo t steps pos) (new : Tlv) : t.put steps new = t.setAt pos new := by
  induction h with
  | here t => rfl
  | inside hsplit h ih => rw [hsplit.put, ih, hsplit.parts, setAt_between]

theorem exists_leadsTo (h : t.get? steps = some found) : ∃ pos, LeadsTo t steps pos := by
  induction steps generalizing t with
  | nil => exact ⟨[], .here t⟩
  | cons s steps ih =>
    obtain ⟨root, cs, front, c, back, rfl, hsplit, hc⟩ := exists_of_get?_cons h
    obtain ⟨pos, hpos⟩ := ih hc
    exact ⟨front.length :: pos, .inside hsplit hpos⟩

theorem get?_eq_bind (t : Tlv) (steps : List Step) :
    t.get? steps = (t.positions? steps).bind t.at? := by
  cases hpos : t.positions? steps with
  | some pos => exact (positions?_eq_some.mp hpos).get?
  | none =>
    cases hfound : t.get? steps with
    | none => rfl
    | some found =>
      obtain ⟨pos, h⟩ := exists_leadsTo hfound
      cases hpos.symm.trans (positions?_eq_some.mpr h)

theorem child?_eq_bind (t : Tlv) (path : Path) :
    t.child? path = (t.position? path).bind t.at? := by
  rw [child?, position?]
  split
  · exact t.get?_eq_bind path.steps
  · rfl

/-- The last step leads from the element above to the position below it. -/
theorem LeadsTo.exists_concat {s : Step} (h : LeadsTo t (steps ++ [s]) pos) :
    ∃ above root cs front c back, LeadsTo t steps above ∧
      t.at? above = some (.constructed root cs) ∧ Splits s.tag s.index cs front c back ∧
      pos = above ++ [front.length] := by
  induction steps generalizing t pos with
  | nil =>
    cases h with
    | inside hsplit h =>
      cases h
      exact ⟨[], _, _, _, _, _, .here _, rfl, hsplit, rfl⟩
  | cons q steps ih =>
    cases h with
    | inside hsplit h =>
      obtain ⟨above, root, cs, front, c, back, habove, hget, hlast, rfl⟩ := ih h
      exact ⟨_ :: above, root, cs, front, c, back, .inside hsplit habove,
        by rw [hsplit.parts, at?_between, hget], hlast, rfl⟩

/-! ## Exchanging one element -/

/-- What an element above a change keeps: its tag, that it holds children, and how many. -/
def outline? (t : Tlv) (pos : List Nat) : Option (Tag × Bool × Nat) :=
  (t.at? pos).map fun e => (e.tag, e.isConstructed, e.children.length)

/-- The trees differ in the element at a position, which is `old` in one and `new` in the other,
and nowhere else: all elements beside it are the same ones at the same positions, and those above
it keep their tags and the number of their children. -/
structure ExchangedAt (pos : List Nat) (old new t t' : Tlv) : Prop where
  before : t.at? pos = some old
  after : t'.at? pos = some new
  beside : ∀ there, ¬ pos <+: there → ¬ there <+: pos → t'.at? there = t.at? there
  above : ∀ there, there <+: pos → there ≠ pos → t'.outline? there = t.outline? there

theorem at?_between_of_ne {i : Nat} (h : i ≠ front.length) (root : Tag) (c c' : Tlv)
    (back : List Tlv) (pos : List Nat) :
    (constructed root (front ++ c' :: back)).at? (i :: pos)
      = (constructed root (front ++ c :: back)).at? (i :: pos) := by
  have hget : (front ++ c' :: back)[i]? = (front ++ c :: back)[i]? := by
    rcases Nat.lt_or_gt_of_ne h with hlt | hgt
    · rw [List.getElem?_append_left hlt, List.getElem?_append_left hlt]
    · obtain ⟨more, hmore⟩ : ∃ more, i - front.length = more + 1 := ⟨i - front.length - 1, by omega⟩
      rw [List.getElem?_append_right (by omega), List.getElem?_append_right (by omega), hmore,
        List.getElem?_cons_succ, List.getElem?_cons_succ]
  rw [at?_cons, at?_cons, children, children, hget]

/-- An exchange in one of the children is an exchange in the element around them. -/
theorem ExchangedAt.inside {c' : Tlv} (h : ExchangedAt pos old new c c') (root : Tag)
    (front back : List Tlv) :
    ExchangedAt (front.length :: pos) old new (.constructed root (front ++ c :: back))
      (.constructed root (front ++ c' :: back)) where
  before := (at?_between root front c back pos).trans h.before
  after := (at?_between root front c' back pos).trans h.after
  beside := by
    intro there hbelow habove
    cases there with
    | nil => exact absurd List.nil_prefix habove
    | cons i there =>
      by_cases hi : i = front.length
      · subst hi
        rw [List.cons_prefix_cons, and_iff_right rfl] at hbelow habove
        rw [at?_between, at?_between, h.beside there hbelow habove]
      · exact at?_between_of_ne hi root c c' back there
  above := by
    intro there hprefix hne
    cases there with
    | nil => simp [outline?, at?, Tlv.tag, isConstructed, children]
    | cons i there =>
      obtain ⟨rfl, hinner⟩ := List.cons_prefix_cons.mp hprefix
      have houtline := h.above there hinner (fun hsame => hne (by rw [hsame]))
      rwa [outline?, outline?, at?_between, at?_between]

theorem exchangedAt_setAt (h : t.at? pos = some old) (new : Tlv) :
    ExchangedAt pos old new t (t.setAt pos new) := by
  induction pos generalizing t with
  | nil =>
    refine ⟨h, rfl, fun there hbelow _ => absurd List.nil_prefix hbelow, ?_⟩
    exact fun there hprefix hne => absurd (List.prefix_nil.mp hprefix) hne
  | cons i pos ih =>
    obtain ⟨root, front, c, back, rfl, rfl, hc⟩ := exists_of_at?_cons h
    rw [setAt_between]
    exact (ih hc).inside root front back

/-- An exchange in an element is an exchange in one of its children. -/
theorem ExchangedAt.exists_inside
    (h : ExchangedAt (front.length :: pos) old new (.constructed root (front ++ c :: back)) t') :
    ∃ c', t' = .constructed root (front ++ c' :: back) ∧ ExchangedAt pos old new c c' := by
  obtain ⟨root', front', c', back', rfl, hlength, hc'⟩ := exists_of_at?_cons h.after
  have houter := h.above [] List.nil_prefix (by simp)
  simp only [outline?, at?, Option.map_some, Tlv.tag, isConstructed, children, List.length_append,
    List.length_cons, Option.some.injEq, Prod.mk.injEq, true_and] at houter
  obtain ⟨rfl, hcount⟩ := houter
  -- every other child is the same one, so those in front and those behind are
  have hget (i : Nat) (hi : i ≠ front.length) :
      (front' ++ c' :: back')[i]? = (front ++ c :: back)[i]? := by
    have hbeside := h.beside [i] (by simp [hi.symm]) (by simp [hi])
    rw [at?_cons, at?_cons] at hbeside
    exact (Option.bind_fun_some _).symm.trans (hbeside.trans (Option.bind_fun_some _))
  have hfront : front' = front := by
    refine List.ext_getElem? fun i => ?_
    by_cases hi : i < front.length
    · have hsame := hget i (by omega)
      rwa [List.getElem?_append_left (by omega), List.getElem?_append_left hi] at hsame
    · rw [List.getElem?_eq_none (by omega), List.getElem?_eq_none (by omega)]
  subst hfront
  have hback : back' = back := by
    refine List.ext_getElem? fun i => ?_
    have hsame := hget (front'.length + (i + 1)) (by omega)
    rwa [List.getElem?_append_right (by omega), List.getElem?_append_right (by omega),
      Nat.add_sub_cancel_left, List.getElem?_cons_succ, List.getElem?_cons_succ] at hsame
  subst hback
  refine ⟨c', rfl, ?_, hc', ?_, ?_⟩
  · rw [← h.before, at?_between]
  · intro there hbelow habove
    have hbeside := h.beside (front'.length :: there) (by simpa using hbelow) (by simpa using habove)
    rwa [at?_between, at?_between] at hbeside
  · intro there hprefix hne
    have houtline := h.above (front'.length :: there) (by simpa using hprefix) (by simpa using hne)
    rwa [outline?, outline?, at?_between, at?_between] at houtline

/-- What stands elsewhere leaves no choice: there is one tree only with another element at the
position. -/
theorem exchangedAt_iff : ExchangedAt pos old new t t' ↔
    t.at? pos = some old ∧ t' = t.setAt pos new := by
  constructor
  · intro h
    refine ⟨h.before, ?_⟩
    induction pos generalizing t t' with
    | nil => exact Option.some.inj h.after
    | cons i pos ih =>
      obtain ⟨root, front, c, back, rfl, rfl, hc⟩ := exists_of_at?_cons h.before
      obtain ⟨c', rfl, hinner⟩ := h.exists_inside
      rw [setAt_between, ← ih hinner]
  · rintro ⟨hold, rfl⟩
    exact exchangedAt_setAt hold new

theorem ExchangedAt.unique {t₁ t₂ : Tlv} (h₁ : ExchangedAt pos old new t t₁)
    (h₂ : ExchangedAt pos old new t t₂) : t₁ = t₂ :=
  (exchangedAt_iff.mp h₁).2.trans (exchangedAt_iff.mp h₂).2.symm

/-- Seen from the other tree, the elements have changed places. -/
theorem ExchangedAt.symm (h : ExchangedAt pos old new t t') : ExchangedAt pos new old t' t where
  before := h.after
  after := h.before
  beside there hbelow habove := (h.beside there hbelow habove).symm
  above there hprefix hne := (h.above there hprefix hne).symm

theorem LeadsTo.exchangedAt_put (h : LeadsTo t steps pos) (hold : t.get? steps = some old)
    (new : Tlv) : ExchangedAt pos old new t (t.put steps new) := by
  rw [h.put]
  exact exchangedAt_setAt (h.get?.symm.trans hold) new

/-! ## Paths after an exchange -/

theorem ExchangedAt.tag_eq (h : ExchangedAt pos old new t t') (htag : new.tag = old.tag) :
    t'.tag = t.tag := by
  cases pos with
  | nil =>
    cases h.before
    cases h.after
    exact htag
  | cons i pos =>
    have houtline := h.above [] List.nil_prefix (by simp)
    simp only [outline?, at?, Option.map_some, Option.some.injEq, Prod.mk.injEq] at houtline
    exact houtline.1

/-- The tags decide which child is meant, so one that is not meant may be exchanged for another
with its tag. -/
theorem Splits.of_exchange {tag : Tag} {index : Nat} {outer behind : List Tlv} {d d' : Tlv}
    (h : Splits tag index (outer ++ d :: behind) front c back) (htag : d'.tag = d.tag)
    (hne : outer.length ≠ front.length) :
    ∃ front' back', front'.length = front.length ∧
      Splits tag index (outer ++ d' :: behind) front' c back' := by
  obtain ⟨hparts, htagged, hcounted⟩ := h
  rcases List.append_eq_append_iff.mp hparts with ⟨more, rfl, hmore⟩ | ⟨more, rfl, hmore⟩
  · -- the exchanged child is in front of the one that is meant
    cases more with
    | nil => simp at hne
    | cons e more =>
      cases hmore
      refine ⟨outer ++ d' :: more, back, by simp, by simp, htagged, ?_⟩
      rw [← hcounted]
      by_cases hd : d.tag = tag <;> simp [htag, hd]
  · cases more with
    | nil => simp at hne
    | cons e more =>
      cases hmore
      exact ⟨front, more ++ d' :: behind, rfl, by simp, htagged, hcounted⟩

/-- If the exchanged element keeps its tag, a path still leads where it led to, unless that is
below the element. -/
theorem LeadsTo.of_exchangedAt (h : LeadsTo t steps there)
    (hexchanged : ExchangedAt pos old new t t') (htag : new.tag = old.tag)
    (hbelow : pos <+: there → there = pos) : LeadsTo t' steps there := by
  induction h generalizing pos t' with
  | here t => exact .here t'
  | @inside root s steps cs front back c there hsplit h ih =>
    cases pos with
    | nil => cases hbelow List.nil_prefix
    | cons i pos =>
      have hparts := hsplit.parts
      by_cases hi : i = front.length
      · subst hi hparts
        obtain ⟨c', rfl, hinner⟩ := hexchanged.exists_inside
        have hc' : c'.tag = s.tag := (hinner.tag_eq htag).trans hsplit.tagged
        exact .inside (hsplit.exchange hc') (ih hinner (by simpa using hbelow))
      · obtain ⟨root', outer, d, behind, hsame, rfl, -⟩ := exists_of_at?_cons hexchanged.before
        cases hsame
        obtain ⟨d', rfl, hinner⟩ := hexchanged.exists_inside
        obtain ⟨front', back', hlength, hsplit'⟩ := hsplit.of_exchange (hinner.tag_eq htag) hi
        rw [← hlength]
        exact .inside hsplit' h

/-! ## Siblings after one is gone -/

theorem Splits.eraseIdx {tag : Tag} {index : Nat} (h : Splits tag index cs front c back) :
    cs.eraseIdx front.length = front ++ back := by
  rw [h.parts, List.eraseIdx_append_of_length_le (Nat.le_refl _), Nat.sub_self,
    List.eraseIdx_cons_zero]

/-- What a step becomes by the loss of the `index`-th child with tag `tag`: the later ones with
that tag move down by one. -/
def Step.before (s : Step) (tag : Tag) (index : Nat) : Step :=
  if s.tag = tag ∧ index ≤ s.index then { s with index := s.index + 1 } else s

theorem Splits.get?_erased {tag : Tag} {index : Nat} (h : Splits tag index cs front c back)
    (root : Tag) (s : Step) (steps : List Step) :
    (constructed root (front ++ back)).get? (s :: steps)
      = (constructed root cs).get? (s.before tag index :: steps) := by
  have hnth : (constructed root (front ++ back)).nth? s.tag s.index
      = (constructed root cs).nth? (s.before tag index).tag (s.before tag index).index := by
    rw [nth?, nth?, children, children, List.filter_append, Step.before]
    by_cases htag : s.tag = tag
    · have hcount := h.counted
      subst htag
      rw [← hcount] at *
      by_cases hle : (front.filter fun d => d.tag == s.tag).length ≤ s.index
      · rw [if_pos ⟨rfl, hle⟩]
        dsimp only
        rw [h.filter, List.getElem?_append_right hle, List.getElem?_append_right (by omega),
          Nat.sub_add_comm hle, List.getElem?_cons_succ]
      · rw [if_neg (fun hboth => hle hboth.2), h.filter, List.getElem?_append_left (by omega),
          List.getElem?_append_left (by omega)]
    · rw [if_neg (fun hboth => htag hboth.1), h.parts, List.filter_append, filter_cons_ne]
      rw [h.tagged]
      exact Ne.symm htag
  rw [get?_cons, get?_cons, hnth]

end Tlv
end CardAccess

import CardAccess.Proofs.Tlv.Grammar

/-!
# Where faults are reported

Three things are known of every reader.  A fault lies among the bytes that the reader was given, or
right behind them.  Starting at another offset moves the offsets in the outcome and changes nothing
else.  With one level less the outcome is the same, or an element is found too deep, and no later
than where the reader with more levels came to.

An element that holds other elements is read by reading its value behind its head, with one level
less than the value has by itself.  So the three together say what becomes of the elements of a
value, and of a fault in it, when a head is put in front: `readsInside_frame`.
-/

namespace CardAccess
namespace Tlv

variable {α β : Type}

/-! ## Faults lie in the input -/

/-- The offset right behind the bytes that are left. -/
def Cursor.stop (c : Cursor) : Nat := c.offset + c.bytes.length

/-- The fault lies among the bytes that are left, or right behind them. -/
def DecodeError.Within (e : DecodeError) (c : Cursor) : Prop :=
  c.offset ≤ e.offset ∧ e.offset ≤ c.stop

theorem Cursor.offset_le_stop (c : Cursor) : c.offset ≤ c.stop := Nat.le_add_right _ _

theorem Cursor.bytes_ne_nil (c : Cursor) (h : ∀ offset, c = ⟨offset, []⟩ → False) :
    c.bytes ≠ [] := by
  obtain ⟨offset, bytes⟩ := c
  rintro rfl
  exact h offset rfl

theorem Cursor.Spans.offset_le {c c' : Cursor} {front : Bytes} (h : c.Spans front c') :
    c.offset ≤ c'.offset := by
  rw [h.offset]
  exact Nat.le_add_right _ _

theorem Cursor.Spans.stop {c c' : Cursor} {front : Bytes} (h : c.Spans front c') :
    c'.stop = c.stop := by
  rw [Cursor.stop, Cursor.stop, h.offset, h.length, Nat.add_assoc]

/-- What lies behind a part of the input lies in the input. -/
theorem DecodeError.Within.behind {e : DecodeError} {c c' : Cursor} {front : Bytes}
    (h : e.Within c') (hspan : c.Spans front c') : e.Within c :=
  ⟨Nat.le_trans hspan.offset_le h.1, hspan.stop ▸ h.2⟩

theorem DecodeError.within_start (c : Cursor) (kind : DecodeError.Kind) :
    DecodeError.Within ⟨c.offset, kind⟩ c :=
  ⟨Nat.le_refl _, c.offset_le_stop⟩

theorem Cursor.within_of_fail {c : Cursor} {kind : DecodeError.Kind} {e : DecodeError}
    (h : c.fail (α := α) kind = .error e) : e.Within c := by
  cases h
  exact DecodeError.within_start c kind

theorem Cursor.within_of_next {c : Cursor} {e : DecodeError} (h : c.next = .error e) :
    e.Within c := by
  rw [next] at h
  split at h
  · exact within_of_fail h
  · cases h

theorem Cursor.within_of_take {c : Cursor} {count : Nat} {e : DecodeError}
    (h : c.take count = .error e) : e.Within c := by
  rw [take] at h
  split at h
  · exact within_of_fail h
  · cases h

/-- A tag that is too long is reported where it starts. -/
theorem Tag.within_of_readMore {start room number : Nat} {c : Cursor} {e : DecodeError}
    (h : readMore start room number c = .error e) : e.offset = start ∨ e.Within c := by
  induction room generalizing number c with
  | zero =>
    cases h
    exact .inl rfl
  | succ room ih =>
    rw [readMore] at h
    obtain hnext | ⟨⟨byte, c₁⟩, hnext, h⟩ := bind_eq_error.mp h
    · exact .inr (Cursor.within_of_next hnext)
    · by_cases hbyte : marksMore byte = true
      · simp only [hbyte, if_true] at h
        exact (ih h).imp_right (·.behind (Cursor.next_eq_ok.mp hnext))
      · simp only [hbyte, if_false, Bool.false_eq_true] at h
        cases h

theorem Tag.within_of_read {c : Cursor} {e : DecodeError} (h : read c = .error e) :
    e.Within c := by
  rw [read] at h
  obtain hnext | ⟨⟨first, c₁⟩, hnext, h⟩ := bind_eq_error.mp h
  · exact Cursor.within_of_next hnext
  · by_cases hlong : marksLong first = true
    · simp only [hlong, if_true] at h
      obtain hstart | hwithin := within_of_readMore h
      · exact ⟨Nat.le_of_eq hstart.symm, hstart ▸ c.offset_le_stop⟩
      · exact hwithin.behind (Cursor.next_eq_ok.mp hnext)
    · simp only [hlong, if_false, Bool.false_eq_true] at h
      cases h

theorem Length.within_of_read {c : Cursor} {e : DecodeError} (h : read c = .error e) :
    e.Within c := by
  rw [read] at h
  obtain hnext | ⟨⟨first, c₁⟩, hnext, h⟩ := bind_eq_error.mp h
  · exact Cursor.within_of_next hnext
  · dsimp only at h
    split at h
    · cases h
    split at h
    · exact Cursor.within_of_fail h
    split at h
    · exact Cursor.within_of_fail h
    obtain htake | ⟨_, -, h⟩ := bind_eq_error.mp h
    · exact (Cursor.within_of_take htake).behind (Cursor.next_eq_ok.mp hnext)
    · cases h

/-! ## Faults of elements -/

theorem within_of_readHead {c : Cursor} {e : DecodeError} (h : readHead c = .error e) :
    e.Within c := by
  rw [readHead] at h
  obtain htag | ⟨⟨tag, c₁⟩, htag, h⟩ := bind_eq_error.mp h
  · exact Tag.within_of_read htag
  obtain ⟨-, hspan₁⟩ := Tag.read_eq_ok.mp htag
  obtain hlength | ⟨⟨length, c₂⟩, hlength, h⟩ := bind_eq_error.mp h
  · exact (Length.within_of_read hlength).behind hspan₁
  obtain ⟨field, -, hspan₂⟩ := Length.read_eq_ok.mp hlength
  obtain htake | ⟨_, -, h⟩ := bind_eq_error.mp h
  · exact (Cursor.within_of_take htake).behind (hspan₁.trans hspan₂)
  · cases h

/-- The value lies in the input, and the cursor behind the element is where the value ends. -/
theorem bounds_of_readHead {c : Cursor} {head : Head} (h : readHead c = .ok head) :
    c.offset ≤ head.value.offset ∧ head.value.stop = head.rest.offset ∧
      head.rest.stop = c.stop := by
  obtain ⟨c₁, field, c₂, -, hspan₁, -, hspan₂, hoffset, hspan₃⟩ := readHead_eq_ok.mp h
  have hbefore := hspan₁.trans hspan₂
  refine ⟨?_, ?_, (hbefore.trans hspan₃).stop⟩
  · rw [hoffset]
    exact hbefore.offset_le
  · rw [Cursor.stop, hoffset, hspan₃.offset]

theorem within_of_readAll {readOne : Cursor → Except DecodeError (Tlv × Cursor)}
    (hone : ∀ {c : Cursor} {e : DecodeError}, readOne c = .error e → e.Within c)
    (hspan : ∀ {c c' : Cursor} {t : Tlv}, readOne c = .ok (t, c') → ∃ front, c.Spans front c')
    {fuel : Nat} {c : Cursor} {e : DecodeError} (h : readAll readOne fuel c = .error e) :
    e.Within c := by
  fun_induction readAll readOne fuel c with
  | case1 => cases h
  | case2 c hnonempty => exact Cursor.within_of_fail h
  | case3 fuel c hnonempty ih =>
    obtain hread | ⟨⟨t, c₁⟩, hread, h⟩ := bind_eq_error.mp h
    · exact hone hread
    · obtain ⟨front, hfront⟩ := hspan hread
      obtain hrest | ⟨_, -, h⟩ := bind_eq_error.mp h
      · exact (ih c₁ hrest).behind hfront
      · cases h

theorem spans_of_read {levels : Nat} {c c' : Cursor} {t : Tlv} (h : read levels c = .ok (t, c')) :
    ∃ front, c.Spans front c' := by
  obtain ⟨-, front, -, hspan⟩ := read_eq_ok.mp h
  exact ⟨front, hspan⟩

theorem within_of_read {levels : Nat} {c : Cursor} {e : DecodeError}
    (h : read levels c = .error e) : e.Within c := by
  induction levels generalizing c e with
  | zero => exact Cursor.within_of_fail h
  | succ levels ih =>
    rw [read_succ] at h
    obtain hhead | ⟨head, hhead, h⟩ := bind_eq_error.mp h
    · exact within_of_readHead hhead
    · rw [readContent] at h
      split at h
      · obtain hvalue | ⟨_, -, h⟩ := bind_eq_error.mp h
        · obtain ⟨hstart, hstop, hend⟩ := bounds_of_readHead hhead
          obtain ⟨hlow, hhigh⟩ := within_of_readAll ih spans_of_read hvalue
          have hrest := head.rest.offset_le_stop
          exact ⟨by omega, by omega⟩
        · cases h
      · cases h

/-! ## Starting at another offset -/

def Cursor.moved (k : Nat) (c : Cursor) : Cursor := ⟨k + c.offset, c.bytes⟩

def DecodeError.moved (k : Nat) (e : DecodeError) : DecodeError := ⟨k + e.offset, e.kind⟩

def Head.moved (k : Nat) (head : Head) : Head :=
  ⟨head.tag, head.value.moved k, head.rest.moved k⟩

/-- The outcome of a reader with all offsets moved, those in what it returns by `move`. -/
def moved (k : Nat) (move : α → α) : Except DecodeError α → Except DecodeError α
  | .ok a => .ok (move a)
  | .error e => .error (e.moved k)

/-- A reader of two steps moves if both do. -/
theorem moved_bind {k : Nat} {move : α → α} {move' : β → β} {x : Except DecodeError α}
    {f g : α → Except DecodeError β} (h : ∀ a, g (move a) = moved k move' (f a)) :
    (moved k move x >>= g) = moved k move' (x >>= f) := by
  cases x with
  | error e => rfl
  | ok a => exact h a

/-- The outcome of a reader that returns a cursor beside what it read. -/
abbrev movedRest (k : Nat) : Except DecodeError (α × Cursor) → Except DecodeError (α × Cursor) :=
  moved k (Prod.map id (Cursor.moved k))

theorem Cursor.next_moved (k : Nat) (c : Cursor) : (c.moved k).next = movedRest k c.next := by
  obtain ⟨offset, bytes⟩ := c
  cases bytes <;> rfl

theorem Cursor.take_moved (k : Nat) (c : Cursor) (count : Nat) :
    (c.moved k).take count
      = Tlv.moved k (Prod.map (Cursor.moved k) (Cursor.moved k)) (c.take count) := by
  have hbytes : (c.moved k).bytes = c.bytes := rfl
  rw [take, take, hbytes]
  cases c.bytes.split? count with
  | none => rfl
  | some cut =>
    simp only [Tlv.moved, Prod.map, moved, Nat.add_assoc]

theorem Tag.readMore_moved (k start room number : Nat) (c : Cursor) :
    readMore (k + start) room number (c.moved k) = movedRest k (readMore start room number c) := by
  induction room generalizing number c with
  | zero => rfl
  | succ room ih =>
    rw [readMore, readMore, Cursor.next_moved]
    refine moved_bind fun a => ?_
    obtain ⟨byte, c₁⟩ := a
    dsimp only [Prod.map, id]
    split
    · exact ih _ _
    · rfl

theorem Tag.read_moved (k : Nat) (c : Cursor) : read (c.moved k) = movedRest k (read c) := by
  rw [read, read, Cursor.next_moved]
  refine moved_bind fun a => ?_
  obtain ⟨first, c₁⟩ := a
  dsimp only [Prod.map, id]
  split
  · exact readMore_moved k _ _ _ _
  · rfl

theorem Length.read_moved (k : Nat) (c : Cursor) : read (c.moved k) = movedRest k (read c) := by
  rw [read, read, Cursor.next_moved]
  refine moved_bind fun a => ?_
  obtain ⟨first, c₁⟩ := a
  dsimp only [Prod.map, id]
  split
  · rfl
  split
  · rfl
  split
  · rfl
  rw [Cursor.take_moved]
  exact moved_bind fun _ => rfl

theorem readHead_moved (k : Nat) (c : Cursor) :
    readHead (c.moved k) = moved k (Head.moved k) (readHead c) := by
  rw [readHead, readHead, Tag.read_moved]
  refine moved_bind fun a => ?_
  obtain ⟨tag, c₁⟩ := a
  dsimp only [Prod.map, id]
  rw [Length.read_moved]
  refine moved_bind fun a => ?_
  obtain ⟨length, c₂⟩ := a
  dsimp only [Prod.map, id]
  rw [Cursor.take_moved]
  exact moved_bind fun _ => rfl

theorem readAll_moved {readOne : Cursor → Except DecodeError (Tlv × Cursor)} {k : Nat}
    (hone : ∀ c, readOne (c.moved k) = movedRest k (readOne c)) (fuel : Nat) (c : Cursor) :
    readAll readOne fuel (c.moved k) = moved k id (readAll readOne fuel c) := by
  fun_induction readAll readOne fuel c with
  | case1 => exact readAll_nil _ _ rfl
  | case2 c hnonempty => exact readAll_zero _ (c.bytes_ne_nil hnonempty)
  | case3 fuel c hnonempty ih =>
    have hbytes : (c.moved k).bytes ≠ [] := c.bytes_ne_nil hnonempty
    rw [readAll_succ readOne fuel hbytes, hone]
    refine moved_bind fun a => ?_
    obtain ⟨t, c₁⟩ := a
    dsimp only [Prod.map, id]
    rw [ih c₁]
    exact moved_bind fun _ => rfl

/-- Where the input starts does not matter to what is read. -/
theorem read_moved (k levels : Nat) (c : Cursor) :
    read levels (c.moved k) = movedRest k (read levels c) := by
  induction levels generalizing c with
  | zero => rfl
  | succ levels ih =>
    rw [read_succ, read_succ, readHead_moved]
    refine moved_bind fun head => ?_
    rw [readContent, readContent]
    show (if head.tag.isConstructed then _ else _) = _
    split
    · show readAll (read levels) head.value.bytes.length (head.value.moved k) >>= _ = _
      rw [readAll_moved ih]
      exact moved_bind fun _ => rfl
    · rfl

/-! ## One level less -/

/-- How far a reader has come: where it found a fault, or where it stopped reading, which is
`place` of what it returns. -/
def reach (place : α → Nat) : Except DecodeError α → Nat
  | .ok a => place a
  | .error e => e.offset

/-- The second outcome is the first, or the reader found an element too deep on the way there. -/
def CutShort (place : α → Nat) (x y : Except DecodeError α) : Prop :=
  y = x ∨ ∃ offset, offset ≤ reach place x ∧ y = .error ⟨offset, .tooDeep⟩

theorem cutShort_refl (place : α → Nat) (x : Except DecodeError α) : CutShort place x x := .inl rfl

theorem cutShort_bind {place : α → Nat} {place' : β → Nat} {x y : Except DecodeError α}
    {f g : α → Except DecodeError β} (hx : CutShort place x y)
    (hf : ∀ a, x = .ok a → CutShort place' (f a) (g a))
    (hreach : ∀ a, x = .ok a → place a ≤ reach place' (f a)) :
    CutShort place' (x >>= f) (y >>= g) := by
  cases x with
  | error e =>
    obtain rfl | ⟨offset, hoffset, rfl⟩ := hx
    · exact .inl rfl
    · exact .inr ⟨offset, hoffset, rfl⟩
  | ok a =>
    obtain rfl | ⟨offset, hoffset, rfl⟩ := hx
    · exact hf a rfl
    · exact .inr ⟨offset, Nat.le_trans hoffset (hreach a rfl), rfl⟩

/-- What comes before the readers part is read by both. -/
theorem cutShort_bind_same {place : β → Nat} {x : Except DecodeError α}
    {f g : α → Except DecodeError β} (h : ∀ a, x = .ok a → CutShort place (f a) (g a)) :
    CutShort place (x >>= f) (x >>= g) := by
  cases x with
  | error e => exact .inl rfl
  | ok a => exact h a rfl

section

variable {place : α → Nat} {place' : β → Nat} {f : α → β}

theorem reach_bind_ok (hplace : ∀ a, place' (f a) = place a) (x : Except DecodeError α) :
    reach place' (x >>= fun a => .ok (f a)) = reach place x := by
  cases x with
  | error e => rfl
  | ok a => exact hplace a

theorem CutShort.bind_ok {x y : Except DecodeError α} (h : CutShort place x y)
    (hplace : ∀ a, place' (f a) = place a) :
    CutShort place' (x >>= fun a => .ok (f a)) (y >>= fun a => .ok (f a)) :=
  cutShort_bind h (fun _ _ => cutShort_refl _ _) (fun a _ => Nat.le_of_eq (hplace a).symm)

end

/-- The place of a cursor beside what was read. -/
def restPlace (r : α × Cursor) : Nat := r.2.offset

theorem offset_le_reach_read (levels : Nat) (c : Cursor) :
    c.offset ≤ reach restPlace (read levels c) := by
  cases h : read levels c with
  | error e => exact (within_of_read h).1
  | ok r =>
    obtain ⟨front, hspan⟩ := spans_of_read h
    exact hspan.offset_le

theorem offset_le_reach_readAll (levels fuel : Nat) (c : Cursor) :
    c.offset ≤ reach (fun _ => c.stop) (readAll (read levels) fuel c) := by
  cases h : readAll (read levels) fuel c with
  | error e => exact (within_of_readAll within_of_read spans_of_read h).1
  | ok ts => exact c.offset_le_stop

/-- A list of elements is read to the end of its bytes or to the first fault. -/
theorem readAll_fewer {levels : Nat}
    (hone : ∀ c, CutShort restPlace (read (levels + 1) c) (read levels c)) (fuel : Nat) (c : Cursor) :
    CutShort (fun _ => c.stop) (readAll (read (levels + 1)) fuel c)
      (readAll (read levels) fuel c) := by
  fun_induction readAll (read levels) fuel c with
  | case1 =>
    rw [readAll_nil _ _ rfl]
    exact cutShort_refl _ _
  | case2 c hnonempty =>
    rw [readAll_zero _ (c.bytes_ne_nil hnonempty)]
    exact cutShort_refl _ _
  | case3 fuel c hnonempty ih =>
    rw [readAll_succ _ fuel (c.bytes_ne_nil hnonempty)]
    refine cutShort_bind (hone c) (fun r hread => ?_) (fun r hread => ?_)
    · obtain ⟨front, hspan⟩ := spans_of_read hread
      exact (ih r.2).bind_ok fun _ => hspan.stop.symm
    · obtain ⟨front, hspan⟩ := spans_of_read hread
      calc r.2.offset ≤ reach (fun _ => r.2.stop) (readAll (read (levels + 1)) fuel r.2) :=
            offset_le_reach_readAll _ _ _
        _ = reach (fun _ => c.stop)
              (readAll (read (levels + 1)) fuel r.2 >>= fun ts => .ok (r.1 :: ts)) :=
            (reach_bind_ok (f := fun ts => r.1 :: ts) (fun _ => hspan.stop.symm) _).symm

theorem read_fewer (levels : Nat) (c : Cursor) :
    CutShort restPlace (read (levels + 1) c) (read levels c) := by
  induction levels generalizing c with
  | zero => exact .inr ⟨c.offset, offset_le_reach_read 1 c, rfl⟩
  | succ levels ih =>
    rw [read_succ (levels + 1), read_succ levels]
    refine cutShort_bind_same fun head hhead => ?_
    obtain ⟨-, hstop, -⟩ := bounds_of_readHead hhead
    rw [readContent, readContent]
    split
    · exact (readAll_fewer ih _ head.value).bind_ok fun _ => hstop.symm
    · exact cutShort_refl _ _

/-! ## Elements around a value -/

/-- An element that holds other elements is read by reading its value behind its head. -/
theorem parse_constructed {tag : Tag} {field value : Bytes} (htag : tag.Decodable)
    (hkind : tag.isConstructed = true) (hfield : Length.Field value.length field) :
    parse (tag.toBytes ++ (field ++ value)) =
      (moved (tag.toBytes.length + field.length) id
        (readAll (read (maxLevels - 1)) value.length ⟨0, value⟩)).map (.constructed tag) := by
  generalize hinput : tag.toBytes ++ (field ++ value) = input
  have hstart : Cursor.Spans ⟨0, input⟩ (tag.toBytes ++ (field ++ value)) ⟨0 + input.length, []⟩ :=
    ⟨by rw [hinput, List.append_nil], by rw [hinput]⟩
  obtain ⟨c₁, hspan₁, hspan⟩ := hstart.split
  obtain ⟨c₂, hspan₂, hspan₃⟩ := hspan.split
  have hoffset : tag.toBytes.length + field.length = c₂.offset := by
    rw [hspan₂.offset, hspan₁.offset, Nat.zero_add]
  have hhead : readHead ⟨0, input⟩
      = .ok ⟨tag, Cursor.moved (tag.toBytes.length + field.length) ⟨0, value⟩,
        ⟨0 + input.length, []⟩⟩ :=
    readHead_eq_ok.mpr ⟨c₁, field, c₂, htag, hspan₁, hfield, hspan₂, hoffset, hspan₃⟩
  have hnonempty : ¬ input.isEmpty = true := by
    have hpos := tag.length_pos
    have hlength := congrArg List.length hinput
    rw [List.length_append, Tag.length_toBytes] at hlength
    rw [List.isEmpty_iff, ← List.length_eq_zero_iff]
    omega
  have hread : read maxLevels ⟨0, input⟩ = _ := read_succ (maxLevels - 1) ⟨0, input⟩
  rw [parse, if_neg hnonempty, hread, hhead, bind_of_ok rfl, readContent]
  dsimp only
  rw [if_pos hkind]
  show ((readAll _ value.length (Cursor.moved _ ⟨0, value⟩) >>= _) >>= _) = _
  rw [readAll_moved (read_moved _ _)]
  cases readAll (read (maxLevels - 1)) value.length ⟨0, value⟩ with
  | error e => rfl
  | ok children => rfl

theorem offset_le_of_parse {input : Bytes} {e : DecodeError} (h : parse input = .error e) :
    e.offset ≤ input.length := by
  have hend : (⟨0, input⟩ : Cursor).stop = input.length := Nat.zero_add _
  rw [parse] at h
  split at h
  · cases h
    exact Nat.zero_le _
  obtain hread | ⟨⟨t, rest⟩, hread, h⟩ := bind_eq_error.mp h
  · exact hend ▸ (within_of_read hread).2
  · dsimp only at h
    split at h
    · cases h
    · cases h
      obtain ⟨front, hspan⟩ := spans_of_read hread
      exact hend ▸ hspan.stop ▸ rest.offset_le_stop

theorem offset_le_of_parseAll {input : Bytes} {e : DecodeError} (h : parseAll input = .error e) :
    e.offset ≤ input.length := by
  have hend : (⟨0, input⟩ : Cursor).stop = input.length := Nat.zero_add _
  exact hend ▸ (within_of_readAll within_of_read spans_of_read h).2

/-- What becomes of the outcome for `value` when the input is an element with that value, which
starts `head` bytes into the input. -/
structure ReadsInside (tag : Tag) (head : Nat) (value input : Bytes) : Prop where
  /-- There is a level left for the element around. -/
  shallow : ∀ children, parseAll value = .ok children → levelsAll children < maxLevels →
    parse input = .ok (.constructed tag children)
  /-- There is none. -/
  deep : ∀ children, parseAll value = .ok children → levelsAll children = maxLevels →
    ∃ offset, offset ≤ value.length ∧ parse input = .error ⟨head + offset, .tooDeep⟩
  /-- A fault is found again, unless there is an element too deep before it or at its place. -/
  fault : ∀ e, parseAll value = .error e → parse input = .error ⟨head + e.offset, e.kind⟩ ∨
    ∃ offset, offset ≤ e.offset ∧ parse input = .error ⟨head + offset, .tooDeep⟩

theorem readsInside_frame {tag : Tag} {field value : Bytes} (htag : tag.Decodable)
    (hkind : tag.isConstructed = true) (hfield : Length.Field value.length field) :
    ReadsInside tag (tag.toBytes.length + field.length) value
      (tag.toBytes ++ (field ++ value)) := by
  have hparse := parse_constructed htag hkind hfield
  have hcut : CutShort (fun _ => value.length) (parseAll value)
      (readAll (read (maxLevels - 1)) value.length ⟨0, value⟩) := by
    have hfewer := readAll_fewer (read_fewer (maxLevels - 1)) value.length ⟨0, value⟩
    rwa [Cursor.stop, Nat.zero_add] at hfewer
  constructor
  · intro children hvalue hlevels
    obtain ⟨-, hencodes⟩ := parseAll_eq_ok.mp hvalue
    exact parse_eq_ok.mpr ⟨hlevels, .constructed tag children value field htag hkind hfield hencodes⟩
  · intro children hvalue hlevels
    rw [hvalue] at hcut
    obtain hsame | ⟨offset, hoffset, hdeep⟩ := hcut
    · obtain ⟨hle, -⟩ := (readAll_eq_ok (c := ⟨0, value⟩) read_eq_ok (Nat.le_refl _)).mp hsame
      rw [hlevels] at hle
      exact absurd hle (by decide)
    · rw [hdeep] at hparse
      exact ⟨offset, hoffset, hparse⟩
  · intro e hvalue
    rw [hvalue] at hcut
    obtain hsame | ⟨offset, hoffset, hdeep⟩ := hcut
    · rw [hsame] at hparse
      exact .inl hparse
    · rw [hdeep] at hparse
      exact .inr ⟨offset, hoffset, hparse⟩

/-- An element that holds other elements is read as its value is, with the offsets of faults counted
from the start of the element; the one thing that can come between is that an element inside is too
deep now.  No offset is behind the end of the input. -/
theorem readsInside_and_offset_le :
    (∀ (tag : Tag) (field value : Bytes), tag.Decodable → tag.isConstructed = true →
      Length.Field value.length field →
      ReadsInside tag (tag.toBytes.length + field.length) value
        (tag.toBytes ++ (field ++ value))) ∧
    ∀ (input : Bytes) (e : DecodeError), parse input = .error e ∨ parseAll input = .error e →
      e.offset ≤ input.length :=
  ⟨fun _ _ _ => readsInside_frame, fun _ _ h => h.elim offset_le_of_parse offset_le_of_parseAll⟩

/-- As many elements inside each other as can be read by themselves, and a cut one, each in another
element. -/
theorem readsInside_and_offset_le_nested :
    let nested : Bytes := (List.range maxLevels).reverse.flatMap fun n => [0x30, UInt8.ofNat (2 * n)]
    let cut : Bytes := [0x04, 0x05, 0x00]
    (∃ offset, offset ≤ 64 ∧ parse ([0x30] ++ ([0x40] ++ nested)) = .error ⟨2 + offset, .tooDeep⟩) ∧
    (parse ([0x30] ++ ([0x03] ++ cut)) = .error ⟨4, .truncated⟩ ∨
      ∃ offset, offset ≤ 2 ∧ parse ([0x30] ++ ([0x03] ++ cut)) = .error ⟨2 + offset, .tooDeep⟩) ∧
    2 ≤ cut.length := by
  intro nested cut
  have htag : Tag.sequence.Decodable := .short 0x30 (by decide)
  have hnested : parseAll nested
      = .ok (Nat.repeat (fun ts => [.constructed Tag.sequence ts]) maxLevels []) := by decide +kernel
  have hcut : parseAll cut = .error ⟨2, .truncated⟩ := by decide +kernel
  obtain ⟨hinside, hoffset⟩ := readsInside_and_offset_le
  exact ⟨(hinside Tag.sequence [0x40] nested htag (by decide) (.short 64 (by decide))).deep
      _ hnested (by decide +kernel),
    (hinside Tag.sequence [0x03] cut htag (by decide) (.short 3 (by decide))).fault _ hcut,
    hoffset cut ⟨2, .truncated⟩ (.inr hcut)⟩

end Tlv
end CardAccess

import CardAccess.Proofs.Tlv.Grammar

/-!
# Writing and reading back

The element trees whose encoding reads back are the well-formed ones, and they
are also all that reading ever returns.  The second statement gives half of the
first: whatever is read is well-formed, whichever bytes it was read from, so
nothing has to be said about how the encoding of an ill-formed tree falls apart.
What remains is that a regular tree has its encoding among its encodings.
-/

namespace CardAccess
namespace Tlv

/-! ## Lengths -/

theorem length_frame (tag : Tag) (value : Bytes) :
    (frame tag value).length = tag.length + Length.fieldLength value.length + value.length := by
  rw [frame, List.length_append, List.length_append, Tag.length_toBytes, Length.length_encode,
    Nat.add_assoc]

mutual

theorem length_encode : (t : Tlv) → t.encode.length = t.encodedLength
  | .primitive tag value => length_frame tag value
  | .constructed tag children => by
    rw [encode, length_frame, length_encodeAll children, encodedLength]

theorem length_encodeAll : (ts : List Tlv) → (encodeAll ts).length = encodedLengthAll ts
  | [] => rfl
  | t :: ts => by
    rw [encodeAll, List.length_append, length_encode t, length_encodeAll ts, encodedLengthAll]

end

theorem encodedLengthAll_append (ss ts : List Tlv) :
    encodedLengthAll (ss ++ ts) = encodedLengthAll ss + encodedLengthAll ts := by
  induction ss with
  | nil => exact (Nat.zero_add _).symm
  | cons s ss ih =>
    rw [List.cons_append, encodedLengthAll, encodedLengthAll, ih, Nat.add_assoc]

theorem length_value (t : Tlv) : t.value.length = t.valueLength := by
  cases t with
  | primitive tag value => rfl
  | constructed tag children => exact length_encodeAll children

theorem encodedLength_eq (t : Tlv) :
    t.encodedLength = t.tag.length + Length.fieldLength t.valueLength + t.valueLength := by
  cases t <;> rfl

/-- Of two elements the one with the shorter value is the shorter one, unless its tag is longer. -/
theorem encodedLength_le {s t : Tlv} (htag : s.tag.length ≤ t.tag.length)
    (hvalue : s.valueLength ≤ t.valueLength) : s.encodedLength ≤ t.encodedLength := by
  have hfield := Length.fieldLength_mono hvalue
  rw [encodedLength_eq, encodedLength_eq]
  omega

theorem encodedLength_le_encodedLengthAll {c : Tlv} {cs : List Tlv} (h : c ∈ cs) :
    c.encodedLength ≤ encodedLengthAll cs := by
  obtain ⟨front, back, rfl⟩ := List.append_of_mem h
  rw [encodedLengthAll_append, encodedLengthAll]
  omega

theorem encodedLengthAll_le_valueLength (t : Tlv) :
    encodedLengthAll t.children ≤ t.valueLength := by
  cases t with
  | primitive tag value => exact Nat.zero_le _
  | constructed tag cs => exact Nat.le_refl _

/-- Elements with different tags are no longer than a list that has a longer one for each of
them. -/
theorem encodedLengthAll_le {es cs : List Tlv} (hdistinct : (es.map Tlv.tag).Nodup)
    (h : ∀ e ∈ es, ∃ c ∈ cs, c.tag = e.tag ∧ e.encodedLength ≤ c.encodedLength) :
    encodedLengthAll es ≤ encodedLengthAll cs := by
  induction es generalizing cs with
  | nil => exact Nat.zero_le _
  | cons e es ih =>
    obtain ⟨hfirst, hrest⟩ := List.forall_mem_cons.mp h
    obtain ⟨c, hc, htag, hle⟩ := hfirst
    obtain ⟨front, back, rfl⟩ := List.append_of_mem hc
    rw [List.map_cons, List.nodup_cons] at hdistinct
    obtain ⟨hnew, hdistinct⟩ := hdistinct
    -- the other elements have other tags, so their longer ones are before and behind this one
    have hothers : encodedLengthAll es ≤ encodedLengthAll (front ++ back) := by
      refine ih hdistinct fun e' he' => ?_
      obtain ⟨c', hc', htag', hle'⟩ := hrest e' he'
      refine ⟨c', ?_, htag', hle'⟩
      rw [List.mem_append, List.mem_cons] at hc'
      rcases hc' with hfront | rfl | hback
      · exact List.mem_append_left _ hfront
      · exact absurd (List.mem_map.mpr ⟨e', he', htag'.symm.trans htag⟩) hnew
      · exact List.mem_append_right _ hback
    rw [encodedLengthAll_append] at hothers ⊢
    rw [encodedLengthAll, encodedLengthAll]
    omega

/-! ## What is read is well-formed

The encoding that is read need not be the shortest, so the value of an element
may shrink when it is written again.  It never grows, which keeps it below the
bound that its old length field obeyed. -/

mutual

theorem Encodes.regular : {t : Tlv} → {bytes : Bytes} → Encodes t bytes →
    Regular t ∧ t.encodedLength ≤ bytes.length
  | _, _, .primitive tag value field htag hkind hfield => by
    refine ⟨⟨htag, hkind, hfield.lt⟩, ?_⟩
    have hshort := hfield.fieldLength_le
    rw [List.length_append, List.length_append, Tag.length_toBytes, encodedLength]
    omega
  | _, _, .constructed tag children value field htag hkind hfield hvalue => by
    obtain ⟨hregular, hle⟩ := hvalue.regular
    refine ⟨⟨htag, hkind, Nat.lt_of_le_of_lt hle hfield.lt, hregular⟩, ?_⟩
    have hshort := hfield.fieldLength_le
    have hmono := Length.fieldLength_mono hle
    rw [List.length_append, List.length_append, Tag.length_toBytes, encodedLength]
    omega

theorem EncodesAll.regular : {ts : List Tlv} → {bytes : Bytes} → EncodesAll ts bytes →
    RegularAll ts ∧ encodedLengthAll ts ≤ bytes.length
  | _, _, .nil => ⟨trivial, Nat.le_refl _⟩
  | _, _, .cons t ts front rest head tail => by
    obtain ⟨hhead, hfront⟩ := head.regular
    obtain ⟨htail, hrest⟩ := tail.regular
    refine ⟨⟨hhead, htail⟩, ?_⟩
    rw [List.length_append, encodedLengthAll]
    omega

end

theorem Regular.valueLength_lt {t : Tlv} (h : Regular t) : t.valueLength < 2 ^ 32 := by
  cases t with
  | primitive tag value => exact h.2.2
  | constructed tag children => exact h.2.2.1

theorem RegularAll.of_mem {ts : List Tlv} (h : RegularAll ts) {t : Tlv} (ht : t ∈ ts) :
    Regular t := by
  induction ts with
  | nil => cases ht
  | cons s ts ih =>
    rcases List.mem_cons.mp ht with rfl | ht
    · exact h.1
    · exact ih h.2 ht

theorem levels_le_levelsAll {ts : List Tlv} {t : Tlv} (ht : t ∈ ts) : t.levels ≤ levelsAll ts := by
  induction ts with
  | nil => cases ht
  | cons s ts ih =>
    rcases List.mem_cons.mp ht with rfl | ht
    · exact Nat.le_max_left _ _
    · exact Nat.le_trans (ih ht) (Nat.le_max_right _ _)

theorem wellFormed_of_parse {input : Bytes} {t : Tlv} (h : parse input = .ok t) :
    t.WellFormed := by
  obtain ⟨hlevels, hencodes⟩ := parse_eq_ok.mp h
  exact ⟨hencodes.regular.1, hlevels⟩

theorem wellFormed_of_parseAll {input : Bytes} {ts : List Tlv} (h : parseAll input = .ok ts)
    {t : Tlv} (ht : t ∈ ts) : t.WellFormed := by
  obtain ⟨hlevels, hencodes⟩ := parseAll_eq_ok.mp h
  exact ⟨hencodes.regular.1.of_mem ht, Nat.le_trans (levels_le_levelsAll ht) hlevels⟩

/-! ## What is well-formed is read back -/

mutual

theorem Regular.encodes : (t : Tlv) → Regular t → Encodes t t.encode
  | .primitive tag value, ⟨htag, hkind, hlength⟩ =>
    .primitive tag value _ htag hkind (Length.field_encode hlength)
  | .constructed tag children, ⟨htag, hkind, hlength, hchildren⟩ => by
    have hvalue : (encodeAll children).length < 2 ^ 32 := by rwa [length_encodeAll]
    exact .constructed tag children (encodeAll children) _ htag hkind
      (Length.field_encode hvalue) (RegularAll.encodesAll children hchildren)

theorem RegularAll.encodesAll : (ts : List Tlv) → RegularAll ts → EncodesAll ts (encodeAll ts)
  | [], _ => .nil
  | t :: ts, ⟨hhead, htail⟩ =>
    .cons t ts _ _ (Regular.encodes t hhead) (RegularAll.encodesAll ts htail)

end

theorem parse_encode {t : Tlv} (h : t.WellFormed) : parse t.encode = .ok t :=
  parse_eq_ok.mpr ⟨h.2, Regular.encodes t h.1⟩

theorem parseAll_encodeAll {ts : List Tlv} (h : RegularAll ts)
    (hlevels : levelsAll ts ≤ maxLevels) : parseAll (encodeAll ts) = .ok ts :=
  parseAll_eq_ok.mpr ⟨hlevels, RegularAll.encodesAll ts h⟩

/-- A tree reads back from its encoding exactly when it is well-formed: each tag
is one that can be read, its content is of the kind it says, each value is
shorter than `2 ^ 32` bytes and there are at most 32 levels.  Reading returns
nothing else, from whichever bytes, so writing and reading again changes nothing
that was read; and the two lengths are those of the bytes written, of any
tree. -/
theorem parse_encode_iff_wellFormed :
    (∀ t : Tlv, parse t.encode = .ok t ↔ t.WellFormed) ∧
    (∀ tag : Tag, tag.Decodable ↔ ∃ c c', Tag.read c = .ok (tag, c')) ∧
    (∀ (input : Bytes) (t : Tlv), parse input = .ok t →
      t.WellFormed ∧ parse t.encode = parse input) ∧
    (∀ (input : Bytes) (ts : List Tlv), parseAll input = .ok ts → ∀ t ∈ ts, t.WellFormed) ∧
    (∀ t : Tlv, t.encodedLength = t.encode.length ∧ t.valueLength = t.value.length) := by
  refine ⟨fun t => ⟨wellFormed_of_parse, parse_encode⟩, fun tag => ⟨fun h => ?_, ?_⟩,
    fun input t h => ?_, fun input ts h t ht => wellFormed_of_parseAll h ht,
    fun t => ⟨(length_encode t).symm, (length_value t).symm⟩⟩
  · have hspan := Cursor.spans_mk 0 tag.toBytes []
    exact ⟨_, _, Tag.read_eq_ok.mpr ⟨h, hspan⟩⟩
  · rintro ⟨c, c', h⟩
    exact (Tag.read_eq_ok.mp h).1
  · have hwf := wellFormed_of_parse h
    exact ⟨hwf, (parse_encode hwf).trans h.symm⟩

end Tlv
end CardAccess

import CardAccess.Proofs.Tlv.RoundTrip

/-!
# Which encodings are written back unchanged

A tree has many encodings, since a length can be stated in more bytes than it
needs.  `Spells` lists the length fields of an encoding, and this list is all that
the encoding adds to the tree: writing the tree gives the one encoding whose fields
are all minimal, and no other.  That an encoding has one list of fields only follows
from the readers, which are functions: what a reader takes from the front of a byte
string cannot be taken in two ways.
-/

namespace CardAccess
namespace Tlv

/-! ## Length fields -/

namespace Length

/-- No field of the same number is shorter. -/
def Minimal (field : Bytes) : Prop :=
  ∀ (n : Nat) (other : Bytes), Field n field → Field n other → field.length ≤ other.length

/-- Behind a field its end is known. -/
theorem Field.split_unique {n n' : Nat} {field field' rest rest' : Bytes} (h : Field n field)
    (h' : Field n' field') (hbytes : field ++ rest = field' ++ rest') :
    n = n' ∧ field = field' ∧ rest = rest' := by
  have hread := read_eq_ok.mpr ⟨field, h, Cursor.spans_mk 0 field rest⟩
  have hread' := read_eq_ok.mpr ⟨field', h', Cursor.spans_mk 0 field' rest'⟩
  rw [hbytes, hread'] at hread
  injection hread with hpair
  injection hpair with hn hcursor
  injection hcursor with _ hrest
  subst hrest
  exact ⟨hn.symm, List.append_cancel_right hbytes, rfl⟩

theorem field_iff {n : Nat} {field : Bytes} :
    Field n field ↔ (n < 0x80 ∧ field = [UInt8.ofNat n]) ∨
      ∃ digits : Bytes, 0 < digits.length ∧ digits.length ≤ maxCount ∧ n = digits.toNat ∧
        field = UInt8.ofNat (0x80 + digits.length) :: digits := by
  constructor
  · intro h
    cases h with
    | short n h => exact .inl ⟨h, rfl⟩
    | long count digits hpos hmax hlen =>
      subst hlen
      exact .inr ⟨digits, hpos, hmax, rfl, rfl⟩
  · rintro (⟨h, rfl⟩ | ⟨digits, hpos, hmax, rfl, rfl⟩)
    · exact .short n h
    · exact .long digits.length digits hpos hmax rfl

/-- A number has one field of each length. -/
theorem Field.eq_of_length {n : Nat} {field field' : Bytes} (h : Field n field)
    (h' : Field n field') (hlength : field.length = field'.length) : field = field' := by
  rcases field_iff.mp h with ⟨-, rfl⟩ | ⟨digits, hpos, -, rfl, rfl⟩ <;>
    rcases field_iff.mp h' with ⟨-, rfl⟩ | ⟨digits', hpos', -, hn, rfl⟩ <;>
    simp only [List.length_cons, List.length_nil] at hlength
  · rfl
  · omega
  · omega
  · have hcount : digits.length = digits'.length := by omega
    have hdigits : digits = digits' := by
      rw [← Bytes.fixed_toNat digits, hcount, hn, Bytes.fixed_toNat]
    rw [hdigits]

theorem minimal_encode {n : Nat} (hn : n < 2 ^ 32) : Minimal (encode n) := by
  intro n' other h hother
  have hsame : encode n ++ [] = encode n ++ [] := rfl
  obtain ⟨rfl, -, -⟩ := (field_encode hn).split_unique h hsame
  rw [length_encode]
  exact hother.fieldLength_le

theorem Field.eq_encode {n : Nat} {field : Bytes} (h : Field n field) (hminimal : Minimal field) :
    field = encode n := by
  have hencode := field_encode h.lt
  refine h.eq_of_length hencode (Nat.le_antisymm (hminimal n _ h hencode) ?_)
  rw [length_encode]
  exact h.fieldLength_le

end Length

/-! ## The fields of an encoding -/

mutual

/-- `Spells t b fields`: the byte string `b` is an encoding of `t`, and `fields` are
its length fields in the order in which they stand there. -/
inductive Spells : Tlv → Bytes → List Bytes → Prop where
  | primitive (tag : Tag) (value field : Bytes) (htag : tag.Decodable)
      (hkind : tag.isConstructed = false) (hfield : Length.Field value.length field) :
      Spells (.primitive tag value) (tag.toBytes ++ (field ++ value)) [field]
  | constructed (tag : Tag) (children : List Tlv) (value field : Bytes) (fields : List Bytes)
      (htag : tag.Decodable) (hkind : tag.isConstructed = true)
      (hfield : Length.Field value.length field) (hvalue : SpellsAll children value fields) :
      Spells (.constructed tag children) (tag.toBytes ++ (field ++ value)) (field :: fields)

/-- `SpellsAll ts b fields`: the byte string `b` is encodings of the elements `ts` one
after the other, with the length fields `fields`. -/
inductive SpellsAll : List Tlv → Bytes → List Bytes → Prop where
  | nil : SpellsAll [] [] []
  | cons (t : Tlv) (ts : List Tlv) (front rest : Bytes) (fields others : List Bytes)
      (head : Spells t front fields) (tail : SpellsAll ts rest others) :
      SpellsAll (t :: ts) (front ++ rest) (fields ++ others)

end

mutual

theorem Spells.encodes : {t : Tlv} → {bytes : Bytes} → {fields : List Bytes} →
    Spells t bytes fields → Encodes t bytes
  | _, _, _, .primitive tag value field htag hkind hfield =>
    .primitive tag value field htag hkind hfield
  | _, _, _, .constructed tag children value field _ htag hkind hfield hvalue =>
    .constructed tag children value field htag hkind hfield hvalue.encodesAll

theorem SpellsAll.encodesAll : {ts : List Tlv} → {bytes : Bytes} → {fields : List Bytes} →
    SpellsAll ts bytes fields → EncodesAll ts bytes
  | _, _, _, .nil => .nil
  | _, _, _, .cons t ts front rest _ _ head tail =>
    .cons t ts front rest head.encodes tail.encodesAll

end

mutual

theorem Encodes.spells : {t : Tlv} → {bytes : Bytes} → Encodes t bytes →
    ∃ fields, Spells t bytes fields
  | _, _, .primitive tag value field htag hkind hfield =>
    ⟨[field], .primitive tag value field htag hkind hfield⟩
  | _, _, .constructed tag children value field htag hkind hfield hvalue =>
    let ⟨fields, hfields⟩ := hvalue.spellsAll
    ⟨field :: fields, .constructed tag children value field fields htag hkind hfield hfields⟩

theorem EncodesAll.spellsAll : {ts : List Tlv} → {bytes : Bytes} → EncodesAll ts bytes →
    ∃ fields, SpellsAll ts bytes fields
  | _, _, .nil => ⟨[], .nil⟩
  | _, _, .cons t ts front rest head tail =>
    let ⟨fields, hfields⟩ := head.spells
    let ⟨others, hothers⟩ := tail.spellsAll
    ⟨fields ++ others, .cons t ts front rest fields others hfields hothers⟩

end

/-! ## One list of fields -/

/-- Behind an encoding its end is known. -/
theorem Encodes.split_unique {t t' : Tlv} {front front' rest rest' : Bytes} (h : Encodes t front)
    (h' : Encodes t' front') (hbytes : front ++ rest = front' ++ rest') :
    t = t' ∧ front = front' ∧ rest = rest' := by
  -- both are read with as many levels as the deeper of the two trees has
  have hread := read_eq_ok.mpr
    ⟨Nat.le_max_left t.levels t'.levels, front, h, Cursor.spans_mk 0 front rest⟩
  have hread' := read_eq_ok.mpr
    ⟨Nat.le_max_right t.levels t'.levels, front', h', Cursor.spans_mk 0 front' rest'⟩
  rw [hbytes, hread'] at hread
  injection hread with hpair
  injection hpair with ht hcursor
  injection hcursor with _ hrest
  subst hrest
  exact ⟨ht.symm, List.append_cancel_right hbytes, rfl⟩

mutual

theorem Spells.unique : {t : Tlv} → {bytes bytes' : Bytes} → {fields fields' : List Bytes} →
    Spells t bytes fields → Spells t bytes' fields' → bytes = bytes' → fields = fields'
  | _, _, _, _, _, .primitive _ _ _ _ _ hfield, .primitive _ _ _ _ _ hfield', hbytes => by
    obtain ⟨-, rfl, -⟩ := hfield.split_unique hfield' (List.append_cancel_left hbytes)
    rfl
  | _, _, _, _, _, .constructed _ _ _ _ _ _ _ hfield hvalue,
      .constructed _ _ _ _ _ _ _ hfield' hvalue', hbytes => by
    obtain ⟨-, rfl, hvalues⟩ := hfield.split_unique hfield' (List.append_cancel_left hbytes)
    rw [hvalue.unique hvalue' hvalues]

theorem SpellsAll.unique : {ts : List Tlv} → {bytes bytes' : Bytes} →
    {fields fields' : List Bytes} → SpellsAll ts bytes fields → SpellsAll ts bytes' fields' →
    bytes = bytes' → fields = fields'
  | _, _, _, _, _, .nil, .nil, _ => rfl
  | _, _, _, _, _, .cons _ _ _ _ _ _ head tail, .cons _ _ _ _ _ _ head' tail', hbytes => by
    obtain ⟨-, hfront, hrest⟩ := head.encodes.split_unique head'.encodes hbytes
    rw [head.unique head' hfront, tail.unique tail' hrest]

end

/-! ## The written encoding -/

mutual

theorem Regular.spells : (t : Tlv) → Regular t →
    ∃ fields, Spells t t.encode fields ∧ ∀ field ∈ fields, Length.Minimal field
  | .primitive tag value, ⟨htag, hkind, hlength⟩ => by
    refine ⟨_, .primitive tag value _ htag hkind (Length.field_encode hlength), ?_⟩
    intro field hfield
    rw [List.mem_singleton.mp hfield]
    exact Length.minimal_encode hlength
  | .constructed tag children, ⟨htag, hkind, hlength, hchildren⟩ => by
    have hvalue : (encodeAll children).length < 2 ^ 32 := by rwa [length_encodeAll]
    obtain ⟨fields, hfields, hminimal⟩ := RegularAll.spellsAll children hchildren
    refine ⟨_, .constructed tag children _ _ fields htag hkind (Length.field_encode hvalue) hfields,
      ?_⟩
    intro field hfield
    rcases List.mem_cons.mp hfield with rfl | hfield
    · exact Length.minimal_encode hvalue
    · exact hminimal field hfield

theorem RegularAll.spellsAll : (ts : List Tlv) → RegularAll ts →
    ∃ fields, SpellsAll ts (encodeAll ts) fields ∧ ∀ field ∈ fields, Length.Minimal field
  | [], _ => ⟨[], .nil, fun _ hfield => nomatch hfield⟩
  | t :: ts, ⟨hhead, htail⟩ => by
    obtain ⟨fields, hfields, hminimal⟩ := Regular.spells t hhead
    obtain ⟨others, hothers, hminimal'⟩ := RegularAll.spellsAll ts htail
    refine ⟨fields ++ others, .cons t ts _ _ fields others hfields hothers, ?_⟩
    intro field hfield
    rcases List.mem_append.mp hfield with hfield | hfield
    · exact hminimal field hfield
    · exact hminimal' field hfield

end

mutual

theorem Spells.encode_eq : {t : Tlv} → {bytes : Bytes} → {fields : List Bytes} →
    Spells t bytes fields → (∀ field ∈ fields, Length.Minimal field) → t.encode = bytes
  | _, _, _, .primitive tag value field _ _ hfield, hminimal => by
    rw [encode, frame, hfield.eq_encode (hminimal field List.mem_cons_self)]
  | _, _, _, .constructed tag children value field fields _ _ hfield hvalue, hminimal => by
    have hchildren := hvalue.encodeAll_eq fun f hf => hminimal f (List.mem_cons_of_mem _ hf)
    rw [encode, frame, hchildren, hfield.eq_encode (hminimal field List.mem_cons_self)]

theorem SpellsAll.encodeAll_eq : {ts : List Tlv} → {bytes : Bytes} → {fields : List Bytes} →
    SpellsAll ts bytes fields → (∀ field ∈ fields, Length.Minimal field) → encodeAll ts = bytes
  | _, _, _, .nil, _ => rfl
  | _, _, _, .cons t ts front rest fields others head tail, hminimal => by
    rw [encodeAll, head.encode_eq fun f hf => hminimal f (List.mem_append_left _ hf),
      tail.encodeAll_eq fun f hf => hminimal f (List.mem_append_right _ hf)]

end

theorem Spells.encode_eq_iff {t : Tlv} {bytes : Bytes} {fields : List Bytes}
    (h : Spells t bytes fields) : t.encode = bytes ↔ ∀ field ∈ fields, Length.Minimal field := by
  constructor
  · intro hencode
    obtain ⟨written, hwritten, hminimal⟩ := Regular.spells t h.encodes.regular.1
    rw [h.unique hwritten hencode.symm]
    exact hminimal
  · exact h.encode_eq

/-- What is read from a byte string is the tree of which the byte string is an encoding,
if that has at most 32 levels; there is nothing else that is read.  Writing it again
never takes more bytes, and gives back the byte string exactly when each of its length
fields is minimal. -/
theorem parse_iff_encodes (input : Bytes) (t : Tlv) :
    (parse input = .ok t ↔ Encodes t input ∧ t.levels ≤ maxLevels) ∧
    (parse input = .ok t → t.encode.length ≤ input.length ∧
      ∃ fields, Spells t input fields ∧ (∀ fields', Spells t input fields' → fields' = fields) ∧
        (t.encode = input ↔ ∀ field ∈ fields, Length.Minimal field)) := by
  refine ⟨parse_eq_ok.trans and_comm, fun h => ?_⟩
  obtain ⟨-, hencodes⟩ := parse_eq_ok.mp h
  obtain ⟨fields, hfields⟩ := hencodes.spells
  refine ⟨?_, fields, hfields, fun fields' hfields' => hfields'.unique hfields rfl,
    hfields.encode_eq_iff⟩
  rw [length_encode]
  exact hencodes.regular.2

/-- One byte of data behind a length in the long form, which takes a byte too many. -/
theorem parse_iff_encodes_longForm :
    parse [0x04, 0x81, 0x01, 0xFF] = .ok (.primitive Tag.octetString [0xFF]) ∧
      (Tlv.primitive Tag.octetString [0xFF]).encode.length ≤ [0x04, 0x81, 0x01, 0xFF].length ∧
      (Tlv.primitive Tag.octetString [0xFF]).encode ≠ [0x04, 0x81, 0x01, 0xFF] := by
  have hparse : parse [0x04, 0x81, 0x01, 0xFF] = .ok (.primitive Tag.octetString [0xFF]) := by
    decide +kernel
  exact ⟨hparse, ((parse_iff_encodes _ _).2 hparse).1, by decide⟩

end Tlv
end CardAccess

import CardAccess.Proofs.Tlv.Length
import CardAccess.Proofs.Tlv.Tag
import CardAccess.Tlv.Parser

/-!
# The reader and its grammar

The main statement is `read_eq_ok`: reading with `levels` levels to spare gives
an element exactly when the bytes in front are an encoding of it and it is no
deeper than that.  It goes by induction on the levels, and inside it the list of
children by induction on the fuel, which every element shortens by a byte at
least.  `parse_eq_ok` and `parseAll_eq_ok` say the same of whole inputs.
-/

namespace CardAccess
namespace Tlv

theorem levels_pos (t : Tlv) : 0 < t.levels := by
  cases t with
  | primitive tag value => exact Nat.one_pos
  | constructed tag children => exact Nat.succ_pos _

/-! ## Encodings -/

theorem Encodes.exists_tag_append {t : Tlv} {bytes : Bytes} (h : Encodes t bytes) :
    ∃ rest, bytes = t.tag.toBytes ++ rest := by
  cases h <;> exact ⟨_, rfl⟩

theorem Encodes.length_pos {t : Tlv} {front : Bytes} (h : Encodes t front) : 0 < front.length := by
  obtain ⟨rest, rfl⟩ := h.exists_tag_append
  have hpos := t.tag.length_pos
  rw [List.length_append, Tag.length_toBytes]
  omega

theorem Encodes.tag_subset {t : Tlv} {bytes : Bytes} (h : Encodes t bytes) :
    t.tag.toBytes ⊆ bytes := by
  obtain ⟨rest, rfl⟩ := h.exists_tag_append
  exact List.subset_append_left _ _

theorem EncodesAll.exists_of_mem {ts : List Tlv} {bytes : Bytes} (h : EncodesAll ts bytes) {t : Tlv}
    (ht : t ∈ ts) : ∃ front, Encodes t front ∧ front ⊆ bytes := by
  induction ts generalizing bytes with
  | nil => cases ht
  | cons s ts ih =>
    cases h with
    | cons _ _ front rest head tail =>
      obtain rfl | ht := List.mem_cons.mp ht
      · exact ⟨front, head, List.subset_append_left _ _⟩
      · obtain ⟨back, hback, hsubset⟩ := ih tail ht
        exact ⟨back, hback, List.subset_append_of_subset_right _ hsubset⟩

/-- The bytes of an element have the tags of the elements inside among them. -/
theorem Encodes.child_tag_subset {t c : Tlv} {bytes : Bytes} (h : Encodes t bytes)
    (hc : c ∈ t.children) : c.tag.toBytes ⊆ bytes := by
  cases h with
  | primitive tag value field htag hkind hfield => cases hc
  | constructed tag children value field htag hkind hfield hvalue =>
    obtain ⟨front, hfront, hsubset⟩ := hvalue.exists_of_mem hc
    exact List.subset_append_of_subset_right _
      (List.subset_append_of_subset_right _ (List.Subset.trans hfront.tag_subset hsubset))

/-! ## Lists of elements -/

theorem readAll_nil (readOne : Cursor → Except DecodeError (Tlv × Cursor)) (fuel : Nat)
    {c : Cursor} (h : c.bytes = []) : readAll readOne fuel c = .ok [] := by
  obtain ⟨offset, bytes⟩ := c
  cases h
  cases fuel <;> rfl

theorem readAll_zero (readOne : Cursor → Except DecodeError (Tlv × Cursor)) {c : Cursor}
    (h : c.bytes ≠ []) : readAll readOne 0 c = c.fail .trailingData := by
  obtain ⟨offset, bytes⟩ := c
  cases bytes with
  | nil => exact absurd rfl h
  | cons byte bytes => rfl

theorem readAll_succ (readOne : Cursor → Except DecodeError (Tlv × Cursor)) (fuel : Nat)
    {c : Cursor} (h : c.bytes ≠ []) :
    readAll readOne (fuel + 1) c = (do
      let (element, c) ← readOne c
      let others ← readAll readOne fuel c
      .ok (element :: others)) := by
  obtain ⟨offset, bytes⟩ := c
  cases bytes with
  | nil => exact absurd rfl h
  | cons byte bytes => rfl

theorem encodesAll_nil {ts : List Tlv} : EncodesAll ts [] ↔ ts = [] := by
  constructor
  · intro h
    generalize hbytes : ([] : Bytes) = bytes at h
    cases h with
    | nil => rfl
    | cons t ts front rest head tail =>
      have hpos := head.length_pos
      have hlength := congrArg List.length hbytes
      rw [List.length_append, List.length_nil] at hlength
      omega
  · rintro rfl
    exact .nil

section readAll

variable {readOne : Cursor → Except DecodeError (Tlv × Cursor)} {levels : Nat}

theorem readAll_eq_ok_of_nil {fuel : Nat} {c : Cursor} {ts : List Tlv} (h : c.bytes = []) :
    readAll readOne fuel c = .ok ts ↔ levelsAll ts ≤ levels ∧ EncodesAll ts c.bytes := by
  rw [readAll_nil readOne fuel h, h, encodesAll_nil]
  constructor
  · intro h
    cases h
    exact ⟨Nat.zero_le _, rfl⟩
  · rintro ⟨-, rfl⟩
    rfl

/-- A reader of elements that follows the grammar reads lists of elements that
follow it. -/
theorem readAll_eq_ok
    (hone : ∀ {c c' : Cursor} {t : Tlv}, readOne c = .ok (t, c') ↔
      t.levels ≤ levels ∧ ∃ front, Encodes t front ∧ c.Spans front c')
    {fuel : Nat} {c : Cursor} {ts : List Tlv} (hfuel : c.bytes.length ≤ fuel) :
    readAll readOne fuel c = .ok ts ↔ levelsAll ts ≤ levels ∧ EncodesAll ts c.bytes := by
  induction fuel generalizing c ts with
  | zero => exact readAll_eq_ok_of_nil (List.length_eq_zero_iff.mp (Nat.le_zero.mp hfuel))
  | succ fuel ih =>
    by_cases hnil : c.bytes = []
    · exact readAll_eq_ok_of_nil hnil
    · rw [readAll_succ readOne fuel hnil, bind_eq_ok]
      constructor
      · rintro ⟨⟨t, c₁⟩, hread, h⟩
        obtain ⟨hlevels, front, hfront, hspan⟩ := hone.mp hread
        -- The element took a byte, so the fuel that is left covers the rest.
        have hpos := hfront.length_pos
        have hlength := hspan.length
        obtain ⟨ts', hrest, h⟩ := bind_eq_ok.mp h
        obtain ⟨hlevels', hall⟩ := (ih (by omega)).mp hrest
        cases h
        refine ⟨Nat.max_le.mpr ⟨hlevels, hlevels'⟩, ?_⟩
        rw [hspan.bytes]
        exact .cons t ts' front c₁.bytes hfront hall
      · rintro ⟨hlevels, hall⟩
        generalize hbytes : c.bytes = bytes at hall
        cases hall with
        | nil => exact absurd hbytes hnil
        | cons t ts front rest head tail =>
          obtain ⟨hlevels, hlevels'⟩ := Nat.max_le.mp hlevels
          have hpos := head.length_pos
          have hspan : c.Spans front ⟨c.offset + front.length, rest⟩ := ⟨hbytes, rfl⟩
          have hlength := hspan.length
          refine ⟨(t, _), hone.mpr ⟨hlevels, front, head, hspan⟩, ?_⟩
          have hrest := (ih (c := ⟨c.offset + front.length, rest⟩) (by omega)).mpr
            ⟨hlevels', tail⟩
          exact bind_eq_ok.mpr ⟨ts, hrest, rfl⟩

end readAll

/-! ## Elements -/

/-- What is known of an element before its value is looked at: its tag, the cursor of its value, and
the cursor behind the element. -/
structure Head where
  tag : Tag
  value : Cursor
  rest : Cursor

def readHead (c : Cursor) : Except DecodeError Head := do
  let (tag, c) ← Tag.read c
  let (length, c) ← Length.read c
  let (value, rest) ← c.take length
  .ok ⟨tag, value, rest⟩

/-- The element with this head, whose value may be `levels` deep. -/
def readContent (levels : Nat) (head : Head) : Except DecodeError (Tlv × Cursor) :=
  if head.tag.isConstructed then do
    let children ← readAll (read levels) head.value.bytes.length head.value
    .ok (.constructed head.tag children, head.rest)
  else .ok (.primitive head.tag head.value.bytes, head.rest)

theorem read_succ (levels : Nat) (c : Cursor) :
    read (levels + 1) c = readHead c >>= readContent levels := by
  rw [read, readHead]
  cases Tag.read c with
  | error e => rfl
  | ok tagged =>
    obtain ⟨tag, c₁⟩ := tagged
    show Length.read c₁ >>= _ = (Length.read c₁ >>= _) >>= _
    cases Length.read c₁ with
    | error e => rfl
    | ok measured =>
      obtain ⟨length, c₂⟩ := measured
      show c₂.take length >>= _ = (c₂.take length >>= _) >>= _
      cases c₂.take length with
      | error e => rfl
      | ok cut => rfl

/-- The value is cut out of what is left behind the tag and the length. -/
theorem readHead_eq_ok {c : Cursor} {head : Head} :
    readHead c = .ok head ↔ ∃ c₁ field c₂, head.tag.Decodable ∧ c.Spans head.tag.toBytes c₁ ∧
      Length.Field head.value.bytes.length field ∧ c₁.Spans field c₂ ∧
      head.value.offset = c₂.offset ∧ c₂.Spans head.value.bytes head.rest := by
  rw [readHead, bind_eq_ok]
  constructor
  · rintro ⟨⟨tag, c₁⟩, htag, h⟩
    obtain ⟨⟨length, c₂⟩, hlength, h⟩ := bind_eq_ok.mp h
    obtain ⟨⟨value, rest⟩, hvalue, h⟩ := bind_eq_ok.mp h
    cases h
    obtain ⟨hdecodable, hspan₁⟩ := Tag.read_eq_ok.mp htag
    obtain ⟨field, hfield, hspan₂⟩ := Length.read_eq_ok.mp hlength
    obtain ⟨hoffset, rfl, hspan₃⟩ := Cursor.take_eq_ok.mp hvalue
    exact ⟨c₁, field, c₂, hdecodable, hspan₁, hfield, hspan₂, hoffset, hspan₃⟩
  · rintro ⟨c₁, field, c₂, hdecodable, hspan₁, hfield, hspan₂, hoffset, hspan₃⟩
    exact ⟨(head.tag, c₁), Tag.read_eq_ok.mpr ⟨hdecodable, hspan₁⟩, bind_eq_ok.mpr
      ⟨(head.value.bytes.length, c₂), Length.read_eq_ok.mpr ⟨field, hfield, hspan₂⟩, bind_eq_ok.mpr
      ⟨(head.value, head.rest), Cursor.take_eq_ok.mpr ⟨hoffset, rfl, hspan₃⟩, rfl⟩⟩⟩

theorem readContent_eq_ok {levels : Nat} {head : Head} {c : Cursor} {t : Tlv} :
    readContent levels head = .ok (t, c) ↔ c = head.rest ∧
      (head.tag.isConstructed = false ∧ t = .primitive head.tag head.value.bytes ∨
        head.tag.isConstructed = true ∧ ∃ children,
          readAll (read levels) head.value.bytes.length head.value = .ok children ∧
          t = .constructed head.tag children) := by
  rw [readContent]
  cases hkind : head.tag.isConstructed with
  | true =>
    rw [if_pos rfl, bind_eq_ok]
    constructor
    · rintro ⟨children, hchildren, h⟩
      cases h
      exact ⟨rfl, .inr ⟨rfl, children, hchildren, rfl⟩⟩
    · rintro ⟨rfl, ⟨h, -⟩ | ⟨-, children, hchildren, rfl⟩⟩
      · cases h
      · exact ⟨children, hchildren, rfl⟩
  | false =>
    rw [if_neg Bool.false_ne_true]
    constructor
    · intro h
      cases h
      exact ⟨rfl, .inl ⟨rfl, rfl⟩⟩
    · rintro ⟨rfl, ⟨-, rfl⟩ | ⟨h, -⟩⟩
      · rfl
      · cases h

theorem read_eq_ok {levels : Nat} {c c' : Cursor} {t : Tlv} :
    read levels c = .ok (t, c') ↔
      t.levels ≤ levels ∧ ∃ front, Encodes t front ∧ c.Spans front c' := by
  induction levels generalizing c c' t with
  | zero =>
    constructor
    · intro h
      cases h
    · rintro ⟨hlevels, -⟩
      exact absurd (levels_pos t) (Nat.not_lt_of_le hlevels)
  | succ levels ih =>
    have hvalues {offset : Nat} {value : Bytes} {children : List Tlv} :
        readAll (read levels) value.length ⟨offset, value⟩ = .ok children ↔
          levelsAll children ≤ levels ∧ EncodesAll children value :=
      readAll_eq_ok (fun {_ _ _} => ih) (Nat.le_refl _)
    rw [read_succ, bind_eq_ok]
    constructor
    · rintro ⟨head, hhead, hcontent⟩
      obtain ⟨c₁, field, c₂, htag, hspan₁, hfield, hspan₂, -, hspan₃⟩ := readHead_eq_ok.mp hhead
      have hspan := hspan₁.trans (hspan₂.trans hspan₃)
      obtain ⟨rfl, ⟨hkind, rfl⟩ | ⟨hkind, children, hchildren, rfl⟩⟩ :=
        readContent_eq_ok.mp hcontent
      · exact ⟨Nat.succ_le_succ (Nat.zero_le _), _,
          .primitive head.tag head.value.bytes field htag hkind hfield, hspan⟩
      · obtain ⟨hlevels, hall⟩ := hvalues.mp hchildren
        exact ⟨Nat.succ_le_succ hlevels, _,
          .constructed head.tag children head.value.bytes field htag hkind hfield hall, hspan⟩
    · rintro ⟨hlevels, front, hfront, hspan⟩
      cases hfront with
      | primitive tag value field htag hkind hfield =>
        obtain ⟨c₁, hspan₁, hspan⟩ := hspan.split
        obtain ⟨c₂, hspan₂, hspan₃⟩ := hspan.split
        exact ⟨⟨tag, ⟨c₂.offset, value⟩, c'⟩,
          readHead_eq_ok.mpr ⟨c₁, field, c₂, htag, hspan₁, hfield, hspan₂, rfl, hspan₃⟩,
          readContent_eq_ok.mpr ⟨rfl, .inl ⟨hkind, rfl⟩⟩⟩
      | constructed tag children value field htag hkind hfield hvalue =>
        obtain ⟨c₁, hspan₁, hspan⟩ := hspan.split
        obtain ⟨c₂, hspan₂, hspan₃⟩ := hspan.split
        have hchildren : readAll (read levels) value.length ⟨c₂.offset, value⟩ = .ok children :=
          hvalues.mpr ⟨Nat.le_of_succ_le_succ hlevels, hvalue⟩
        exact ⟨⟨tag, ⟨c₂.offset, value⟩, c'⟩,
          readHead_eq_ok.mpr ⟨c₁, field, c₂, htag, hspan₁, hfield, hspan₂, rfl, hspan₃⟩,
          readContent_eq_ok.mpr ⟨rfl, .inr ⟨hkind, children, hchildren, rfl⟩⟩⟩

/-! ## Whole inputs -/

theorem parse_eq_ok {input : Bytes} {t : Tlv} :
    parse input = .ok t ↔ t.levels ≤ maxLevels ∧ Encodes t input := by
  rw [parse]
  constructor
  · intro h
    split at h
    · cases h
    · obtain ⟨⟨element, rest⟩, hread, h⟩ := bind_eq_ok.mp h
      obtain ⟨hlevels, front, hfront, hspan⟩ := read_eq_ok.mp hread
      dsimp only at h
      split at h
      · next hempty =>
        cases h
        have hrest : rest.bytes = [] := List.isEmpty_iff.mp hempty
        have hinput : input = front := by
          have hbytes : input = front ++ rest.bytes := hspan.bytes
          rwa [hrest, List.append_nil] at hbytes
        rw [hinput]
        exact ⟨hlevels, hfront⟩
      · cases h
  · rintro ⟨hlevels, hencodes⟩
    have hpos := hencodes.length_pos
    have hinput : ¬ input.isEmpty = true := by
      intro hempty
      rw [List.isEmpty_iff.mp hempty, List.length_nil] at hpos
      exact absurd hpos (Nat.lt_irrefl 0)
    have hspan : Cursor.Spans ⟨0, input⟩ input ⟨0 + input.length, []⟩ :=
      ⟨(List.append_nil input).symm, rfl⟩
    rw [if_neg hinput]
    exact bind_eq_ok.mpr ⟨(t, _), read_eq_ok.mpr ⟨hlevels, input, hencodes, hspan⟩, rfl⟩

theorem parseAll_eq_ok {input : Bytes} {ts : List Tlv} :
    parseAll input = .ok ts ↔ levelsAll ts ≤ maxLevels ∧ EncodesAll ts input :=
  readAll_eq_ok read_eq_ok (Nat.le_refl _)

end Tlv
end CardAccess

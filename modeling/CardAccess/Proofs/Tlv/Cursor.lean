import CardAccess.Proofs.Bytes
import CardAccess.Tlv.Tag

/-!
# What a reader takes

Every reader goes from one cursor to another.  `Spans` says which bytes lie
between the two, and that the offset has moved by as many; each reader of the
grammar has one lemma that says when it succeeds and what it spans.  A reader
made of several steps spans what its steps span, in order.
-/

namespace CardAccess

/-- A computation in two steps succeeds when both steps do. -/
theorem bind_eq_ok {ε α β : Type} {x : Except ε α} {f : α → Except ε β} {b : β} :
    (x >>= f) = .ok b ↔ ∃ a, x = .ok a ∧ f a = .ok b := by
  cases x with
  | error e =>
    constructor
    · intro h
      cases h
    · rintro ⟨a, h, _⟩
      cases h
  | ok a =>
    constructor
    · exact fun h => ⟨a, rfl, h⟩
    · rintro ⟨_, ha, h⟩
      cases ha
      exact h

theorem bind_eq_error {ε α β : Type} {x : Except ε α} {f : α → Except ε β} {e : ε} :
    (x >>= f) = .error e ↔ x = .error e ∨ ∃ a, x = .ok a ∧ f a = .error e := by
  cases x with
  | error e' =>
    constructor
    · intro h
      cases h
      exact .inl rfl
    · rintro (h | ⟨a, h, -⟩)
      · cases h
        rfl
      · cases h
  | ok a =>
    constructor
    · exact fun h => .inr ⟨a, rfl, h⟩
    · rintro (h | ⟨_, h, hf⟩)
      · cases h
      · cases h
        exact hf

theorem bind_of_ok {ε α β : Type} {x : Except ε α} {f : α → Except ε β} {a : α} (h : x = .ok a) :
    (x >>= f) = f a := by
  rw [h]
  rfl

theorem map_eq_ok {ε α β : Type} {x : Except ε α} {f : α → β} {b : β} :
    x.map f = .ok b ↔ ∃ a, x = .ok a ∧ b = f a := by
  cases x with
  | error e =>
    constructor
    · intro h
      cases h
    · rintro ⟨a, h, _⟩
      cases h
  | ok a =>
    constructor
    · intro h
      cases h
      exact ⟨a, rfl, rfl⟩
    · rintro ⟨_, h, rfl⟩
      cases h
      rfl

/-- Reporting failures in another way makes no difference to a success. -/
theorem mapError_eq_ok {ε ε' α : Type} {x : Except ε α} {f : ε → ε'} {a : α} :
    x.mapError f = .ok a ↔ x = .ok a := by
  cases x with
  | error e =>
    constructor
    · intro h
      cases h
    · intro h
      cases h
  | ok a' =>
    constructor
    · intro h
      cases h
      rfl
    · intro h
      cases h
      rfl

namespace Tlv
namespace Cursor

/-- Between the cursors `c` and `c'` lie the bytes `front`. -/
structure Spans (c : Cursor) (front : Bytes) (c' : Cursor) : Prop where
  bytes : c.bytes = front ++ c'.bytes
  offset : c'.offset = c.offset + front.length

theorem spans_mk (offset : Nat) (front rest : Bytes) :
    Spans ⟨offset, front ++ rest⟩ front ⟨offset + front.length, rest⟩ :=
  ⟨rfl, rfl⟩

theorem spans_nil (c : Cursor) : Spans c [] c := ⟨rfl, rfl⟩

theorem Spans.trans {c c' c'' : Cursor} {front back : Bytes} (h : Spans c front c')
    (h' : Spans c' back c'') : Spans c (front ++ back) c'' where
  bytes := by rw [h.bytes, h'.bytes, List.append_assoc]
  offset := by rw [h'.offset, h.offset, List.length_append, Nat.add_assoc]

theorem Spans.split {c c'' : Cursor} {front back : Bytes} (h : Spans c (front ++ back) c'') :
    ∃ c', Spans c front c' ∧ Spans c' back c'' := by
  refine ⟨⟨c.offset + front.length, back ++ c''.bytes⟩, ⟨?_, rfl⟩, ⟨rfl, ?_⟩⟩
  · rw [h.bytes, List.append_assoc]
  · rw [h.offset, List.length_append, Nat.add_assoc]

theorem Spans.split_cons {c c'' : Cursor} {byte : UInt8} {back : Bytes}
    (h : Spans c (byte :: back) c'') : ∃ c', Spans c [byte] c' ∧ Spans c' back c'' := by
  rw [← List.singleton_append] at h
  exact h.split

/-- Where a span ends is fixed by where it starts and what it holds. -/
theorem Spans.unique {c c' c'' : Cursor} {front : Bytes} (h : Spans c front c')
    (h' : Spans c front c'') : c' = c'' := by
  have hbytes : c'.bytes = c''.bytes := List.append_cancel_left (h.bytes.symm.trans h'.bytes)
  have hoffset : c'.offset = c''.offset := h.offset.trans h'.offset.symm
  obtain ⟨offset', bytes'⟩ := c'
  obtain ⟨offset'', bytes''⟩ := c''
  cases hbytes
  cases hoffset
  rfl

theorem Spans.length {c c' : Cursor} {front : Bytes} (h : Spans c front c') :
    c.bytes.length = front.length + c'.bytes.length := by
  rw [h.bytes, List.length_append]

/-! ## The two readers of raw bytes -/

theorem next_eq_ok {c c' : Cursor} {byte : UInt8} :
    c.next = .ok (byte, c') ↔ Spans c [byte] c' := by
  obtain ⟨offset, bytes⟩ := c
  cases bytes with
  | nil =>
    constructor
    · intro h
      cases h
    · intro h
      exact absurd h.bytes (by simp)
  | cons first rest =>
    constructor
    · intro h
      cases h
      exact ⟨rfl, rfl⟩
    · intro h
      have hbytes : first :: rest = byte :: c'.bytes := h.bytes
      obtain ⟨rfl, rfl⟩ := List.cons.inj hbytes
      have hend : (⟨offset + 1, c'.bytes⟩ : Cursor) = c' := Spans.unique ⟨rfl, rfl⟩ h
      rw [← hend]
      rfl

theorem take_eq_ok {c value c' : Cursor} {count : Nat} :
    c.take count = .ok (value, c') ↔
      value.offset = c.offset ∧ value.bytes.length = count ∧ Spans c value.bytes c' := by
  constructor
  · intro h
    rw [take] at h
    split at h
    · cases h
    · next front rest hsplit =>
      obtain ⟨hbytes, hlength⟩ := Bytes.split?_eq_some.mp hsplit
      cases h
      exact ⟨rfl, hlength, ⟨hbytes, by rw [← hlength]⟩⟩
  · rintro ⟨hoffset, hlength, hspan⟩
    have hsplit : c.bytes.split? count = some (value.bytes, c'.bytes) :=
      Bytes.split?_eq_some.mpr ⟨hspan.bytes, hlength⟩
    have hend : c.offset + count = c'.offset := by rw [hspan.offset, hlength]
    rw [take, hsplit]
    show Except.ok ((⟨c.offset, value.bytes⟩ : Cursor), (⟨c.offset + count, c'.bytes⟩ : Cursor)) = _
    rw [hend, ← hoffset]

end Cursor
end Tlv
end CardAccess

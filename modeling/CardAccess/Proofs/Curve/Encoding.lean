import CardAccess.Proofs.Bytes
import CardAccess.Proofs.Curve.Domain
import Mathlib.Data.Nat.ModEq

/-!
# Points in bytes

A point is written as `04` and its two coordinates, each in as many bytes as the modulus has.
`splitPoint_eq_some` says which bytes have this form and what the coordinates in them are; whether
they are a point is left to `contains`.  So there is one byte string for each point on the curve,
and every other byte string is refused: `decodePoint_inverse`.
-/

namespace CardAccess
namespace Domain

variable {d : Domain} {point : Point}

theorem splitPoint_eq_some {width : Nat} {bytes : Bytes} :
    splitPoint width bytes = some point ↔ ∃ x y : Bytes, bytes = uncompressed :: (x ++ y) ∧
      x.length = width ∧ y.length = width ∧ point = ⟨x.toNat, y.toNat⟩ := by
  constructor
  · intro h
    cases bytes with
    | nil => cases h
    | cons lead coordinates =>
      rw [splitPoint] at h
      split at h
      · next hform =>
        obtain ⟨hlength, rfl⟩ := hform
        cases h
        refine ⟨coordinates.take width, coordinates.drop width, ?_, ?_, ?_, rfl⟩
        · rw [List.take_append_drop]
        · rw [List.length_take]
          omega
        · rw [List.length_drop]
          omega
      · cases h
  · rintro ⟨x, y, rfl, rfl, hy, rfl⟩
    have hform : (x ++ y).length = 2 * x.length ∧ uncompressed = uncompressed := by
      rw [List.length_append]
      exact ⟨by omega, rfl⟩
    rw [splitPoint, if_pos hform, List.take_left, List.drop_left]

/-- A number below the modulus fits the width of a coordinate. -/
theorem toNat_coordinate {n : Nat} (h : n < d.p) : (Bytes.fixed d.fieldLength n).toNat = n :=
  Bytes.toNat_fixed_of_lt (Nat.lt_trans h (lt_pow_byteLength d.p))

/-- Coordinates below the modulus are read back from their full width. -/
theorem splitPoint_encodePoint (hpoint : d.contains point = true) :
    splitPoint d.fieldLength (d.encodePoint point) = some point := by
  obtain ⟨hx, hy, -⟩ := contains_iff.mp hpoint
  refine splitPoint_eq_some.mpr ⟨_, _, rfl, Bytes.length_fixed _ _, Bytes.length_fixed _ _, ?_⟩
  rw [toNat_coordinate hx, toNat_coordinate hy]

theorem decodePoint_encodePoint (hpoint : d.contains point = true) :
    d.decodePoint (d.encodePoint point) = .ok point := by
  rw [decodePoint, splitPoint_encodePoint hpoint]
  exact if_pos hpoint

/-- The bytes of a point are those that its coordinates were read from. -/
theorem encodePoint_of_splitPoint {bytes : Bytes}
    (h : splitPoint d.fieldLength bytes = some point) : d.encodePoint point = bytes := by
  obtain ⟨x, y, rfl, hx, hy, rfl⟩ := splitPoint_eq_some.mp h
  rw [encodePoint]
  dsimp only
  rw [← Bytes.eq_fixed hx (Nat.mod_eq_of_lt (hx ▸ Bytes.toNat_lt x)).symm,
    ← Bytes.eq_fixed hy (Nat.mod_eq_of_lt (hy ▸ Bytes.toNat_lt y)).symm]

/-- The byte strings that stand for a point of the curve: `04`, then two numbers of as many bytes
as the modulus has, both below the modulus, that satisfy the equation. -/
def PointBytes (d : Domain) (bytes : Bytes) : Prop :=
  ∃ x y : Bytes, bytes = 0x04 :: (x ++ y) ∧ x.length = d.fieldLength ∧ y.length = d.fieldLength ∧
    x.toNat < d.p ∧ y.toNat < d.p ∧
    y.toNat ^ 2 ≡ x.toNat ^ 3 + d.a * x.toNat + d.b [MOD d.p]

theorem contains_iff_equation_modEq : d.contains point = true ↔
    point.x < d.p ∧ point.y < d.p ∧
      point.y ^ 2 ≡ point.x ^ 3 + d.a * point.x + d.b [MOD d.p] := by
  rw [contains_iff, Nat.ModEq, pow_two, pow_succ, pow_two]

theorem pointBytes_iff {bytes : Bytes} : d.PointBytes bytes ↔
    ∃ point, splitPoint d.fieldLength bytes = some point ∧ d.contains point = true := by
  constructor
  · rintro ⟨x, y, hbytes, hx, hy, hpoint⟩
    exact ⟨⟨x.toNat, y.toNat⟩, splitPoint_eq_some.mpr ⟨x, y, hbytes, hx, hy, rfl⟩,
      contains_iff_equation_modEq.mpr hpoint⟩
  · rintro ⟨point, hsplit, hpoint⟩
    obtain ⟨x, y, hbytes, hx, hy, rfl⟩ := splitPoint_eq_some.mp hsplit
    exact ⟨x, y, hbytes, hx, hy, contains_iff_equation_modEq.mp hpoint⟩

/-- The points on a curve and the byte strings that stand for one are turned into each other, and
nothing else is read as a point.  This rests on no check of the curve. -/
theorem decodePoint_inverse (d : Domain) :
    (∀ point, d.contains point = true →
      d.PointBytes (d.encodePoint point) ∧ d.decodePoint (d.encodePoint point) = .ok point) ∧
    (∀ bytes, d.PointBytes bytes → ∃ point, d.contains point = true ∧
      d.decodePoint bytes = .ok point ∧ d.encodePoint point = bytes) ∧
    ∀ bytes, ¬ d.PointBytes bytes → d.decodePoint bytes = .error .invalidPoint := by
  refine ⟨fun point hpoint => ?_, fun bytes hbytes => ?_, fun bytes hbytes => ?_⟩
  · exact ⟨pointBytes_iff.mpr ⟨point, splitPoint_encodePoint hpoint, hpoint⟩,
      decodePoint_encodePoint hpoint⟩
  · obtain ⟨point, hsplit, hpoint⟩ := pointBytes_iff.mp hbytes
    have hencode := encodePoint_of_splitPoint hsplit
    exact ⟨point, hpoint, hencode ▸ decodePoint_encodePoint hpoint, hencode⟩
  · rw [decodePoint]
    split
    · rfl
    · next point hsplit =>
      have hoff : ¬ d.contains point = true :=
        fun hpoint => hbytes (pointBytes_iff.mpr ⟨point, hsplit, hpoint⟩)
      rw [if_neg hoff]

/-- On the small curve `(0, 6)` is a point, and `6 + 17` in the place of `6` is not reduced. -/
theorem decodePoint_inverse_small :
    small.contains ⟨0, 6⟩ = true ∧ small.decodePoint [0x04, 0x00, 0x06] = .ok ⟨0, 6⟩ ∧
    small.PointBytes [0x04, 0x00, 0x06] ∧
    (∃ point, small.decodePoint [0x04, 0x00, 0x06] = .ok point ∧
      small.encodePoint point = [0x04, 0x00, 0x06]) ∧
    ¬ small.PointBytes [0x04, 0x00, 0x17] ∧
    small.decodePoint [0x04, 0x00, 0x17] = .error .invalidPoint := by
  obtain ⟨hpoints, hbytes, hothers⟩ := decodePoint_inverse small
  have hcontains : small.contains ⟨0, 6⟩ = true := by decide
  obtain ⟨hspelled, hdecode⟩ := hpoints ⟨0, 6⟩ hcontains
  obtain ⟨point, -, hread, hwritten⟩ := hbytes [0x04, 0x00, 0x06] hspelled
  have hunreduced : ¬ small.PointBytes [0x04, 0x00, 0x17] := by
    rw [pointBytes_iff]
    rintro ⟨point, hsplit, hpoint⟩
    have hcoordinates : splitPoint small.fieldLength [0x04, 0x00, 0x17] = some ⟨0, 0x17⟩ := by
      decide
    rw [hcoordinates] at hsplit
    cases hsplit
    exact absurd hpoint (by decide)
  exact ⟨hcontains, hdecode, hspelled, ⟨point, hread, hwritten⟩, hunreduced,
    hothers _ hunreduced⟩

end Domain
end CardAccess

import CardAccess.Proofs.Curve.Domain
import CardAccess.Proofs.Curve.Modular
import Mathlib.AlgebraicGeometry.EllipticCurve.Affine.Point

/-!
# Jacobian arithmetic and the group of a curve

Over a prime the points of the curve with infinity are a group.  `Stands j g` says
that the Jacobian coordinates `j` stand for the element `g`: many coordinates stand
for one element, because `z` is free, but only `z = 0` stands for infinity as long
as coordinates are reduced.  Doubling and adding coordinates double and add what
they stand for, in every special case, and `toAffine` gives the coordinates of
the element, which `coordinates` reads off it.
-/

namespace CardAccess
namespace Domain

/-- The curve of a domain over the residues modulo `p`. -/
def curve (d : Domain) : WeierstrassCurve.Affine (ZMod d.p) := ⟨0, 0, 0, d.a, d.b⟩

section

variable {d : Domain}

theorem negY_curve (x y : ZMod d.p) : d.curve.negY x y = -y := by
  simp [WeierstrassCurve.Affine.negY, curve]

theorem addX_curve (x x' l : ZMod d.p) : d.curve.addX x x' l = l ^ 2 - x - x' := by
  simp [WeierstrassCurve.Affine.addX, curve]

theorem addY_curve (x x' y l : ZMod d.p) :
    d.curve.addY x x' y l = l * (x - d.curve.addX x x' l) - y := by
  rw [WeierstrassCurve.Affine.addY, negY_curve, WeierstrassCurve.Affine.negAddY]
  ring

theorem equation_curve_iff {x y : ZMod d.p} :
    d.curve.Equation x y ↔ y * y = x * x * x + d.a * x + d.b := by
  have hsides : y ^ 2 = x ^ 3 + d.a * x + d.b ↔ y * y = x * x * x + d.a * x + d.b := by
    rw [pow_two, pow_succ, pow_two]
  simpa [WeierstrassCurve.Affine.equation_iff, curve] using hsides

/-- What `contains` compares are the sides of the equation. -/
theorem contains_iff_equation {point : Point} :
    d.contains point = true ↔
      point.x < d.p ∧ point.y < d.p ∧ d.curve.Equation (point.x : ZMod d.p) point.y := by
  have hsides := ZMod.natCast_eq_natCast_iff' (point.y * point.y)
    (point.x * point.x * point.x + d.a * point.x + d.b) d.p
  push_cast at hsides
  rw [contains_iff, equation_curve_iff, hsides]

/-- The reduced coordinates of an element, none at infinity. -/
def coordinates : d.curve.Point → Option Point
  | .zero => none
  | .some x y _ => some ⟨x.val, y.val⟩

theorem coordinates_eq_none {g : d.curve.Point} : coordinates g = none ↔ g = 0 := by
  cases g with
  | zero => exact ⟨fun _ => rfl, fun _ => rfl⟩
  | some x y h =>
    exact ⟨fun hnone => (nomatch hnone),
      fun hzero => absurd hzero (WeierstrassCurve.Affine.Point.some_ne_zero h)⟩

end

instance : Fact small.p.Prime := ⟨by decide⟩

variable {d : Domain} [Fact d.p.Prime]

theorem Sound.two_ne_zero (h : d.Sound) : (2 : ZMod d.p) ≠ 0 := by
  have hlt : 2 < d.p := Nat.lt_of_succ_lt h.three_lt_p
  have hcast := Modular.cast_eq_zero hlt
  rw [Nat.cast_ofNat] at hcast
  exact fun hzero => absurd (hcast.mp hzero) (by decide)

/-- The curve has no singular point. -/
theorem Sound.equation_iff_nonsingular (h : d.Sound) {x y : ZMod d.p} :
    d.curve.Equation x y ↔ d.curve.Nonsingular x y := by
  apply WeierstrassCurve.Affine.equation_iff_nonsingular_of_Δ_ne_zero
  have hdiscriminant : (d.discriminant : ZMod d.p) ≠ 0 := by
    have hlt : d.discriminant < d.p := Nat.mod_lt _ h.p_pos
    rw [Ne, Modular.cast_eq_zero hlt]
    exact h.discriminant_ne_zero
  have hcast : (d.discriminant : ZMod d.p) = d.a * d.a * d.a * 4 + d.b * d.b * 27 := by
    rw [discriminant, Modular.cast_mod]
    push_cast
    rfl
  have hΔ : d.curve.Δ = -(2 ^ 4) * d.discriminant := by
    rw [hcast]
    simp only [curve, WeierstrassCurve.Δ, WeierstrassCurve.b₂, WeierstrassCurve.b₄,
      WeierstrassCurve.b₆, WeierstrassCurve.b₈]
    ring
  rw [hΔ]
  exact mul_ne_zero (neg_ne_zero.mpr (pow_ne_zero 4 h.two_ne_zero)) hdiscriminant

/-! ## Elements and their coordinates -/

/-- The element with the coordinates of a point on the curve. -/
def element (h : d.Sound) (point : Point) (hpoint : d.contains point = true) : d.curve.Point :=
  .some point.x point.y (h.equation_iff_nonsingular.mp (contains_iff_equation.mp hpoint).2.2)

/-- The coordinates of an element are a point on the curve, and the element is the
one at that point. -/
theorem coordinates_eq_some (h : d.Sound) {g : d.curve.Point} {point : Point} :
    coordinates g = some point ↔
      ∃ hpoint : d.contains point = true, g = element h point hpoint := by
  constructor
  · intro hsome
    cases g with
    | zero => cases hsome
    | some x y hxy =>
      cases hsome
      have hx : ((x.val : Nat) : ZMod d.p) = x := ZMod.natCast_zmod_val x
      have hy : ((y.val : Nat) : ZMod d.p) = y := ZMod.natCast_zmod_val y
      have hpoint : d.contains ⟨x.val, y.val⟩ = true := by
        rw [contains_iff_equation]
        refine ⟨ZMod.val_lt x, ZMod.val_lt y, ?_⟩
        show d.curve.Equation ((x.val : Nat) : ZMod d.p) ((y.val : Nat) : ZMod d.p)
        rw [hx, hy]
        exact hxy.1
      refine ⟨hpoint, ?_⟩
      simp only [element, hx, hy]
  · rintro ⟨hpoint, rfl⟩
    obtain ⟨hx, hy, -⟩ := contains_iff_equation.mp hpoint
    simp only [element, coordinates, ZMod.val_natCast_of_lt hx, ZMod.val_natCast_of_lt hy]

/-! ## What Jacobian coordinates stand for -/

/-- The coordinates `j` stand for the affine coordinates `x` and `y`, and they are
reduced where that decides between cases. -/
structure StandsAt (j : Jacobian) (x y : ZMod d.p) : Prop where
  y_lt : j.y < d.p
  z_lt : j.z < d.p
  z_ne_zero : (j.z : ZMod d.p) ≠ 0
  cast_x : (j.x : ZMod d.p) = x * j.z ^ 2
  cast_y : (j.y : ZMod d.p) = y * j.z ^ 3

/-- The coordinates `j` stand for the element `g`. -/
inductive Stands (j : Jacobian) : d.curve.Point → Prop where
  | infinity (hz : j.z = 0) : Stands j 0
  | affine (x y : ZMod d.p) (h : d.curve.Nonsingular x y) (hj : StandsAt j x y) :
      Stands j (.some x y h)

theorem isInfinity_iff {j : Jacobian} : j.isInfinity = true ↔ j.z = 0 := beq_iff_eq

theorem StandsAt.not_isInfinity {j : Jacobian} {x y : ZMod d.p} (hj : StandsAt j x y) :
    ¬ j.isInfinity = true := by
  rw [isInfinity_iff]
  exact fun hzero => hj.z_ne_zero (by rw [hzero, Nat.cast_zero])

theorem StandsAt.y_eq_zero_iff {j : Jacobian} {x y : ZMod d.p} (hj : StandsAt j x y) :
    j.y = 0 ↔ y = 0 := by
  rw [← Modular.cast_eq_zero hj.y_lt, hj.cast_y, mul_eq_zero,
    or_iff_left (pow_ne_zero 3 hj.z_ne_zero)]

theorem stands_infinity : Stands (d := d) .infinity 0 := .infinity rfl

theorem stands_ofPoint (h : d.Sound) {point : Point} (hpoint : d.contains point = true) :
    Stands (.ofPoint point) (element h point hpoint) := by
  have hone : ((1 : Nat) : ZMod d.p) = 1 := Nat.cast_one
  obtain ⟨-, hy, -⟩ := contains_iff_equation.mp hpoint
  refine .affine _ _ _ ⟨hy, Nat.lt_trans (by decide : 1 < 3) h.three_lt_p, ?_, ?_, ?_⟩
  · show ((1 : Nat) : ZMod d.p) ≠ 0
    rw [hone]
    exact one_ne_zero
  · show (point.x : ZMod d.p) = point.x * ((1 : Nat) : ZMod d.p) ^ 2
    rw [hone, one_pow, mul_one]
  · show (point.y : ZMod d.p) = point.y * ((1 : Nat) : ZMod d.p) ^ 3
    rw [hone, one_pow, mul_one]

/-! ## Doubling -/

/-- The residues of twice a point, where that is computed by the formulas. -/
theorem cast_double (h : d.Sound) {j : Jacobian}
    (hj : ¬ (j.isInfinity || j.y == 0) = true) :
    let s : ZMod d.p := 4 * j.x * j.y ^ 2
    let m : ZMod d.p := 3 * j.x ^ 2 + d.a * j.z ^ 4
    ((d.double j).y < d.p ∧ (d.double j).z < d.p) ∧
      ((d.double j).x : ZMod d.p) = m ^ 2 - 2 * s ∧
      ((d.double j).y : ZMod d.p) = m * (s - (m ^ 2 - 2 * s)) - 8 * j.y ^ 4 ∧
      ((d.double j).z : ZMod d.p) = 2 * j.y * j.z := by
  intro s m
  have hp := h.p_pos
  rw [double, if_neg hj]
  refine ⟨⟨Modular.sub_lt hp _ _, Nat.mod_lt _ hp⟩, ?_, ?_, ?_⟩
  all_goals
    simp only [Modular.cast_sub hp, Modular.cast_mul, Modular.cast_mod, Nat.cast_mul,
      Nat.cast_add, Nat.cast_ofNat, s, m]
    ring

/-- Twice a point by the slope `l` of the tangent. -/
theorem StandsAt.double (h : d.Sound) {j : Jacobian} {x y l : ZMod d.p} (hj : StandsAt j x y)
    (hy : y ≠ 0) (hl : l * (2 * y) = 3 * x ^ 2 + d.a) :
    StandsAt (d.double j) (l ^ 2 - x - x) (l * (x - (l ^ 2 - x - x)) - y) := by
  have hcase : ¬ (j.isInfinity || j.y == 0) = true := by
    rw [Bool.or_eq_true, beq_iff_eq, hj.y_eq_zero_iff]
    exact not_or.mpr ⟨hj.not_isInfinity, hy⟩
  obtain ⟨⟨hlty, hltz⟩, hx3, hy3, hz3⟩ := cast_double h hcase
  have hm : 3 * (j.x : ZMod d.p) ^ 2 + d.a * j.z ^ 4 = l * (2 * j.y * j.z) := by
    rw [hj.cast_x, hj.cast_y]
    linear_combination -(j.z : ZMod d.p) ^ 4 * hl
  have hs : 4 * (j.x : ZMod d.p) * j.y ^ 2 = x * (2 * j.y * j.z) ^ 2 := by
    rw [hj.cast_x]
    ring
  have hy4 : 8 * (j.y : ZMod d.p) ^ 4 = y * (2 * j.y * j.z) ^ 3 := by
    rw [hj.cast_y]
    ring
  rw [hm, hs] at hx3 hy3
  rw [hy4] at hy3
  refine ⟨hlty, hltz, ?_, ?_, ?_⟩
  · have hz3pow := mul_ne_zero hy (pow_ne_zero 3 hj.z_ne_zero)
    rw [hz3, hj.cast_y]
    exact mul_ne_zero (mul_ne_zero h.two_ne_zero hz3pow) hj.z_ne_zero
  · rw [hx3, hz3]
    ring
  · rw [hy3, hz3]
    ring

theorem stands_double (h : d.Sound) {j : Jacobian} {g : d.curve.Point} (hj : Stands j g) :
    Stands (d.double j) (g + g) := by
  cases hj with
  | infinity hz =>
    have hcase : (j.isInfinity || j.y == 0) = true := by
      rw [isInfinity_iff.mpr hz, Bool.true_or]
    rw [double, if_pos hcase, add_zero]
    exact stands_infinity
  | affine x y hxy hj =>
    by_cases hy : y = 0
    · -- the tangent is vertical
      have hcase : (j.isInfinity || j.y == 0) = true := by
        rw [hj.y_eq_zero_iff.mpr hy, beq_self_eq_true, Bool.or_true]
      have hneg : y = d.curve.negY x y := by rw [negY_curve, hy, neg_zero]
      rw [double, if_pos hcase, WeierstrassCurve.Affine.Point.add_self_of_Y_eq hneg]
      exact stands_infinity
    · have htwice : 2 * y ≠ 0 := mul_ne_zero h.two_ne_zero hy
      have hneg : y ≠ d.curve.negY x y := by
        rwa [negY_curve, Ne, eq_neg_iff_add_eq_zero, ← two_mul]
      have hslope : d.curve.slope x x y y * (2 * y) = 3 * x ^ 2 + d.a := by
        rw [WeierstrassCurve.Affine.slope_of_Y_ne rfl hneg, negY_curve, sub_neg_eq_add, ← two_mul,
          div_mul_cancel₀ _ htwice]
        simp [curve]
      rw [WeierstrassCurve.Affine.Point.add_self_of_Y_ne hneg]
      refine .affine _ _ _ ?_
      rw [addY_curve, addX_curve]
      exact hj.double h hy hslope

/-! ## Adding -/

/-- The residues of a sum, where that is computed by the formulas. -/
theorem cast_add (h : d.Sound) {i j : Jacobian} (hi : ¬ i.isInfinity = true)
    (hj : ¬ j.isInfinity = true)
    (hne : Modular.mul d.p i.x (Modular.mul d.p j.z j.z)
      ≠ Modular.mul d.p j.x (Modular.mul d.p i.z i.z)) :
    let u : ZMod d.p := i.x * j.z ^ 2
    let s : ZMod d.p := i.y * j.z ^ 3
    let a : ZMod d.p := j.x * i.z ^ 2 - u
    let r : ZMod d.p := j.y * i.z ^ 3 - s
    ((d.add i j).y < d.p ∧ (d.add i j).z < d.p) ∧
      ((d.add i j).x : ZMod d.p) = r ^ 2 - a ^ 3 - 2 * (u * a ^ 2) ∧
      ((d.add i j).y : ZMod d.p)
        = r * (u * a ^ 2 - (r ^ 2 - a ^ 3 - 2 * (u * a ^ 2))) - s * a ^ 3 ∧
      ((d.add i j).z : ZMod d.p) = a * (i.z * j.z) := by
  intro u s a r
  have hp := h.p_pos
  rw [add, if_neg hi, if_neg hj]
  dsimp only
  rw [if_neg hne]
  refine ⟨⟨Modular.sub_lt hp _ _, Modular.mul_lt hp _ _⟩, ?_, ?_, ?_⟩
  all_goals
    simp only [Modular.cast_sub hp, Modular.cast_mul, Modular.cast_mod, Nat.cast_mul,
      Nat.cast_ofNat, u, s, a, r]
    ring

section

variable {i j : Jacobian} {x y x' y' : ZMod d.p}

/-- Brought to one factor, coordinates are equal exactly when the affine ones are. -/
theorem eq_iff_of_cast {m n : Nat} {k x x' : ZMod d.p} (hm : m < d.p) (hn : n < d.p) (hk : k ≠ 0)
    (hleft : (m : ZMod d.p) = x * k) (hright : (n : ZMod d.p) = x' * k) : m = n ↔ x = x' := by
  rw [← Modular.cast_inj hm hn, hleft, hright, mul_left_inj' hk]

theorem StandsAt.scaled_x_eq_iff (h : d.Sound) (hi : StandsAt i x y) (hj : StandsAt j x' y') :
    Modular.mul d.p i.x (Modular.mul d.p j.z j.z)
      = Modular.mul d.p j.x (Modular.mul d.p i.z i.z) ↔ x = x' := by
  have hz : ((i.z : ZMod d.p) * j.z) ^ 2 ≠ 0 :=
    pow_ne_zero 2 (mul_ne_zero hi.z_ne_zero hj.z_ne_zero)
  refine eq_iff_of_cast (Modular.mul_lt h.p_pos _ _) (Modular.mul_lt h.p_pos _ _) hz ?_ ?_
  · rw [Modular.cast_mul, Modular.cast_mul, hi.cast_x]
    ring
  · rw [Modular.cast_mul, Modular.cast_mul, hj.cast_x]
    ring

theorem StandsAt.scaled_y_eq_iff (h : d.Sound) (hi : StandsAt i x y) (hj : StandsAt j x' y') :
    Modular.mul d.p i.y (Modular.mul d.p (Modular.mul d.p j.z j.z) j.z)
      = Modular.mul d.p j.y (Modular.mul d.p (Modular.mul d.p i.z i.z) i.z) ↔ y = y' := by
  have hz : ((i.z : ZMod d.p) * j.z) ^ 3 ≠ 0 :=
    pow_ne_zero 3 (mul_ne_zero hi.z_ne_zero hj.z_ne_zero)
  refine eq_iff_of_cast (Modular.mul_lt h.p_pos _ _) (Modular.mul_lt h.p_pos _ _) hz ?_ ?_
  · rw [Modular.cast_mul, Modular.cast_mul, Modular.cast_mul, hi.cast_y]
    ring
  · rw [Modular.cast_mul, Modular.cast_mul, Modular.cast_mul, hj.cast_y]
    ring

/-- The sum of two points by the slope `l` of the line through them. -/
theorem StandsAt.add (h : d.Sound) (hi : StandsAt i x y) (hj : StandsAt j x' y') {l : ZMod d.p}
    (hx : x ≠ x') (hl : l * (x - x') = y - y') :
    StandsAt (d.add i j) (l ^ 2 - x - x') (l * (x - (l ^ 2 - x - x')) - y) := by
  obtain ⟨⟨hlty, hltz⟩, hx3, hy3, hz3⟩ := cast_add h hi.not_isInfinity hj.not_isInfinity
    fun heq => hx ((hi.scaled_x_eq_iff h hj).mp heq)
  have hu : (i.x : ZMod d.p) * j.z ^ 2 = x * (i.z * j.z) ^ 2 := by
    rw [hi.cast_x]
    ring
  have hs : (i.y : ZMod d.p) * j.z ^ 3 = y * (i.z * j.z) ^ 3 := by
    rw [hi.cast_y]
    ring
  have ha : (j.x : ZMod d.p) * i.z ^ 2 - x * (i.z * j.z) ^ 2 = (x' - x) * (i.z * j.z) ^ 2 := by
    rw [hj.cast_x]
    ring
  have hr : (j.y : ZMod d.p) * i.z ^ 3 - y * (i.z * j.z) ^ 3
      = l * ((x' - x) * (i.z * j.z) ^ 3) := by
    rw [hj.cast_y]
    linear_combination ((i.z : ZMod d.p) * j.z) ^ 3 * hl
  rw [hu, ha] at hx3 hy3 hz3
  rw [hs, hr] at hx3 hy3
  refine ⟨hlty, hltz, ?_, ?_, ?_⟩
  · have hz : (i.z : ZMod d.p) * j.z ≠ 0 := mul_ne_zero hi.z_ne_zero hj.z_ne_zero
    rw [hz3]
    exact mul_ne_zero (mul_ne_zero (sub_ne_zero.mpr (Ne.symm hx)) (pow_ne_zero 2 hz)) hz
  · rw [hx3, hz3]
    ring
  · rw [hy3, hz3]
    ring

end

theorem stands_add (h : d.Sound) {i j : Jacobian} {f g : d.curve.Point} (hi : Stands i f)
    (hj : Stands j g) : Stands (d.add i j) (f + g) := by
  cases hi with
  | infinity hz =>
    rw [add, if_pos (isInfinity_iff.mpr hz), zero_add]
    exact hj
  | affine x y hxy hi =>
  cases hj with
  | infinity hz =>
    rw [add, if_neg hi.not_isInfinity, if_pos (isInfinity_iff.mpr hz), add_zero]
    exact .affine x y hxy hi
  | affine x' y' hxy' hj =>
    by_cases hx : x = x'
    · rw [add, if_neg hi.not_isInfinity, if_neg hj.not_isInfinity]
      dsimp only
      rw [if_pos ((hi.scaled_x_eq_iff h hj).mpr hx)]
      by_cases hy : y = y'
      · rw [if_pos ((hi.scaled_y_eq_iff h hj).mpr hy)]
        subst hx hy
        exact stands_double h (.affine x y hxy hi)
      · -- two elements with one abscissa and two ordinates are opposite
        have hneg : y = d.curve.negY x' y' :=
          (WeierstrassCurve.Affine.Y_eq_of_X_eq hxy.1 hxy'.1 hx).resolve_left hy
        rw [if_neg fun heq => hy ((hi.scaled_y_eq_iff h hj).mp heq),
          WeierstrassCurve.Affine.Point.add_of_Y_eq hx hneg]
        exact stands_infinity
    · have hslope : d.curve.slope x x' y y' * (x - x') = y - y' := by
        rw [WeierstrassCurve.Affine.slope_of_X_ne hx, div_mul_cancel₀ _ (sub_ne_zero.mpr hx)]
      rw [WeierstrassCurve.Affine.Point.add_of_X_ne hx]
      refine .affine _ _ _ ?_
      rw [addY_curve, addX_curve]
      exact hi.add h hj hx hslope

/-! ## Affine coordinates -/

theorem toAffine_eq_coordinates (h : d.Sound) {j : Jacobian} {g : d.curve.Point}
    (hj : Stands j g) : d.toAffine j = coordinates g := by
  cases hj with
  | infinity hz =>
    rw [toAffine, if_pos (isInfinity_iff.mpr hz)]
    rfl
  | affine x y hxy hj =>
    have hz := hj.z_ne_zero
    rw [toAffine, if_neg hj.not_isInfinity, coordinates, Option.some.injEq, Point.mk.injEq]
    constructor
    · apply Modular.eq_val_of_cast (Modular.mul_lt h.p_pos _ _)
      simp only [Modular.cast_mul, Modular.cast_inverse hz, hj.cast_x]
      field_simp
    · apply Modular.eq_val_of_cast (Modular.mul_lt h.p_pos _ _)
      simp only [Modular.cast_mul, Modular.cast_inverse hz, hj.cast_y]
      field_simp

end Domain
end CardAccess

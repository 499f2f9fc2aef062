import CardAccess.Proofs.Curve.Group

/-!
# Multiples

The ladder holds two neighbouring multiples of a point and reads the digits of the
scalar, so it ends at the multiple by the scalar.  `mul_eq_coordinates` and
`mulAdd_eq_coordinates` say so of the results, for scalars of any size and in all
special cases, because doubling and adding have none left.
-/

namespace CardAccess
namespace Domain

variable {d : Domain} [Fact d.p.Prime]

/-- If the pair stands for the multiples by `m` and `m + 1`, one digit later it
stands for those by `2m` with that digit and by one more. -/
theorem stands_ladderStep (h : d.Sound) {g : d.curve.Point} {pair : Jacobian × Jacobian} {m : Nat}
    (hlow : Stands pair.1 (m • g)) (hhigh : Stands pair.2 ((m + 1) • g)) (digit : Bool) :
    Stands (d.ladderStep pair digit).1 ((2 * m + digit.toNat) • g) ∧
      Stands (d.ladderStep pair digit).2 ((2 * m + digit.toNat + 1) • g) := by
  have hsum := stands_add h hlow hhigh
  rw [← add_nsmul, ← Nat.add_assoc, ← Nat.two_mul] at hsum
  cases digit with
  | false =>
    have hdouble := stands_double h hlow
    rw [← add_nsmul, ← Nat.two_mul] at hdouble
    exact ⟨hdouble, hsum⟩
  | true =>
    have hdouble := stands_double h hhigh
    have hnext : m + 1 + (m + 1) = 2 * m + 1 + 1 := by omega
    rw [← add_nsmul, hnext] at hdouble
    exact ⟨hsum, hdouble⟩

theorem stands_ladder (h : d.Sound) {g : d.curve.Point} (k count : Nat) {m : Nat}
    {pair : Jacobian × Jacobian} (hlow : Stands pair.1 (m • g))
    (hhigh : Stands pair.2 ((m + 1) • g)) :
    Stands (d.ladder k count pair).1 ((m * 2 ^ count + k % 2 ^ count) • g) := by
  -- on the digits still to be read: `m` is the number that those before them spell
  induction count generalizing m pair with
  | zero =>
    rw [pow_zero, Nat.mul_one, Nat.mod_one, Nat.add_zero]
    exact hlow
  | succ count ih =>
    obtain ⟨hlow', hhigh'⟩ := stands_ladderStep h hlow hhigh (k.testBit count)
    have hscalar : m * 2 ^ (count + 1) + k % 2 ^ (count + 1)
        = (2 * m + (k.testBit count).toNat) * 2 ^ count + k % 2 ^ count := by
      rw [Nat.mod_pow_succ, ← Nat.toNat_testBit]
      ring
    rw [hscalar]
    exact ih hlow' hhigh'

theorem stands_mulJacobian (h : d.Sound) {j : Jacobian} {g : d.curve.Point} (hj : Stands j g)
    (k : Nat) : Stands (d.mulJacobian j k) (k • g) := by
  have hlow : Stands Jacobian.infinity (0 • g) := by
    rw [zero_nsmul]
    exact stands_infinity
  have hhigh : Stands j ((0 + 1) • g) := by rwa [Nat.zero_add, one_nsmul]
  have hfits : k < 2 ^ max (bitLength d.order) (bitLength k) :=
    Nat.lt_of_lt_of_le (lt_two_pow_bitLength k)
      (Nat.pow_le_pow_right (by decide) (Nat.le_max_right _ _))
  have hladder : Stands (d.mulJacobian j k) _ := stands_ladder h k _ hlow hhigh
  rwa [Nat.zero_mul, Nat.zero_add, Nat.mod_eq_of_lt hfits] at hladder

theorem mul_eq_coordinates (h : d.Sound) {point : Point} (hpoint : d.contains point = true)
    (k : Nat) : d.mul point k = coordinates (k • element h point hpoint) :=
  toAffine_eq_coordinates h (stands_mulJacobian h (stands_ofPoint h hpoint) k)

theorem mulAdd_eq_coordinates (h : d.Sound) {p1 p2 : Point} (h1 : d.contains p1 = true)
    (h2 : d.contains p2 = true) (k1 k2 : Nat) :
    d.mulAdd k1 p1 k2 p2 = coordinates (k1 • element h p1 h1 + k2 • element h p2 h2) :=
  toAffine_eq_coordinates h (stands_add h (stands_mulJacobian h (stands_ofPoint h h1) k1)
    (stands_mulJacobian h (stands_ofPoint h h2) k2))

/-- `result` is how the element `g` is given to the outside: nothing exactly at
infinity, and else its reduced coordinates, which are a point on the curve. -/
def Gives (result : Option Point) (g : d.curve.Point) : Prop :=
  (result = none ↔ g = 0) ∧
    ∀ point, result = some point →
      d.contains point = true ∧ point.x < d.p ∧ point.y < d.p ∧
        ∃ hpoint : d.curve.Nonsingular (point.x : ZMod d.p) (point.y : ZMod d.p),
          g = .some point.x point.y hpoint

theorem gives_coordinates (h : d.Sound) (g : d.curve.Point) : Gives (coordinates g) g := by
  refine ⟨coordinates_eq_none, fun point hsome => ?_⟩
  obtain ⟨hpoint, rfl⟩ := (coordinates_eq_some h).mp hsome
  obtain ⟨hx, hy, hequation⟩ := contains_iff_equation.mp hpoint
  exact ⟨hpoint, hx, hy, h.equation_iff_nonsingular.mp hequation, rfl⟩

/-- Multiples and sums of two multiples are those in the group of the curve
`y² = x³ + ax + b` over the residues modulo `p`, for all points on the curve and all
scalars. -/
theorem gives_mul_and_mulAdd (h : d.Obtained) {p1 p2 : Point} (h1 : d.contains p1 = true)
    (h2 : d.contains p2 = true) (k k1 k2 : Nat) :
    Gives (d.mul p1 k) (k • element h.sound p1 h1) ∧
      Gives (d.mulAdd k1 p1 k2 p2)
        (k1 • element h.sound p1 h1 + k2 • element h.sound p2 h2) := by
  rw [mul_eq_coordinates h.sound h1, mulAdd_eq_coordinates h.sound h1 h2]
  exact ⟨gives_coordinates h.sound _, gives_coordinates h.sound _⟩

/-- A scalar above the order, and the sum of a point and its opposite. -/
theorem gives_mul_and_mulAdd_small :
    Gives (small.mul ⟨5, 1⟩ 20) (20 • element obtained_small.sound ⟨5, 1⟩ (by decide)) ∧
      Gives (small.mulAdd 1 ⟨5, 1⟩ 1 ⟨5, 16⟩)
        (1 • element obtained_small.sound ⟨5, 1⟩ (by decide)
          + 1 • element obtained_small.sound ⟨5, 16⟩ (by decide)) :=
  gives_mul_and_mulAdd obtained_small (by decide) (by decide) 20 1 1

example : small.mul ⟨5, 1⟩ 20 = some ⟨5, 1⟩ ∧ small.mulAdd 1 ⟨5, 1⟩ 1 ⟨5, 16⟩ = none := by decide

end Domain
end CardAccess

import CardAccess.Proofs.Bits
import CardAccess.Proofs.Signature.Ecdsa

/-!
# What verifying accepts

The verifier inverts `s` by a power, adds two multiples in Jacobian coordinates and compares a
remainder.  `verify_eq_ok_iff` says that it accepts exactly the signatures of which the two halves
are in range and satisfy the equation of ECDSA in the group of the curve, for public points and
byte strings of every kind.  Nothing is said there about the order of the public point: it may be
one of another subgroup, so the scalars of the two multiples are residues that have been reduced.
-/

namespace CardAccess
namespace Domain

variable {d : Domain}

/-- The point has reduced coordinates, and they satisfy the equation of the curve. -/
structure OnCurve (d : Domain) (point : Point) : Prop where
  x_lt : point.x < d.p
  y_lt : point.y < d.p
  equation : d.curve.Equation (point.x : ZMod d.p) (point.y : ZMod d.p)

theorem contains_iff_onCurve {point : Point} : d.contains point = true ↔ d.OnCurve point :=
  contains_iff_equation.trans
    ⟨fun ⟨hx, hy, hequation⟩ => ⟨hx, hy, hequation⟩, fun h => ⟨h.x_lt, h.y_lt, h.equation⟩⟩

/-- The element is not infinity, and its reduced `x` coordinate is `x`. -/
def HasX (g : d.curve.Point) (x : Nat) : Prop :=
  ∃ (x' y' : ZMod d.p) (h : d.curve.Nonsingular x' y'), g = .some x' y' h ∧ x'.val = x

theorem hasX_iff {g : d.curve.Point} {x : Nat} :
    HasX g x ↔ ∃ point, coordinates g = some point ∧ point.x = x := by
  constructor
  · rintro ⟨x', y', h, rfl, rfl⟩
    exact ⟨_, rfl, rfl⟩
  · rintro ⟨point, hpoint, rfl⟩
    cases g with
    | zero => cases hpoint
    | some x' y' h =>
      cases hpoint
      exact ⟨x', y', h, rfl, rfl⟩

theorem HasX.ne_zero {g : d.curve.Point} {x : Nat} (h : HasX g x) : g ≠ 0 := by
  obtain ⟨x', y', hxy, rfl, -⟩ := h
  exact WeierstrassCurve.Affine.Point.some_ne_zero hxy

variable [Fact d.p.Prime]

/-- The element at a point on the curve. -/
def OnCurve.element (h : d.Sound) {point : Point} (hpoint : d.OnCurve point) : d.curve.Point :=
  Domain.element h point (contains_iff_onCurve.mpr hpoint)

end Domain

namespace Ecdsa

open Domain

variable {d : Domain}

/-! ## Scalars -/

/-- What is signed are the leading bits of the digest. -/
theorem messageScalar_eq_leading (d : Domain) (hash : HashAlgorithm) (message : Bytes) :
    messageScalar d hash message = Bytes.leading (bitLength d.order) (hash.digest message) := by
  rw [messageScalar, truncate, Bytes.leading_eq]
  split
  · rfl
  · next hshort =>
    rw [Nat.sub_eq_zero_of_le (Nat.le_of_not_lt hshort), Nat.shiftRight_zero]

/-- A product with the inverse is a quotient of residues. -/
theorem mul_inverse_mod [Fact d.order.Prime] {s : Nat} (hpos : 0 < s) (hlt : s < d.order)
    (a : Nat) :
    a * Modular.inverse d.order s % d.order = ((a : ZMod d.order) / s).val := by
  have hs : (s : ZMod d.order) ≠ 0 := (Modular.cast_eq_zero hlt).not.mpr (Nat.ne_of_gt hpos)
  apply Modular.eq_val_of_cast (Nat.mod_lt _ (Nat.zero_lt_of_lt hlt))
  rw [Modular.cast_mod, Nat.cast_mul, Modular.cast_inverse hs, div_eq_mul_inv]

/-! ## Accepting -/

/-- The checks of the verifier, one after the other. -/
theorem verify_eq_ok {hash : HashAlgorithm} {point : Point} {message signature : Bytes} :
    verify d hash point message signature = .ok () ↔
      let r := Bytes.toNat (signature.take d.orderLength)
      let s := Bytes.toNat (signature.drop d.orderLength)
      signature.length = 2 * d.orderLength ∧ (1 ≤ r ∧ r < d.order) ∧ (1 ≤ s ∧ s < d.order) ∧
        d.OnCurve point ∧ verifyScalars d point (messageScalar d hash message) r s = true := by
  rw [verify, ← contains_iff_onCurve]
  dsimp only
  constructor
  · intro h
    split at h
    · cases h
    next hlength =>
    split at h
    · cases h
    next hrange =>
    split at h
    · cases h
    next hpoint =>
    split at h
    · next hscalars =>
      exact ⟨by omega, by omega, by omega, eq_true_of_ne_false hpoint, hscalars⟩
    · cases h
  · intro h
    obtain ⟨hlength, hr, hs, hpoint, hscalars⟩ := h
    rw [if_neg (not_not.mpr hlength), if_neg (by omega), hpoint, if_neg (by decide),
      if_pos hscalars]

variable [Fact d.p.Prime] [Fact d.order.Prime]

/-- The sum of which the verifier looks at the `x` coordinate. -/
def verifierSum (h : d.Sound) (g : d.curve.Point) (e r s : Nat) : d.curve.Point :=
  ((e : ZMod d.order) / s).val • base h + ((r : ZMod d.order) / s).val • g

theorem verifyScalars_iff (h : d.Sound) {point : Point} (hpoint : d.OnCurve point) {e r s : Nat}
    (hr : r < d.order) (hs : 1 ≤ s ∧ s < d.order) :
    verifyScalars d point e r s = true ↔
      ∃ x, HasX (verifierSum h (hpoint.element h) e r s) x ∧ x ≡ r [MOD d.order] := by
  have hsum : d.mulAdd (e * Modular.inverse d.order s % d.order) d.generator
      (r * Modular.inverse d.order s % d.order) point
        = coordinates (verifierSum h (hpoint.element h) e r s) := by
    rw [mulAdd_eq_coordinates h h.contains_generator (contains_iff_onCurve.mpr hpoint),
      mul_inverse_mod hs.1 hs.2, mul_inverse_mod hs.1 hs.2]
    rfl
  simp only [hasX_iff]
  rw [verifyScalars, hsum]
  cases coordinates (verifierSum h (hpoint.element h) e r s) with
  | none => simp
  | some point =>
    have hmod : (point.x % d.order == r) = true ↔ point.x ≡ r [MOD d.order] := by
      rw [beq_iff_eq, Nat.ModEq, Nat.mod_eq_of_lt hr]
    simpa using hmod

/-- A signature is accepted exactly if it has its length, its halves are scalars in range, the
public point is one of the curve, and the sum of `e / s` times the base point and `r / s` times
the public point is not infinity and has an `x` coordinate that is `r` modulo the order.  The
quotients are those modulo the order, and `e` is made of the leading bits of the digest. -/
theorem verify_eq_ok_iff (h : d.Obtained) (hash : HashAlgorithm) (point : Point)
    (message signature : Bytes) :
    let r := Bytes.toNat (signature.take d.orderLength)
    let s := Bytes.toNat (signature.drop d.orderLength)
    let e := Bytes.leading (bitLength d.order) (hash.digest message)
    verify d hash point message signature = .ok () ↔
      signature.length = 2 * d.orderLength ∧ (1 ≤ r ∧ r < d.order) ∧ (1 ≤ s ∧ s < d.order) ∧
        ∃ hpoint : d.OnCurve point,
          verifierSum h.sound (hpoint.element h.sound) e r s ≠ 0 ∧
          ∃ x, HasX (verifierSum h.sound (hpoint.element h.sound) e r s) x ∧
            x ≡ r [MOD d.order] := by
  intro r s e
  rw [verify_eq_ok, messageScalar_eq_leading]
  show (_ ∧ (1 ≤ r ∧ r < d.order) ∧ (1 ≤ s ∧ s < d.order) ∧ d.OnCurve point ∧
    verifyScalars d point e r s = true) ↔ _
  constructor
  · rintro ⟨hlength, hr, hs, hpoint, hscalars⟩
    obtain ⟨x, hx, hmod⟩ := (verifyScalars_iff h.sound hpoint hr.2 hs).mp hscalars
    exact ⟨hlength, hr, hs, hpoint, hx.ne_zero, x, hx, hmod⟩
  · rintro ⟨hlength, hr, hs, hpoint, -, hequation⟩
    exact ⟨hlength, hr, hs, hpoint, (verifyScalars_iff h.sound hpoint hr.2 hs).mpr hequation⟩

/-- A signature on the curve of nineteen points under the key 7. -/
theorem equation_small :
    verify small .sha1 ⟨0, 6⟩ [0x61] [6, 9] = .ok () ∧
      ∃ hpoint : small.OnCurve ⟨0, 6⟩,
        verifierSum obtained_small.sound (hpoint.element obtained_small.sound)
          (Bytes.leading (bitLength 19) (HashAlgorithm.sha1.digest [0x61])) 6 9 ≠ 0 ∧
        ∃ x, HasX (verifierSum obtained_small.sound (hpoint.element obtained_small.sound)
          (Bytes.leading (bitLength 19) (HashAlgorithm.sha1.digest [0x61])) 6 9) x ∧
          x ≡ 6 [MOD 19] := by
  have haccepted : verify small .sha1 ⟨0, 6⟩ [0x61] [6, 9] = .ok () := by decide +kernel
  exact ⟨haccepted,
    ((verify_eq_ok_iff obtained_small .sha1 ⟨0, 6⟩ [0x61] [6, 9]).mp haccepted).2.2.2⟩

-- the halves the other way round, and a point off the curve
example : verify small .sha1 ⟨0, 6⟩ [0x61] [9, 6] = .error .invalidSignature ∧
    verify small .sha1 ⟨0, 7⟩ [0x61] [6, 9] = .error .invalidPoint := by decide +kernel

end Ecdsa
end CardAccess

import CardAccess.Proofs.Curve.Multiple
import CardAccess.Signature.Ecdsa
import Mathlib.GroupTheory.OrderOfElement

/-!
# Signatures verify

Over a prime order the base point has exactly that order, so a multiple of it is
told by the residue of the scalar, and in the residues every scalar of a signature
has an inverse.  Verifying then comes back to the point of the nonce whatever the
digest was, and whichever candidates the nonce was chosen from: `signs_sign` says
so of the deterministic generator and of any other source of candidates.
-/

namespace CardAccess
namespace Domain

variable {d : Domain} [Fact d.p.Prime]

/-- The base point as an element. -/
def base (h : d.Sound) : d.curve.Point := element h d.generator h.contains_generator

theorem mulGenerator_eq_coordinates (h : d.Sound) (k : Nat) :
    d.mulGenerator k = coordinates (k • base h) :=
  mul_eq_coordinates h h.contains_generator k

theorem addOrderOf_base (h : d.Sound) [Fact d.order.Prime] : addOrderOf (base h) = d.order := by
  apply addOrderOf_eq_prime
  · rw [← coordinates_eq_none, ← mulGenerator_eq_coordinates]
    exact h.mulGenerator_order
  · exact WeierstrassCurve.Affine.Point.some_ne_zero _

theorem smul_base_eq_iff (h : d.Sound) [Fact d.order.Prime] {k k' : Nat} :
    k • base h = k' • base h ↔ (k : ZMod d.order) = k' := by
  rw [nsmul_eq_nsmul_iff_modEq, addOrderOf_base, ZMod.natCast_eq_natCast_iff]

/-- No scalar between one and the order leads to infinity. -/
theorem exists_mulGenerator (h : d.Sound) [Fact d.order.Prime] {k : Nat} (hpos : 0 < k)
    (hlt : k < d.order) :
    ∃ point, d.mulGenerator k = some point ∧
      ∃ hpoint : d.contains point = true, k • base h = element h point hpoint := by
  cases hk : d.mulGenerator k with
  | none =>
    rw [mulGenerator_eq_coordinates h, coordinates_eq_none, ← addOrderOf_dvd_iff_nsmul_eq_zero,
      addOrderOf_base] at hk
    exact absurd (Nat.le_of_dvd hpos hk) (Nat.not_le.mpr hlt)
  | some point =>
    rw [mulGenerator_eq_coordinates h] at hk
    exact ⟨point, rfl, (coordinates_eq_some h).mp hk⟩

instance : Fact small.order.Prime := ⟨by decide⟩

end Domain

namespace Ecdsa

open Domain

variable {d : Domain}

/-! ## Signing -/

theorem attempt_eq_some {key e k r s : Nat} (h : attempt d key e k = some (r, s)) :
    (0 < k ∧ k < d.order) ∧ (∃ point, d.mulGenerator k = some point ∧ point.x % d.order = r) ∧
      r ≠ 0 ∧ s ≠ 0 ∧ s = Modular.inverse d.order k * ((e + r * key) % d.order) % d.order := by
  rw [attempt] at h
  split at h
  · cases h
  next hrange =>
  split at h
  · cases h
  next point hpoint =>
  dsimp only at h
  split at h
  · cases h
  next hr =>
  split at h
  · cases h
  next hs =>
  cases h
  exact ⟨by omega, ⟨point, hpoint, rfl⟩, hr, hs, rfl⟩

/-- Trying nonces ends with the scalars of one attempt or with none. -/
theorem signFrom_cases {σ : Type} (key e : Nat) (next : σ → Bytes × σ) (attempts : Nat)
    (source : σ) :
    signFrom d key e next attempts source = .error .noUsableNonce ∨
      ∃ k r s, attempt d key e k = some (r, s) ∧
        signFrom d key e next attempts source = .ok (encodeSignature d r s) := by
  induction attempts generalizing source with
  | zero => exact .inl rfl
  | succ attempts ih =>
    rw [signFrom]
    dsimp only
    split
    · next r s hattempt => exact .inr ⟨_, r, s, hattempt, rfl⟩
    · exact ih _

theorem signFrom_of_attempt {σ : Type} {key e r s : Nat} {next : σ → Bytes × σ} {source : σ}
    (h : attempt d key e ((next source).1.toNat >>> excessBits d) = some (r, s)) (attempts : Nat) :
    signFrom d key e next (attempts + 1) source = .ok (encodeSignature d r s) := by
  rw [signFrom]
  dsimp only
  rw [h]

/-! ## Verifying -/

theorem length_encodeSignature (r s : Nat) :
    (encodeSignature d r s).length = 2 * d.orderLength := by
  rw [encodeSignature, List.length_append, Bytes.length_fixed, Bytes.length_fixed, Nat.two_mul]

theorem toNat_fixed_orderLength {n : Nat} (h : n < d.order) :
    (Bytes.fixed d.orderLength n).toNat = n :=
  Bytes.toNat_fixed_of_lt (Nat.lt_trans h (lt_pow_byteLength d.order))

theorem toNat_take_encodeSignature {r s : Nat} (hr : r < d.order) :
    Bytes.toNat ((encodeSignature d r s).take d.orderLength) = r := by
  rw [encodeSignature, List.take_left' (Bytes.length_fixed _ _), toNat_fixed_orderLength hr]

theorem toNat_drop_encodeSignature {r s : Nat} (hs : s < d.order) :
    Bytes.toNat ((encodeSignature d r s).drop d.orderLength) = s := by
  rw [encodeSignature, List.drop_left' (Bytes.length_fixed _ _), toNat_fixed_orderLength hs]

/-- Two scalars in range are a signature exactly when the equation holds. -/
theorem verify_encodeSignature {hash : HashAlgorithm} {point : Point} {message : Bytes} {r s : Nat}
    (hr : r ≠ 0 ∧ r < d.order) (hs : s ≠ 0 ∧ s < d.order) (hpoint : d.contains point = true) :
    verify d hash point message (encodeSignature d r s)
      = if verifyScalars d point (messageScalar d hash message) r s then .ok ()
        else .error .invalidSignature := by
  have hrange : ¬ (r = 0 ∨ s = 0 ∨ r ≥ d.order ∨ s ≥ d.order) := by omega
  rw [verify, if_neg (not_not.mpr (length_encodeSignature r s))]
  dsimp only
  rw [toNat_take_encodeSignature hr.2, toNat_drop_encodeSignature hs.2, if_neg hrange, hpoint,
    if_neg (by decide)]

variable [Fact d.p.Prime] [Fact d.order.Prime]

/-- The scalars of an attempt satisfy the equation under the public point: with
`s = (e + r key) / k` the two multiples add up to that by `k`. -/
theorem verifyScalars_of_attempt (h : d.Sound) {key e k r s : Nat} {point : Point}
    (hattempt : attempt d key e k = some (r, s)) (hpoint : d.contains point = true)
    (hkey : key • base h = element h point hpoint) : verifyScalars d point e r s = true := by
  obtain ⟨⟨hkpos, hklt⟩, ⟨nonce, hnonce, hr⟩, -, hs0, hs⟩ := attempt_eq_some hattempt
  have hslt : s < d.order := hs ▸ Nat.mod_lt _ (Nat.zero_lt_of_lt hklt)
  have hk : (k : ZMod d.order) ≠ 0 := (Modular.cast_eq_zero hklt).not.mpr (Nat.ne_of_gt hkpos)
  have hsne : (s : ZMod d.order) ≠ 0 := (Modular.cast_eq_zero hslt).not.mpr hs0
  have hscalar : (s : ZMod d.order) = (k : ZMod d.order)⁻¹ * (e + r * key) := by
    rw [hs, Modular.cast_mod, Nat.cast_mul, Modular.cast_inverse hk, Modular.cast_mod]
    push_cast
    rfl
  -- the scalars of the verifier are reduced one by one, so the sum is one of residues
  have hsum : ((e * Modular.inverse d.order s % d.order
      + r * Modular.inverse d.order s % d.order * key : Nat) : ZMod d.order) = k := by
    push_cast [Modular.cast_mod, Modular.cast_inverse hsne]
    calc (e : ZMod d.order) * (s : ZMod d.order)⁻¹ + r * (s : ZMod d.order)⁻¹ * key
        = (e + r * key) * (s : ZMod d.order)⁻¹ := by ring
      _ = k * s * (s : ZMod d.order)⁻¹ := by rw [hscalar, mul_inv_cancel_left₀ hk]
      _ = k := mul_inv_cancel_right₀ hsne _
  have hpoints : d.mulAdd (e * Modular.inverse d.order s % d.order) d.generator
      (r * Modular.inverse d.order s % d.order) point = some nonce := by
    have helement : (e * Modular.inverse d.order s % d.order) • base h
        + (r * Modular.inverse d.order s % d.order) • element h point hpoint = k • base h := by
      rw [← hkey, ← mul_nsmul', ← add_nsmul, smul_base_eq_iff, hsum]
    rw [mulAdd_eq_coordinates h h.contains_generator hpoint]
    exact (congrArg coordinates helement).trans
      ((mulGenerator_eq_coordinates h k).symm.trans hnonce)
  rw [verifyScalars, hpoints]
  exact beq_iff_eq.mpr hr

/-- What signing may come to: a signature of full length, with both scalars between
one and the order, that verifies under the public point, or the lack of a nonce. -/
def Signs (d : Domain) (hash : HashAlgorithm) (point : Point) (message : Bytes) :
    Except Error Bytes → Prop
  | .ok signature =>
    signature.length = 2 * d.orderLength ∧
      (1 ≤ Bytes.toNat (signature.take d.orderLength) ∧
        Bytes.toNat (signature.take d.orderLength) ≤ d.order - 1) ∧
      (1 ≤ Bytes.toNat (signature.drop d.orderLength) ∧
        Bytes.toNat (signature.drop d.orderLength) ≤ d.order - 1) ∧
      verify d hash point message signature = .ok ()
  | .error e => e = .noUsableNonce

theorem signs_signFrom (h : d.Sound) (hash : HashAlgorithm) {key : Nat} {point : Point}
    (hpoint : d.contains point = true) (hkey : key • base h = element h point hpoint)
    (message : Bytes) {σ : Type} (next : σ → Bytes × σ) (attempts : Nat) (source : σ) :
    Signs d hash point message
      (signFrom d key (messageScalar d hash message) next attempts source) := by
  rcases signFrom_cases key (messageScalar d hash message) next attempts source with
    hnone | ⟨k, r, s, hattempt, hsome⟩
  · rw [hnone]
    rfl
  · obtain ⟨⟨-, hklt⟩, ⟨nonce, -, hr⟩, hr0, hs0, hs⟩ := attempt_eq_some hattempt
    have hpos := Nat.zero_lt_of_lt hklt
    have hrlt : r < d.order := hr ▸ Nat.mod_lt _ hpos
    have hslt : s < d.order := hs ▸ Nat.mod_lt _ hpos
    rw [hsome]
    refine ⟨length_encodeSignature r s, ?_, ?_, ?_⟩
    · rw [toNat_take_encodeSignature hrlt]
      omega
    · rw [toNat_drop_encodeSignature hslt]
      omega
    · rw [verify_encodeSignature ⟨hr0, hrlt⟩ ⟨hs0, hslt⟩ hpoint,
        if_pos (verifyScalars_of_attempt h hattempt hpoint hkey)]

-- of eight bits the five leading ones count, and the first candidate is out of range
example : signFrom small 7 5 (fun candidates : List Bytes => (candidates.headD [], candidates.tail))
    2 [[160], [40]] = .ok [9, 6] := by decide

/-- Signing with a scalar in range gives a signature that verifies under the public
point of the scalar, if it does not run out of nonces, whichever candidates for
these it is given. -/
theorem signs_sign (h : d.Obtained) (hash : HashAlgorithm) {key : Nat} (hpos : 1 ≤ key)
    (hlt : key < d.order) (message : Bytes) :
    ∃ point, d.mulGenerator key = some point ∧
      Signs d hash point message (sign d hash key message) ∧
      ∀ {σ : Type} (next : σ → Bytes × σ) (source : σ),
        Signs d hash point message
          (signFrom d key (messageScalar d hash message) next maxAttempts source) := by
  obtain ⟨point, hmultiple, hpoint, hkey⟩ := exists_mulGenerator h.sound hpos hlt
  have hrange : ¬ (key = 0 ∨ key ≥ d.order) := by omega
  refine ⟨point, hmultiple, ?_, ?_⟩
  · rw [sign, if_neg hrange]
    exact signs_signFrom h.sound hash hpoint hkey message _ _ _
  · intro σ next source
    exact signs_signFrom h.sound hash hpoint hkey message next _ source

/-- On the curve of nineteen points, where a scalar has one byte, the first candidate will do. -/
theorem attempt_small : attempt small 7 (messageScalar small .sha1 [0x62])
    ((NonceGenerator.draw small.orderLength
      (nonceSource small .sha1 7 (messageScalar small .sha1 [0x62]))).1.toNat >>> excessBits small)
      = some (6, 12) := by
  decide +kernel

/-- The signature of that candidate. -/
theorem signs_sign_small :
    sign small .sha1 7 [0x62] = .ok [6, 12] ∧
      ∃ point, small.mulGenerator 7 = some point ∧
        verify small .sha1 point [0x62] [6, 12] = .ok () ∧
        ∀ {σ : Type} (next : σ → Bytes × σ) (source : σ),
          Signs small .sha1 point [0x62]
            (signFrom small 7 (messageScalar small .sha1 [0x62]) next maxAttempts source) := by
  have hlt : 7 < small.order := by decide
  have hsign : sign small .sha1 7 [0x62] = .ok [6, 12] := by
    rw [sign, if_neg (by decide)]
    exact signFrom_of_attempt attempt_small 63
  obtain ⟨point, hpoint, hsigns⟩ := signs_sign obtained_small .sha1 (by decide) hlt [0x62]
  rw [hsign] at hsigns
  obtain ⟨⟨-, -, -, hverified⟩, hall⟩ := hsigns
  exact ⟨hsign, point, hpoint, hverified, hall⟩

end Ecdsa
end CardAccess

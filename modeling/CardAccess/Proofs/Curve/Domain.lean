import CardAccess.Curve.Named

/-!
# What is known of a domain

`Sound` collects what `ofParameters` checks, and `ofParameters_eq_ok` says that it
checks exactly this.  The curves with a name are not checked when they are used,
but `sound_domain` shows that they would pass.  So `Obtained.sound` holds of every
domain, wherever it came from.
-/

namespace CardAccess
namespace Domain

/-- What arithmetic on the curve relies on, except that the modulus and the order
are prime. -/
structure Sound (d : Domain) : Prop where
  three_lt_p : 3 < d.p
  p_odd : d.p % 2 = 1
  a_lt : d.a < d.p
  b_lt : d.b < d.p
  two_le_order : 2 ≤ d.order
  cofactor_ne_zero : d.cofactor ≠ 0
  discriminant_ne_zero : d.discriminant ≠ 0
  contains_generator : d.contains d.generator = true
  mulGenerator_order : d.mulGenerator d.order = none

theorem ofParameters_eq_ok {d d' : Domain} :
    ofParameters d = .ok d' ↔ d' = d ∧ d.Sound := by
  constructor
  · intro h
    rw [ofParameters] at h
    split at h
    · cases h
    next hmodulus =>
    split at h
    · cases h
    next hcoefficients =>
    split at h
    · cases h
    next horder =>
    split at h
    · cases h
    next hcofactor =>
    split at h
    · cases h
    next hsingular =>
    split at h
    · cases h
    next hgenerator =>
    split at h
    · cases h
    next hmultiple =>
    cases h
    refine ⟨rfl, ?_⟩
    exact
      { three_lt_p := by omega
        p_odd := by omega
        a_lt := by omega
        b_lt := by omega
        two_le_order := by omega
        cofactor_ne_zero := hcofactor
        discriminant_ne_zero := hsingular
        contains_generator := eq_true_of_ne_false hgenerator
        mulGenerator_order := Option.not_isSome_iff_eq_none.mp hmultiple }
  · rintro ⟨rfl, h⟩
    have hmodulus : ¬ (d'.p ≤ 3 ∨ d'.p % 2 = 0) := by
      have := h.three_lt_p
      have := h.p_odd
      omega
    have hcoefficients : ¬ (d'.a ≥ d'.p ∨ d'.b ≥ d'.p) := by
      have := h.a_lt
      have := h.b_lt
      omega
    rw [ofParameters, if_neg hmodulus, if_neg hcoefficients,
      if_neg (Nat.not_lt.mpr h.two_le_order), if_neg h.cofactor_ne_zero,
      if_neg h.discriminant_ne_zero, h.contains_generator, if_neg (by decide),
      h.mulGenerator_order]
    rfl

/-- The ladder of each named curve comes to infinity at its order. -/
theorem sound_domain (curve : NamedCurve) : curve.domain.Sound := by
  have hchecks : 3 < curve.domain.p ∧ curve.domain.p % 2 = 1 ∧ curve.domain.a < curve.domain.p
      ∧ curve.domain.b < curve.domain.p ∧ 2 ≤ curve.domain.order ∧ curve.domain.cofactor ≠ 0
      ∧ curve.domain.discriminant ≠ 0 ∧ curve.domain.contains curve.domain.generator = true := by
    cases curve <;> decide +kernel
  have hmultiple : curve.domain.mulGenerator curve.domain.order = none := by
    cases curve <;> decide +kernel
  obtain ⟨hthree, hodd, ha, hb, horder, hcofactor, hsingular, hgenerator⟩ := hchecks
  exact ⟨hthree, hodd, ha, hb, horder, hcofactor, hsingular, hgenerator, hmultiple⟩

/-- The ways to come by a domain: by its numbers, which are checked, or by the name
of a curve. -/
inductive Obtained : Domain → Prop where
  | checked {d d' : Domain} (h : ofParameters d = .ok d') : Obtained d'
  | named (curve : NamedCurve) : Obtained curve.domain

theorem Obtained.sound {d : Domain} (h : d.Obtained) : d.Sound := by
  cases h with
  | checked h =>
    obtain ⟨rfl, hsound⟩ := ofParameters_eq_ok.mp h
    exact hsound
  | named curve => exact sound_domain curve

/-- The curve `y² = x³ + 2x + 2` modulo 17, whose points are the nineteen multiples
of one of them. -/
def small : Domain := ⟨17, 2, 2, ⟨5, 1⟩, 19, 1⟩

theorem obtained_small : small.Obtained := .checked (d := small) (by rfl)

theorem Sound.p_pos {d : Domain} (h : d.Sound) : 0 < d.p := Nat.zero_lt_of_lt h.three_lt_p

theorem contains_iff {d : Domain} {point : Point} :
    d.contains point = true ↔ point.x < d.p ∧ point.y < d.p ∧
      point.y * point.y % d.p
        = (point.x * point.x * point.x + d.a * point.x + d.b) % d.p := by
  rw [contains, Bool.and_eq_true, Bool.and_eq_true, decide_eq_true_iff, decide_eq_true_iff,
    beq_iff_eq, and_assoc]

end Domain
end CardAccess

import CardAccess.Key.Private
import CardAccess.Proofs.Key.Public
import CardAccess.Proofs.Signature.Checked

/-!
# Keys from outside

A certificate, a request or a key file may hold any bytes in the place of a curve.  They are read
without a fault, and what comes out of them is a domain like any other: within the bounds that every
computation with a point, a scalar or a signature needs to go without a fault as well.
-/

namespace CardAccess

/-! ## Reading -/

namespace Checked

def ofTlv? (node : Tlv) : Checked (Except Error (Option Domain)) :=
  match node.first? Layout.prime with
  | none => .ok (.ok none)
  | some prime =>
    let p := prime.value.toNat
    andThen (Domain.ofTlv?.number node Layout.coefficientA "curve coefficient a") fun a =>
    andThen (Domain.ofTlv?.number node Layout.coefficientB "curve coefficient b") fun b =>
    andThen (Domain.ofTlv?.number node Layout.order "base point order") fun order =>
      let cofactor := match node.first? Layout.cofactor with
        | none => 1
        | some found => found.value.toNat
      match node.first? Layout.basePoint with
      | none => .ok (.error (.missingElement "base point"))
      | some found => do
        match ← splitPoint (byteLength p) found.value with
        | none => .ok (.error .invalidPoint)
        | some generator =>
          andThen (← ofParameters ⟨p, a, b, generator, order, cofactor⟩) fun domain =>
            .ok (.ok (some domain))

/-- The bytes of the base point are cut before any of the numbers is looked at. -/
theorem ofTlv?_eq (node : Tlv) : ofTlv? node = .ok (Domain.ofTlv? node) := by
  rw [ofTlv?, Domain.ofTlv?]
  cases node.first? Layout.prime with
  | none => rfl
  | some prime =>
    dsimp only
    refine andThen_eq fun a => andThen_eq fun b => andThen_eq fun order => ?_
    cases node.first? Layout.basePoint with
    | none => rfl
    | some found =>
      dsimp only
      rw [splitPoint_eq, ok_bind]
      cases Domain.splitPoint (byteLength prime.value.toNat) found.value with
      | none => rfl
      | some generator =>
        dsimp only
        rw [ofParameters_eq, ok_bind]
        exact andThen_eq fun domain => rfl

end Checked

/-! ## Domains from outside -/

namespace Domain

/-- Where a domain may come from: the name of a curve, numbers, or the element of a key. -/
inductive Given : Domain → Prop where
  | name (curve : NamedCurve) : Given curve.domain
  | numbers {parameters d : Domain} (h : ofParameters parameters = .ok d) : Given d
  | element {node : Tlv} {d : Domain} (h : ofTlv? node = .ok (some d)) : Given d

/-- An element gives the domain of its numbers. -/
theorem exists_parameters {node : Tlv} {d : Domain} (h : ofTlv? node = .ok (some d)) :
    ∃ parameters, ofParameters parameters = .ok d := by
  rw [ofTlv?] at h
  split at h
  · cases h
  obtain ⟨a, -, h⟩ := bind_eq_ok.mp h
  obtain ⟨b, -, h⟩ := bind_eq_ok.mp h
  obtain ⟨order, -, h⟩ := bind_eq_ok.mp h
  extract_lets cofactor at h
  split at h
  · cases h
  split at h
  · cases h
  obtain ⟨domain, hdomain, h⟩ := bind_eq_ok.mp h
  cases h
  exact ⟨_, hdomain⟩

theorem Given.obtained {d : Domain} (h : d.Given) : d.Obtained := by
  cases h with
  | name curve => exact .named curve
  | numbers h => exact .checked h
  | element h =>
    obtain ⟨parameters, hparameters⟩ := exists_parameters h
    exact .checked hparameters

/-- The bounds that computing on a curve relies on. -/
structure Bounded (d : Domain) : Prop where
  p_odd : d.p % 2 = 1
  five_le_p : 5 ≤ d.p
  a_lt : d.a < d.p
  b_lt : d.b < d.p
  generator_x_lt : d.generator.x < d.p
  generator_y_lt : d.generator.y < d.p
  two_le_order : 2 ≤ d.order
  one_le_cofactor : 1 ≤ d.cofactor

theorem Sound.bounded {d : Domain} (h : d.Sound) : d.Bounded := by
  obtain ⟨hx, hy, -⟩ := contains_iff.mp h.contains_generator
  have hthree := h.three_lt_p
  have hodd := h.p_odd
  exact
    { p_odd := hodd
      five_le_p := by omega
      a_lt := h.a_lt
      b_lt := h.b_lt
      generator_x_lt := hx
      generator_y_lt := hy
      two_le_order := h.two_le_order
      one_le_cofactor := Nat.one_le_iff_ne_zero.mpr h.cofactor_ne_zero }

/-- No computation with the domain goes wrong, whatever it is given. -/
structure Faultless (d : Domain) : Prop where
  mul : ∀ point k, Checked.mul d point k = .ok (d.mul point k)
  mulAdd : ∀ k1 p1 k2 p2, Checked.mulAdd d k1 p1 k2 p2 = .ok (d.mulAdd k1 p1 k2 p2)
  randomScalar : ∀ random, Checked.randomScalar d random = .ok (d.randomScalar random)
  encodePoint : ∀ point, Checked.encodePoint d point = .ok (d.encodePoint point)
  decodePoint : ∀ bytes, Checked.decodePoint d bytes = .ok (d.decodePoint bytes)
  sign : ∀ hash key message, Checked.sign d hash key message = .ok (Ecdsa.sign d hash key message)
  signFrom : ∀ {σ : Type} (next : σ → Bytes × σ) key e attempts source,
    Checked.signFrom d key e next attempts source
      = .ok (Ecdsa.signFrom d key e next attempts source)
  verify : ∀ hash point message signature,
    Checked.verify d hash point message signature
      = .ok (Ecdsa.verify d hash point message signature)

theorem Bounded.faultless {d : Domain} (h : d.Bounded) : d.Faultless := by
  have hp : 2 ≤ d.p := Nat.le_trans (by decide) h.five_le_p
  have horder : 2 ≤ d.order := h.two_le_order
  exact
    { mul := Checked.mul_eq hp
      mulAdd := Checked.mulAdd_eq hp
      randomScalar := Checked.randomScalar_eq horder
      encodePoint := Checked.encodePoint_eq d
      decodePoint := Checked.decodePoint_eq d
      sign := Checked.sign_eq hp horder
      signFrom := fun next key e => Checked.signFrom_eq hp horder key e next
      verify := Checked.verify_eq hp horder }

end Domain

/-! ## Keys from outside -/

theorem VerificationKey.given_of_ofTlv {node : Tlv} {fallback : Option Domain}
    {key : VerificationKey} (hfallback : ∀ known, fallback = some known → known.Given)
    (h : ofTlv node fallback = .ok key) : key.key.domain.Given := by
  obtain ⟨-, -, hstated | hknown⟩ := read_of_ofTlv h
  · exact .element hstated
  · exact hfallback _ hknown

theorem PrivateKey.domain_of_ofScalar {domain : Domain} {bytes : Bytes} {key : PrivateKey}
    (h : ofScalar domain bytes = .ok key) : key.domain = domain := by
  rw [ofScalar] at h
  split at h
  · cases h
  · cases h
    rfl

/-- The curve of a key file is one with a name. -/
theorem PrivateKey.named_of_ofPkcs8 {bytes : Bytes} {key : PrivateKey}
    (h : ofPkcs8 bytes = .ok key) : ∃ curve : NamedCurve, key.domain = curve.domain := by
  rw [ofPkcs8] at h
  obtain ⟨info, -, h⟩ := bind_eq_ok.mp h
  split at h
  case h_2 => cases h
  split at h
  · cases h
  split at h
  case h_2 => cases h
  obtain ⟨keyId, -, h⟩ := bind_eq_ok.mp h
  split at h
  · cases h
  obtain ⟨curveId, -, h⟩ := bind_eq_ok.mp h
  split at h
  · cases h
  next curve _ =>
  split at h
  · cases h
  obtain ⟨inner, -, h⟩ := bind_eq_ok.mp h
  split at h
  · cases h
  exact ⟨curve, domain_of_ofScalar h⟩

/-- No bytes make a computation on a curve go wrong.  Taking a domain in does not, the keys of
certificates, requests and key files only have domains that were taken in, and such a domain is
within its bounds and can be computed with. -/
theorem faultless_of_given :
    (∀ parameters, Checked.ofParameters parameters = .ok (Domain.ofParameters parameters)) ∧
    (∀ node, Checked.ofTlv? node = .ok (Domain.ofTlv? node)) ∧
    (∀ node fallback key, (∀ known, fallback = some known → Domain.Given known) →
      VerificationKey.ofTlv node fallback = .ok key → key.key.domain.Given) ∧
    (∀ bytes key, PrivateKey.ofPkcs8 bytes = .ok key → key.domain.Given) ∧
    ∀ d : Domain, d.Given → d.Bounded ∧ d.Faultless := by
  refine ⟨Checked.ofParameters_eq, Checked.ofTlv?_eq, ?_, ?_, ?_⟩
  · intro node fallback key hfallback h
    exact VerificationKey.given_of_ofTlv hfallback h
  · intro bytes key h
    obtain ⟨curve, hcurve⟩ := PrivateKey.named_of_ofPkcs8 h
    rw [hcurve]
    exact .name curve
  · intro d h
    have hbounded := h.obtained.sound.bounded
    exact ⟨hbounded, hbounded.faultless⟩

/-- A key element that states the curve of nineteen points, and a key file of the scalar seven on
the smallest of the named curves. -/
theorem faultless_of_given_small :
    VerificationKey.ofTlv (VerificationKey.small.toTlv true)
        (some NamedCurve.brainpoolP256r1.domain) = .ok VerificationKey.small ∧
    (Domain.small.Bounded ∧ Domain.small.Faultless) ∧
    ∃ bytes, PrivateKey.ofPkcs8 bytes
        = .ok ⟨NamedCurve.brainpoolP256r1.domain, Bytes.fixed 32 7⟩ ∧
      NamedCurve.brainpoolP256r1.domain.Bounded ∧ NamedCurve.brainpoolP256r1.domain.Faultless := by
  obtain ⟨-, -, hpublic, hprivate, hfaultless⟩ := faultless_of_given
  have helement := VerificationKey.ofTlv_toTlv VerificationKey.valid_small
    (SignatureAlgorithm.ofBytes_objectId ⟨.sha1⟩) (some NamedCurve.brainpoolP256r1.domain)
  have hfallback : ∀ known, some NamedCurve.brainpoolP256r1.domain = some known →
      Domain.Given known := by
    intro known hknown
    cases hknown
    exact .name .brainpoolP256r1
  have hfile : PrivateKey.ofPkcs8
      [0x30, 0x23, 0x02, 0x01, 0x00,
        0x30, 0x14, 0x06, 0x07, 0x2A, 0x86, 0x48, 0xCE, 0x3D, 0x02, 0x01,
          0x06, 0x09, 0x2B, 0x24, 0x03, 0x03, 0x02, 0x08, 0x01, 0x01, 0x07,
        0x04, 0x08, 0x30, 0x06, 0x02, 0x01, 0x01, 0x04, 0x01, 0x07]
      = .ok ⟨NamedCurve.brainpoolP256r1.domain, Bytes.fixed 32 7⟩ := by
    decide +kernel
  exact ⟨helement, hfaultless _ (hpublic _ _ _ hfallback helement), _, hfile,
    hfaultless _ (hprivate _ _ hfile)⟩

end CardAccess

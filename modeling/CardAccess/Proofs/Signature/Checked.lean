import CardAccess.Proofs.Curve.Checked
import CardAccess.Signature.Ecdsa

/-!
# Signing and verifying without faults

Both need a modulus and an order of at least two and nothing else: neither the public point, nor the
private key, nor the candidates for the nonce, nor the bytes of a signature have to be of any kind.
-/

namespace CardAccess
namespace Checked

variable {d : Domain}

/-! ## Digests -/

def truncate (d : Domain) (digest : Bytes) : Checked Nat :=
  let digestBits := 8 * digest.length
  let orderBits := bitLength d.order
  if digestBits > orderBits then do
    let excess ← minus digestBits orderBits
    .ok (digest.toNat >>> excess)
  else .ok digest.toNat

def messageScalar (d : Domain) (hash : HashAlgorithm) (message : Bytes) : Checked Nat :=
  truncate d (hash.digest message)

theorem truncate_eq (d : Domain) (digest : Bytes) :
    truncate d digest = .ok (Ecdsa.truncate d digest) := by
  rw [truncate, Ecdsa.truncate]
  split
  · next hlong => rw [minus_eq (Nat.le_of_lt hlong), ok_bind]
  · rfl

theorem messageScalar_eq (d : Domain) (hash : HashAlgorithm) (message : Bytes) :
    messageScalar d hash message = .ok (Ecdsa.messageScalar d hash message) :=
  truncate_eq d _

/-! ## Signing -/

def excessBits (d : Domain) : Checked Nat := minus (d.orderLength * 8) (bitLength d.order)

def attempt (d : Domain) (key e k : Nat) : Checked (Option (Nat × Nat)) :=
  if k = 0 ∨ k ≥ d.order then .ok none
  else do
    match ← mul d d.generator k with
    | none => .ok none
    | some point =>
      let r ← rem point.x d.order
      if r = 0 then .ok none
      else
        let s ← rem ((← inverse d.order k) * (← rem (e + r * key) d.order)) d.order
        if s = 0 then .ok none else .ok (some (r, s))

def encodeSignature (d : Domain) (r s : Nat) : Checked Bytes := do
  let front ← fixed d.orderLength r
  let back ← fixed d.orderLength s
  .ok (front ++ back)

/-- The attempts of a signature, when the bits that a candidate has too many are known. -/
def tryNonces {σ : Type} (d : Domain) (key e excess : Nat) (next : σ → Bytes × σ) :
    (attempts : Nat) → σ → Checked (Except Error Bytes)
  | 0, _ => .ok (.error .noUsableNonce)
  | attempts + 1, source => do
    let (candidate, source) := next source
    match ← attempt d key e (candidate.toNat >>> excess) with
    | some (r, s) =>
      let signature ← encodeSignature d r s
      .ok (.ok signature)
    | none => tryNonces d key e excess next attempts source

def signFrom {σ : Type} (d : Domain) (key e : Nat) (next : σ → Bytes × σ) (attempts : Nat)
    (source : σ) : Checked (Except Error Bytes) := do
  tryNonces d key e (← excessBits d) next attempts source

def sign (d : Domain) (hash : HashAlgorithm) (key : Nat) (message : Bytes) :
    Checked (Except Error Bytes) :=
  if key = 0 ∨ key ≥ d.order then .ok (.error (.invalidPrivateKey .scalarOutOfRange))
  else do
    let e ← messageScalar d hash message
    let scalar ← fixed d.orderLength key
    let digest ← fixed d.orderLength (← rem e d.order)
    signFrom d key e (NonceGenerator.draw d.orderLength) Ecdsa.maxAttempts
      (.seed hash scalar digest)

/-- Full bytes have at least the bits of the number they are for. -/
theorem excessBits_eq (d : Domain) : excessBits d = .ok (Ecdsa.excessBits d) := by
  have hbits : bitLength d.order ≤ d.orderLength * 8 := by
    rw [Domain.orderLength, byteLength]
    omega
  rw [excessBits, minus_eq hbits, Ecdsa.excessBits]

theorem attempt_eq (hp : 2 ≤ d.p) (horder : 2 ≤ d.order) (key e k : Nat) :
    attempt d key e k = .ok (Ecdsa.attempt d key e k) := by
  have hpos : 0 < d.order := Nat.zero_lt_of_lt horder
  rw [attempt, Ecdsa.attempt]
  split
  · rfl
  rw [mul_eq hp, ok_bind, Domain.mulGenerator]
  cases d.mul d.generator k with
  | none => rfl
  | some point =>
    dsimp only
    rw [rem_eq hpos, ok_bind]
    split
    · rfl
    · rw [inverse_eq horder, ok_bind, rem_eq hpos, ok_bind, rem_eq hpos, ok_bind]
      split <;> rfl

theorem encodeSignature_eq (d : Domain) (r s : Nat) :
    encodeSignature d r s = .ok (Ecdsa.encodeSignature d r s) := by
  rw [encodeSignature, fixed_eq, ok_bind, fixed_eq, ok_bind, Ecdsa.encodeSignature]

theorem tryNonces_eq (hp : 2 ≤ d.p) (horder : 2 ≤ d.order) {σ : Type} (key e : Nat)
    (next : σ → Bytes × σ) (attempts : Nat) (source : σ) :
    tryNonces d key e (Ecdsa.excessBits d) next attempts source
      = .ok (Ecdsa.signFrom d key e next attempts source) := by
  induction attempts generalizing source with
  | zero => rfl
  | succ attempts ih =>
    rw [tryNonces, Ecdsa.signFrom]
    dsimp only
    rw [attempt_eq hp horder, ok_bind]
    cases Ecdsa.attempt d key e ((next source).1.toNat >>> Ecdsa.excessBits d) with
    | none => exact ih (next source).2
    | some scalars =>
      dsimp only
      rw [encodeSignature_eq, ok_bind]

theorem signFrom_eq (hp : 2 ≤ d.p) (horder : 2 ≤ d.order) {σ : Type} (key e : Nat)
    (next : σ → Bytes × σ) (attempts : Nat) (source : σ) :
    signFrom d key e next attempts source
      = .ok (Ecdsa.signFrom d key e next attempts source) := by
  rw [signFrom, excessBits_eq, ok_bind, tryNonces_eq hp horder]

theorem sign_eq (hp : 2 ≤ d.p) (horder : 2 ≤ d.order) (hash : HashAlgorithm) (key : Nat)
    (message : Bytes) : sign d hash key message = .ok (Ecdsa.sign d hash key message) := by
  rw [sign, Ecdsa.sign]
  split
  · rfl
  · rw [messageScalar_eq, ok_bind, fixed_eq, ok_bind, rem_eq (Nat.zero_lt_of_lt horder), ok_bind,
      fixed_eq, ok_bind, signFrom_eq hp horder]
    rfl

/-! ## Verifying -/

def verifyScalars (d : Domain) (publicPoint : Point) (e r s : Nat) : Checked Bool := do
  let w ← inverse d.order s
  let u1 ← rem (e * w) d.order
  let u2 ← rem (r * w) d.order
  match ← mulAdd d u1 d.generator u2 publicPoint with
  | none => .ok false
  | some point =>
    let x ← rem point.x d.order
    .ok (x == r)

def verify (d : Domain) (hash : HashAlgorithm) (publicPoint : Point) (message signature : Bytes) :
    Checked (Except Error Unit) :=
  if signature.length ≠ 2 * d.orderLength then .ok (.error .invalidSignature)
  else do
    let r := Bytes.toNat (← slice signature 0 d.orderLength)
    let s := Bytes.toNat (← slice signature d.orderLength signature.length)
    if r = 0 ∨ s = 0 ∨ r ≥ d.order ∨ s ≥ d.order then .ok (.error .invalidSignature)
    else if (← contains d publicPoint) = false then .ok (.error .invalidPoint)
    else if ← verifyScalars d publicPoint (← messageScalar d hash message) r s then .ok (.ok ())
    else .ok (.error .invalidSignature)

theorem verifyScalars_eq (hp : 2 ≤ d.p) (horder : 2 ≤ d.order) (publicPoint : Point)
    (e r s : Nat) :
    verifyScalars d publicPoint e r s = .ok (Ecdsa.verifyScalars d publicPoint e r s) := by
  have hpos : 0 < d.order := Nat.zero_lt_of_lt horder
  rw [verifyScalars, Ecdsa.verifyScalars, inverse_eq horder, ok_bind, rem_eq hpos, ok_bind,
    rem_eq hpos, ok_bind, mulAdd_eq hp, ok_bind]
  cases d.mulAdd (e * Modular.inverse d.order s % d.order) d.generator
      (r * Modular.inverse d.order s % d.order) publicPoint with
  | none => rfl
  | some point =>
    dsimp only
    rw [rem_eq hpos, ok_bind]

theorem verify_eq (hp : 2 ≤ d.p) (horder : 2 ≤ d.order) (hash : HashAlgorithm)
    (publicPoint : Point) (message signature : Bytes) :
    verify d hash publicPoint message signature
      = .ok (Ecdsa.verify d hash publicPoint message signature) := by
  rw [verify, Ecdsa.verify]
  split
  · rfl
  next hlength =>
  have hfront : d.orderLength ≤ signature.length := by omega
  rw [slice_front hfront, ok_bind, slice_back hfront, ok_bind]
  dsimp only
  split
  · rfl
  rw [contains_eq, ok_bind]
  split
  · rfl
  rw [messageScalar_eq, ok_bind, verifyScalars_eq hp horder, ok_bind]
  split <;> rfl

end Checked
end CardAccess

import CardAccess.Proofs.Checked
import CardAccess.Proofs.Curve.Domain

/-!
# Computing on a curve without faults

The computations on a curve, step by step as they may go wrong.  A modulus that is at least two is
all that multiples of a point need, of any point at all: it need not be on the curve, and neither
need the modulus be prime.  What a domain is taken in by is checked before anything is computed
modulo its numbers, so this goes well for all numbers.
-/

namespace CardAccess
namespace Checked

/-! ## Modulo a number -/

def mulMod (m a b : Nat) : Checked Nat := rem (a * b) m

def subMod (m a b : Nat) : Checked Nat := do
  rem (← minus (a + m) (← rem b m)) m

def inverse (m a : Nat) : Checked Nat := do
  power m a (← minus m 2)

section

variable {m : Nat}

theorem mulMod_eq (h : 0 < m) (a b : Nat) : mulMod m a b = .ok (Modular.mul m a b) := rem_eq h

theorem subMod_eq (h : 0 < m) (a b : Nat) : subMod m a b = .ok (Modular.sub m a b) := by
  have hle : b % m ≤ a + m := Nat.le_add_left_of_le (Nat.le_of_lt (Nat.mod_lt b h))
  rw [subMod, rem_eq h, ok_bind, minus_eq hle, ok_bind, rem_eq h, Modular.sub]

theorem inverse_eq (h : 2 ≤ m) (a : Nat) : inverse m a = .ok (Modular.inverse m a) := by
  rw [inverse, minus_eq h, ok_bind, power_eq (Nat.zero_lt_of_lt h), Modular.inverse]

end

/-! ## Points -/

def contains (d : Domain) (point : Point) : Checked Bool :=
  if point.x ≥ d.p ∨ point.y ≥ d.p then .ok false
  else do
    let left ← rem (point.y * point.y) d.p
    let right ← rem (point.x * point.x * point.x + d.a * point.x + d.b) d.p
    .ok (left == right)

def double (d : Domain) (point : Jacobian) : Checked Jacobian :=
  if point.isInfinity || point.y == 0 then .ok .infinity
  else do
    let y2 ← mulMod d.p point.y point.y
    let s ← rem (point.x * y2 * 4) d.p
    let z2 ← mulMod d.p point.z point.z
    let z4 ← mulMod d.p z2 z2
    let m ← rem (point.x * point.x * 3 + d.a * z4) d.p
    let x3 ← subMod d.p (← mulMod d.p m m) (← rem (s * 2) d.p)
    let y4 ← mulMod d.p y2 y2
    let y3 ← subMod d.p (← mulMod d.p m (← subMod d.p s x3)) (← rem (y4 * 8) d.p)
    let z3 ← rem (point.y * point.z * 2) d.p
    .ok ⟨x3, y3, z3⟩

def add (d : Domain) (left right : Jacobian) : Checked Jacobian :=
  if left.isInfinity then .ok right
  else if right.isInfinity then .ok left
  else do
    let z1z1 ← mulMod d.p left.z left.z
    let z2z2 ← mulMod d.p right.z right.z
    let u1 ← mulMod d.p left.x z2z2
    let u2 ← mulMod d.p right.x z1z1
    let s1 ← mulMod d.p left.y (← mulMod d.p z2z2 right.z)
    let s2 ← mulMod d.p right.y (← mulMod d.p z1z1 left.z)
    if u1 = u2 then
      if s1 = s2 then double d left else .ok .infinity
    else
      let h ← subMod d.p u2 u1
      let r ← subMod d.p s2 s1
      let h2 ← mulMod d.p h h
      let h3 ← mulMod d.p h2 h
      let u1h2 ← mulMod d.p u1 h2
      let x3 ← subMod d.p (← subMod d.p (← mulMod d.p r r) h3) (← rem (u1h2 * 2) d.p)
      let y3 ← subMod d.p (← mulMod d.p r (← subMod d.p u1h2 x3)) (← mulMod d.p s1 h3)
      let z3 ← mulMod d.p h (← mulMod d.p left.z right.z)
      .ok ⟨x3, y3, z3⟩

def toAffine (d : Domain) (point : Jacobian) : Checked (Option Point) :=
  if point.isInfinity then .ok none
  else do
    let inverse ← inverse d.p point.z
    let inverse2 ← mulMod d.p inverse inverse
    let inverse3 ← mulMod d.p inverse2 inverse
    let x ← mulMod d.p point.x inverse2
    let y ← mulMod d.p point.y inverse3
    .ok (some ⟨x, y⟩)

variable {d : Domain}

theorem contains_eq (d : Domain) (point : Point) : contains d point = .ok (d.contains point) := by
  rw [contains]
  split
  · next hout =>
    refine congrArg Except.ok (eq_false_of_ne_true fun hin => ?_).symm
    obtain ⟨hx, hy, -⟩ := Domain.contains_iff.mp hin
    omega
  · next hin =>
    have hx : point.x < d.p := by omega
    have hy : point.y < d.p := by omega
    rw [rem_eq (Nat.zero_lt_of_lt hx), ok_bind, rem_eq (Nat.zero_lt_of_lt hx), ok_bind,
      Domain.contains, decide_eq_true hx, decide_eq_true hy, Bool.true_and, Bool.true_and]

theorem double_eq (h : 0 < d.p) (point : Jacobian) : double d point = .ok (d.double point) := by
  rw [double, Domain.double]
  split
  · rfl
  · simp only [mulMod_eq h, subMod_eq h, rem_eq h, ok_bind]

theorem add_eq (h : 0 < d.p) (left right : Jacobian) :
    add d left right = .ok (d.add left right) := by
  rw [add, Domain.add]
  split
  · rfl
  split
  · rfl
  simp only [mulMod_eq h, subMod_eq h, rem_eq h, ok_bind, double_eq h]
  split
  · split <;> rfl
  · rfl

theorem toAffine_eq (h : 2 ≤ d.p) (point : Jacobian) :
    toAffine d point = .ok (d.toAffine point) := by
  have hpos : 0 < d.p := Nat.zero_lt_of_lt h
  rw [toAffine, Domain.toAffine]
  split
  · rfl
  · simp only [inverse_eq h, mulMod_eq hpos, ok_bind]

/-! ## Multiples -/

def ladderStep (d : Domain) (pair : Jacobian × Jacobian) (digit : Bool) :
    Checked (Jacobian × Jacobian) := do
  let sum ← add d pair.1 pair.2
  if digit then
    .ok (sum, ← double d pair.2)
  else
    .ok (← double d pair.1, sum)

def ladder (d : Domain) (k : Nat) :
    (count : Nat) → Jacobian × Jacobian → Checked (Jacobian × Jacobian)
  | 0, pair => .ok pair
  | count + 1, pair => do ladder d k count (← ladderStep d pair (k.testBit count))

def mulJacobian (d : Domain) (point : Jacobian) (k : Nat) : Checked Jacobian := do
  let pair ← ladder d k (max (bitLength d.order) (bitLength k)) (.infinity, point)
  .ok pair.1

def mul (d : Domain) (point : Point) (k : Nat) : Checked (Option Point) := do
  toAffine d (← mulJacobian d (.ofPoint point) k)

def mulAdd (d : Domain) (k1 : Nat) (p1 : Point) (k2 : Nat) (p2 : Point) :
    Checked (Option Point) := do
  let first ← mulJacobian d (.ofPoint p1) k1
  let second ← mulJacobian d (.ofPoint p2) k2
  toAffine d (← add d first second)

theorem ladderStep_eq (h : 0 < d.p) (pair : Jacobian × Jacobian) (digit : Bool) :
    ladderStep d pair digit = .ok (d.ladderStep pair digit) := by
  rw [ladderStep, Domain.ladderStep, add_eq h, ok_bind, double_eq h, double_eq h]
  cases digit <;> rfl

theorem ladder_eq (h : 0 < d.p) (k count : Nat) (pair : Jacobian × Jacobian) :
    ladder d k count pair = .ok (d.ladder k count pair) := by
  induction count generalizing pair with
  | zero => rfl
  | succ count ih => rw [ladder, ladderStep_eq h, ok_bind, ih, Domain.ladder]

theorem mulJacobian_eq (h : 0 < d.p) (point : Jacobian) (k : Nat) :
    mulJacobian d point k = .ok (d.mulJacobian point k) := by
  rw [mulJacobian, ladder_eq h, ok_bind, Domain.mulJacobian]

theorem mul_eq (h : 2 ≤ d.p) (point : Point) (k : Nat) : mul d point k = .ok (d.mul point k) := by
  rw [mul, mulJacobian_eq (Nat.zero_lt_of_lt h), ok_bind, toAffine_eq h, Domain.mul]

theorem mulAdd_eq (h : 2 ≤ d.p) (k1 : Nat) (p1 : Point) (k2 : Nat) (p2 : Point) :
    mulAdd d k1 p1 k2 p2 = .ok (d.mulAdd k1 p1 k2 p2) := by
  have hpos : 0 < d.p := Nat.zero_lt_of_lt h
  rw [mulAdd, mulJacobian_eq hpos, ok_bind, mulJacobian_eq hpos, ok_bind, add_eq hpos, ok_bind,
    toAffine_eq h, Domain.mulAdd]

/-! ## Domains from outside -/

def discriminant (d : Domain) : Checked Nat :=
  rem (d.a * d.a * d.a * 4 + d.b * d.b * 27) d.p

def ofParameters (d : Domain) : Checked (Except Error Domain) :=
  if d.p ≤ 3 ∨ d.p % 2 = 0 then .ok (.error (.invalidCertificate .modulusNotOdd))
  else if d.a ≥ d.p ∨ d.b ≥ d.p then .ok (.error (.invalidCertificate .coefficientNotReduced))
  else if d.order < 2 then .ok (.error (.invalidCertificate .orderBelowTwo))
  else if d.cofactor = 0 then .ok (.error (.invalidCertificate .cofactorZero))
  else do
    if (← discriminant d) = 0 then .ok (.error (.invalidCertificate .singularCurve))
    else if (← contains d d.generator) = false then .ok (.error .invalidPoint)
    else if (← mul d d.generator d.order).isSome then
      .ok (.error (.invalidCertificate .orderMismatch))
    else .ok (.ok d)

theorem discriminant_eq (h : 0 < d.p) : discriminant d = .ok d.discriminant := by
  rw [discriminant, rem_eq h, Domain.discriminant]

/-- The numbers of a domain need not be those of a curve for the checks to go well. -/
theorem ofParameters_eq (d : Domain) : ofParameters d = .ok (Domain.ofParameters d) := by
  rw [ofParameters, Domain.ofParameters]
  split
  · rfl
  next hmodulus =>
  have htwo : 2 ≤ d.p := by omega
  split
  · rfl
  split
  · rfl
  split
  · rfl
  rw [discriminant_eq (Nat.zero_lt_of_lt htwo), ok_bind]
  split
  · rfl
  rw [contains_eq, ok_bind]
  split
  · rfl
  rw [mul_eq htwo, ok_bind, ← Domain.mulGenerator]
  split <;> rfl

/-! ## Points in bytes -/

def encodePoint (d : Domain) (point : Point) : Checked Bytes := do
  let x ← fixed d.fieldLength point.x
  let y ← fixed d.fieldLength point.y
  .ok (Domain.uncompressed :: (x ++ y))

/-- The first byte is looked at once the length is known to be right. -/
def splitPoint (width : Nat) (bytes : Bytes) : Checked (Option Point) :=
  if bytes.length ≠ 1 + 2 * width then .ok none
  else do
    if (← byteAt bytes 0) ≠ Domain.uncompressed then .ok none
    else
      let x ← slice bytes 1 (1 + width)
      let y ← slice bytes (1 + width) bytes.length
      .ok (some ⟨Bytes.toNat x, Bytes.toNat y⟩)

def decodePoint (d : Domain) (bytes : Bytes) : Checked (Except Error Point) := do
  match ← splitPoint d.fieldLength bytes with
  | none => .ok (.error .invalidPoint)
  | some point =>
    if ← contains d point then .ok (.ok point) else .ok (.error .invalidPoint)

theorem encodePoint_eq (d : Domain) (point : Point) :
    encodePoint d point = .ok (d.encodePoint point) := by
  rw [encodePoint, fixed_eq, ok_bind, fixed_eq, ok_bind, Domain.encodePoint]

theorem splitPoint_eq (width : Nat) (bytes : Bytes) :
    splitPoint width bytes = .ok (Domain.splitPoint width bytes) := by
  cases bytes with
  | nil =>
    have hshort : ([] : Bytes).length ≠ 1 + 2 * width := by
      rw [List.length_nil]
      omega
    rw [splitPoint, if_pos hshort, Domain.splitPoint]
  | cons lead coordinates =>
    rw [splitPoint, Domain.splitPoint, List.length_cons]
    split
    · next hlength =>
      rw [if_neg fun h => hlength (by omega)]
    · next hlength =>
      have hcoordinates : coordinates.length = 2 * width := by omega
      have hlead : byteAt (lead :: coordinates) 0 = .ok lead := rfl
      rw [hlead, ok_bind]
      split
      · next hother => rw [if_neg fun h => hother h.2]
      · next huncompressed =>
        have hfront : 1 + width ≤ (lead :: coordinates).length := by
          rw [List.length_cons]
          omega
        rw [slice_eq (Nat.le_add_right 1 width) hfront, ok_bind, ← List.length_cons,
          slice_back hfront, ok_bind, if_pos ⟨hcoordinates, not_not.mp huncompressed⟩]
        rw [Nat.add_comm 1 width, List.take_succ_cons, List.drop_succ_cons, List.drop_succ_cons,
          List.drop_zero]

theorem decodePoint_eq (d : Domain) (bytes : Bytes) :
    decodePoint d bytes = .ok (d.decodePoint bytes) := by
  rw [decodePoint, splitPoint_eq, ok_bind, Domain.decodePoint]
  cases Domain.splitPoint d.fieldLength bytes with
  | none => rfl
  | some point =>
    dsimp only
    rw [contains_eq, ok_bind]
    split <;> rfl

/-! ## Random scalars -/

def randomScalar (d : Domain) (random : Bytes) : Checked Nat := do
  let range ← minus d.order 1
  let scalar ← rem random.toNat range
  .ok (scalar + 1)

theorem randomScalar_eq (h : 2 ≤ d.order) (random : Bytes) :
    randomScalar d random = .ok (d.randomScalar random) := by
  have hpos : 0 < d.order - 1 := by omega
  rw [randomScalar, minus_eq (Nat.le_of_succ_le h), ok_bind, rem_eq hpos, ok_bind,
    Domain.randomScalar]

-- an order of one leaves no scalar to choose
example : randomScalar { Domain.small with order := 1 } [7] = .error .zeroModulus := by decide

end Checked
end CardAccess

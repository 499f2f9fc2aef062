import CardAccess.Curve.Modular
import CardAccess.Error

/-!
# Curves over prime fields

A domain is the curve `y² = x³ + ax + b` modulo `p` with a base point, the order
of that point and the cofactor, as certificates state them.  Multiples are
computed in Jacobian coordinates, where `(x, y, z)` stands for
`(x / z², y / z³)` and a point with `z = 0` for infinity, by a ladder that keeps
two neighbouring multiples.  Infinity is `none` among affine points.

`Domain.ofParameters` is how a domain from outside is taken in: it checks all
that arithmetic relies on except that `p` and the order are prime.
-/

namespace CardAccess

/-- A point by its coordinates.  Infinity is not one of these. -/
structure Point where
  x : Nat
  y : Nat
  deriving DecidableEq, Repr

/-- A point in Jacobian coordinates. -/
structure Jacobian where
  x : Nat
  y : Nat
  z : Nat
  deriving DecidableEq, Repr

/-- A curve, a base point on it, the order of that point and the cofactor. -/
structure Domain where
  p : Nat
  a : Nat
  b : Nat
  generator : Point
  order : Nat
  cofactor : Nat
  deriving DecidableEq, Repr

namespace Jacobian

def infinity : Jacobian := ⟨1, 1, 0⟩

def ofPoint (point : Point) : Jacobian := ⟨point.x, point.y, 1⟩

def isInfinity (point : Jacobian) : Bool := point.z == 0

end Jacobian

namespace Domain

def fieldLength (d : Domain) : Nat := byteLength d.p

def orderLength (d : Domain) : Nat := byteLength d.order

/-- Whether the coordinates are reduced and satisfy the curve equation. -/
def contains (d : Domain) (point : Point) : Bool :=
  decide (point.x < d.p) && decide (point.y < d.p)
    && point.y * point.y % d.p
      == (point.x * point.x * point.x + d.a * point.x + d.b) % d.p

/-! ## Jacobian arithmetic -/

def double (d : Domain) (point : Jacobian) : Jacobian :=
  if point.isInfinity || point.y == 0 then .infinity
  else
    let p := d.p
    let y2 := Modular.mul p point.y point.y
    let s := point.x * y2 * 4 % p
    let z2 := Modular.mul p point.z point.z
    let z4 := Modular.mul p z2 z2
    let m := (point.x * point.x * 3 + d.a * z4) % p
    let x3 := Modular.sub p (Modular.mul p m m) (s * 2 % p)
    let y4 := Modular.mul p y2 y2
    let y3 := Modular.sub p (Modular.mul p m (Modular.sub p s x3)) (y4 * 8 % p)
    ⟨x3, y3, point.y * point.z * 2 % p⟩

def add (d : Domain) (left right : Jacobian) : Jacobian :=
  if left.isInfinity then right
  else if right.isInfinity then left
  else
    let p := d.p
    let z1z1 := Modular.mul p left.z left.z
    let z2z2 := Modular.mul p right.z right.z
    let u1 := Modular.mul p left.x z2z2
    let u2 := Modular.mul p right.x z1z1
    let s1 := Modular.mul p left.y (Modular.mul p z2z2 right.z)
    let s2 := Modular.mul p right.y (Modular.mul p z1z1 left.z)
    if u1 = u2 then
      if s1 = s2 then d.double left else .infinity
    else
      let h := Modular.sub p u2 u1
      let r := Modular.sub p s2 s1
      let h2 := Modular.mul p h h
      let h3 := Modular.mul p h2 h
      let u1h2 := Modular.mul p u1 h2
      let x3 := Modular.sub p (Modular.sub p (Modular.mul p r r) h3) (u1h2 * 2 % p)
      let y3 := Modular.sub p (Modular.mul p r (Modular.sub p u1h2 x3)) (Modular.mul p s1 h3)
      ⟨x3, y3, Modular.mul p h (Modular.mul p left.z right.z)⟩

/-- The affine coordinates, none at infinity. -/
def toAffine (d : Domain) (point : Jacobian) : Option Point :=
  if point.isInfinity then none
  else
    let inverse := Modular.inverse d.p point.z
    let inverse2 := Modular.mul d.p inverse inverse
    let inverse3 := Modular.mul d.p inverse2 inverse
    some ⟨Modular.mul d.p point.x inverse2, Modular.mul d.p point.y inverse3⟩

/-! ## Multiples -/

/-- Take in one binary digit of the scalar.  If the pair holds the multiples `m`
and `m + 1`, it afterwards holds `2m + digit` and one more. -/
def ladderStep (d : Domain) (pair : Jacobian × Jacobian) (digit : Bool) : Jacobian × Jacobian :=
  let sum := d.add pair.1 pair.2
  if digit then (sum, d.double pair.2) else (d.double pair.1, sum)

/-- Take in the `count` lowest binary digits of `k`, highest first. -/
def ladder (d : Domain) (k : Nat) : (count : Nat) → Jacobian × Jacobian → Jacobian × Jacobian
  | 0, pair => pair
  | count + 1, pair => d.ladder k count (d.ladderStep pair (k.testBit count))

/-- The multiple by `k`.  The ladder has as many steps as the order has binary
digits, or as `k` has if these are more. -/
def mulJacobian (d : Domain) (point : Jacobian) (k : Nat) : Jacobian :=
  (d.ladder k (max (bitLength d.order) (bitLength k)) (.infinity, point)).1

def mul (d : Domain) (point : Point) (k : Nat) : Option Point :=
  d.toAffine (d.mulJacobian (.ofPoint point) k)

def mulGenerator (d : Domain) (k : Nat) : Option Point := d.mul d.generator k

def mulAdd (d : Domain) (k1 : Nat) (p1 : Point) (k2 : Nat) (p2 : Point) : Option Point :=
  d.toAffine (d.add (d.mulJacobian (.ofPoint p1) k1) (d.mulJacobian (.ofPoint p2) k2))

/-! ## Domains from outside -/

/-- The number that is zero modulo `p` exactly when the curve has a singular
point. -/
def discriminant (d : Domain) : Nat :=
  (d.a * d.a * d.a * 4 + d.b * d.b * 27) % d.p

/-- Take in a domain, checking its numbers in the order of the constructors of
the answer. -/
def ofParameters (d : Domain) : Except Error Domain :=
  if d.p ≤ 3 ∨ d.p % 2 = 0 then .error (.invalidCertificate .modulusNotOdd)
  else if d.a ≥ d.p ∨ d.b ≥ d.p then .error (.invalidCertificate .coefficientNotReduced)
  else if d.order < 2 then .error (.invalidCertificate .orderBelowTwo)
  else if d.cofactor = 0 then .error (.invalidCertificate .cofactorZero)
  else if d.discriminant = 0 then .error (.invalidCertificate .singularCurve)
  else if d.contains d.generator = false then .error .invalidPoint
  else if (d.mulGenerator d.order).isSome then .error (.invalidCertificate .orderMismatch)
  else .ok d

/-! ## Points in bytes -/

/-- The leading byte of a point with both coordinates. -/
def uncompressed : UInt8 := 0x04

/-- The bytes of a point: `04` and both coordinates in full width. -/
def encodePoint (d : Domain) (point : Point) : Bytes :=
  uncompressed :: (Bytes.fixed d.fieldLength point.x ++ Bytes.fixed d.fieldLength point.y)

/-- The coordinates in the bytes `04 X Y` for coordinates of `width` bytes. -/
def splitPoint (width : Nat) (bytes : Bytes) : Option Point :=
  match bytes with
  | lead :: coordinates =>
    if coordinates.length = 2 * width ∧ lead = uncompressed then
      some ⟨Bytes.toNat (coordinates.take width), Bytes.toNat (coordinates.drop width)⟩
    else none
  | [] => none

/-- The point that the bytes spell, if it is on the curve. -/
def decodePoint (d : Domain) (bytes : Bytes) : Except Error Point :=
  match splitPoint d.fieldLength bytes with
  | none => .error .invalidPoint
  | some point => if d.contains point then .ok point else .error .invalidPoint

/-! ## Random scalars -/

/-- The number of random bytes a scalar takes.  Eight more than a scalar has keep
the bias of the reduction negligible. -/
def randomLength (d : Domain) : Nat := d.orderLength + 8

/-- The scalar between one and the order less one that random bytes give. -/
def randomScalar (d : Domain) (random : Bytes) : Nat :=
  random.toNat % (d.order - 1) + 1

end Domain
end CardAccess

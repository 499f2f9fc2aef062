/-!
# Decimals and binary numbers of 64 bits

A decimal that a text spells is kept as the nearest binary number of 64 bits,
and such a number is shown by the decimal with the fewest digits that is nearer
to it than to any other.  `Double.nearest` and `Double.shortest` are the two
directions.  Both compare exact fractions of natural numbers.
-/

namespace CardAccess

/-- The number `digits · 10 ^ exponent`. -/
structure Decimal where
  digits : Nat
  exponent : Int
  deriving DecidableEq, Repr

/-- A binary number without its sign: `mantissa · 2 ^ exponent`, or more than
any such number, or no number at all. -/
inductive Double where
  | finite (mantissa : Nat) (exponent : Int)
  | infinite
  | undefined
  deriving DecidableEq, Repr

namespace Double

/-- A mantissa is below two to this power. -/
def precision : Nat := 53

def leastExponent : Int := -1074

def greatestExponent : Int := 971

/-- Decimals with more digits before the point are infinite. -/
def mostDigits : Int := 310

/-- Decimals with more zeros behind the point are zero. -/
def mostZeros : Int := 330

/-- The fraction `n / d` divided by `2 ^ exponent`, as numerator and denominator. -/
def scaleDown (n d : Nat) (exponent : Int) : Nat × Nat :=
  (n * Nat.pow 2 (-exponent).toNat, d * Nat.pow 2 exponent.toNat)

/-- The natural number nearest to `n / d`, the even one if two are. -/
def roundEven (n d : Nat) : Nat :=
  let (quotient, rest) := (n / d, n % d)
  if 2 * rest < d then quotient
  else if d < 2 * rest then quotient + 1
  else quotient + quotient % 2

/-- The exponent that gives `n / d` a mantissa of full precision, or the least one. -/
def exponentOf (n d : Nat) : Int :=
  let guess := max leastExponent ((n.log2 : Int) - d.log2 - precision)
  let (n, d) := scaleDown n d guess
  if n / d < Nat.pow 2 precision then guess else guess + 1

/-- The binary number nearest to the fraction `n / d`. -/
def ofFraction (n d : Nat) : Double :=
  let exponent := exponentOf n d
  let (n, d) := scaleDown n d exponent
  let mantissa := roundEven n d
  let (mantissa, exponent) :=
    if mantissa < Nat.pow 2 precision then (mantissa, exponent) else (mantissa / 2, exponent + 1)
  if exponent ≤ greatestExponent then .finite mantissa exponent else .infinite

def nearest (x : Decimal) : Double :=
  let size := ((Nat.toDigits 10 x.digits).length : Int) + x.exponent
  if x.digits = 0 ∨ size < -mostZeros then .finite 0 leastExponent
  else if mostDigits < size then .infinite
  else ofFraction (x.digits * Nat.pow 10 x.exponent.toNat) (Nat.pow 10 (-x.exponent).toNat)

/-! ## The shortest decimal -/

/-- Whether `digits · 10 ^ power` is nearer to `mantissa · 2 ^ exponent` than to
its neighbours, or as near and the mantissa even.  The neighbour below a power of
two is at half the distance. -/
def isNearest (mantissa : Nat) (exponent : Int) (digits : Nat) (power : Int) : Bool :=
  -- counted in quarters of the last binary place, so that the bounds are whole
  let value := digits * Nat.pow 10 power.toNat * Nat.pow 2 (2 - exponent).toNat
  let unit := Nat.pow 10 (-power).toNat * Nat.pow 2 (exponent - 2).toNat
  let narrow := mantissa = Nat.pow 2 (precision - 1) ∧ exponent ≠ leastExponent
  let low := (4 * mantissa - (if narrow then 1 else 2)) * unit
  let high := (4 * mantissa + 2) * unit
  if mantissa % 2 = 0 then low ≤ value && value ≤ high else low < value && value < high

/-- The least power of ten above `n / d`. -/
def magnitude (n d : Nat) : Int :=
  if d ≤ n then (Nat.toDigits 10 (n / d)).length
  else
    let zeros := (Nat.toDigits 10 (d / n)).length
    if d ≤ n * Nat.pow 10 (zeros - 1) then 2 - zeros else 1 - zeros

/-- The same decimal with a last digit zero moved into the exponent.  Counting up
reaches no other zero than that of ten. -/
def withoutZero (x : Decimal) : Decimal :=
  if x.digits % 10 = 0 then ⟨x.digits / 10, x.exponent + 1⟩ else x

/-- The decimal with `count` digits that stands for `mantissa · 2 ^ exponent`, if
there is one: of the two around it the nearer, or the greater if both are as near. -/
def withDigits? (mantissa : Nat) (exponent : Int) (count : Nat) : Option Decimal :=
  let n := mantissa * Nat.pow 2 exponent.toNat
  let d := Nat.pow 2 (-exponent).toNat
  let power := magnitude n d - count
  let (n, d) := (n * Nat.pow 10 (-power).toNat, d * Nat.pow 10 power.toNat)
  let below := n / d
  let (first, second) := if 2 * (n % d) < d then (below, below + 1) else (below + 1, below)
  if isNearest mantissa exponent first power then some (withoutZero ⟨first, power⟩)
  else if isNearest mantissa exponent second power then some (withoutZero ⟨second, power⟩)
  else none

def maxDigits : Nat := 17

/-- The decimal with the fewest digits that stands for `mantissa · 2 ^ exponent`. -/
def shortest (mantissa : Nat) (exponent : Int) : Decimal :=
  if mantissa = 0 then ⟨0, 0⟩
  else
    ((List.range maxDigits).findSome? fun n => withDigits? mantissa exponent (n + 1)).getD
      ⟨mantissa * Nat.pow 2 exponent.toNat * Nat.pow 5 (-exponent).toNat, min exponent 0⟩

end Double

namespace Decimal

/-- A decimal without exponent, and without a point where none is needed. -/
def text (x : Decimal) : String :=
  let digits := Nat.toDigits 10 x.digits
  let places := (-x.exponent).toNat
  if places = 0 then String.ofList (digits ++ List.replicate x.exponent.toNat '0')
  else
    let digits := List.replicate (places + 1 - digits.length) '0' ++ digits
    String.ofList (digits.take (digits.length - places) ++ '.' :: digits.drop (digits.length - places))

end Decimal

def Double.text : Double → String
  | .finite mantissa exponent => (shortest mantissa exponent).text
  | .infinite => "inf"
  | .undefined => "NaN"

end CardAccess

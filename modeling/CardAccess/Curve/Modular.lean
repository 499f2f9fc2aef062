import CardAccess.Bytes

/-!
# Arithmetic modulo a number

Sums, differences and powers of numbers modulo `m`.  A difference adds the
modulus first, so nothing is ever subtracted from something smaller as long as
the first operand is a number at all.  A power squares once per binary digit of
the exponent; the exponent `m - 2` gives inverses when `m` is prime, and for any
other modulus just that power.
-/

namespace CardAccess
namespace Modular

def mul (m a b : Nat) : Nat := a * b % m

def sub (m a b : Nat) : Nat := (a + m - b % m) % m

/-- Square and multiply for the `count` lowest binary digits of the exponent,
highest first. -/
def powDigits (m base exponent : Nat) : (count : Nat) → (power : Nat) → Nat
  | 0, power => power
  | count + 1, power =>
    let square := power * power % m
    powDigits m base exponent count
      (if exponent.testBit count then square * base % m else square)

def pow (m base exponent : Nat) : Nat :=
  powDigits m (base % m) exponent (bitLength exponent) (1 % m)

/-- The inverse modulo a prime `m`. -/
def inverse (m a : Nat) : Nat := pow m a (m - 2)

end Modular
end CardAccess

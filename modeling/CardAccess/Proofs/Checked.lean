import CardAccess.Curve.Modular
import CardAccess.Proofs.Bytes

/-!
# Computations that may go wrong

A number cannot be negative, a remainder needs a modulus and a slice has to lie within its bytes.
The functions of the library are total, so they give some value where one of these fails, and do
not show whether it ever does.  A `Checked` computation takes the same steps and stops with a
`Fault` at the first that goes wrong.  That it comes to `ok` of what the total function gives says
that none does, and that it is the same computation.
-/

namespace CardAccess

/-- What can go wrong in a step on numbers and bytes. -/
inductive Fault where
  | zeroModulus
  | negative
  | outOfRange
  deriving DecidableEq, Repr

abbrev Checked : Type → Type := Except Fault

namespace Checked

/-! ## Steps -/

def rem (a m : Nat) : Checked Nat := if m = 0 then .error .zeroModulus else .ok (a % m)

def minus (a b : Nat) : Checked Nat := if a < b then .error .negative else .ok (a - b)

def power (m base exponent : Nat) : Checked Nat :=
  if m = 0 then .error .zeroModulus else .ok (Modular.pow m base exponent)

def byteAt (bytes : Bytes) (i : Nat) : Checked UInt8 :=
  match bytes[i]? with
  | some byte => .ok byte
  | none => .error .outOfRange

/-- The bytes from `start` on, up to but not including `stop`. -/
def slice (bytes : Bytes) (start stop : Nat) : Checked Bytes :=
  if start ≤ stop ∧ stop ≤ bytes.length then .ok ((bytes.take stop).drop start)
  else .error .outOfRange

variable {ε α β : Type} {a b m n start : Nat} {bytes : Bytes}

theorem ok_bind (x : α) (f : α → Checked β) : (Except.ok x >>= f) = f x := rfl

theorem rem_eq (h : 0 < m) : rem a m = .ok (a % m) := if_neg (Nat.ne_of_gt h)

theorem minus_eq (h : b ≤ a) : minus a b = .ok (a - b) := if_neg (Nat.not_lt_of_le h)

theorem power_eq (h : 0 < m) : power m a n = .ok (Modular.pow m a n) := if_neg (Nat.ne_of_gt h)

theorem slice_eq (hstart : start ≤ n) (h : n ≤ bytes.length) :
    slice bytes start n = .ok ((bytes.take n).drop start) := if_pos ⟨hstart, h⟩

theorem slice_front (h : n ≤ bytes.length) : slice bytes 0 n = .ok (bytes.take n) :=
  slice_eq (Nat.zero_le n) h

theorem slice_back (h : n ≤ bytes.length) : slice bytes n bytes.length = .ok (bytes.drop n) := by
  rw [slice_eq h (Nat.le_refl _), List.take_length]

/-- Go on with what comes out of a step that cannot go wrong but may be refused. -/
def andThen (x : Except ε α) (f : α → Checked (Except ε β)) : Checked (Except ε β) :=
  match x with
  | .error e => .ok (.error e)
  | .ok a => f a

theorem andThen_eq {x : Except ε α} {f : α → Checked (Except ε β)} {g : α → Except ε β}
    (h : ∀ a, f a = .ok (g a)) : andThen x f = .ok (x >>= g) := by
  cases x with
  | error e => rfl
  | ok a => exact h a

/-! ## Numbers in full width -/

/-- The fewest bytes of a number, cut or filled up to `width` bytes at the front. -/
def fixed (width n : Nat) : Checked Bytes := do
  let bytes := Bytes.minimal n
  if width ≤ bytes.length then
    slice bytes (← minus bytes.length width) bytes.length
  else
    .ok (Bytes.zeros (← minus width bytes.length) ++ bytes)

theorem fixed_eq (width n : Nat) : fixed width n = .ok (Bytes.fixed width n) := by
  have hnumber := Bytes.toNat_minimal n
  rw [fixed]
  split
  · next hlong =>
    rw [minus_eq hlong, ok_bind, slice_back (Nat.sub_le _ _)]
    have hlength : ((Bytes.minimal n).drop ((Bytes.minimal n).length - width)).length = width := by
      rw [List.length_drop]
      omega
    have hlow := Bytes.toNat_drop (Bytes.minimal n) ((Bytes.minimal n).length - width)
    rw [hlength, hnumber] at hlow
    exact congrArg Except.ok (Bytes.eq_fixed hlength hlow)
  · next hshort =>
    have hle : (Bytes.minimal n).length ≤ width := Nat.le_of_not_le hshort
    rw [minus_eq hle, ok_bind]
    have hlength : (Bytes.zeros (width - (Bytes.minimal n).length) ++ Bytes.minimal n).length
        = width := by
      rw [List.length_append, Bytes.zeros, List.length_replicate, Nat.sub_add_cancel hle]
    have hfits : n < 256 ^ width := by
      calc n = Bytes.toNat (Bytes.minimal n) := hnumber.symm
        _ < 256 ^ (Bytes.minimal n).length := Bytes.toNat_lt _
        _ ≤ 256 ^ width := Nat.pow_le_pow_right (by decide) hle
    refine congrArg Except.ok (Bytes.eq_fixed hlength ?_)
    rw [Bytes.toNat_append, Bytes.toNat_zeros, hnumber, Nat.zero_mul, Nat.zero_add,
      Nat.mod_eq_of_lt hfits]

end Checked
end CardAccess

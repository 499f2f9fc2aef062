import CardAccess.Messaging.Counter
import Mathlib.Algebra.Ring.Nat

/-!
# Positions of the counter

Every position that a session reaches is `after` some number of steps from where
it started.  Positions wrap at `2 ^ 128`, and two of them agree when the numbers
of steps agree modulo that.
-/

namespace CardAccess
namespace Messaging
namespace Counter

/-- The position `steps` values behind `c`, modulo `2 ^ 128`. -/
def after (c : Counter) (steps : Nat) : Counter := ofNat (c.value.toNat + steps)

theorem value_after (c : Counter) (steps : Nat) :
    (c.after steps).value = c.value + BitVec.ofNat 128 steps := by
  apply BitVec.eq_of_toNat_eq
  rw [after, ofNat, BitVec.toNat_ofNat, BitVec.toNat_add, BitVec.toNat_ofNat, Nat.add_mod_mod]

theorem eq_of_value {c c' : Counter} (h : c.value = c'.value) : c = c' := by
  cases c
  cases c'
  cases h
  rfl

@[simp] theorem after_zero (c : Counter) : c.after 0 = c := by
  apply eq_of_value
  rw [value_after, BitVec.add_zero]

theorem after_after (c : Counter) (m n : Nat) : (c.after m).after n = c.after (m + n) := by
  apply eq_of_value
  rw [value_after, value_after, value_after, BitVec.add_assoc, BitVec.ofNat_add]

theorem next_eq_after (c : Counter) : c.next = c.after 1 := by
  apply eq_of_value
  rw [value_after]
  rfl

@[simp] theorem next_after (c : Counter) (n : Nat) : (c.after n).next = c.after (n + 1) := by
  rw [next_eq_after, after_after]

theorem next_next (c : Counter) : c.next.next = c.after 2 := by
  rw [next_eq_after c, next_after]

theorem after_inj {c : Counter} {m n : Nat} :
    c.after m = c.after n ↔ m % 2 ^ 128 = n % 2 ^ 128 := by
  constructor
  · intro h
    have hvalue := congrArg Counter.value h
    rw [value_after, value_after, BitVec.add_right_inj] at hvalue
    have hnat := congrArg BitVec.toNat hvalue
    rwa [BitVec.toNat_ofNat, BitVec.toNat_ofNat] at hnat
  · intro h
    apply eq_of_value
    rw [value_after, value_after, BitVec.add_right_inj]
    apply BitVec.eq_of_toNat_eq
    rwa [BitVec.toNat_ofNat, BitVec.toNat_ofNat]

/-- The number of steps from one position to another. -/
def distance (c c' : Counter) : Nat := (c'.value - c.value).toNat

theorem distance_after {c : Counter} {m n : Nat} (hle : m ≤ n) (hlt : n < 2 ^ 128) :
    (c.after m).distance (c.after n) = n - m := by
  have hn : c.after n = (c.after m).after (n - m) := by rw [after_after, Nat.add_sub_cancel' hle]
  have hfits : n - m < 2 ^ 128 := by omega
  rw [hn, distance, value_after (c.after m), BitVec.add_comm, BitVec.add_sub_cancel,
    BitVec.toNat_ofNat, Nat.mod_eq_of_lt hfits]

end Counter
end Messaging
end CardAccess

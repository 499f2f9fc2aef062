import CardAccess.Error

/-!
# Holder references

A holder reference ends in a counter of five characters.  A new certificate gets
the reference with the counter increased by one, or with a given number in its
place.  The counter goes round after `99999` to `00001`.
-/

namespace CardAccess
namespace HolderReference

def counterLength : Nat := 5

/-- The digit after a decimal digit below nine. -/
def successor? (c : Char) : Option Char :=
  if 0x30 ≤ c.toNat ∧ c.toNat < 0x39 then some (Char.ofNat (c.toNat + 1)) else none

/-- The counter one higher, last character first.  A character with a successor
is the last one to change; any other becomes zero and carries, but the first
character of the counter has nowhere to carry to. -/
def increaseReversed : List Char → List Char
  | [] => []
  | last :: front =>
    match successor? last with
    | some next => next :: front
    | none => '0' :: increaseReversed front

def increaseCounter (counter : List Char) : List Char :=
  (increaseReversed counter.reverse).reverse

/-- The counter after `counter`, where all nines are followed by one. -/
def nextCounter (counter : List Char) : List Char :=
  if counter.all (· == '9') then ['0', '0', '0', '0', '1'] else increaseCounter counter

/-- What stands before the counter, and the counter. -/
def split (reference : String) : Except Error (List Char × List Char) :=
  let characters := reference.toList
  if characters.length < counterLength then .error (.invalidHolderReference reference)
  else .ok (characters.splitAt (characters.length - counterLength))

def increase (reference : String) : Except Error String := do
  let (front, counter) ← split reference
  return String.ofList (front ++ nextCounter counter)

/-- A number in at least five digits. -/
def numberCounter (number : Nat) : List Char :=
  let digits := Nat.toDigits 10 number
  List.replicate (counterLength - digits.length) '0' ++ digits

/-- The reference with a number for its counter.  A number of more than five
digits makes the reference longer. -/
def withNumber (reference : String) (number : Nat) : Except Error String := do
  let (front, _) ← split reference
  return String.ofList (front ++ numberCounter number)

def next (reference : String) (number : Option Nat) : Except Error String :=
  match number with
  | some number => withNumber reference number
  | none => increase reference

end HolderReference
end CardAccess

import CardAccess.Error

/-!
# Dates

Certificates state dates as six digits, two each for the year of this century,
the month and the day, one digit in each byte.  A day is only checked to be one
of thirty-one, whatever the month.
-/

namespace CardAccess

/-- A day between 2000 and 2099. -/
structure Date where
  year : Nat
  month : Nat
  day : Nat
  deriving DecidableEq, Repr

namespace Date

def create (year month day : Nat) : Except Error Date :=
  if (2000 ≤ year ∧ year ≤ 2099) ∧ (1 ≤ month ∧ month ≤ 12) ∧ (1 ≤ day ∧ day ≤ 31) then
    .ok ⟨year, month, day⟩
  else .error (.invalidCertificate .dateOutOfRange)

/-- Read six digits, one in each byte. -/
def ofBytes (bytes : Bytes) : Except Error Date :=
  match bytes with
  | [y1, y2, m1, m2, d1, d2] =>
    if bytes.any (fun digit => digit > 9) then .error (.invalidCertificate .dateDigit)
    else create (2000 + (y1.toNat * 10 + y2.toNat)) (m1.toNat * 10 + m2.toNat)
      (d1.toNat * 10 + d2.toNat)
  | _ => .error (.invalidCertificate .dateLength)

def digits (n : Nat) : Bytes := [UInt8.ofNat (n / 10), UInt8.ofNat (n % 10)]

def toBytes (date : Date) : Bytes :=
  digits (date.year - 2000) ++ digits date.month ++ digits date.day

def padded (width n : Nat) : String :=
  let text := (toString n).toList
  String.ofList (List.replicate (width - text.length) '0' ++ text)

def display (date : Date) : String :=
  padded 4 date.year ++ "-" ++ padded 2 date.month ++ "-" ++ padded 2 date.day

def compare (left right : Date) : Ordering :=
  (Ord.compare left.year right.year).then
    ((Ord.compare left.month right.month).then (Ord.compare left.day right.day))

end Date
end CardAccess

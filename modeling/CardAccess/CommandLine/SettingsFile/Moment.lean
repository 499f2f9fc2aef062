import CardAccess.CommandLine.SettingsFile.Reader

/-!
# Dates and times

A moment is a date, a time of day, or both, and then perhaps with its distance from
universal time.  It is kept as a text in one form: a `T` before the time, an upper
case `Z`, and of a second nine digits at most, without zeros at the end.
-/

namespace CardAccess
namespace CommandLine
namespace SettingsFile

open Reader

/-- A number of so many digits, within bounds. -/
def digitsWithin (count least greatest : Nat) : Reader (List Char) := fun text =>
  let digits := text.take count
  let n := Setting.numberOf digits
  if digits.length < count || digits.any (fun c => !c.isDigit) then fail text
  else if least ≤ n && n ≤ greatest then .ok (digits, text.drop count)
  else failWith .outOfRange text

def daysOf (year month : Nat) : Nat :=
  let isLeap := year % 4 = 0 ∧ (year % 100 ≠ 0 ∨ year % 400 = 0)
  if month = 2 then if isLeap then 29 else 28
  else if month ∈ [4, 6, 9, 11] then 30
  else 31

/-- A day of a month that has it. -/
def day (year month : Nat) : Reader (List Char) :=
  judged (digitsWithin 2 1 31) fun digits =>
    if Setting.numberOf digits ≤ daysOf year month then return digits else failWith .outOfRange

def date : Reader (List Char) := do
  let year ← digitsWithin 4 0 9999
  let _ ← one '-'
  commit do
    let month ← digitsWithin 2 1 12
    let _ ← one '-'
    let day ← day (Setting.numberOf year) (Setting.numberOf month)
    return year ++ '-' :: month ++ '-' :: day

/-- How many digits of the part of a second are kept. -/
def keptPlaces : Nat := 9

/-- A part of a second.  One that is zero is left out. -/
def partOfSecond : Reader (List Char) := do
  let _ ← one '.'
  let digits ← someOf Char.isDigit
  let kept := ((digits.take keptPlaces).reverse.dropWhile (· = '0')).reverse
  return if kept.isEmpty then [] else '.' :: kept

def time : Reader (List Char) := do
  let hour ← digitsWithin 2 0 23
  let _ ← one ':'
  commit do
    let minute ← digitsWithin 2 0 59
    let _ ← one ':'
    let second ← digitsWithin 2 0 60
    let part ← optional partOfSecond
    return hour ++ ':' :: minute ++ ':' :: second ++ part.getD []

/-- A distance from universal time in hours and minutes.  None has a plus. -/
def distance : Reader (List Char) := do
  let sign ← oneOf fun c => c = '+' || c = '-'
  commit do
    let hour ← digitsWithin 2 0 23
    let _ ← one ':'
    let minute ← digitsWithin 2 0 59
    let isNone := Setting.numberOf (hour ++ minute) = 0
    return (if isNone then '+' else sign) :: hour ++ ':' :: minute

def offset : Reader (List Char) :=
  about "time offset" <| otherwise
    (do
      let _ ← oneOf fun c => c = 'Z' || c = 'z'
      return ['Z'])
    distance

def timeOfDate : Reader (List Char) := do
  let _ ← oneOf fun c => c = 'T' || c = 't' || c = ' '
  let time ← time
  let offset ← optional offset
  return 'T' :: time ++ offset.getD []

/-- A date, a time, or both. -/
def moment : Reader String :=
  String.ofList <$> otherwise
    (about "date-time" do
      let date ← date
      let time ← optional timeOfDate
      return date ++ time.getD [])
    (about "time" time)

end SettingsFile
end CommandLine
end CardAccess

import CardAccess.CommandLine.SettingsFile.Reader

/-!
# Numbers

Whole numbers are decimal with or without a sign, or hexadecimal, octal or binary
behind a mark.  A number with a point or an exponent is a fraction, and so are the
words for infinity and for no number.  Single underscores can separate digits.
-/

namespace CardAccess
namespace CommandLine
namespace SettingsFile

open Reader

/-- Digits, and underscores each with a digit behind it. -/
def moreDigits (isDigit : Char → Bool) : Reader (List Char) :=
  many (otherwise (oneOf isDigit) do
    let _ ← one '_'
    expecting ["digit"] (commit (oneOf isDigit)))

def digits (isDigit : Char → Bool) : Reader (List Char) := do
  let first ← oneOf isDigit
  let others ← moreDigits isDigit
  return first :: others

/-- A sign or none, and whether it is a minus. -/
def sign : Reader Bool := do
  let sign ← optional (oneOf fun c => c = '+' || c = '-')
  return sign = some '-'

/-- A zero, or digits that do not begin with one. -/
def ownDigits : Reader (List Char) :=
  otherwise
    (do
      let first ← oneOf fun c => c.isDigit && c ≠ '0'
      let others ← moreDigits Char.isDigit
      return first :: others)
    (List.singleton <$> oneOf Char.isDigit)

def signedDigits : Reader (Bool × List Char) :=
  about "integer" do
    let negative ← sign
    let digits ← ownDigits
    return (negative, digits)

/-! ## Whole numbers -/

/-- Whole numbers are below two to this power, and not below its negative. -/
def wholeBits : Nat := 63

def bounded (n : Int) : Reader SettingValue :=
  if Int.pow 2 wholeBits ≤ n then failWith .tooLarge
  else if n < -Int.pow 2 wholeBits then failWith .tooSmall
  else return .signed n

def wholeIn (base : Nat) (construct mark : String) (isDigit : Char → Bool) : Reader SettingValue :=
  commit <| judged
    (about construct do
      let _ ← word mark.toList
      commit (digits isDigit))
    fun digits => bounded ((Setting.numberIn? base digits).getD 0)

def whole : Reader SettingValue := do
  match ← get with
  | '0' :: 'x' :: _ =>
    wholeIn 16 "hexadecimal integer" "0x" fun c => (Setting.digitValue? c).isSome
  | '0' :: 'o' :: _ => wholeIn 8 "octal integer" "0o" fun c => '0' ≤ c && c ≤ '7'
  | '0' :: 'b' :: _ => wholeIn 2 "binary integer" "0b" fun c => c = '0' || c = '1'
  | _ =>
    judged signedDigits fun (negative, digits) =>
      let n := Setting.numberOf digits
      commit (bounded (if negative then -n else n))

/-! ## Fractions -/

/-- The digits behind a point. -/
def places : Reader (List Char) := do
  let _ ← one '.'
  expecting ["digit"] (commit (digits Char.isDigit))

def exponent : Reader Int := do
  let _ ← oneOf fun c => c = 'e' || c = 'E'
  let negative ← sign
  let digits ← commit (digits Char.isDigit)
  let n := Setting.numberOf digits
  return if negative then -n else n

/-- A decimal with places, an exponent or both. -/
def decimal : Reader (Bool × Decimal) := do
  let (negative, whole) ← signedDigits
  let (places, exponent) ← otherwise ((fun exponent => ([], exponent)) <$> exponent) do
    let places ← places
    let exponent ← optional exponent
    return (places, exponent.getD 0)
  return (negative, ⟨Setting.numberOf (whole ++ places), exponent - places.length⟩)

/-- The nearest binary number, which may be infinite only if it is negative. -/
def nearest (negative : Bool) (x : Decimal) : Reader SettingValue :=
  let value := Double.nearest x
  if value = .infinite ∧ !negative then fail else return .fraction negative value

def infinity (negative : Bool) : Reader SettingValue := do
  let _ ← word "inf".toList
  return .fraction negative .infinite

def undefined : Reader SettingValue := do
  let _ ← word "nan".toList
  return .fraction false .undefined

def fraction : Reader SettingValue :=
  about "floating-point number" <| otherwise
    (judged decimal fun (negative, x) => commit (nearest negative x))
    (do otherwise (infinity (← sign)) undefined)

end SettingsFile
end CommandLine
end CardAccess

import CardAccess.Decimal
import CardAccess.Hex

/-!
# Settings

A setting is a value under a name, where names can have several parts.  A name
with further parts below it is a table and has a setting of its own that says so.

Settings are written in a file or in variables of the environment.  What both
spell alike is read here: plain names, digits, escapes and texts in double quotes.
-/

namespace CardAccess
namespace CommandLine

/-- Where a setting was found. -/
inductive SettingSource where
  | file (path : String)
  | environment
  deriving DecidableEq, Repr

def SettingSource.display : SettingSource → String
  | .file path => path ++ " TOML file"
  | .environment => "\x60EAC_\x60 environment variable(s)"

/-- The value of a setting.  What stands in a sequence is not kept. -/
inductive SettingValue where
  | text (value : String)
  | truth (value : Bool)
  | unsigned (value : Nat)
  | signed (value : Int)
  | fraction (negative : Bool) (value : Double)
  | sequence
  | table
  deriving DecidableEq, Repr

def SettingValue.display : SettingValue → String
  | .text value => "string " ++ Text.quoted value
  | .truth value => "bool " ++ toString value
  | .unsigned value => "unsigned int \x60" ++ toString value ++ "\x60"
  | .signed value => "signed int \x60" ++ toString value ++ "\x60"
  | .fraction negative value =>
    "float \x60" ++ (if negative then "-" else "") ++ value.text ++ "\x60"
  | .sequence => "sequence"
  | .table => "map"

/-- A value and the values of its parts, each under its name below the value.  A
table comes before what is in it. -/
abbrev Parts := List (List String × SettingValue)

/-- A value under a name. -/
structure Setting where
  name : List String
  value : SettingValue
  source : SettingSource
  deriving DecidableEq, Repr

namespace Setting

/-- The tables that a name leads through. -/
def tablesAbove (name : List String) (source : SettingSource) : List Setting :=
  ((List.range name.length).filter (0 < ·)).map fun n => ⟨name.take n, .table, source⟩

def isNameCharacter (c : Char) : Bool := c.isAlphanum || c = '_' || c = '-'

/-! ## Numbers -/

/-- Take off the sign in front of a number, and tell whether it is a minus. -/
def splitSign : List Char → Bool × List Char
  | '-' :: digits => (true, digits)
  | '+' :: digits => (false, digits)
  | digits => (false, digits)

def numberOf (digits : List Char) : Nat :=
  digits.foldl (fun n c => n * 10 + (c.toNat - 0x30)) 0

def readInteger? (text : List Char) : Option Int :=
  let (negative, digits) := splitSign text
  if digits.isEmpty || digits.any (fun c => !c.isDigit) then none
  else some (if negative then -(numberOf digits : Int) else numberOf digits)

/-! ## Texts in quotes -/

/-- Split a text behind an opening double quote at the closing one.  A quote
behind a backslash does not close. -/
def splitQuoted? : List Char → Option (List Char × List Char)
  | [] => none
  | '"' :: rest => some ([], rest)
  | '\\' :: c :: rest => (splitQuoted? rest).map fun (inner, rest) => ('\\' :: c :: inner, rest)
  | c :: rest => (splitQuoted? rest).map fun (inner, rest) => (c :: inner, rest)

def digitValue? (c : Char) : Option Nat :=
  if c.toNat < 0x80 then Hex.value? (UInt8.ofNat c.toNat) else none

def numberIn? (base : Nat) (digits : List Char) : Option Nat :=
  digits.foldlM (fun n c => do return n * base + (← digitValue? c)) 0

/-- The character with a code of `count` hexadecimal digits, and the rest. -/
def readCode? (count : Nat) (text : List Char) : Option (Char × List Char) := do
  let digits := text.take count
  let code ← numberIn? 16 digits
  if digits.length = count ∧ code.isValidChar then some (Char.ofNat code, text.drop count) else none

def escaped? : Char → Option Char
  | 'b' => some '\x08'
  | 't' => some '\t'
  | 'n' => some '\n'
  | 'f' => some '\x0c'
  | 'r' => some '\r'
  | '"' => some '"'
  | '\\' => some '\\'
  | _ => none

/-- Read the character that an escape stands for, and the rest behind it. -/
def readEscape? (letter : Char) (rest : List Char) : Option (Char × List Char) :=
  if letter = 'u' then readCode? 4 rest
  else if letter = 'U' then readCode? 8 rest
  else (escaped? letter).map fun c => (c, rest)

/-- Whether a character can stand for itself between quotes: no control but the
tabulator. -/
def isPlain (c : Char) : Bool := c = '\t' || (0x20 ≤ c.toNat && c.toNat ≠ 0x7F)

/-- What the text between two quotes stands for.  The fuel is its length. -/
def unescape? : (fuel : Nat) → List Char → Option (List Char)
  | _, [] => some []
  | 0, _ :: _ => none
  | fuel + 1, '\\' :: letter :: rest => do
    let (c, rest) ← readEscape? letter rest
    return c :: (← unescape? fuel rest)
  | fuel + 1, c :: rest => if isPlain c then (unescape? fuel rest).map (c :: ·) else none

end Setting
end CommandLine
end CardAccess

import CardAccess.CommandLine.Setting
import CardAccess.Text.Blank

/-!
# Variables of the environment

The name of a variable is a mark, in either case, and the name of a setting with
points between its parts.  Its text is a table in braces, a sequence in brackets,
a text in quotes, a single character in single quotes, a truth value, a number or
a plain word.  A text that cannot be read as one value is taken as it is, so every
variable has a value.
-/

namespace CardAccess
namespace CommandLine
namespace Variable

def isBlank (c : Char) : Bool := c = ' ' || c = '\t' || c = '\n' || c = '\x0c' || c = '\r'

def skip (text : List Char) : List Char := text.dropWhile isBlank

/-! ## Words -/

def splitDigits (text : List Char) : List Char × List Char :=
  (text.takeWhile Char.isDigit, text.dropWhile Char.isDigit)

/-- The exponent of ten at the end of a fraction, if there is nothing else. -/
def readExponent? : List Char → Option Int
  | [] => some 0
  | mark :: rest => if mark = 'e' ∨ mark = 'E' then Setting.readInteger? rest else none

/-- A number with a point: digits on one side of it at least, and an exponent or
none. -/
def readFraction? (text : List Char) : Option (Bool × Decimal) :=
  let (negative, text) := Setting.splitSign text
  let (whole, rest) := splitDigits text
  match rest with
  | '.' :: rest => do
    let (places, rest) := splitDigits rest
    let exponent ← readExponent? rest
    if whole.isEmpty && places.isEmpty then none
    else some (negative, ⟨Setting.numberOf (whole ++ places), exponent - places.length⟩)
  | _ => none

/-- Whole numbers are below two to this power, negative ones to one less. -/
def wordSize : Nat := 64

/-- The whole number that a word stands for.  With a minus it is a signed one. -/
def wholeOf? (word : List Char) : Option SettingValue := do
  let n ← Setting.readInteger? word
  if (Setting.splitSign word).1 then
    if -Int.pow 2 (wordSize - 1) ≤ n then some (.signed n) else none
  else if n < Int.pow 2 wordSize then some (.unsigned n.toNat)
  else none

def valueOfWord (word : List Char) : SettingValue :=
  let word := Text.trim word
  match readFraction? word with
  | some (negative, x) => .fraction negative (.nearest x)
  | none => (wholeOf? word).getD (.text (String.ofList word))

/-! ## Quoted texts -/

/-- The characters in front that fit into a number of bytes. -/
def takeBytes : (room : Nat) → List Char → List Char
  | _, [] => []
  | room, c :: rest => if c.utf8Size ≤ room then c :: takeBytes (room - c.utf8Size) rest else []

/-- What the text between two quotes stands for.  The part in front of the first
escape keeps only as many bytes as it has characters. -/
def unquote? (inner : List Char) : Option (List Char) := do
  let before := inner.takeWhile (· != '\\')
  let value ← Setting.unescape? inner.length inner
  if before.length = inner.length then some value
  else some (takeBytes before.length before ++ value.drop before.length)

def readQuoted? (text : List Char) : Option (String × List Char) := do
  let (inner, rest) ← Setting.splitQuoted? text
  return (String.ofList (← unquote? inner), rest)

/-! ## Values -/

def isSeparator (c : Char) : Bool := c = ',' || c = '{' || c = '}' || c = '[' || c = ']'

def readName? : List Char → Option (String × List Char)
  | '"' :: rest => readQuoted? rest
  | text =>
    let word := text.takeWhile Setting.isNameCharacter
    if word.isEmpty then none
    else some (String.ofList word, text.dropWhile Setting.isNameCharacter)

mutual

/-- Read a value with the blanks around it.  A value within a value takes three
units of fuel. -/
def readValue? : (fuel : Nat) → List Char → Option (Parts × List Char)
  | 0, _ => none
  | fuel + 1, text => do
    let (parts, rest) ← readBare? fuel (skip text)
    some (parts, skip rest)

/-- Read a value that no blanks stand in front of. -/
def readBare? : (fuel : Nat) → List Char → Option (Parts × List Char)
  | _, 't' :: 'r' :: 'u' :: 'e' :: rest => some ([([], .truth true)], rest)
  | _, 'f' :: 'a' :: 'l' :: 's' :: 'e' :: rest => some ([([], .truth false)], rest)
  | fuel + 1, '{' :: rest => do
    let (entries, rest) ← readEntries? fuel rest
    some (([], .table) :: entries, rest)
  | fuel + 1, '[' :: rest => do
    let rest ← skipItems? fuel rest
    some ([([], .sequence)], rest)
  | _, '"' :: rest => do
    let (text, rest) ← readQuoted? rest
    some ([([], .text text)], rest)
  | _, '\x27' :: c :: '\x27' :: rest => some ([([], .text c.toString)], rest)
  | _, '\x27' :: _ => none
  | _, text =>
    let word := text.takeWhile fun c => !isSeparator c
    some ([([], valueOfWord word)], text.dropWhile fun c => !isSeparator c)

def readEntries? : (fuel : Nat) → List Char → Option (Parts × List Char)
  | 0, _ => none
  | _, '}' :: rest => some ([], rest)
  | fuel + 1, text => do
    let (name, rest) ← readName? (skip text)
    match skip rest with
    | '=' :: rest => do
      let (parts, rest) ← readValue? fuel rest
      let entry := parts.map fun (below, value) => (name :: below, value)
      match rest with
      | ',' :: rest => do
        let (others, rest) ← readEntries? fuel rest
        some (entry ++ others, rest)
      | '}' :: rest => some (entry, rest)
      | _ => none
    | _ => none

/-- Pass over the items of a sequence up to the closing bracket. -/
def skipItems? : (fuel : Nat) → List Char → Option (List Char)
  | 0, _ => none
  | _, ']' :: rest => some rest
  | fuel + 1, text => do
    let (_, rest) ← readValue? fuel text
    match rest with
    | ',' :: rest => skipItems? fuel rest
    | ']' :: rest => some rest
    | _ => none

end

def valueOf (text : String) : Parts :=
  let characters := text.toList
  match readValue? (3 * characters.length + 3) characters with
  | some (parts, []) => parts
  | _ => [([], .text text)]

/-! ## Names -/

/-- What the names of the program's variables begin with, in either case. -/
def mark : String := "EAC_"

/-- The variable that names the directory of the settings file. -/
def directoryName : String := "EAC_CONFIG_DIR"

/-- The name of a setting in lower case, which is ASCII's. -/
def lowerCase (name : List Char) : String := String.ofList (name.map Char.toLower)

/-- The name of the setting that a variable is for.  None of its parts is empty. -/
def settingName? (name : String) : Option (List String) :=
  let name := Text.trim name.toList
  if lowerCase (name.take mark.length) = lowerCase mark.toList then
    let parts := (lowerCase (Text.trim (name.drop mark.length))).splitOn "."
    if parts.contains "" then none else some parts
  else none

def settings (name text : String) : List Setting :=
  match settingName? name with
  | none => []
  | some path =>
    Setting.tablesAbove path .environment
      ++ (valueOf text).map fun (below, value) => ⟨path ++ below, value, .environment⟩

end Variable
end CommandLine
end CardAccess

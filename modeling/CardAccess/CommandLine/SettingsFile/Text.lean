import CardAccess.CommandLine.SettingsFile.Layout

/-!
# Texts

A text stands between double quotes, with escapes, or between single quotes, without
them.  Between quotes three at a time it can go over several lines.  A line break
behind the opening quotes is not part of it, and one or two quotes of its own can
stand in front of the closing ones.
-/

namespace CardAccess
namespace CommandLine
namespace SettingsFile

open Reader

/-! ## Escapes -/

/-- A character given by its code in hexadecimal digits. -/
def code (count : Nat) : Reader Char := fun text =>
  let digits := text.take count
  match Setting.numberIn? 16 digits with
  | none => fail text
  | some n =>
    if digits.length < count then fail text
    else if n.isValidChar then .ok (Char.ofNat n, text.drop count)
    else failWith .outOfRange text

/-- What can stand behind a backslash. -/
def escapeLetters : List String := ["b", "f", "n", "r", "t", "u", "U", "\\", "\""]

/-- A backslash and what stands for a character behind it. -/
def escape : Reader Char := do
  let _ ← one '\\'
  let letter ← any
  if letter = 'u' then about "unicode 4-digit hex code" (commit (code 4))
  else if letter = 'U' then about "unicode 8-digit hex code" (commit (code 8))
  else
    match Setting.escaped? letter with
    | some c => return c
    | none => about "escape sequence" (expecting (escapeLetters.map marked) (commit fail))

/-! ## Texts in one line -/

/-- Characters that stand for themselves, none of them among the given ones. -/
def plainRun (without : List Char) : Reader (List Char) :=
  someOf fun c => Setting.isPlain c && !without.contains c

/-- The double quote and the backslash, which do not stand for themselves. -/
def special : List Char := ['"', '\\']

/-- A text between double quotes. -/
def escapedText : Reader String := do
  let _ ← one '"'
  let body ← many (otherwise (plainRun special) (List.singleton <$> escape))
  let _ ← about "basic string" (commit (one '"'))
  return String.ofList body.flatten

/-- A text between single quotes. -/
def literalText : Reader String :=
  about "literal string" do
    let _ ← one Text.singleQuote
    commit do
      let body ← allOf fun c => Setting.isPlain c && c != Text.singleQuote
      let _ ← one Text.singleQuote
      return String.ofList body

/-! ## Texts over several lines -/

def lineBreak : Reader (List Char) := do
  newline
  return ['\n']

/-- A backslash at the end of a line, and the blanks and line breaks behind it.
They are not part of the text. -/
def joint : Reader (List Char) := do
  let _ ← one '\\'
  blanks
  newline
  let _ ← many (otherwise newline do let _ ← someOf isBlank)
  return []

/-- What a text between double quotes over several lines is made of. -/
def escapedPart : Reader (List Char) :=
  firstOf [plainRun special, joint, List.singleton <$> escape, lineBreak]

/-- What a text between single quotes over several lines is made of. -/
def literalPart : Reader (List Char) := otherwise (plainRun [Text.singleQuote]) lineBreak

/-- Some quotes in front of something, which is left there. -/
def quotesBefore (quote : Char) (count : Nat) (next : Reader (List Char)) : Reader (List Char) := do
  let quotes ← word (List.replicate count quote)
  let _ ← ahead next
  return quotes

/-- One or two quotes that do not close a text. -/
def innerQuotes (quote : Char) (next : Reader (List Char)) : Reader (List Char) :=
  otherwise (quotesBefore quote 2 next) (quotesBefore quote 1 next)

def longText (construct : String) (quote : Char) (part : Reader (List Char)) : Reader String :=
  let fence := word (List.replicate 3 quote)
  about construct do
    let _ ← fence
    let _ ← optional newline
    commit do
      let body ← many (otherwise part (innerQuotes quote part))
      let last ← optional (innerQuotes quote fence)
      let _ ← fence
      return String.ofList (body.flatten ++ last.getD [])

def text : Reader String :=
  firstOf [longText "multiline basic string" '"' escapedPart, escapedText,
    longText "multiline literal string" Text.singleQuote literalPart, literalText]

end SettingsFile
end CommandLine
end CardAccess

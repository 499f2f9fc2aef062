import CardAccess.CommandLine.SettingsFile.Moment
import CardAccess.CommandLine.SettingsFile.Number
import CardAccess.CommandLine.SettingsFile.Outline
import CardAccess.CommandLine.SettingsFile.Text

/-!
# Names and values

A name has one or more parts with points between them.  The first character of a
value tells what kind of value it is, except that numbers and moments begin alike.
Sequences and tables in braces hold values again, down to a greatest depth.
-/

namespace CardAccess
namespace CommandLine
namespace SettingsFile

open Reader

/-! ## Names -/

def namePart : Reader String := do
  match ← get with
  | '"' :: _ => escapedText
  | '\x27' :: _ => literalText
  | _ => String.ofList <$> someOf Setting.isNameCharacter

/-- Values lie less deep than this, and names have fewer parts. -/
def depthLimit : Nat := 80

def name : Reader (List String) :=
  judged
    (about "key" <| separated (one '.') do
      blanks
      let part ← namePart
      blanks
      return part)
    fun parts => if parts.length < depthLimit then return parts else failWith .tooDeep

/-- A name with a value, and what ends them. -/
def setting (value : Reader Value) (ending : Reader Unit) : Reader (List String × Value) := do
  let name ← name
  commit do
    let _ ← expecting [marked ".", marked "="] (one '=')
    blanks
    let value ← value
    ending
    return (name, value)

/-! ## Sequences and tables -/

/-- The items of a sequence.  What they are is not kept. -/
def items (value : Reader Value) : Reader Unit := do
  match ← get with
  | ']' :: _ => return ()
  | _ =>
    let item := do
      gap
      let _ ← value
      gap
    if (← optional (separated (one ',') item)).isSome then
      let _ ← optional (one ',')
    gap

def sequence (value : Reader Value) : Reader Value := do
  let _ ← one '['
  commit (items value)
  let _ ← commit (about "array" (expecting [marked "]"] (one ']')))
  return .single .sequence .sequence

def outlineOf (settings : List (List String × Value)) : Except Cause Outline :=
  settings.foldlM (fun outline (name, value) => outline.add .braces name value) []

/-- What a judgement that names a cause comes to. -/
def accept {α : Type} : Except Cause α → Reader α
  | .ok a => return a
  | .error cause => failWith cause

/-- What is in a table in braces. -/
def entries (value : Reader Value) : Reader Outline :=
  judged
    (do
      let settings ← optional (separated (one ',') (setting value blanks))
      blanks
      return settings.getD [])
    fun settings => accept (outlineOf settings)

def table (value : Reader Value) : Reader Value := do
  let _ ← one '\x7b'
  let outline ← commit (entries value)
  let _ ← commit (about "inline table" (expecting [marked "\x7d"] (one '\x7d')))
  return ⟨.table, ([], .table) :: outline.parts⟩

/-! ## Values -/

def momentName : String := "$__toml_private_datetime"

/-- A moment as a value: a table with its text. -/
def momentOf (text : String) : Value := ⟨.moment, [([], .table), ([momentName], .text text)]⟩

def numeric : Reader Value :=
  firstOf [momentOf <$> moment, Value.single .fraction <$> fraction, Value.single .whole <$> whole]

/-- What is not a value at all is taken for a text without quotes. -/
def unquoted (r : Reader SettingValue) (kind : Kind) : Reader Value :=
  about "string" (expecting [marked "\"", marked Text.singleQuote.toString] (.single kind <$> r))

def truth (value : Bool) : Reader SettingValue := do
  let _ ← commit (word (toString value).toList)
  return .truth value

/-- A value, with readers for the values that hold others. -/
def valueWith (sequence table : Reader Value) : Reader Value := do
  match ← get with
  | [] => fail
  | c :: _ =>
    if c = '"' || c = Text.singleQuote then (fun text => .single .text (.text text)) <$> text
    else if c = '[' then sequence
    else if c = '\x7b' then table
    else if c.isDigit || c = '+' || c = '-' then numeric
    else if c = '_' then expecting ["leading digit"] (.single .whole <$> whole)
    else if c = '.' then expecting ["leading digit"] (.single .fraction <$> fraction)
    else if c = 't' then unquoted (truth true) .truth
    else if c = 'f' then unquoted (truth false) .truth
    else if c = 'i' then unquoted (infinity false) .fraction
    else if c = 'n' then unquoted undefined .fraction
    else unquoted fail .text

/-- A value that holds others only so many levels deep. -/
def valueWithin : (depth : Nat) → Reader Value
  | 0 => valueWith (commit (failWith .tooDeep)) (commit (failWith .tooDeep))
  | depth + 1 => valueWith (sequence (valueWithin depth)) (table (valueWithin depth))

def value : Reader Value := valueWithin (depthLimit - 1)

end SettingsFile
end CommandLine
end CardAccess

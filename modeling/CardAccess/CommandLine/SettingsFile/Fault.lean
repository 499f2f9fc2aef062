import CardAccess.CommandLine.Setting

/-!
# What can be wrong in a settings file

A fault has a place in the text.  It says which construct is not well spelled, what
could have stood there, or why a well spelled name or value cannot be taken.  Its
report shows the line and points to the place.
-/

namespace CardAccess
namespace CommandLine
namespace SettingsFile

inductive Kind where
  | text
  | whole
  | fraction
  | truth
  | moment
  | sequence
  | table
  deriving DecidableEq, Repr

def Kind.name : Kind → String
  | .text => "string"
  | .whole => "integer"
  | .fraction => "float"
  | .truth => "boolean"
  | .moment => "datetime"
  | .sequence => "array"
  | .table => "inline table"

/-- Why a name or a value that is well spelled cannot be taken. -/
inductive Cause where
  | outOfRange
  | tooLarge
  | tooSmall
  | tooDeep
  | duplicate (name : String) (table : Option (List String))
  | notTable (name : List String) (kind : Kind)
  deriving DecidableEq, Repr

def marked (text : String) : String := "\x60" ++ text ++ "\x60"

def Cause.message : Cause → String
  | .outOfRange => "value is out of range"
  | .tooLarge => "number too large to fit in target type"
  | .tooSmall => "number too small to fit in target type"
  | .tooDeep => "recursion limit exceeded"
  | .duplicate name none => "duplicate key " ++ marked name
  | .duplicate name (some []) => "duplicate key " ++ marked name ++ " in document root"
  | .duplicate name (some table) =>
    "duplicate key " ++ marked name ++ " in table " ++ marked (".".intercalate table)
  | .notTable name kind =>
    "dotted key " ++ marked (".".intercalate name) ++ " attempted to extend non-table type ("
      ++ kind.name ++ ")"

/-- What is wrong, and the text from there on.  A final fault leaves no other way
to read the text. -/
structure Fault where
  rest : List Char
  construct : Option String
  expected : List String
  cause : Option Cause
  isFinal : Bool
  deriving DecidableEq, Repr

namespace Fault

/-- What is wrong, a line for each thing that is known. -/
def message (f : Fault) : String :=
  let construct := f.construct.map fun construct => "invalid " ++ construct
  let expected :=
    if f.expected.isEmpty then none else some ("expected " ++ ", ".intercalate f.expected)
  "\n".intercalate ([construct, expected, f.cause.map Cause.message].filterMap id)

/-- How much of a line stands in front of a character, in bytes if that character
takes several of them, and in characters if not. -/
def widthBefore (before : List Char) : List Char → Nat
  | [] => before.length
  | c :: _ =>
    if c.utf8Size = 1 then before.length
    else before.foldl (fun width c => width + c.utf8Size) 0

/-- The line and the column of a fault in a text, both counted from zero.  The end
of the text is the column behind its last character. -/
def place (text : List Char) (f : Fault) : Nat × Nat :=
  let index := text.length - f.rest.length
  let last := min index (text.length - 1)
  let before := text.take last
  let inLine := (before.reverse.takeWhile (· ≠ '\n')).reverse
  (before.count '\n', widthBefore inLine f.rest + (index - last))

/-- The number of marks under a place: one for each byte of the character that
stands there, as far as the line goes. -/
def markCount (content : String) (column : Nat) : List Char → Nat
  | [] => 1
  | c :: _ => max 1 (min c.utf8Size (content.utf8ByteSize - column))

def line (c : Char) (count : Nat) : String := String.ofList (List.replicate count c)

def report (text : List Char) (f : Fault) : String :=
  let (row, column) := f.place text
  let content := ((String.ofList text).splitOn "\n").getD row ""
  let number := toString (row + 1)
  let margin := line ' ' (number.length + 1) ++ "|"
  "TOML parse error at line " ++ number ++ ", column " ++ toString (column + 1) ++ "\n"
    ++ margin ++ "\n"
    ++ number ++ " | " ++ content ++ "\n"
    ++ margin ++ line ' ' (column + 1) ++ line '^' (markCount content column f.rest) ++ "\n"
    ++ f.message ++ "\n"

end Fault
end SettingsFile
end CommandLine
end CardAccess

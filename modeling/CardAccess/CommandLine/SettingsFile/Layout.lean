import CardAccess.CommandLine.SettingsFile.Reader

/-!
# Blanks, lines and remarks

A remark goes from a number sign to the end of its line.  A line ends with a line
feed, which a carriage return can precede; a carriage return alone ends nothing.
-/

namespace CardAccess
namespace CommandLine
namespace SettingsFile

open Reader

def isBlank (c : Char) : Bool := c = ' ' || c = '\t'

def blanks : Reader Unit := do
  let _ ← allOf isBlank

/-- A remark without the end of its line. -/
def remark : Reader Unit := do
  let _ ← one '#'
  let _ ← allOf Setting.isPlain

/-- The end of a line.  A fault is behind the character that should have ended it. -/
def newline : Reader Unit := fun text =>
  match text with
  | '\n' :: rest => .ok ((), rest)
  | '\r' :: '\n' :: rest => .ok ((), rest)
  | other => fail other.tail

def lineEnd : Reader Unit := otherwise newline ending

/-- The part of a line that says nothing. -/
def lineRest : Reader Unit :=
  expecting ["newline", marked "#"] do
    blanks
    let _ ← optional remark
    lineEnd

def emptyLine : Reader Unit := do
  blanks
  let _ ← optional remark
  newline

/-- What separates the items of a sequence from what is around them. -/
def gap : Reader Unit := do
  let _ ← many emptyLine
  blanks
  match ← get with
  | [] => return ()
  | c :: _ => if c = '#' || c = '\n' || c = '\r' then emptyLine else return ()

end SettingsFile
end CommandLine
end CardAccess

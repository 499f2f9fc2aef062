import CardAccess.CommandLine.SettingsFile.Value
import CardAccess.Text

/-!
# The settings file

A settings file has one setting in a line.  A heading in brackets names the table to
which the settings below it belong, a heading in double brackets a row of tables.
-/

namespace CardAccess
namespace CommandLine
namespace SettingsFile

open Reader

/-- What was read so far, and the table that the next setting belongs to. -/
structure State where
  table : List String
  outline : Outline
  deriving DecidableEq, Repr

/-- A heading between the given brackets, and the rest of its line. -/
def headingBetween (opening closing : String) : Reader (List String) := do
  let _ ← word opening.toList
  commit do
    let name ← name
    let _ ← expecting [marked ".", marked closing] (word closing.toList)
    lineRest
    return name

/-- A heading, which begins a table or a row. -/
def heading (s : State) : Reader State :=
  about "table header" do
    match ← get with
    | '[' :: '[' :: _ =>
      judged (headingBetween "[[" "]]") fun name =>
        State.mk name <$> accept (s.outline.addRow name)
    | _ :: _ :: _ =>
      judged (headingBetween "[" "]") fun name =>
        State.mk name <$> accept (s.outline.addHeading name)
    | _ => fail

def settingLine (s : State) : Reader State :=
  judged (setting value lineRest) fun (name, value) =>
    State.mk s.table <$> accept (s.outline.add (.table s.table) name value)

def remarkLine : Reader Unit := do
  remark
  lineEnd

/-- A line that blanks do not begin.  Its first character tells what it is. -/
def line (s : State) : Reader State := do
  match ← get with
  | [] => fail
  | c :: _ =>
    if c = '#' then
      commit remarkLine
      return s
    else if c = '[' then commit (heading s)
    else if c = '\n' || c = '\r' then
      newline
      return s
    else commit (settingLine s)

/-- The character that can stand in front of a text to tell how it is encoded. -/
def encodingMark : Char := '\ufeff'

def lines : Reader Outline := do
  let _ ← optional (one encodingMark)
  blanks
  let s ← iterate (fun s => line s <* blanks) ⟨[], []⟩
  Reader.ending
  return s.outline

inductive Failure where
  | notText
  | malformed (text : List Char) (fault : Fault)
  deriving DecidableEq, Repr

def Failure.message : Failure → String
  | .notText => "stream did not contain valid UTF-8\n"
  | .malformed text fault => fault.report text

def read (bytes : Bytes) : Except Failure Parts :=
  match Text.ofUtf8? bytes with
  | none => .error .notText
  | some text =>
    let text := text.toList
    match lines text with
    | .ok (outline, _) => .ok outline.parts
    | .error fault => .error (.malformed text fault)

end SettingsFile
end CommandLine
end CardAccess

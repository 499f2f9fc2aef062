import CardAccess.CommandLine.SettingsFile.Fault

/-!
# Readers

A reader takes something from the front of a text and leaves the rest, or tells a
fault.  Where a text can go on in several ways, the first that fits is taken; a
fault that is final shuts out the ways that are left.
-/

namespace CardAccess
namespace CommandLine
namespace SettingsFile

/-- A way to read the front of a text. -/
abbrev Reader (α : Type) : Type := StateT (List Char) (Except Fault) α

namespace Reader

variable {α β σ : Type}

def fail : Reader α := fun text => .error ⟨text, none, [], none, false⟩

def failWith (cause : Cause) : Reader α := fun text => .error ⟨text, none, [], some cause, false⟩

/-- Make every fault final. -/
def commit (r : Reader α) : Reader α := fun text =>
  (r text).mapError fun f => { f with isFinal := true }

/-- Name the construct that is read.  A part of it that has a name keeps it. -/
def about (construct : String) (r : Reader α) : Reader α := fun text =>
  (r text).mapError fun f => { f with construct := f.construct <|> some construct }

def expecting (things : List String) (r : Reader α) : Reader α := fun text =>
  (r text).mapError fun f => { f with expected := f.expected ++ things }

/-- Judge what was read.  A fault of the judgement is at the beginning of it. -/
def judged (r : Reader α) (judge : α → Reader β) : Reader β := fun text => do
  let (a, rest) ← r text
  let (b, _) ← judge a text
  return (b, rest)

/-- Read in the first way, or else in the second. -/
def otherwise (r s : Reader α) : Reader α := fun text =>
  match r text with
  | .ok found => .ok found
  | .error f => if f.isFinal then .error f else s text

def firstOf : List (Reader α) → Reader α
  | [] => fail
  | [r] => r
  | r :: others => otherwise r (firstOf others)

def optional (r : Reader α) : Reader (Option α) := otherwise (some <$> r) (pure none)

/-- Look at something and leave it there. -/
def ahead (r : Reader α) : Reader α := fun text => (r text).map fun (a, _) => (a, text)

/-- Take one step after the other as long as they fit and get on in the text. -/
def iterate (step : σ → Reader σ) (s : σ) (text : List Char) : Except Fault (σ × List Char) :=
  match step s text with
  | .error f => if f.isFinal then .error f else .ok (s, text)
  | .ok (next, rest) =>
    if rest.length < text.length then iterate step next rest else .ok (s, text)
termination_by text.length

def many (r : Reader α) : Reader (List α) :=
  List.reverse <$> iterate (fun found => (· :: found) <$> r) []

/-- Read one and as many as there are behind it, each behind a separator. -/
def separated (separator : Reader β) (r : Reader α) : Reader (List α) := do
  let first ← r
  let others ← many (separator *> r)
  return first :: others

/-! ## Characters -/

def any : Reader Char := fun text =>
  match text with
  | [] => fail text
  | c :: rest => .ok (c, rest)

def oneOf (accepts : Char → Bool) : Reader Char := fun text =>
  match text with
  | [] => fail text
  | c :: rest => if accepts c then .ok (c, rest) else fail text

def one (c : Char) : Reader Char := oneOf (· = c)

def word (characters : List Char) : Reader (List Char) := fun text =>
  if characters.isPrefixOf text then .ok (characters, text.drop characters.length)
  else fail text

def allOf (accepts : Char → Bool) : Reader (List Char) := fun text =>
  .ok (text.takeWhile accepts, text.dropWhile accepts)

def someOf (accepts : Char → Bool) : Reader (List Char) := do
  let first ← oneOf accepts
  let others ← allOf accepts
  return first :: others

def ending : Reader Unit := fun text => if text.isEmpty then .ok ((), text) else fail text

end Reader
end SettingsFile
end CommandLine
end CardAccess

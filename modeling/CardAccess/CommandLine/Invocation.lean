/-!
# Arguments

The arguments name a command and give it values.  An option is written with its
long name or its letter, and its value is attached or follows; what is neither an
option nor a value of one is positional.  Each command says which options it has
in a list of `OptionRule`s, and the arguments are taken up one by one.
-/

namespace CardAccess
namespace CommandLine

/-- Why arguments do not lead to a command: they are wrong, or ask for help. -/
inductive Stop where
  | usage
  | help
  deriving DecidableEq, Repr

/-- What an option takes. -/
inductive OptionKind where
  | flag
  | text
  | path
  | number
  deriving DecidableEq, Repr

structure OptionRule where
  name : String
  letter : Option Char
  kind : OptionKind
  deriving DecidableEq, Repr

/-- Read a number of 32 bits, which may have a sign. -/
def readNumber (text : String) : Option Nat :=
  let (negative, digits) := match text.toList with
    | '-' :: digits => (true, digits)
    | '+' :: digits => (false, digits)
    | digits => (false, digits)
  if digits.isEmpty || digits.any (fun c => !c.isDigit) then none
  else
    let n := digits.foldl (fun n c => n * 10 + (c.toNat - 0x30)) 0
    if n < UInt32.size ∧ (negative = false ∨ n = 0) then some n else none

def OptionKind.admits : OptionKind → String → Bool
  | .flag, _ => false
  | .text, _ => true
  | .path, value => !value.isEmpty
  | .number, value => (readNumber value).isSome

/-- The arguments taken up so far: options by name, positional arguments in
order, the option that waits for its value, and whether all that follows is
positional. -/
structure Arguments where
  options : List (String × String)
  positional : List String
  pending : Option OptionRule
  closed : Bool
  deriving DecidableEq, Repr

namespace Arguments

def empty : Arguments := ⟨[], [], none, false⟩

def value? (a : Arguments) (name : String) : Option String := a.options.lookup name

def has (a : Arguments) (name : String) : Bool := (a.value? name).isSome

/-- Take up the value of an option, which is given once at most. -/
def setOption (a : Arguments) (rule : OptionRule) (value : String) : Except Stop Arguments :=
  if a.has rule.name || !rule.kind.admits value then .error .usage
  else .ok { a with options := a.options ++ [(rule.name, value)], pending := none }

def startOption (a : Arguments) (rule : OptionRule) : Except Stop Arguments :=
  match rule.kind with
  | .flag =>
    if a.has rule.name then .error .usage
    else .ok { a with options := a.options ++ [(rule.name, "")] }
  | _ => .ok { a with pending := some rule }

def addPositional (a : Arguments) (room : Nat) (argument : String) : Except Stop Arguments :=
  if a.positional.length < room then .ok { a with positional := a.positional ++ [argument] }
  else .error .usage

def addLong (a : Arguments) (rules : List OptionRule) (argument : List Char) :
    Except Stop Arguments :=
  let name := String.ofList (argument.takeWhile (· != '='))
  let attached := (argument.dropWhile (· != '=')).drop 1
  let hasAttached := argument.contains '='
  if name = "help" then .error (if hasAttached then .usage else .help)
  else
    match rules.find? fun rule => rule.name = name with
    | none => .error .usage
    | some rule =>
      if hasAttached then a.setOption rule (String.ofList attached) else a.startOption rule

def addLetter (a : Arguments) (rules : List OptionRule) (letter : Char) (attached : List Char) :
    Except Stop Arguments :=
  if letter = 'h' then .error .help
  else
    match rules.find? fun rule => rule.letter = some letter with
    | none => .error .usage
    | some rule =>
      match attached with
      | [] => a.startOption rule
      | '=' :: value => a.setOption rule (String.ofList value)
      | value => a.setOption rule (String.ofList value)

def add (rules : List OptionRule) (room : Nat) (a : Arguments) (argument : String) :
    Except Stop Arguments :=
  if a.closed then a.addPositional room argument
  else
    match argument.toList, a.pending with
    | ['-', '-'], none => .ok { a with closed := true }
    | '-' :: '-' :: name, none => a.addLong rules name
    | '-' :: letter :: attached, none => a.addLetter rules letter attached
    | '-' :: _ :: _, some _ => .error .usage
    | _, some rule => a.setOption rule argument
    | _, none => a.addPositional room argument

/-- Take up all arguments of a command.  No option may still wait for its value. -/
def ofList (rules : List OptionRule) (room : Nat) (arguments : List String) :
    Except Stop Arguments := do
  let a ← arguments.foldlM (add rules room) empty
  if a.pending.isSome then .error .usage else .ok a

def number? (a : Arguments) (name : String) : Option Nat := (a.value? name).bind readNumber

/-- Demand that `other` is given whenever `name` is. -/
def requires (a : Arguments) (name other : String) : Except Stop Unit :=
  if a.has name && !a.has other then .error .usage else .ok ()

end Arguments

/-- What a request is generated from, by the names of files. -/
structure RequestOrder where
  root : String
  old : Option String
  oldKey : Option String
  holder : Option String
  chat : Option String
  signerAlias : Option String
  signerKey : Option String
  sequence : Option Nat
  usePresentKey : Bool
  output : Option String
  deriving DecidableEq, Repr

inductive Invocation where
  | inspect (file : String)
  | nextReference (reference : String) (sequence : Option Nat)
  | request (order : RequestOrder)
  | verify (request : String) (signer domain : Option String)
  deriving DecidableEq, Repr

namespace Invocation

def requestRules : List OptionRule := [
  ⟨"root", none, .path⟩, ⟨"old", none, .path⟩, ⟨"old-key", none, .path⟩,
  ⟨"holder", none, .text⟩, ⟨"chat", none, .text⟩, ⟨"rsc-alias", none, .text⟩,
  ⟨"rsc-key", none, .path⟩, ⟨"sequence", some 's', .number⟩,
  ⟨"use-present-key", none, .flag⟩, ⟨"output", some 'o', .path⟩]

def commandNames : List String := ["inspect", "next-chr", "request", "verify", "help"]

def ofCommand (name : String) (arguments : List String) : Except Stop Invocation := do
  match name with
  | "inspect" =>
    let a ← Arguments.ofList [] 1 arguments
    match a.positional with
    | [file] => if OptionKind.path.admits file then .ok (.inspect file) else .error .usage
    | _ => .error .usage
  | "next-chr" =>
    let a ← Arguments.ofList [⟨"sequence", some 's', .number⟩] 1 arguments
    match a.positional with
    | [reference] => .ok (.nextReference reference (a.number? "sequence"))
    | _ => .error .usage
  | "request" =>
    let a ← Arguments.ofList requestRules 0 arguments
    a.requires "old-key" "old"
    match a.value? "root" with
    | none => .error .usage
    | some root =>
      .ok (.request ⟨root, a.value? "old", a.value? "old-key", a.value? "holder",
        a.value? "chat", a.value? "rsc-alias", a.value? "rsc-key", a.number? "sequence",
        a.has "use-present-key", a.value? "output"⟩)
  | "verify" =>
    let a ← Arguments.ofList [⟨"signer", none, .path⟩, ⟨"domain", none, .path⟩] 1 arguments
    a.requires "domain" "signer"
    match a.positional with
    | [file] =>
      if OptionKind.path.admits file then
        .ok (.verify file (a.value? "signer") (a.value? "domain"))
      else .error .usage
    | _ => .error .usage
  | "help" =>
    match arguments with
    | [] => .error .help
    | [command] => .error (if commandNames.contains command then .help else .usage)
    | _ => .error .usage
  | _ => .error .usage

/-- Read the letters of options in front of the command.  Returns whether more
output was asked for. -/
def readLetters (verbose : Bool) : List Char → Except Stop Bool
  | [] => .ok verbose
  | 'v' :: letters => if verbose then .error .usage else readLetters true letters
  | 'h' :: _ | 'V' :: _ => .error .help
  | _ => .error .usage

/-- Read all arguments.  `verbose` says whether more output was asked for. -/
def ofArguments (verbose : Bool) : List String → Except Stop Invocation
  | [] => .error .usage
  | argument :: arguments =>
    match argument.toList with
    | '-' :: '-' :: name =>
      if name = "verbose".toList ∧ verbose = false then ofArguments true arguments
      else if name = "help".toList ∨ name = "version".toList then .error .help
      else .error .usage
    | '-' :: letter :: letters =>
      match readLetters verbose (letter :: letters) with
      | .ok verbose => ofArguments verbose arguments
      | .error stop => .error stop
    | _ => ofCommand argument arguments

def parse (arguments : List String) : Except Stop Invocation := ofArguments false arguments

end Invocation
end CommandLine
end CardAccess

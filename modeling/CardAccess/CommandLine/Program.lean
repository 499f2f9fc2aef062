import CardAccess.CommandLine.FileTree
import CardAccess.CommandLine.Issuance

/-!
# The program

Arguments that name no command end the program at once; a command runs as a
script and succeeds or fails.  The exit status tells the three apart.
-/

namespace CardAccess
namespace CommandLine

/-- How the program ends. -/
inductive Outcome where
  | usage
  | help
  | success
  | failure (e : CommandFailure)
  deriving DecidableEq, Repr

def Outcome.status : Outcome → Nat
  | .success => 0
  | .help => 0
  | .failure _ => 1
  | .usage => 2

/-- How the program is called. -/
def synopsis : String :=
  "usage: eac [-v] inspect <file>\n"
    ++ "       eac [-v] next-chr <reference> [-s <number>]\n"
    ++ "       eac [-v] request --root <file> [--old <file>] [--old-key <file>]\n"
    ++ "                [--holder <reference>] [--chat <hex>] [--rsc-alias <alias>]\n"
    ++ "                [--rsc-key <file>] [-s <number>] [--use-present-key] [-o <directory>]\n"
    ++ "       eac [-v] verify <request> [--signer <file> [--domain <file>]]\n"

def Outcome.message? : Outcome → Option String
  | .failure e => some e.message
  | _ => none

def printNext (reference : String) (number : Option Nat) : Command Unit := do
  Command.printLine (← Command.ofCard (HolderReference.next reference number))

def Invocation.command (env : Issuance.Environment) : Invocation → Command Unit
  | .inspect file => Inspection.inspect file
  | .nextReference reference sequence => printNext reference sequence
  | .request order => Issuance.request env order
  | .verify file signer domain => Inspection.verify file signer domain

def program (env : Issuance.Environment) (arguments : List String) : Script Outcome :=
  match Invocation.parse arguments with
  | .error .usage => .done .usage
  | .error .help => .done .help
  | .ok invocation => do
    match ← (invocation.command env).run with
    | .ok () => pure .success
    | .error e => pure (.failure e)

end CommandLine
end CardAccess

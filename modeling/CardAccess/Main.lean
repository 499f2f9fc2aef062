import CardAccess.CommandLine.Program

/-!
# The command line program

The outer layer of the program: it runs scripts on the files of the system, and
decides nothing.
-/

namespace CardAccess
namespace CommandLine

def succeeds (action : IO Unit) : IO Bool := do
  try
    action
    return true
  catch _ => return false

/-- What an error of the system says about a directory. -/
def DirectoryFault.ofError : IO.Error → DirectoryFault
  | .noFileOrDirectory .. => .missing
  | .alreadyExists .. => .present
  | .inappropriateType .. => .notDirectory
  | e => .other (toString e)

/-- Answer an action with the files of the system. -/
def Action.perform : (action : Action) → IO action.Answer
  | .readFile path => do
    try
      return some (← IO.FS.readBinFile path).toList
    catch _ => return none
  | .isPresent path => do
    let found ← try
        let _ ← IO.FS.realPath path
        pure true
      catch _ => pure false
    return found
  | .isDirectory path => do
    let found ← try
        (← IO.FS.realPath path).isDir
      catch _ => pure false
    return found
  | .makeDirectory path => do
    try
      IO.FS.createDir path
      return none
    catch e => return some (DirectoryFault.ofError e)
  | .writeFile path content => succeeds (IO.FS.writeBinFile path ⟨content.toArray⟩)
  | .print text => IO.print text

def Script.perform {α : Type} : Script α → IO α
  | .done value => return value
  | .act action next => do (next (← action.perform)).perform

/-- The file in which the system keeps the variables of a process. -/
def environmentFile : String := "/proc/self/environ"

def readAssignment (text : String) : String × String :=
  let characters := text.toList
  (String.ofList (characters.takeWhile (· != '=')),
    String.ofList ((characters.dropWhile (· != '=')).drop 1))

/-- The variables of the process.  A system that does not show them has none. -/
def readAssignments : IO (List (String × String)) := do
  try
    let bytes ← IO.FS.readBinFile environmentFile
    let texts := ((Text.ofUtf8? bytes.toList).getD "").splitOn "\x00"
    return (texts.filter (· ≠ "")).map readAssignment
  catch _ => return []

/-- The number of random bytes that a run may use. -/
def randomLength : Nat := 4096

/-- The world that the program runs in. -/
def Issuance.Environment.current : IO Issuance.Environment := do
  let random ← IO.getRandomBytes randomLength.toUSize
  return ⟨← readAssignments, (← IO.getEnv "HOME").getD "", ⟨fun i => random.get! i, 0⟩⟩

end CommandLine
end CardAccess

open CardAccess.CommandLine in
def main (arguments : List String) : IO UInt32 := do
  let outcome ← (program (← Issuance.Environment.current) arguments).perform
  match outcome with
  | .success => pure ()
  | .help => IO.print synopsis
  | .usage => IO.eprint synopsis
  | .failure e => IO.eprintln ("Error: " ++ e.message)
  return UInt32.ofNat outcome.status

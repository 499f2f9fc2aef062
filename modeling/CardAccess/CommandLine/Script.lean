import CardAccess.CommandLine.Settings
import CardAccess.Error

/-!
# What commands do

A command reads and writes files and prints text.  It does so as a `Script`: an
action, and for each answer of the system how it goes on.  Who runs the script
decides what the files are.
-/

namespace CardAccess
namespace CommandLine

inductive DirectoryFault where
  | missing
  | present
  | notDirectory
  | nameTooLong
  | other (reason : String)
  deriving DecidableEq, Repr

def DirectoryFault.message : DirectoryFault → String
  | .missing => "No such file or directory (os error 2)"
  | .present => "File exists (os error 17)"
  | .notDirectory => "Not a directory (os error 20)"
  | .nameTooLong => "File name too long (os error 36)"
  | .other reason => reason

/-- What a command can ask of the system. -/
inductive Action where
  | readFile (path : String)
  | isPresent (path : String)
  | isDirectory (path : String)
  | makeDirectory (path : String)
  | writeFile (path : String) (content : Bytes)
  | print (text : String)
  deriving DecidableEq, Repr

/-- What the system answers: the bytes of a file that can be read, whether
something is there, why a directory cannot be made, and whether a file could be
written. -/
def Action.Answer : Action → Type
  | .readFile _ => Option Bytes
  | .isPresent _ => Bool
  | .isDirectory _ => Bool
  | .makeDirectory _ => Option DirectoryFault
  | .writeFile _ _ => Bool
  | .print _ => Unit

/-- A course of actions that ends with a value. -/
inductive Script (α : Type) where
  | done (value : α)
  | act (action : Action) (next : action.Answer → Script α)

namespace Script

variable {α β : Type}

def bind : Script α → (α → Script β) → Script β
  | .done value, next => next value
  | .act action rest, next => .act action fun answer => (rest answer).bind next

instance : Monad Script where
  pure := .done
  bind := bind

end Script

inductive CommandFailure where
  | reading (path : String)
  | decoding (path : String)
  | loadingKey (path : String)
  | writing (path : String)
  | directory (fault : DirectoryFault)
  | settingsFile (path : String) (failure : SettingsFile.Failure)
  | setting (fault : SettingFault)
  | hex (e : Hex.Error)
  | card (e : Error)
  deriving DecidableEq, Repr

def CommandFailure.message : CommandFailure → String
  | .reading path => "reading " ++ path
  | .decoding path => "decoding " ++ path
  | .loadingKey path => "loading key " ++ path
  | .writing path => "writing " ++ path
  | .directory fault => fault.message
  | .settingsFile path failure => failure.message ++ " in " ++ (SettingSource.file path).display
  | .setting fault => fault.message
  | .hex e => e.message
  | .card e => e.message

abbrev Command : Type → Type := ExceptT CommandFailure Script

namespace Command

def act (action : Action) : Command action.Answer := ExceptT.lift (.act action .done)

def ofExcept {ε α : Type} (wrap : ε → CommandFailure) (result : Except ε α) : Command α :=
  ExceptT.mk (.done (result.mapError wrap))

def ofCard {α : Type} (result : Except Error α) : Command α := ofExcept .card result

def printLine (line : String) : Command Unit := act (.print (line ++ "\n"))

end Command
end CommandLine
end CardAccess

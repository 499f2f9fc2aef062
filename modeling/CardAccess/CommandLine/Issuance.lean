import CardAccess.CommandLine.Inspection
import CardAccess.CommandLine.Invocation
import CardAccess.CommandLine.PathName
import CardAccess.Request.Generation

/-!
# Making requests

The certificates and keys come from files, the keys of the service and some
defaults from the settings.  The request and a new private key are written to
files named for the holder.
-/

namespace CardAccess
namespace CommandLine
namespace Issuance

open Command

/-- The world that a program runs in, apart from files: what is assigned to the
variables, the home of its user, and random bytes. -/
structure Environment where
  assignments : List (String × String)
  home : String
  random : RandomSource

/-! ## Directories -/

/-- Take a directory that is there for one that was made. -/
def acceptDirectory (path : String) : Option DirectoryFault → Command Unit
  | none => pure ()
  | some fault => do
    let there : Bool ← act (.isDirectory path)
    if fault = .present && there then pure () else throw (.directory fault)

/-- Make the first of some directories, each of which is in the next. -/
def makeAlong : List String → Command Unit
  | [] => pure ()
  | path :: above => do
    let fault : Option DirectoryFault ← act (.makeDirectory path)
    if fault = some .missing then
      makeAlong above
      acceptDirectory path (← act (.makeDirectory path))
    else acceptDirectory path fault

def makeDirectories (path : String) : Command Unit := makeAlong (PathName.ancestors path)

/-! ## Settings -/

/-- The directory of the settings file, which is made if it is missing. -/
def settingsDirectory (env : Environment) : Command String := do
  let directory := (env.assignments.lookup Variable.directoryName).getD
    (PathName.join env.home ".eac")
  let present : Bool ← act (.isPresent directory)
  if !present then makeDirectories directory
  return directory

/-- Read the settings.  A missing file says nothing. -/
def readSettings (env : Environment) : Command Settings := do
  let path := PathName.join (← settingsDirectory env) "eac.toml"
  let fromFile ← match ← act (.readFile path) with
    | none => pure []
    | some bytes =>
      let place := PathName.plain path
      let parts ← ofExcept (.settingsFile place) (SettingsFile.read (bytes : Bytes))
      pure (Settings.ofFile place parts)
  ofExcept .setting (Settings.ofSettings fromFile (Settings.ofVariables env.assignments))

/-! ## Requests -/

def readAdditional (order : RequestOrder) : Command (Option AdditionalInput) :=
  if order.holder.isNone && order.chat.isNone then pure none
  else do
    let chat ← order.chat.mapM fun text => do
      ofCard (Chat.ofBytes (← ofExcept .hex (Hex.decode (Text.toUtf8 text))))
    return some ⟨order.holder, chat⟩

def readKeys (files : List (String × String)) : Command KeyStore :=
  files.foldlM (fun store (keyAlias, path) => do
    let key ← readPrivateKey path
    ofExcept (fun e => .card (.keyService e)) (store.importKey keyAlias key true)) KeyStore.empty

def writeOutput (directory name : String) (content : Bytes) : Command String := do
  makeDirectories directory
  let path := PathName.join directory name
  let written : Bool ← act (.writeFile path content)
  if written then return path else throw (.writing path)

/-- Generate a request and write it, and a new private key, to files. -/
def request (env : Environment) (order : RequestOrder) : Command Unit := do
  let settings ← readSettings env
  let root ← readCertificate order.root
  let old ← order.old.mapM readCertificate
  let oldKey ← order.oldKey.mapM readPrivateKey
  let signerKey ← order.signerKey.mapM readPrivateKey
  let additional ← readAdditional order
  let signerAlias := order.signerAlias <|> settings.signerAlias
  let keys ← readKeys settings.keys
  let input : GenerationInput :=
    ⟨root, old, oldKey, none, additional, order.usePresentKey, signerAlias, signerKey,
      order.sequence⟩
  let (result, _) := (Generation.generate input).run.run SoftwareKeys.service ⟨keys, env.random⟩
  let generated ← ofCard result
  let reference ← ofCard generated.request.holderReference
  let directory := order.output.getD settings.outputDirectory
  let path ← writeOutput directory (reference ++ ".cvreq") generated.request.encode
  printLine ("Request for " ++ reference ++ " (" ++ Inspection.shapeText generated.request.shape
    ++ ") saved to " ++ Text.quoted path)
  match generated.privateKey with
  | none => pure ()
  | some key =>
    let path ← writeOutput directory (reference ++ ".pkcs8") key
    printLine ("Private key saved to " ++ Text.quoted path)
  Inspection.printOptional "  Outer CAR: " generated.request.outerAuthorityReference

end Issuance
end CommandLine
end CardAccess

import CardAccess.Certificate.Certificate
import CardAccess.KeyService.Store

/-!
# Provisioning keys

Before a request is signed there has to be a key under its holder reference: a
new one, or the one that the service has already.  The root certificate says
which algorithm the key is for and which curve a new one lies on.  A service that
cannot tell what it has is asked to generate a key.
-/

namespace CardAccess

/-- Which key to use for a holder reference. -/
inductive KeyDisposition where
  | replace
  | usePresent
  | generateIfNotPresent
  deriving DecidableEq, Repr

/-- A provisioned key.  The private key is there if the key is new and the
service gives it away. -/
structure ProvisionedKey where
  publicKey : VerificationKey
  privateKey : Option PrivateKey
  deriving DecidableEq, Repr

namespace KeyService

def lifespanMonths : Nat := 2

def presentKey (root : Certificate) (keyAlias : String) : Procedure ProvisionedKey := do
  let key : PublicKey ← Procedure.call (.publicKey keyAlias) .keyService
  let id ← Procedure.ofExcept root.publicKeyId
  return ⟨key.withId id, none⟩

def newKey (root : Certificate) (issuerAlias : Option String) (keyAlias : String)
    (overwrite : Bool) : Procedure ProvisionedKey := do
  let domain ← Procedure.ofExcept root.domain
  let pair : GeneratedKeyPair ← Procedure.call
    (.generateKeyPair ⟨domain, keyAlias, issuerAlias, overwrite, lifespanMonths⟩) .keyService
  let id ← Procedure.ofExcept root.publicKeyId
  return ⟨pair.publicKey.withId id, pair.privateKey⟩

/-- The key that the service has under an alias, or a new one if the service
cannot give the one it has. -/
def presentOrNewKey (root : Certificate) (issuerAlias : Option String) (keyAlias : String) :
    Procedure ProvisionedKey :=
  ExceptT.mk ((presentKey root keyAlias).run.bind fun
    | .error (.keyService (.unsupported _)) => (newKey root issuerAlias keyAlias true).run
    | result => .done result)

def provide (root : Certificate) (issuerAlias : Option String) (keyAlias : String)
    (disposition : KeyDisposition) : Procedure ProvisionedKey := do
  let _ ← Procedure.ofExcept root.signatureAlgorithm
  match disposition with
  | .usePresent => presentKey root keyAlias
  | .replace => newKey root issuerAlias keyAlias true
  | .generateIfNotPresent =>
    ExceptT.mk (.ask (.containsKey keyAlias) fun
      | .ok true => (presentOrNewKey root issuerAlias keyAlias).run
      | .ok false => (newKey root issuerAlias keyAlias false).run
      | .error (.unsupported _) => (newKey root issuerAlias keyAlias true).run
      | .error e => .done (.error (.keyService e)))

end KeyService
end CardAccess

import CardAccess.Key.Private

/-!
# Talking to a key service

Private keys live in a key service, often a hardware module, and are named by an
alias.  What a procedure does with such a service is a `Dialogue`: a call, and
for each reply how the dialogue goes on.  A `KeyService` answers calls and may
change its own state with each; nothing is assumed about how.  Running a
dialogue on a service gives its result and the service's last state, and since
calls are data, several dialogues can also be run call by call in any order.
-/

namespace CardAccess

/-- What a key pair is generated from. -/
structure KeyGeneration where
  domain : Domain
  keyAlias : String
  issuerAlias : Option String
  overwrite : Bool
  lifespanMonths : Nat
  deriving DecidableEq, Repr

/-- A generated key pair.  A service that keeps its private keys returns none. -/
structure GeneratedKeyPair where
  publicKey : PublicKey
  privateKey : Option PrivateKey
  deriving DecidableEq, Repr

namespace KeyService

/-- What a key service can be asked for. -/
inductive Call where
  | sign (keyAlias : String) (id : ObjectId) (data : Bytes)
  | generateKeyPair (request : KeyGeneration)
  | containsKey (keyAlias : String)
  | publicKey (keyAlias : String)
  | importPrivateKey (keyAlias : String) (key : PrivateKey) (overwrite : Bool)
  | deleteKey (keyAlias : String)
  deriving DecidableEq, Repr

/-- What a successful call returns. -/
def Call.Answer : Call → Type
  | .sign _ _ _ => Bytes
  | .generateKeyPair _ => GeneratedKeyPair
  | .containsKey _ => Bool
  | .publicKey _ => PublicKey
  | .importPrivateKey _ _ _ => Unit
  | .deleteKey _ => Bool

abbrev Reply (call : Call) : Type := Except KeyServiceError call.Answer

/-- A course of calls that ends with a value. -/
inductive Dialogue (α : Type) where
  | done (value : α)
  | ask (call : Call) (next : Reply call → Dialogue α)

namespace Dialogue

variable {α β : Type}

def bind : Dialogue α → (α → Dialogue β) → Dialogue β
  | .done value, next => next value
  | .ask call rest, next => .ask call fun reply => (rest reply).bind next

instance : Monad Dialogue where
  pure := .done
  bind := bind

def call (c : Call) : Dialogue (Reply c) := .ask c .done

end Dialogue

abbrev Procedure : Type → Type := ExceptT Error Dialogue

/-- A call whose failure ends the procedure, reported through `wrap`. -/
def Procedure.call (c : Call) (wrap : KeyServiceError → Error) : Procedure c.Answer := do
  match ← (ExceptT.lift (Dialogue.call c) : Procedure (Reply c)) with
  | .ok answer => pure answer
  | .error e => throw (wrap e)

def Procedure.ofExcept {α : Type} (result : Except Error α) : Procedure α :=
  ExceptT.mk (.done result)

/-- Report a failure of a procedure as one at a stage. -/
def Procedure.at {α : Type} (stage : Stage) (procedure : Procedure α) : Procedure α :=
  ExceptT.mk (procedure.run.bind fun result => .done (atStage stage result))

end KeyService

/-- A key service with the state `σ`: every call gets a reply and leaves a
state. -/
structure KeyService (σ : Type) where
  answer : (call : KeyService.Call) → σ → KeyService.Reply call × σ

namespace KeyService

def Dialogue.run {σ α : Type} (service : KeyService σ) : Dialogue α → σ → α × σ
  | .done value, state => (value, state)
  | .ask call next, state =>
    let (reply, state) := service.answer call state
    (next reply).run service state

end KeyService
end CardAccess

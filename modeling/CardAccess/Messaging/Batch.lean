import CardAccess.Messaging.Session

/-!
# Batches

A batch is several commands that go to the card in one round trip.  The host
protects all of them before the card sees the first, and skips the values of the
counter under which the card will answer.  Once all are protected it returns to
the value of the first command, so that opening the responses follows the card.
Failures on the way are recorded in the batch.
-/

namespace CardAccess
namespace Messaging

/-- How far a batch has come: its commands are being put together, or secure
messaging has gone over it. -/
inductive Phase where
  | prepare
  | post
  deriving DecidableEq, Repr

def Phase.display : Phase → String
  | .prepare => "PREPARE"
  | .post => "POST"

/-- Commands and responses of one round trip. -/
structure Batch where
  commands : List Bytes
  protectedCommands : Option (List Command)
  responses : Option (List Bytes)
  plainResponses : Option (List Response)
  failure : Option Error
  phase : Phase
  finished : Bool
  deriving DecidableEq, Repr

namespace Batch

def empty : Batch := ⟨[], none, none, none, none, .prepare, false⟩

def headerLength : Nat := 4

/-- Replace the commands, given as bytes.  There must be one, and each must have
a header. -/
def setRawCommands (b : Batch) (commands : List Bytes) : Except Error Batch :=
  if commands.isEmpty then .error .emptyBatch
  else
    match commands.find? fun c => c.length < headerLength with
    | some short => .error (.invalidCommandLength short.length)
    | none => .ok { b with commands := commands }

def setCommands (b : Batch) (commands : List Command) : Except Error Batch := do
  b.setRawCommands (← commands.mapM Command.toBytes)

def ofCommands (commands : List Command) : Except Error Batch := empty.setCommands commands

def ofRawCommands (commands : List Bytes) : Except Error Batch := empty.setRawCommands commands

def readCommands (b : Batch) : Except Error (List Command) := b.commands.mapM Command.ofBytes

/-- Store the responses of the card, each of which must have a status. -/
def setResponses (b : Batch) (responses : List Bytes) : Except Error Batch :=
  match responses.find? fun r => r.length < Response.statusLength with
  | some short => .error (.invalidResponseLength short.length)
  | none => .ok { b with responses := some responses }

/-- The first response that was opened. -/
def firstResponse? (b : Batch) : Option Response := b.plainResponses.bind List.head?

/-- Move to a phase.  There is no way back. -/
def setPhase (b : Batch) (phase : Phase) : Except Error Batch :=
  if b.phase = .post ∧ phase = .prepare then .error .illegalPhaseTransition
  else .ok { b with phase := phase }

def setFinished (b : Batch) (finished : Bool) : Batch := { b with finished := finished }

/-- Take the recorded failure out. -/
def takeFailure (b : Batch) : Option Error × Batch := (b.failure, { b with failure := none })

/-- The batch after secure messaging has gone over it. -/
def finish (b : Batch) : Batch := { b with phase := .post, finished := true }

def display (b : Batch) : String :=
  let responses := match b.responses with
    | none => ""
    | some responses => ", " ++ toString responses.length ++ " response(s)"
  let failure := match b.failure with
    | none => ""
    | some e => ", failed: " ++ e.message
  b.phase.display ++ " batch of " ++ toString b.commands.length ++ " command(s), finished: "
    ++ toString b.finished ++ responses ++ failure

end Batch

namespace Session

/-- Protect commands one after the other, skipping the card's value of the
counter in between.  If `first` is set, the position of the first of them is
marked.  After the last one the counter returns to the mark. -/
def encipherFrom (s : Session) (first : Bool) :
    List Command → Except Error (List Command) × Session
  | [] => (.ok [], s)
  | command :: commands =>
    match s.encipher command with
    | (.error e, s) => (.error e, s)
    | (.ok enciphered, s) =>
      let s := if first then s.setMark else s
      match commands with
      | [] => (.ok [enciphered], s.rewind)
      | _ :: _ =>
        match encipherFrom s.advance false commands with
        | (.error e, s) => (.error e, s)
        | (.ok others, s) => (.ok (enciphered :: others), s)

def encipherAll (s : Session) (commands : List Command) : Except Error (List Command) × Session :=
  s.encipherFrom true commands

/-- Open responses one after the other, skipping the host's value of the counter
in between. -/
def decipherAll (s : Session) : List Bytes → Except Error (List Response) × Session
  | [] => (.ok [], s)
  | raw :: raws =>
    match Response.ofBytes raw with
    | .error e => (.error e, s)
    | .ok response =>
      match s.decipher response with
      | (.error e, s) => (.error e, s)
      | (.ok plain, s) =>
        match raws with
        | [] => (.ok [plain], s)
        | _ :: _ =>
          match decipherAll s.advance raws with
          | (.error e, s) => (.error e, s)
          | (.ok others, s) => (.ok (plain :: others), s)

/-- Protect the commands of a batch. -/
def toCard (s : Session) (b : Batch) : Session × Batch :=
  let fail (e : Error) : Batch := { b with failure := some e }
  match b.readCommands with
  | .error e => (s, (fail e).finish)
  | .ok commands =>
    match s.encipherAll commands with
    | (.error e, s) => (s, (fail e).finish)
    | (.ok enciphered, s) => (s, { b with protectedCommands := some enciphered }.finish)

/-- Open the responses of a batch. -/
def fromCard (s : Session) (b : Batch) : Session × Batch :=
  let fail (e : Error) : Batch := { b with failure := some e }
  match b.responses with
  | none => (s, (fail .missingResponses).finish)
  | some responses =>
    match s.decipherAll responses with
    | (.error e, s) => (s, (fail e).finish)
    | (.ok plain, s) => (s, { b with plainResponses := some plain }.finish)

end Session
end Messaging
end CardAccess

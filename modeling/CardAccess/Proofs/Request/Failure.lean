import CardAccess.Proofs.Request.Mutations
import CardAccess.Proofs.Tlv.InPlace

/-!
# Calls that fail

A call on a request may fail in the middle: on the way down the tree, or when a signature has been
taken out and the signer refuses to make another.  A single part is edited in the tree itself, and
so are the two that naming the signer changes one after the other.  Signing works on a copy, which
takes the place of the request at the end.  `unchanged_of_error` says that a call that fails, at
whichever point, leaves the request as it was.

The edits of the tree are those in place, for which a failure leaves nothing behind only because no
element is written before all has been found, and naming the signer is safe because the second of
its edits cannot fail once the first one has not.
-/

namespace CardAccess
namespace Request

variable {σ : Type}

/-! ## A request that is held once -/

/-- The outcome of an edit in place of the tree of a request. -/
def held {α ε : Type} (r : Request) (wrap : ε → Error) :
    Except ε α × Tlv → Except Error α × Request
  | (result, node) => (result.mapError wrap, { r with node := node })

def setValueInPlace (r : Request) (part : RequestPart) (value : Bytes) :
    Except Error Unit × Request :=
  r.held .tlv (r.node.setValueAtInPlace part.path value)

def replaceInPlace (r : Request) (part : RequestPart) (new : Tlv) : Except Error Tlv × Request :=
  r.held .ofEdit (r.node.replaceChildInPlace part.path new)

def removeInPlace (r : Request) (part : RequestPart) : Except Error (Option Tlv) × Request :=
  r.held .ofEdit (r.node.removeChildInPlace part.path)

def addInPlace (r : Request) (parent : RequestPart) (child : Tlv) : Except Error Unit × Request :=
  r.held .ofEdit (r.node.addChildInPlace parent.path child)

/-- Name the signer by two edits, one after the other. -/
def nameSignerInPlace (r : Request) (reference : String) : Except Error Unit × Request :=
  match r.shape with
  | .bare => (.error .notAuthentication, r)
  | .authentication =>
    let node := Tlv.primitive Layout.caReference (Text.toUtf8 reference)
    match r.removeInPlace .outerSignature with
    | (.error e, r) => (.error e, r)
    | (.ok _, r) =>
      if (r.part? .outerCaReference).isSome then
        let (result, r) := r.replaceInPlace .outerCaReference node
        (result.map fun _ => (), r)
      else r.addInPlace .authentication node

/-- Put a signed copy in the place of the request, unless the signing has failed. -/
def signInPlace (r : Request) (dialogue : KeyService.Dialogue (Except Error Unit × Request))
    (service : KeyService σ) (s : σ) : Except Error Unit × Request × σ :=
  match dialogue.run service s with
  | ((.ok (), signed), s) => (.ok (), signed, s)
  | ((.error e, _), s) => (.error e, r, s)

/-! ## What a call answers -/

/-- What a call answers, without the elements that it hands out. -/
def Mutation.result : Mutation σ → Request × σ → Except Error Unit
  | .setValue part value, (r, _) => (r.setValue part value).1
  | .replace part new, (r, _) => (r.replacePart part new).1.map fun _ => ()
  | .remove part, (r, _) => (r.removePart part).1.map fun _ => ()
  | .add parent child, (r, _) => (r.addPart parent child).1
  | .operate (.sign service call), (r, s) => ((call.dialogue r).run service s).1.1
  | .operate .unwrap, _ => .ok ()

/-- A call on a request that is held once: the answer, next to the request and the state of the
key services as the call leaves them. -/
def Mutation.inPlace : Mutation σ → Request × σ → Except Error Unit × Request × σ
  | .setValue part value, (r, s) =>
    let (result, r) := r.setValueInPlace part value
    (result, r, s)
  | .replace part new, (r, s) =>
    let (result, r) := r.replaceInPlace part new
    (result.map fun _ => (), r, s)
  | .remove part, (r, s) =>
    let (result, r) := r.removeInPlace part
    (result.map fun _ => (), r, s)
  | .add parent child, (r, s) =>
    let (result, r) := r.addInPlace parent child
    (result, r, s)
  | .operate (.sign _ (.nameSigner reference)), (r, s) =>
    let (result, r) := r.nameSignerInPlace reference
    (result, r, s)
  | .operate (.sign service (.signBody key keyAlias)), (r, s) =>
    r.signInPlace (r.signInner key keyAlias) service s
  | .operate (.sign service (.signWrapper keyAlias key)), (r, s) =>
    r.signInPlace (r.signOuter keyAlias key.id) service s
  | .operate .unwrap, (r, s) => (.ok (), r.intoBare, s)

/-! ## The edits in place are the edits -/

section edits

variable (r : Request) (part : RequestPart)

theorem held_leaving {α ε : Type} (wrap : ε → Error) (x : Except ε (Tlv × α)) :
    r.held wrap (r.node.leaving x) = r.edited wrap x := by
  cases x <;> rfl

theorem setValueInPlace_eq (value : Bytes) :
    r.setValueInPlace part value = r.setValue part value := by
  rw [setValueInPlace, Tlv.setValueAtInPlace_eq, held_leaving, setValue]

theorem replaceInPlace_eq (new : Tlv) : r.replaceInPlace part new = r.replacePart part new := by
  rw [replaceInPlace, Tlv.replaceChildInPlace_eq, held_leaving, replacePart]

theorem removeInPlace_eq : r.removeInPlace part = r.removePart part := by
  rw [removeInPlace, Tlv.removeChildInPlace_eq, held_leaving, removePart]

theorem addInPlace_eq (child : Tlv) : r.addInPlace part child = r.addPart part child := by
  rw [addInPlace, Tlv.addChildInPlace_eq, held_leaving, addPart]

theorem nameSignerInPlace_eq (reference : String) :
    r.nameSignerInPlace reference = r.setOuterAuthorityReference reference := by
  rw [nameSignerInPlace, setOuterAuthorityReference, removeInPlace_eq]
  cases r.shape with
  | bare => rfl
  | authentication =>
    obtain ⟨result, staged⟩ := r.removePart .outerSignature
    cases result with
    | error e => rfl
    | ok found =>
      simp only [putPart, replaceInPlace_eq, addInPlace_eq]
      obtain ⟨result, replaced⟩ := staged.replacePart .outerCaReference
        (.primitive Layout.caReference (Text.toUtf8 reference))
      cases result <;> rfl

end edits

/-- A copy that is signed is the request itself where the signing fails. -/
theorem signInPlace_eq (service : KeyService σ) (call : SigningCall) (r : Request) (s : σ) :
    r.signInPlace (call.dialogue r) service s
      = let ((result, r'), s') := (call.dialogue r).run service s
        (result, r', s') := by
  rw [signInPlace]
  rcases hrun : (call.dialogue r).run service s with ⟨⟨result, r'⟩, s'⟩
  cases result with
  | ok => rfl
  | error e => rw [SigningCall.request_of_error hrun]

/-- A call in place is the call. -/
theorem Mutation.inPlace_eq (call : Mutation σ) (start : Request × σ) :
    call.inPlace start = (call.result start, call.apply start) := by
  obtain ⟨r, s⟩ := start
  cases call with
  | setValue part value => rw [inPlace, setValueInPlace_eq]; rfl
  | replace part new => rw [inPlace, replaceInPlace_eq]; rfl
  | remove part => rw [inPlace, removeInPlace_eq]; rfl
  | add parent child => rw [inPlace, addInPlace_eq]; rfl
  | operate operation =>
    cases operation with
    | unwrap => rfl
    | sign service call =>
      cases call with
      | nameSigner reference => rw [inPlace, nameSignerInPlace_eq]; rfl
      | signBody key keyAlias => exact signInPlace_eq service (.signBody key keyAlias) r s
      | signWrapper keyAlias key => exact signInPlace_eq service (.signWrapper keyAlias key) r s

/-! ## What a failure leaves behind -/

/-- The answer of an edit fails only with the edit. -/
theorem edited_of_map_error {α ε : Type} {r : Request} {wrap : ε → Error}
    {x : Except ε (Tlv × α)} {e : Error}
    (h : ((r.edited wrap x).1.map fun _ => ()) = .error e) : (r.edited wrap x).2 = r := by
  rcases edited_cases r wrap x with ⟨e', he⟩ | ⟨node, result, -, hok⟩
  · rw [he]
  · rw [hok] at h
    cases h

theorem Mutation.request_of_error {call : Mutation σ} {start : Request × σ} {e : Error}
    (h : call.result start = .error e) : (call.apply start).1 = start.1 := by
  obtain ⟨r, s⟩ := start
  cases call with
  | setValue part value => exact edited_error (Prod.ext h rfl)
  | replace part new => exact edited_of_map_error h
  | remove part => exact edited_of_map_error h
  | add parent child => exact edited_error (Prod.ext h rfl)
  | operate operation =>
    cases operation with
    | unwrap => cases h
    | sign service call =>
      rcases hrun : (call.dialogue r).run service s with ⟨⟨result, r'⟩, s'⟩
      have herror : result = .error e :=
        (congrArg (fun run => run.1.1) hrun).symm.trans h
      rw [herror] at hrun
      rw [apply, Operation.apply, hrun]
      exact SigningCall.request_of_error hrun

/-- Whatever calls a request has been through, and however the key services behave, the next call
on it, made in the request itself, either succeeds or leaves it as it was. -/
theorem unchanged_of_error (calls : List (Mutation σ)) (start : Request × σ) (call : Mutation σ) :
    let reached := mutateAll calls start
    call.inPlace reached = (call.result reached, call.apply reached) ∧
      ∀ e, call.result reached = .error e → (call.apply reached).1 = reached.1 :=
  ⟨call.inPlace_eq _, fun _ => call.request_of_error⟩

/-- A signer that has no nonce left fails when the signature of the wrapper has been taken out of
the copy already. -/
theorem keeps_outer_signature :
    let calls := bodyThenWrapper.map fun call => Mutation.operate (.sign smallSigner call)
    let call : Mutation (List Bytes) := .operate (.sign smallSigner (.signWrapper (some "A") .small))
    let reached := mutateAll calls (emptyRequest, [[8], [8]])
    reached.1.state = .outerSigned ∧
      call.result reached = .error (.signingFailed (.crypto .noUsableNonce)) ∧
      (call.inPlace reached).2.1 = reached.1 := by
  intro calls call reached
  have herror : call.result reached = .error (.signingFailed (.crypto .noUsableNonce)) := by
    decide +kernel
  have hunchanged := unchanged_of_error calls (emptyRequest, [[8], [8]]) call
  refine ⟨by decide +kernel, herror, ?_⟩
  rw [hunchanged.1]
  exact hunchanged.2 _ herror

end Request
end CardAccess

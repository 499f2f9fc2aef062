import CardAccess.KeyService.Provision
import CardAccess.Proofs.KeyService.Dialogue

/-!
# The calls of a dialogue

`calls` lists what a dialogue asks of a service, in order.  A service can keep a record of its
calls and answer as before (`recorded`), and the record grows by exactly `calls`.  So what is
known of a procedure held with any service also tells its calls: they are read off the record
that its last state holds.  Where no state matters, `Asks` says that a dialogue asks for nothing
but certain things, whatever it is told in reply.
-/

namespace CardAccess
namespace KeyService

variable {σ α β : Type} {service : KeyService σ}

namespace Dialogue

/-- The calls of a dialogue with a service that is in the state `s` at the start. -/
def calls (service : KeyService σ) : Dialogue α → σ → List Call
  | .done _, _ => []
  | .ask call next, s =>
    call :: (next (service.answer call s).1).calls service (service.answer call s).2

/-- Whatever the replies are, every call has the property. -/
def Asks (p : Call → Prop) : Dialogue α → Prop
  | .done _ => True
  | .ask call next => p call ∧ ∀ reply, (next reply).Asks p

variable {p : Call → Prop}

theorem Asks.of_mem_calls {x : Dialogue α} {s : σ} (h : x.Asks p) :
    ∀ call ∈ x.calls service s, p call := by
  induction x generalizing s with
  | done value =>
    intro call hmem
    cases hmem
  | ask call next ih =>
    obtain ⟨hcall, hnext⟩ := h
    rw [calls, List.forall_mem_cons]
    exact ⟨hcall, ih _ (hnext _)⟩

theorem Asks.bind {x : Dialogue α} {f : α → Dialogue β} (h : x.Asks p)
    (hf : ∀ a, (f a).Asks p) : (x.bind f).Asks p := by
  induction x with
  | done value => exact hf value
  | ask call next ih => exact ⟨h.1, fun reply => ih reply (h.2 reply)⟩

end Dialogue

/-- The service with a record of its calls, the last of which is at the end. -/
def recorded (service : KeyService σ) : KeyService (σ × List Call) where
  answer call state :=
    ((service.answer call state.1).1, (service.answer call state.1).2, state.2 ++ [call])

theorem Dialogue.run_recorded (x : Dialogue α) (s : σ) (record : List Call) :
    x.run (recorded service) (s, record)
      = ((x.run service s).1, (x.run service s).2, record ++ x.calls service s) := by
  induction x generalizing s record with
  | done value =>
    rw [calls, List.append_nil]
    rfl
  | ask call next ih =>
    have hstep := ih (service.answer call s).1 (service.answer call s).2 (record ++ [call])
    rw [List.append_assoc, List.singleton_append] at hstep
    exact hstep

/-- A procedure gives the same when its calls are recorded. -/
theorem Procedure.yields_recorded {x : Procedure α} {a : α} {s s' : σ}
    (h : Procedure.Yields service s x a s') :
    Procedure.Yields (recorded service) (s, []) x a (s', x.run.calls service s) := by
  rw [Procedure.Yields] at h ⊢
  rw [Dialogue.run_recorded, h]
  rfl

/-! ## What procedures ask for -/

variable {p : Call → Prop}

theorem asks_bind {x : Procedure α} {f : α → Procedure β} (h : x.run.Asks p)
    (hf : ∀ a, (f a).run.Asks p) : (x >>= f).run.Asks p := by
  refine Dialogue.Asks.bind h fun result => ?_
  cases result with
  | error e => trivial
  | ok a => exact hf a

theorem asks_ofExcept (result : Except Error α) : (Procedure.ofExcept result).run.Asks p := trivial

theorem asks_call {call : Call} {wrap : KeyServiceError → Error} (h : p call) :
    (Procedure.call call wrap).run.Asks p := by
  refine ⟨h, fun reply => ?_⟩
  cases reply <;> trivial

/-- To provide a key, a service is asked which keys it has and to generate one, under the one
alias that the key is for. -/
inductive Provides (keyAlias : String) : Call → Prop where
  | containsKey : Provides keyAlias (.containsKey keyAlias)
  | publicKey : Provides keyAlias (.publicKey keyAlias)
  | generateKeyPair (domain : Domain) (issuerAlias : Option String) (overwrite : Bool)
      (lifespanMonths : Nat) :
      Provides keyAlias (.generateKeyPair ⟨domain, keyAlias, issuerAlias, overwrite, lifespanMonths⟩)

variable {root : Certificate} {issuerAlias : Option String} {keyAlias : String}

theorem asks_presentKey (h : p (.publicKey keyAlias)) : (presentKey root keyAlias).run.Asks p :=
  asks_bind (asks_call h) fun _ => asks_bind (asks_ofExcept _) fun _ => trivial

theorem asks_newKey {overwrite : Bool} :
    (newKey root issuerAlias keyAlias overwrite).run.Asks (Provides keyAlias) :=
  asks_bind (asks_ofExcept _) fun _ => asks_bind (asks_call (.generateKeyPair ..)) fun _ =>
    asks_bind (asks_ofExcept _) fun _ => trivial

theorem asks_presentOrNewKey :
    (presentOrNewKey root issuerAlias keyAlias).run.Asks (Provides keyAlias) := by
  refine Dialogue.Asks.bind (asks_presentKey .publicKey) fun result => ?_
  split
  · exact asks_newKey
  · trivial

theorem asks_provide {disposition : KeyDisposition} :
    (provide root issuerAlias keyAlias disposition).run.Asks (Provides keyAlias) := by
  refine asks_bind (asks_ofExcept _) fun _ => ?_
  cases disposition with
  | usePresent => exact asks_presentKey .publicKey
  | replace => exact asks_newKey
  | generateIfNotPresent =>
    refine ⟨.containsKey, fun reply => ?_⟩
    dsimp only
    split
    · exact asks_presentOrNewKey
    · exact asks_newKey
    · exact asks_newKey
    · trivial

end KeyService
end CardAccess

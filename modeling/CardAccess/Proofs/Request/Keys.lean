import CardAccess.Proofs.KeyService.Provision
import CardAccess.Proofs.Request.Generation

/-!
# What a generation does to the keys

All signatures of a request are made with keys that are there, so the keys in memory are touched
in one place, where the key of the new certificate is provided.  That place comes before the
stages that can fail for other reasons, and nothing is taken back: a key that was made stays, and
one that it replaced is gone, however the generation ends.
-/

namespace CardAccess

open KeyService (Dialogue Procedure Reads Wanted)

/-! ## Signing only looks at the keys -/

namespace Request

variable {α : Type} {r : Request}

theorem asks_askSignature {keyAlias : String} {id : ObjectId} {data : Bytes}
    {next : Except Error Bytes → Dialogue α} (h : ∀ reply, (next reply).Asks Reads) :
    ((askSignature keyAlias id data).bind next).Asks Reads :=
  ⟨.sign keyAlias id data, fun reply => h (reply.mapError .signingFailed)⟩

theorem asks_signInner (key : VerificationKey) (keyAlias : String) :
    (r.signInner key keyAlias).Asks Reads := by
  rw [signInner]
  split
  · trivial
  split
  · trivial
  split
  · trivial
  refine asks_askSignature fun reply => ?_
  split
  · trivial
  · split <;> trivial

theorem asks_signOuter (keyAlias : Option String) (id : ObjectId) :
    (r.signOuter keyAlias id).Asks Reads := by
  rw [signOuter.eq_def]
  split
  · trivial
  · trivial
  split
  · trivial
  split
  · trivial
  refine asks_askSignature fun reply => ?_
  split
  · trivial
  · split <;> trivial

end Request

namespace Generation

variable {input : GenerationInput}

theorem asks_signBody (r : Request) (key : VerificationKey) (keyAlias : String) :
    (signBody r key keyAlias).run.Asks Reads :=
  Dialogue.Asks.bind (Request.asks_signInner key keyAlias) fun _ => trivial

theorem asks_signWrapper (r : Request) (signer : String) (key : Option PrivateKey)
    (id : ObjectId) : (signWrapper r signer key id).run.Asks Reads := by
  rw [signWrapper.eq_def]
  split
  · trivial
  split
  · exact Dialogue.Asks.bind (Request.asks_signOuter _ _) fun _ => trivial
  · split <;> trivial

theorem asks_at {α : Type} {stage : Stage} {x : Procedure α} (h : x.run.Asks Reads) :
    (Procedure.at stage x).run.Asks Reads :=
  Dialogue.Asks.bind h fun _ => trivial

theorem keys_at {α : Type} {stage : Stage} (x : Procedure α) (keys : SoftwareKeys) :
    ((Procedure.at stage x).run.run SoftwareKeys.service keys).2
      = (x.run.run SoftwareKeys.service keys).2 := by
  show ((x.run.bind _).run SoftwareKeys.service keys).2 = _
  rw [Dialogue.run_bind]
  rfl

theorem asks_finish (old : Option String) (r : Request) :
    (finish input old r).run.Asks Reads := by
  rw [finish.eq_def]
  split
  · exact asks_at (asks_signWrapper _ _ _ _)
  · exact asks_at (KeyService.asks_bind (KeyService.asks_ofExcept _) fun _ =>
      asks_signWrapper _ _ _ _)
  · trivial

/-! ## The keys afterwards -/

/-- How far a generation has to come before it asks for a key: the input suffices, and the request
can be prepared, for one reference under another. -/
structure Prepares (input : GenerationInput) (reference rootReference : String) : Prop where
  sufficient : isSufficient input = true
  prepared : ∃ old prepared, input.old.mapM Certificate.holderReference = .ok old ∧
    prepare input old = .ok (prepared, reference, rootReference)

theorem Prepares.unique {reference reference' rootReference rootReference' : String}
    (h : Prepares input reference rootReference) (h' : Prepares input reference' rootReference') :
    reference' = reference ∧ rootReference' = rootReference := by
  obtain ⟨old, prepared, hread, hprepare⟩ := h.prepared
  obtain ⟨old', prepared', hread', hprepare'⟩ := h'.prepared
  cases hread.symm.trans hread'
  cases hprepare.symm.trans hprepare'
  exact ⟨rfl, rfl⟩

/-- Before a key is asked for, no service is used. -/
theorem keys_of_unprepared (keys : SoftwareKeys)
    (h : ∀ reference rootReference, ¬ Prepares input reference rootReference) :
    ((generate input).run.run SoftwareKeys.service keys).2 = keys := by
  cases hsufficient : isSufficient input with
  | false =>
    rw [generate, hsufficient]
    rfl
  | true =>
  rw [generate, hsufficient, if_neg (by decide), Procedure.run_bind]
  cases hread : input.old.mapM Certificate.holderReference with
  | error e => rfl
  | ok old =>
  show ((Procedure.ofExcept (prepare input old) >>= _ : Procedure _).run.run
    SoftwareKeys.service keys).2 = _
  rw [Procedure.run_bind]
  cases hprepare : prepare input old with
  | error e => rfl
  | ok result => exact absurd ⟨hsufficient, old, result.1, hread, hprepare⟩ (h result.2.1 result.2.2)

/-- Behind the key, the stages only look at the keys. -/
theorem keys_of_prepared (keys : SoftwareKeys) {reference rootReference : String}
    (h : Prepares input reference rootReference) :
    ((generate input).run.run SoftwareKeys.service keys).2
      = ((KeyService.provide input.root (some rootReference) reference
        (disposition input)).run.run SoftwareKeys.service keys).2 := by
  obtain ⟨old, prepared, hread, hprepare⟩ := h.prepared
  rw [generate, h.sufficient, if_neg (by decide), Procedure.run_bind, hread]
  show ((Procedure.ofExcept (prepare input old) >>= _ : Procedure _).run.run
    SoftwareKeys.service keys).2 = _
  rw [Procedure.run_bind, hprepare]
  -- the first of the remaining stages provides the key; the others are shown only to look
  refine (KeyService.keys_bind (fun key => ?_) keys).trans (keys_at _ keys)
  refine KeyService.asks_bind (asks_at (asks_signBody _ _ _)) fun signed => ?_
  refine KeyService.asks_bind (KeyService.asks_ofExcept _) fun authorization => ?_
  refine KeyService.asks_bind (asks_finish _ _) fun finished => ?_
  exact KeyService.asks_bind (KeyService.asks_ofExcept _) fun privateKey => trivial

/-- The key that a generation makes, and the reference that it is for.  Nothing that comes after
the key matters. -/
def Makes (input : GenerationInput) (keys : SoftwareKeys) (reference : String)
    (made : StoredKey) : Prop :=
  ∃ rootReference, Prepares input reference rootReference ∧
    KeyService.MadeFor input.root (some rootReference) reference (disposition input) keys made

/-- However a generation ends, with whatever keys it starts, it makes one key at most.  If it makes
one, that is what is found under the reference of the new certificate, in the place of any other
key, and under every other alias there is what was there before; and if it makes none, every key is
the same. -/
theorem keys_after_generate (input : GenerationInput) (keys : SoftwareKeys) :
    let after := ((generate input).run.run SoftwareKeys.service keys).2.store
    (∃ reference made, Makes input keys reference made ∧ ∀ keyAlias, after.find? keyAlias
        = if keyAlias = reference then some made else keys.store.find? keyAlias) ∨
      (∀ reference made, ¬ Makes input keys reference made) ∧
        ∀ keyAlias, after.find? keyAlias = keys.store.find? keyAlias := by
  intro after
  by_cases h : ∃ reference rootReference, Prepares input reference rootReference
  · obtain ⟨reference, rootReference, hprepares⟩ := h
    have htakes := KeyService.keys_provide input.root (some rootReference) reference
      (disposition input) keys
    rw [← keys_of_prepared keys hprepares] at htakes
    cases htakes with
    | made made hmade hstore =>
      refine .inl ⟨reference, made, ⟨rootReference, hprepares, hmade⟩, fun keyAlias => ?_⟩
      rw [← KeyStore.find?_insert, ← hstore]
    | kept hnone hstore =>
      refine .inr ⟨fun reference' made hmakes => ?_, fun keyAlias => ?_⟩
      · obtain ⟨rootReference', hprepares', hmade⟩ := hmakes
        obtain ⟨rfl, rfl⟩ := hprepares.unique hprepares'
        exact hnone made hmade
      · rw [← hstore]
  · have hnone : ∀ reference rootReference, ¬ Prepares input reference rootReference :=
      fun reference rootReference hprepares => h ⟨reference, rootReference, hprepares⟩
    refine .inr ⟨fun reference made hmakes => ?_, fun keyAlias => ?_⟩
    · obtain ⟨rootReference, hprepares, -⟩ := hmakes
      exact hnone reference rootReference hprepares
    · rw [← congrArg SoftwareKeys.store (keys_of_unprepared keys hnone)]

/-- A first request under the reference `A00001` with nobody to sign the wrapper: the request
signer has no key. -/
def unsignable : GenerationInput :=
  ⟨smallCertificate, none, none, none, some ⟨some "A00001", some ⟨Chat.inspectionSystems, [0x03]⟩⟩,
    false, some "B", none, none⟩

/-- Another key in memory under the reference of that request. -/
def replaceable : SoftwareKeys :=
  .ofStore ⟨[("A00001", ⟨⟨Domain.small, [5]⟩, ⟨Domain.small, ⟨9, 16⟩⟩, none, none⟩)]⟩

/-- The generation fails, and the key that was there has been replaced by a new one. -/
theorem failed_generation_replaces_key :
    let outcome := (generate unsignable).run.run SoftwareKeys.service replaceable
    Certificate.ofBytes unsignable.root.encode = .ok unsignable.root ∧
      outcome.1 = .error (.stage .setOuterSignature (.signingFailed (.keyNotFound "B"))) ∧
      (replaceable.store.find? "A00001").map StoredKey.privateKey
        = some ⟨Domain.small, [5]⟩ ∧
      (outcome.2.store.find? "A00001").map StoredKey.privateKey = some ⟨Domain.small, [1]⟩ := by
  decide +kernel

end Generation
end CardAccess

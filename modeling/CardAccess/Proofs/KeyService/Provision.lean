import CardAccess.Proofs.KeyService.Calls
import CardAccess.Proofs.KeyService.Store

/-!
# What becomes of the keys in memory

The service in memory changes its keys only when it is asked to generate, import or delete one.
To provide a key it is asked to generate one at most, and it is not asked again afterwards.  So
there are two outcomes: the keys are the same, or a key has been made and has taken its place in
the store, whether the procedure then succeeds or not.
-/

namespace CardAccess

/-- The key that is made for an issuer when the random bytes that come next are drawn for the
curve that the root states. -/
structure Made (root : Certificate) (issuerAlias : Option String) (keys : SoftwareKeys)
    (made : StoredKey) : Prop where
  privateKey : ∃ domain, root.domain = .ok domain ∧
    made.privateKey = .generate domain (keys.random.draw domain.randomLength).1
  publicKey : made.privateKey.publicKey = .ok made.publicKey
  issuerAlias : made.issuerAlias = issuerAlias
  lifespanMonths : made.lifespanMonths = some KeyService.lifespanMonths

/-- A store takes in the key that is made, if there is one to be made, and else stays as it is. -/
inductive TakesIn (makes : StoredKey → Prop) (keyAlias : String) (store store' : KeyStore) :
    Prop where
  | made (made : StoredKey) (h : makes made) (hafter : store' = store.insert keyAlias made)
  | kept (h : ∀ made, ¬ makes made) (hafter : store' = store)

theorem TakesIn.congr {makes makes' : StoredKey → Prop} {keyAlias : String}
    {store store' : KeyStore} (h : TakesIn makes keyAlias store store')
    (hsame : ∀ made, makes made ↔ makes' made) : TakesIn makes' keyAlias store store' := by
  cases h with
  | made made h hafter => exact .made made ((hsame made).mp h) hafter
  | kept h hafter => exact .kept (fun made hmade => h made ((hsame made).mpr hmade)) hafter

namespace SoftwareKeys

/-- Generating a key under an alias where one may be put changes the store if the key has a public
key. -/
theorem generate_store (keys : SoftwareKeys) {request : KeyGeneration}
    (hfree : request.overwrite = true ∨ keys.store.find? request.keyAlias = none) :
    let privateKey : PrivateKey :=
      .generate request.domain (keys.random.draw request.domain.randomLength).1
    (keys.generate request).2.store = match privateKey.publicKey with
      | .error _ => keys.store
      | .ok publicKey => keys.store.insert request.keyAlias
          ⟨privateKey, publicKey, request.issuerAlias, some request.lifespanMonths⟩ := by
  intro privateKey
  rw [generate]
  dsimp only
  cases privateKey.publicKey with
  | error e => rfl
  | ok publicKey =>
    dsimp only
    rw [KeyStore.put_eq_ok.mpr ⟨hfree, rfl⟩]

end SoftwareKeys

namespace KeyService

variable {α β : Type}

/-- The calls that look at the keys without changing them. -/
inductive Reads : Call → Prop where
  | sign (keyAlias : String) (id : ObjectId) (data : Bytes) : Reads (.sign keyAlias id data)
  | containsKey (keyAlias : String) : Reads (.containsKey keyAlias)
  | publicKey (keyAlias : String) : Reads (.publicKey keyAlias)

theorem Reads.answer {call : Call} (h : Reads call) (keys : SoftwareKeys) :
    (SoftwareKeys.service.answer call keys).2 = keys := by
  cases h <;> rfl

theorem Dialogue.Asks.run_eq {x : Dialogue α} (h : x.Asks Reads) (keys : SoftwareKeys) :
    (x.run SoftwareKeys.service keys).2 = keys := by
  induction x generalizing keys with
  | done value => rfl
  | ask call next ih =>
    have hkept : (SoftwareKeys.service.answer call keys).2 = keys := h.1.answer keys
    rw [Dialogue.run]
    exact (ih _ (h.2 _) _).trans hkept

/-- What comes after only looks at the keys, so they are those that the first part has left. -/
theorem keys_bind {x : Procedure α} {f : α → Procedure β} (hf : ∀ a, (f a).run.Asks Reads)
    (keys : SoftwareKeys) :
    ((x >>= f).run.run SoftwareKeys.service keys).2
      = (x.run.run SoftwareKeys.service keys).2 := by
  rw [Procedure.run_bind]
  cases (x.run.run SoftwareKeys.service keys).1 with
  | error e => rfl
  | ok a => exact (hf a).run_eq _

theorem keys_call {call : Call} {wrap : KeyServiceError → Error} (keys : SoftwareKeys) :
    ((Procedure.call call wrap).run.run SoftwareKeys.service keys).2
      = (SoftwareKeys.service.answer call keys).2 := by
  rw [Procedure.run_call]

/-! ## Providing a key -/

variable {root : Certificate} {issuerAlias : Option String} {keyAlias : String}

theorem keys_newKey {overwrite : Bool} (keys : SoftwareKeys)
    (hfree : overwrite = true ∨ keys.store.find? keyAlias = none) :
    TakesIn (Made root issuerAlias keys) keyAlias keys.store
      ((newKey root issuerAlias keyAlias overwrite).run.run SoftwareKeys.service keys).2.store := by
  cases hdomain : root.domain with
  | error e =>
    rw [newKey, Procedure.run_bind, hdomain]
    refine .kept (fun made hmade => ?_) rfl
    obtain ⟨domain, hread, -⟩ := hmade.privateKey
    cases hdomain.symm.trans hread
  | ok domain =>
    have hgenerated : ((newKey root issuerAlias keyAlias overwrite).run.run
        SoftwareKeys.service keys).2.store
          = (keys.generate ⟨domain, keyAlias, issuerAlias, overwrite, lifespanMonths⟩).2.store := by
      rw [newKey, Procedure.run_bind, hdomain]
      refine congrArg SoftwareKeys.store ((keys_bind (fun pair => ?_) keys).trans (keys_call keys))
      exact asks_bind (asks_ofExcept _) fun _ => trivial
    rw [keys.generate_store hfree] at hgenerated
    dsimp only at hgenerated
    split at hgenerated
    · next e hpublic =>
      refine .kept (fun made hmade => ?_) hgenerated
      obtain ⟨domain', hread, hkey⟩ := hmade.privateKey
      cases hdomain.symm.trans hread
      have hmissing := hmade.publicKey
      rw [hkey, hpublic] at hmissing
      cases hmissing
    · next publicKey hpublic =>
      exact .made _ ⟨⟨domain, hdomain, rfl⟩, hpublic, rfl, rfl⟩ hgenerated

/-- A key that is there is looked up, and nothing is generated. -/
theorem keys_presentOrNewKey {id : ObjectId} (hid : root.publicKeyId = .ok id) {stored : StoredKey}
    (keys : SoftwareKeys) (hstored : keys.store.find? keyAlias = some stored) :
    ((presentOrNewKey root issuerAlias keyAlias).run.run SoftwareKeys.service keys).2 = keys := by
  have hfound : keys.store.publicKey keyAlias = .ok stored.publicKey := by
    rw [KeyStore.publicKey, hstored]
  have hanswer : SoftwareKeys.service.answer (.publicKey keyAlias) keys
      = (.ok stored.publicKey, keys) := congrArg (·, keys) hfound
  have hpresent : Procedure.Yields SoftwareKeys.service keys (presentKey root keyAlias)
      ⟨stored.publicKey.withId id, none⟩ keys :=
    Procedure.yields_bind.mpr ⟨stored.publicKey, keys, Procedure.yields_call.mpr hanswer,
      Procedure.yields_bind.mpr ⟨id, keys, Procedure.yields_ofExcept.mpr ⟨hid, rfl⟩, rfl⟩⟩
  rw [Procedure.Yields] at hpresent
  show (((presentKey root keyAlias).run.bind _).run SoftwareKeys.service keys).2 = keys
  rw [Dialogue.run_bind, hpresent]
  rfl

/-- What providing a key comes to with a service that can tell whether it has one. -/
def provideGiven (root : Certificate) (issuerAlias : Option String) (keyAlias : String)
    (present : Bool) : KeyDisposition → Procedure ProvisionedKey
  | .usePresent => presentKey root keyAlias
  | .replace => newKey root issuerAlias keyAlias true
  | .generateIfNotPresent =>
    if present then presentOrNewKey root issuerAlias keyAlias
    else newKey root issuerAlias keyAlias false

theorem run_provide {disposition : KeyDisposition} {algorithm : SignatureAlgorithm}
    (halgorithm : root.signatureAlgorithm = .ok algorithm) (keys : SoftwareKeys) :
    (provide root issuerAlias keyAlias disposition).run.run SoftwareKeys.service keys
      = (provideGiven root issuerAlias keyAlias (keys.store.contains keyAlias) disposition).run.run
        SoftwareKeys.service keys := by
  rw [provide.eq_def, Procedure.run_bind, halgorithm]
  cases disposition with
  | usePresent => rfl
  | replace => rfl
  | generateIfNotPresent =>
    have hreply : SoftwareKeys.service.answer (.containsKey keyAlias) keys
        = (.ok (keys.store.contains keyAlias), keys) := rfl
    show Dialogue.run SoftwareKeys.service (.ask (.containsKey keyAlias) _) keys = _
    rw [Dialogue.run, hreply, provideGiven]
    cases keys.store.contains keyAlias <;> rfl

/-- Whether a key is to be made: not if the one that is there is to be used, and else if it may be
replaced or if there is none. -/
def Wanted (disposition : KeyDisposition) (keyAlias : String) (keys : SoftwareKeys) : Prop :=
  match disposition with
  | .usePresent => False
  | .replace => True
  | .generateIfNotPresent => keys.store.find? keyAlias = none

/-- The key that is made to provide one under an alias, under a root whose algorithm can be
read. -/
structure MadeFor (root : Certificate) (issuerAlias : Option String) (keyAlias : String)
    (disposition : KeyDisposition) (keys : SoftwareKeys) (made : StoredKey) : Prop extends
    Made root issuerAlias keys made where
  algorithm : ∃ algorithm, root.signatureAlgorithm = .ok algorithm
  wanted : Wanted disposition keyAlias keys

/-- The store takes in the key that is made for the root, if one is. -/
theorem keys_provide (root : Certificate) (issuerAlias : Option String) (keyAlias : String)
    (disposition : KeyDisposition) (keys : SoftwareKeys) :
    TakesIn (MadeFor root issuerAlias keyAlias disposition keys) keyAlias keys.store
      ((provide root issuerAlias keyAlias disposition).run.run
        SoftwareKeys.service keys).2.store := by
  cases halgorithm : root.signatureAlgorithm with
  | error e =>
    rw [provide.eq_def, Procedure.run_bind, halgorithm]
    refine .kept (fun made hmade => ?_) rfl
    obtain ⟨algorithm, hread⟩ := hmade.algorithm
    cases halgorithm.symm.trans hread
  | ok algorithm =>
  have hnew {overwrite : Bool} (hwanted : Wanted disposition keyAlias keys)
      (hfree : overwrite = true ∨ keys.store.find? keyAlias = none) :
      TakesIn (MadeFor root issuerAlias keyAlias disposition keys) keyAlias keys.store
        ((newKey root issuerAlias keyAlias overwrite).run.run
          SoftwareKeys.service keys).2.store :=
    (keys_newKey keys hfree).congr fun made =>
      ⟨fun hmade => ⟨hmade, ⟨algorithm, halgorithm⟩, hwanted⟩, fun hmade => hmade.toMade⟩
  rw [run_provide halgorithm]
  cases disposition with
  | usePresent =>
    refine .kept (fun made hmade => hmade.wanted) ?_
    rw [provideGiven, (asks_presentKey (.publicKey keyAlias)).run_eq]
  | replace => exact hnew trivial (.inl rfl)
  | generateIfNotPresent =>
    rw [provideGiven, KeyStore.contains]
    cases hstored : keys.store.find? keyAlias with
    | none => exact hnew hstored (.inr hstored)
    | some stored =>
      -- the key that is there can be tagged, since the algorithm was read off the same identifier
      obtain ⟨id, hid, -⟩ := bind_eq_ok.mp halgorithm
      refine .kept (fun made hmade => ?_) ?_
      · cases hstored.symm.trans hmade.wanted
      · exact congrArg SoftwareKeys.store (keys_presentOrNewKey hid keys hstored)

end KeyService
end CardAccess

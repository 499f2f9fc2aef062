import CardAccess.Proofs.KeyService.Provision

/-!
# Taking turns at a key service

Several dialogues can be held with one service at once, a call of one after a call of another.
`Turns` holds the dialogues as far as they have come, and a schedule names for each turn the
dialogue that makes its next call.

Where keys are in memory, what one dialogue may rely on is what it has to promise the others: a
key that is there stays, and other keys may come in at any time.  `Careful` says this call by call,
together with what the dialogue owes in the end, that the key it returns is the one under its alias
and that it has put in none if it fails.  Whatever is careful by itself stays so in any company, and
to provide a key without replacing one is careful.
-/

namespace CardAccess

namespace KeyStore

variable {store store' store'' : KeyStore} {keyAlias : String} {key : StoredKey}

/-- Every key in the store is in the other one, under the same alias. -/
def Keeps (store store' : KeyStore) : Prop :=
  ∀ keyAlias stored, store.find? keyAlias = some stored → store'.find? keyAlias = some stored

theorem Keeps.refl (store : KeyStore) : store.Keeps store := fun _ _ h => h

theorem Keeps.trans (h : store.Keeps store') (h' : store'.Keeps store'') : store.Keeps store'' :=
  fun keyAlias stored hstored => h' keyAlias stored (h keyAlias stored hstored)

theorem keeps_insert (h : store.find? keyAlias = none) :
    store.Keeps (store.insert keyAlias key) := by
  intro other stored hstored
  have hne : other ≠ keyAlias := by
    rintro rfl
    cases h.symm.trans hstored
  rw [find?_insert, if_neg hne, hstored]

end KeyStore

namespace KeyService

variable {σ α : Type} {service : KeyService σ}

/-! ## Turns -/

/-- Dialogues with one service, as far as they have come, and the state of the service. -/
structure Turns (σ α : Type) where
  dialogues : List (Dialogue α)
  state : σ

namespace Turns

/-- The next call of the dialogue at a place.  A dialogue that has ended, or is not there, lets its
turn pass. -/
def turn (service : KeyService σ) (turns : Turns σ α) (i : Nat) : Turns σ α :=
  match turns.dialogues[i]? with
  | some (.ask call next) =>
    ⟨turns.dialogues.set i (next (service.answer call turns.state).1),
      (service.answer call turns.state).2⟩
  | _ => turns

def run (service : KeyService σ) (turns : Turns σ α) (schedule : List Nat) : Turns σ α :=
  schedule.foldl (turn service) turns

/-- What a dialogue that has ended came to. -/
def result? (turns : Turns σ α) (i : Nat) : Option α :=
  match turns.dialogues[i]? with
  | some (.done value) => some value
  | _ => none

variable {turns : Turns σ α} {i j : Nat} {value : α}

theorem result?_eq_some : turns.result? i = some value ↔
    turns.dialogues[i]? = some (.done value) := by
  rw [result?]
  split
  · next h =>
    rw [h]
    simp
  · next h =>
    constructor
    · exact (nomatch ·)
    · exact fun hdone => absurd hdone (h value)

theorem turn_cases (service : KeyService σ) (turns : Turns σ α) (i : Nat) :
    turns.turn service i = turns ∨ ∃ call next,
      turns.dialogues[i]? = some (.ask call next) ∧ turns.turn service i
        = ⟨turns.dialogues.set i (next (service.answer call turns.state).1),
          (service.answer call turns.state).2⟩ := by
  rw [turn]
  split
  · next call next hask => exact .inr ⟨call, next, hask, rfl⟩
  · exact .inl rfl

theorem run_append (before after : List Nat) :
    turns.run service (before ++ after) = (turns.run service before).run service after :=
  List.foldl_append

/-- A dialogue that has ended stays as it is. -/
theorem result?_turn (h : turns.result? i = some value) :
    (turns.turn service j).result? i = some value := by
  rcases turn_cases service turns j with hpass | ⟨call, next, hask, hturn⟩
  · rw [hpass, h]
  · have hdone := result?_eq_some.mp h
    have hne : j ≠ i := by
      rintro rfl
      cases hask.symm.trans hdone
    rw [result?_eq_some, hturn, List.getElem?_set_ne hne, hdone]

theorem result?_run {schedule : List Nat} (h : turns.result? i = some value) :
    (turns.run service schedule).result? i = some value := by
  induction schedule generalizing turns with
  | nil => exact h
  | cons j schedule ih => exact ih (result?_turn h)

/-- A dialogue that has all the turns to itself goes as it goes alone. -/
theorem run_alone (x : Dialogue α) (s : σ) :
    (⟨[x], s⟩ : Turns σ α).run service (List.replicate (x.calls service s).length 0)
      = ⟨[.done (x.run service s).1], (x.run service s).2⟩ := by
  induction x generalizing s with
  | done value => rfl
  | ask call next ih => exact ih (service.answer call s).1 (service.answer call s).2

end Turns

/-! ## Dialogues that can share the keys -/

/-- What a dialogue that provides a key under an alias owes the others and its caller, given the
keys that are there. -/
def Careful (keyAlias : String) :
    Dialogue (Except Error ProvisionedKey) → (store : KeyStore) → Prop
  | .done (.ok key), store =>
    ∃ stored, store.find? keyAlias = some stored ∧ stored.publicKey = key.publicKey.key
  | .done (.error _), _ => True
  | .ask call next, store => ∀ keys : SoftwareKeys, store.Keeps keys.store →
    let answered := SoftwareKeys.service.answer call keys
    keys.store.Keeps answered.2.store ∧
      (answered.2.store = keys.store ∨ ∃ key, next answered.1 = .done (.ok key)) ∧
      Careful keyAlias (next answered.1) answered.2.store

variable {keyAlias : String} {store store' : KeyStore}

/-- Others may put keys in between two calls. -/
theorem Careful.of_keeps {x : Dialogue (Except Error ProvisionedKey)} (h : Careful keyAlias x store)
    (hkeeps : store.Keeps store') : Careful keyAlias x store' := by
  match x, h with
  | .done (.ok key), ⟨stored, hstored, hkey⟩ => exact ⟨stored, hkeeps _ _ hstored, hkey⟩
  | .done (.error e), _ => trivial
  | .ask call next, h => exact fun keys hkeys => h keys (hkeeps.trans hkeys)

/-! ## Providing a key is careful -/

section provide

variable {root : Certificate} {issuerAlias : Option String} {id : ObjectId}

theorem presentKey_eq (hid : root.publicKeyId = .ok id) :
    (presentKey root keyAlias).run = .ask (.publicKey keyAlias) fun
      | .ok (key : PublicKey) => .done (.ok ⟨key.withId id, none⟩)
      | .error e => .done (.error (.keyService e)) := by
  rw [presentKey, hid]
  refine congrArg (Dialogue.ask (.publicKey keyAlias)) (funext fun reply => ?_)
  cases reply <;> rfl

theorem newKey_eq {domain : Domain} {overwrite : Bool} (hdomain : root.domain = .ok domain)
    (hid : root.publicKeyId = .ok id) :
    (newKey root issuerAlias keyAlias overwrite).run
      = .ask (.generateKeyPair ⟨domain, keyAlias, issuerAlias, overwrite, lifespanMonths⟩) fun
        | .ok (pair : GeneratedKeyPair) => .done (.ok ⟨pair.publicKey.withId id, pair.privateKey⟩)
        | .error e => .done (.error (.keyService e)) := by
  rw [newKey, hdomain, hid]
  refine congrArg (Dialogue.ask (.generateKeyPair _)) (funext fun reply => ?_)
  cases reply <;> rfl

theorem newKey_error {e : Error} {overwrite : Bool} (hdomain : root.domain = .error e) :
    (newKey root issuerAlias keyAlias overwrite).run = .done (.error e) := by
  rw [newKey, hdomain]
  rfl

/-- Generating a key fails and leaves the store, or it puts in the key that it returns. -/
theorem answer_generateKeyPair (keys : SoftwareKeys) (request : KeyGeneration) :
    (∃ e keys', SoftwareKeys.service.answer (.generateKeyPair request) keys = (.error e, keys') ∧
        keys'.store = keys.store) ∨
      ∃ (made : StoredKey) (keys' : SoftwareKeys),
        SoftwareKeys.service.answer (.generateKeyPair request) keys
          = (.ok ⟨made.publicKey, some made.privateKey⟩, keys') ∧
        (request.overwrite = true ∨ keys.store.find? request.keyAlias = none) ∧
        keys'.store = keys.store.insert request.keyAlias made := by
  show (∃ e keys', keys.generate request = _ ∧ _) ∨
    ∃ (made : StoredKey) (keys' : SoftwareKeys), keys.generate request = _ ∧ _
  rw [SoftwareKeys.generate]
  dsimp only
  split
  · exact .inl ⟨_, _, rfl, rfl⟩
  split
  · exact .inl ⟨_, _, rfl, rfl⟩
  next store hput =>
    obtain ⟨hfree, hstore⟩ := KeyStore.put_eq_ok.mp hput
    exact .inr ⟨_, ⟨store, _⟩, rfl, hfree, hstore⟩

/-- Keys in memory can always be looked up, so looking one up ends well or ends it all. -/
theorem answer_publicKey (keys : SoftwareKeys) (keyAlias : String) :
    (∃ stored, keys.store.find? keyAlias = some stored ∧
        SoftwareKeys.service.answer (.publicKey keyAlias) keys = (.ok stored.publicKey, keys)) ∨
      SoftwareKeys.service.answer (.publicKey keyAlias) keys
        = (.error (.keyNotFound keyAlias), keys) := by
  show (∃ stored, _ ∧ (keys.store.publicKey keyAlias, keys) = _) ∨
    (keys.store.publicKey keyAlias, keys) = _
  rw [KeyStore.publicKey]
  cases hfound : keys.store.find? keyAlias with
  | none => exact .inr rfl
  | some stored => exact .inl ⟨stored, rfl, rfl⟩

/-- A dialogue that looks up the key under its alias is careful if it returns the key as it finds it
and ends where there is none.  How it goes on from other faults does not matter. -/
theorem careful_lookUp {next : Reply (.publicKey keyAlias) → Dialogue (Except Error ProvisionedKey)}
    (hfound : ∀ key, next (.ok key) = .done (.ok ⟨key.withId id, none⟩))
    (hnone : ∃ e, next (.error (.keyNotFound keyAlias)) = .done (.error e)) :
    Careful keyAlias (.ask (.publicKey keyAlias) next) store := by
  intro keys hkeys
  rcases answer_publicKey keys keyAlias with ⟨stored, hstored, hanswer⟩ | hanswer
  · rw [hanswer]
    refine ⟨.refl _, .inl rfl, ?_⟩
    show Careful keyAlias (next (.ok stored.publicKey)) keys.store
    rw [hfound stored.publicKey]
    exact ⟨stored, hstored, rfl⟩
  · obtain ⟨e, he⟩ := hnone
    rw [hanswer]
    refine ⟨.refl _, .inl rfl, ?_⟩
    show Careful keyAlias (next (.error (.keyNotFound keyAlias))) keys.store
    rw [he]
    trivial

theorem careful_presentKey (hid : root.publicKeyId = .ok id) :
    Careful keyAlias (presentKey root keyAlias).run store := by
  rw [presentKey_eq hid]
  exact careful_lookUp (fun _ => rfl) ⟨_, rfl⟩

theorem careful_presentOrNewKey (hid : root.publicKeyId = .ok id) :
    Careful keyAlias (presentOrNewKey root issuerAlias keyAlias).run store := by
  show Careful keyAlias ((presentKey root keyAlias).run.bind _) store
  rw [presentKey_eq hid]
  exact careful_lookUp (fun _ => rfl) ⟨_, rfl⟩

/-- A new key that is not to replace another one comes in as the last call of all. -/
theorem careful_newKey (hid : root.publicKeyId = .ok id) :
    Careful keyAlias (newKey root issuerAlias keyAlias false).run store := by
  cases hdomain : root.domain with
  | error e =>
    rw [newKey_error hdomain]
    trivial
  | ok domain =>
    rw [newKey_eq hdomain hid]
    intro keys hkeys
    rcases answer_generateKeyPair keys ⟨domain, keyAlias, issuerAlias, false, lifespanMonths⟩ with
      ⟨e, keys', hanswer, hstore⟩ | ⟨made, keys', hanswer, hfree, hstore⟩
    · rw [hanswer]
      exact ⟨hstore ▸ .refl _, .inl hstore, trivial⟩
    · have hnone : keys.store.find? keyAlias = none := hfree.resolve_left (nomatch ·)
      have hmade : keys'.store.find? keyAlias = some made := by
        rw [hstore, KeyStore.find?_insert, if_pos rfl]
      rw [hanswer]
      exact ⟨hstore ▸ KeyStore.keeps_insert hnone, .inr ⟨_, rfl⟩, made, hmade, rfl⟩

theorem careful_provide {disposition : KeyDisposition} (hkept : disposition ≠ .replace) :
    Careful keyAlias (provide root issuerAlias keyAlias disposition).run store := by
  rw [provide.eq_def]
  cases halgorithm : root.signatureAlgorithm with
  | error e => trivial
  | ok algorithm =>
    -- the algorithm was read off the identifier that the key is tagged with in the end
    obtain ⟨id, hid, -⟩ := bind_eq_ok.mp halgorithm
    cases disposition with
    | replace => exact absurd rfl hkept
    | usePresent => exact careful_presentKey hid
    | generateIfNotPresent =>
      intro keys hkeys
      have hanswer : SoftwareKeys.service.answer (.containsKey keyAlias) keys
          = (.ok (keys.store.contains keyAlias), keys) := rfl
      rw [hanswer]
      refine ⟨.refl _, .inl rfl, ?_⟩
      cases keys.store.contains keyAlias with
      | true => exact careful_presentOrNewKey hid
      | false => exact careful_newKey hid

end provide

/-! ## Any number of calls, in any order -/

/-- A call for a key. -/
structure ProvisionCall where
  root : Certificate
  issuerAlias : Option String
  keyAlias : String
  disposition : KeyDisposition

def ProvisionCall.procedure (call : ProvisionCall) : Procedure ProvisionedKey :=
  provide call.root call.issuerAlias call.keyAlias call.disposition

namespace Turns

/-- The calls before the first turn of any of them. -/
def start (calls : List ProvisionCall) (keys : SoftwareKeys) :
    Turns SoftwareKeys (Except Error ProvisionedKey) :=
  ⟨calls.map fun call => call.procedure.run, keys⟩

/-- Every dialogue is careful with the keys as they are. -/
structure Safe (calls : List ProvisionCall)
    (turns : Turns SoftwareKeys (Except Error ProvisionedKey)) : Prop where
  length : turns.dialogues.length = calls.length
  careful : ∀ (i : Nat) (call : ProvisionCall) (x : Dialogue (Except Error ProvisionedKey)),
    calls[i]? = some call → turns.dialogues[i]? = some x →
      Careful call.keyAlias x turns.state.store

variable {calls : List ProvisionCall} {keys : SoftwareKeys}
  {turns : Turns SoftwareKeys (Except Error ProvisionedKey)}

theorem safe_start (h : ∀ call ∈ calls, call.disposition ≠ .replace) :
    Safe calls (start calls keys) := by
  refine ⟨List.length_map .., fun i call x hcall hx => ?_⟩
  rw [start, List.getElem?_map, hcall] at hx
  cases hx
  exact careful_provide (h call (List.mem_of_getElem? hcall))

/-- What one turn preserves.  It keeps all keys, and it adds one only where that is the end of a
call that succeeds. -/
theorem Safe.turn (h : Safe calls turns) (i : Nat) :
    Safe calls (turns.turn SoftwareKeys.service i) ∧
      turns.state.store.Keeps (turns.turn SoftwareKeys.service i).state.store ∧
      ((turns.turn SoftwareKeys.service i).state.store = turns.state.store ∨
        ∃ key, (turns.turn SoftwareKeys.service i).result? i = some (.ok key)) := by
  rcases turn_cases SoftwareKeys.service turns i with hpass | ⟨request, next, hask, hturn⟩
  · rw [hpass]
    exact ⟨h, .refl _, .inl rfl⟩
  have hlt : i < turns.dialogues.length := (List.getElem?_eq_some_iff.mp hask).1
  obtain ⟨call, hcall⟩ : ∃ call, calls[i]? = some call :=
    ⟨_, List.getElem?_eq_getElem (h.length ▸ hlt)⟩
  obtain ⟨hkeeps, hadds, hnext⟩ := h.careful i call _ hcall hask turns.state (.refl _)
  rw [hturn]
  refine ⟨⟨by rw [List.length_set, h.length], fun j other x hother hx => ?_⟩, hkeeps, ?_⟩
  · by_cases hji : i = j
    · subst hji
      rw [List.getElem?_set_self hlt] at hx
      cases hx
      cases hcall.symm.trans hother
      exact hnext
    · rw [List.getElem?_set_ne hji] at hx
      exact (h.careful j other x hother hx).of_keeps hkeeps
  · refine hadds.imp_right fun ⟨key, hkey⟩ => ⟨key, ?_⟩
    rw [result?_eq_some, List.getElem?_set_self hlt, hkey]

theorem Safe.run (h : Safe calls turns) (schedule : List Nat) :
    Safe calls (turns.run SoftwareKeys.service schedule) ∧
      turns.state.store.Keeps (turns.run SoftwareKeys.service schedule).state.store := by
  induction schedule generalizing turns with
  | nil => exact ⟨h, .refl _⟩
  | cons i schedule ih =>
    obtain ⟨hsafe, hkeeps, -⟩ := h.turn i
    obtain ⟨hsafe', hkeeps'⟩ := ih hsafe
    exact ⟨hsafe', hkeeps.trans hkeeps'⟩

/-- A call that has ended well has returned a key that stays. -/
theorem Safe.stored (h : Safe calls turns) {i : Nat} {call : ProvisionCall} {key : ProvisionedKey}
    (hcall : calls[i]? = some call) (hresult : turns.result? i = some (.ok key)) :
    ∃ stored, stored.publicKey = key.publicKey.key ∧ ∀ later,
      (turns.run SoftwareKeys.service later).state.store.find? call.keyAlias = some stored := by
  obtain ⟨stored, hstored, hkey⟩ := h.careful i call _ hcall (result?_eq_some.mp hresult)
  exact ⟨stored, hkey, fun later => (h.run later).2 _ _ hstored⟩

/-- A turn of a call that has failed by the end has left the keys as they were. -/
theorem Safe.store_eq_of_error (h : Safe calls turns) {i : Nat} {e : Error} {later : List Nat}
    (hresult : ((turns.turn SoftwareKeys.service i).run SoftwareKeys.service later).result? i
      = some (.error e)) :
    (turns.turn SoftwareKeys.service i).state.store = turns.state.store := by
  refine (h.turn i).2.2.resolve_right fun ⟨key, hkey⟩ => ?_
  cases (result?_run hkey).symm.trans hresult

end Turns

/-- A procedure that is to replace a key fails and leaves all keys, or it changes the one. -/
theorem run_provide_replace (root : Certificate) (issuerAlias : Option String) (keyAlias : String)
    (keys : SoftwareKeys) : ∃ result keys',
    (provide root issuerAlias keyAlias .replace).run.run SoftwareKeys.service keys
        = (result, keys') ∧
      ((∃ e, result = .error e) ∧ keys'.store = keys.store ∨
        (∃ key, result = .ok key) ∧ ∃ made, keys'.store = keys.store.insert keyAlias made) := by
  cases halgorithm : root.signatureAlgorithm with
  | error e =>
    rw [provide.eq_def, halgorithm]
    exact ⟨_, _, rfl, .inl ⟨⟨e, rfl⟩, rfl⟩⟩
  | ok algorithm =>
    obtain ⟨id, hid, -⟩ := bind_eq_ok.mp halgorithm
    rw [run_provide halgorithm, provideGiven]
    cases hdomain : root.domain with
    | error e =>
      rw [newKey_error hdomain]
      exact ⟨_, _, rfl, .inl ⟨⟨e, rfl⟩, rfl⟩⟩
    | ok domain =>
      rw [newKey_eq hdomain hid, Dialogue.run]
      rcases answer_generateKeyPair keys ⟨domain, keyAlias, issuerAlias, true, lifespanMonths⟩ with
        ⟨e, keys', hanswer, hstore⟩ | ⟨made, keys', hanswer, -, hstore⟩
      · rw [hanswer]
        exact ⟨_, _, rfl, .inl ⟨⟨_, rfl⟩, hstore⟩⟩
      · rw [hanswer]
        exact ⟨_, _, rfl, .inr ⟨⟨_, rfl⟩, made, hstore⟩⟩

/-- Any number of calls for keys that are not to be replaced, held with the keys in memory in any
order of turns: no key is ever replaced or taken away, a call that succeeds returns the key that is
found under its alias from then on, and a call that fails has put in none.  A call that is to replace
a key, held alone, leaves the keys under all other aliases as they are, and all keys if it fails. -/
theorem provide_interleaved (calls : List ProvisionCall) (keys : SoftwareKeys)
    (hkept : ∀ call ∈ calls, call.disposition ≠ .replace) (schedule : List Nat) :
    let start := Turns.start calls keys
    let turns := start.run SoftwareKeys.service schedule
    (∀ later, turns.state.store.Keeps (turns.run SoftwareKeys.service later).state.store) ∧
    (∀ i call key, calls[i]? = some call → turns.result? i = some (.ok key) →
      ∃ stored, stored.publicKey = key.publicKey.key ∧ ∀ later,
        (turns.run SoftwareKeys.service later).state.store.find? call.keyAlias = some stored) ∧
    (∀ i e, turns.result? i = some (.error e) → ∀ before later, schedule = before ++ i :: later →
      (start.run SoftwareKeys.service (before ++ [i])).state.store
        = (start.run SoftwareKeys.service before).state.store) ∧
    ∀ root issuerAlias keyAlias,
      let outcome := (provide root issuerAlias keyAlias .replace).run.run SoftwareKeys.service keys
      (∀ other, other ≠ keyAlias → outcome.2.store.find? other = keys.store.find? other) ∧
        ∀ e, outcome.1 = .error e → outcome.2.store = keys.store := by
  intro start turns
  have hstart : Turns.Safe calls start := Turns.safe_start hkept
  obtain ⟨hsafe, -⟩ := hstart.run schedule
  refine ⟨fun later => (hsafe.run later).2, fun i call key hcall hresult => ?_,
    fun i e hresult before later hschedule => ?_, fun root issuerAlias keyAlias => ?_⟩
  · exact hsafe.stored hcall hresult
  · have hturns : turns = ((start.run SoftwareKeys.service before).turn SoftwareKeys.service i).run
        SoftwareKeys.service later := by
      show start.run SoftwareKeys.service schedule = _
      rw [hschedule, Turns.run_append]
      rfl
    rw [hturns] at hresult
    rw [Turns.run_append]
    exact (hstart.run before).1.store_eq_of_error hresult
  · obtain ⟨result, keys', hrun, ⟨-, hstore⟩ | ⟨⟨key, rfl⟩, made, hstore⟩⟩ :=
      run_provide_replace root issuerAlias keyAlias keys
    · rw [hrun]
      exact ⟨fun other _ => by rw [hstore], fun _ _ => hstore⟩
    · rw [hrun]
      refine ⟨fun other hne => ?_, (nomatch ·, ·)⟩
      rw [hstore, KeyStore.find?_insert, if_neg hne]

/-- A root over the small curve. -/
def smallRoot : Certificate :=
  ⟨.constructed Layout.cvCertificate
    [.constructed Layout.certificateBody [VerificationKey.small.toTlv true]]⟩

/-- A call for a key under the alias `A`, new if there is none. -/
def smallCall : ProvisionCall := ⟨smallRoot, none, "A", .generateIfNotPresent⟩

/-- Two calls under one alias have both been told that there is no key when the first generates
one: the second may not replace it. -/
theorem provide_interleaved_race :
    let calls := [smallCall, smallCall]
    let turns := (Turns.start calls (.ofStore .empty)).run SoftwareKeys.service [0, 1, 0, 1]
    (∀ call ∈ calls, call.disposition ≠ .replace) ∧
      turns.result? 1 = some (.error (.keyService (.keyExists "A"))) ∧
      ∃ key, turns.result? 0 = some (.ok key) ∧ ∃ stored, stored.publicKey = key.publicKey.key ∧
        ∀ later, (turns.run SoftwareKeys.service later).state.store.find? "A" = some stored := by
  intro calls turns
  have hkept : ∀ call ∈ calls, call.disposition ≠ .replace := by decide
  have hgenerated : turns.result? 0
      = some (.ok ⟨.small, some (.generate Domain.small [0])⟩) := by decide +kernel
  obtain ⟨-, hstored, -, -⟩ := provide_interleaved calls (.ofStore .empty) hkept [0, 1, 0, 1]
  exact ⟨hkept, by decide +kernel, _, hgenerated, hstored 0 smallCall _ rfl hgenerated⟩

end KeyService
end CardAccess

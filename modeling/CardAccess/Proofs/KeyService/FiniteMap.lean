import CardAccess.Proofs.KeyService.Provision
import Mathlib.Data.String.Basic

/-!
# Keys in memory as a finite map

A store is a list with one entry for each alias, and what it stands for is a finite map from
aliases to keys (`KeyStore.toMap`).  `KeyMap.service` says how calls are answered from such a map,
and the service in memory gives the same replies and has the same keys afterwards
(`answer_view`).

What can be relied on after any calls is collected in `Faithful`.  It comes from two things that
every call preserves (`KeyStore.Tidy`): no alias has two entries, and each key was stored with the
public key that it has.  So whatever is signed with a stored key verifies under the public key
that is looked up, which rests on the curve alone.
-/

namespace CardAccess

/-- Keys by alias, where nothing but the keys under the aliases matters. -/
abbrev KeyMap : Type := Std.ExtHashMap String StoredKey

/-! ## The map of a store -/

namespace KeyStore

variable {store : KeyStore} {keyAlias other : String} {key : StoredKey}

/-- The keys under their aliases, of which the first entry counts. -/
def toMap (store : KeyStore) : KeyMap :=
  store.entries.foldr (fun entry keys => keys.insert entry.1 entry.2) ∅

theorem getElem?_toMap (store : KeyStore) (keyAlias : String) :
    store.toMap[keyAlias]? = store.find? keyAlias := by
  obtain ⟨entries⟩ := store
  induction entries with
  | nil => exact Std.ExtHashMap.getElem?_empty
  | cons entry entries ih =>
    have hstep : (toMap ⟨entry :: entries⟩)[keyAlias]?
        = if (entry.1 == keyAlias) = true then some entry.2 else (toMap ⟨entries⟩)[keyAlias]? :=
      Std.ExtHashMap.getElem?_insert
    rw [hstep, ih, find?, find?, List.lookup_cons, BEq.comm]
    cases keyAlias == entry.1 <;> rfl

theorem contains_toMap (store : KeyStore) (keyAlias : String) :
    store.toMap.contains keyAlias = store.contains keyAlias := by
  rw [Std.ExtHashMap.contains_eq_isSome_getElem?, getElem?_toMap, contains]

/-- Nothing is found under an alias that was erased, and under others what was there. -/
theorem find?_erase :
    (store.erase keyAlias).find? other = if other = keyAlias then none else store.find? other := by
  by_cases h : other = keyAlias
  · rw [if_pos h, find?, List.lookup_eq_none_iff]
    intro entry hentry
    have hne := (List.mem_filter.mp hentry).2
    rw [h, bne_comm]
    exact hne
  · rw [if_neg h]
    exact lookup_filter_ne store.entries h

theorem toMap_insert : (store.insert keyAlias key).toMap = store.toMap.insert keyAlias key := by
  apply Std.ExtHashMap.ext_getElem?
  intro other
  have hsame : (keyAlias == other) = true ↔ other = keyAlias := beq_iff_eq.trans eq_comm
  rw [getElem?_toMap, find?_insert, Std.ExtHashMap.getElem?_insert, getElem?_toMap]
  simp only [hsame]

theorem toMap_erase : (store.erase keyAlias).toMap = store.toMap.erase keyAlias := by
  apply Std.ExtHashMap.ext_getElem?
  intro other
  have hsame : (keyAlias == other) = true ↔ other = keyAlias := beq_iff_eq.trans eq_comm
  rw [getElem?_toMap, find?_erase, Std.ExtHashMap.getElem?_erase, getElem?_toMap]
  simp only [hsame]

/-- No alias has two entries. -/
def Distinct (store : KeyStore) : Prop := (store.entries.map Prod.fst).Nodup

theorem distinct_empty : empty.Distinct := List.nodup_nil

theorem Distinct.erase (h : store.Distinct) : (store.erase keyAlias).Distinct :=
  h.sublist (List.filter_sublist.map Prod.fst)

theorem Distinct.insert (h : store.Distinct) : (store.insert keyAlias key).Distinct := by
  refine List.nodup_cons.mpr ⟨?_, h.erase⟩
  rw [List.mem_map]
  rintro ⟨entry, hentry, rfl⟩
  exact bne_iff_ne.mp (List.mem_filter.mp hentry).2 rfl

/-- A store has as many keys as its map. -/
theorem size_toMap (h : store.Distinct) : store.toMap.size = store.size := by
  obtain ⟨entries⟩ := store
  induction entries with
  | nil => exact Std.ExtHashMap.size_empty
  | cons entry entries ih =>
    obtain ⟨hnew, hrest⟩ := List.nodup_cons.mp h
    have habsent : entry.1 ∉ toMap ⟨entries⟩ := by
      have hnone : find? ⟨entries⟩ entry.1 = none := by
        refine List.lookup_eq_none_iff.mpr fun other hother => bne_iff_ne.mpr fun hsame => ?_
        exact hnew (hsame ▸ List.mem_map_of_mem hother)
      rw [Std.ExtHashMap.mem_iff_isSome_getElem?, getElem?_toMap, hnone]
      exact Bool.false_ne_true
    have hstep : (toMap ⟨entry :: entries⟩).size
        = if entry.1 ∈ toMap ⟨entries⟩ then (toMap ⟨entries⟩).size
          else (toMap ⟨entries⟩).size + 1 := Std.ExtHashMap.size_insert
    rw [hstep, if_neg habsent, ih hrest]
    rfl

end KeyStore

/-! ## Answering from a map -/

namespace KeyMap

def get (keys : KeyMap) (keyAlias : String) : Except KeyServiceError StoredKey :=
  match keys[keyAlias]? with
  | some key => .ok key
  | none => .error (.keyNotFound keyAlias)

/-- Put a private key under an alias, with its public key and with what is noted about it, and
return that public key.  An alias that is taken is refused unless it may be overwritten. -/
def put (keys : KeyMap) (keyAlias : String) (overwrite : Bool) (privateKey : PrivateKey)
    (issuerAlias : Option String) (lifespanMonths : Option Nat) :
    Except KeyServiceError (PublicKey × KeyMap) := do
  let publicKey ← privateKey.publicKey.mapError .crypto
  if !overwrite && keys.contains keyAlias then .error (.keyExists keyAlias)
  else .ok (publicKey,
    keys.insert keyAlias ⟨privateKey, publicKey, issuerAlias, lifespanMonths⟩)

/-- The service whose state is a finite map and the random bytes to come.  A key is looked up, put
in or taken out under the alias of the call, and a call that fails leaves the map as it is. -/
def service : KeyService (KeyMap × RandomSource) where
  answer call state :=
    let (keys, random) := state
    match call with
    | .sign keyAlias id data =>
      (do
        let algorithm ← (SignatureAlgorithm.ofObjectId id).mapError .crypto
        let key ← keys.get keyAlias
        (key.privateKey.sign algorithm data).mapError .crypto, state)
    | .generateKeyPair request =>
      let (bytes, random) := random.draw request.domain.randomLength
      let privateKey := PrivateKey.generate request.domain bytes
      match keys.put request.keyAlias request.overwrite privateKey request.issuerAlias
        (some request.lifespanMonths) with
      | .ok (publicKey, keys) => (.ok ⟨publicKey, some privateKey⟩, keys, random)
      | .error e => (.error e, keys, random)
    | .containsKey keyAlias => (.ok (keys.contains keyAlias), state)
    | .publicKey keyAlias => ((keys.get keyAlias).map StoredKey.publicKey, state)
    | .importPrivateKey keyAlias privateKey overwrite =>
      match keys.put keyAlias overwrite privateKey none none with
      | .ok (_, keys) => (.ok (), keys, random)
      | .error e => (.error e, state)
    | .deleteKey keyAlias => (.ok (keys.contains keyAlias), keys.erase keyAlias, random)

variable {store : KeyStore}

theorem put_toMap (keyAlias : String) (overwrite : Bool) (privateKey : PrivateKey)
    (issuerAlias : Option String) (lifespanMonths : Option Nat) :
    put store.toMap keyAlias overwrite privateKey issuerAlias lifespanMonths
      = match privateKey.publicKey with
        | .error e => .error (.crypto e)
        | .ok publicKey =>
          (store.put keyAlias ⟨privateKey, publicKey, issuerAlias, lifespanMonths⟩ overwrite).map
            fun store' => (publicKey, store'.toMap) := by
  rw [put]
  cases privateKey.publicKey with
  | error e => rfl
  | ok publicKey =>
    rw [Except.mapError, bind_of_ok rfl, KeyStore.contains_toMap]
    dsimp only
    rw [KeyStore.put]
    split
    · rfl
    · rw [Except.map, KeyStore.toMap_insert]

end KeyMap

/-! ## The service in memory answers from its map -/

namespace SoftwareKeys

open KeyService

/-- What the keys stand for. -/
def view (keys : SoftwareKeys) : KeyMap × RandomSource := (keys.store.toMap, keys.random)

/-- Every call gets the reply that the map gives, and leaves the map that it leaves. -/
theorem answer_view (call : Call) (keys : SoftwareKeys) :
    KeyMap.service.answer call keys.view
      = ((service.answer call keys).1, (service.answer call keys).2.view) := by
  obtain ⟨store, random⟩ := keys
  have hget (keyAlias : String) : KeyMap.get store.toMap keyAlias
      = match store.find? keyAlias with
        | some key => .ok key
        | none => .error (.keyNotFound keyAlias) := by
    rw [KeyMap.get, KeyStore.getElem?_toMap]
  cases call with
  | sign keyAlias id data =>
    refine Prod.ext ?_ rfl
    dsimp only [service, KeyMap.service, view]
    rw [hget, KeyStore.sign]
    cases store.find? keyAlias <;> rfl
  | generateKeyPair request =>
    dsimp only [service, KeyMap.service, view, generate]
    rw [KeyMap.put_toMap]
    cases (PrivateKey.generate request.domain
        (random.draw request.domain.randomLength).1).publicKey with
    | error e => rfl
    | ok publicKey =>
      dsimp only
      generalize store.put request.keyAlias _ request.overwrite = stored
      cases stored <;> rfl
  | containsKey keyAlias =>
    dsimp only [service, KeyMap.service, view]
    rw [KeyStore.contains_toMap]
  | publicKey keyAlias =>
    refine Prod.ext ?_ rfl
    dsimp only [service, KeyMap.service, view]
    rw [hget, KeyStore.publicKey]
    cases store.find? keyAlias <;> rfl
  | importPrivateKey keyAlias privateKey overwrite =>
    dsimp only [service, KeyMap.service, view]
    rw [KeyMap.put_toMap, KeyStore.importKey]
    cases privateKey.publicKey with
    | error e => rfl
    | ok publicKey =>
      rw [Except.mapError, bind_of_ok rfl]
      dsimp only
      generalize store.put keyAlias _ overwrite = stored
      cases stored <;> rfl
  | deleteKey keyAlias =>
    dsimp only [service, KeyMap.service, view]
    rw [KeyStore.contains_toMap, KeyStore.toMap_erase]

end SoftwareKeys

namespace KeyService

variable {σ : Type}

/-- The state of a service after several calls, one after the other. -/
def after (service : KeyService σ) (s : σ) (calls : List Call) : σ :=
  calls.foldl (fun s call => (service.answer call s).2) s

/-- The alias that a call is about. -/
def Call.keyAlias : Call → String
  | .sign keyAlias _ _ => keyAlias
  | .generateKeyPair request => request.keyAlias
  | .containsKey keyAlias => keyAlias
  | .publicKey keyAlias => keyAlias
  | .importPrivateKey keyAlias _ _ => keyAlias
  | .deleteKey keyAlias => keyAlias

/-- The curve of the key that a call brings, if it brings one. -/
def Call.domain? : Call → Option Domain
  | .generateKeyPair request => some request.domain
  | .importPrivateKey _ key _ => some key.domain
  | _ => none

end KeyService

namespace SoftwareKeys

open KeyService

theorem view_after (calls : List Call) (keys : SoftwareKeys) :
    (service.after keys calls).view = KeyMap.service.after keys.view calls := by
  induction calls generalizing keys with
  | nil => rfl
  | cons call calls ih =>
    have hstep := congrArg Prod.snd (answer_view call keys)
    exact (ih _).trans (congrArg (KeyMap.service.after · calls) hstep.symm)

/-! ## What every call preserves -/

/-- What a call makes of a store: it leaves it, or it succeeds and puts in a key on the curve that
it brings, with the public key that belongs to it, or erases what there is under its alias. -/
inductive Changes (call : Call) (reply : Reply call) (store store' : KeyStore) : Prop where
  | kept (h : store' = store)
  | inserted (key : StoredKey) (hkey : key.privateKey.publicKey = .ok key.publicKey)
    (hdomain : call.domain? = some key.privateKey.domain) (hreply : ∃ answer, reply = .ok answer)
    (h : store' = store.insert call.keyAlias key)
  | erased (hreply : ∃ answer, reply = .ok answer) (h : store' = store.erase call.keyAlias)

theorem changes_answer (call : Call) (keys : SoftwareKeys) :
    Changes call (service.answer call keys).1 keys.store (service.answer call keys).2.store := by
  cases call with
  | sign keyAlias id data => exact .kept rfl
  | generateKeyPair request =>
    dsimp only [service, generate]
    cases hpublic : (PrivateKey.generate request.domain
        (keys.random.draw request.domain.randomLength).1).publicKey with
    | error e => exact .kept rfl
    | ok publicKey =>
      dsimp only
      split
      · exact .kept rfl
      next store hput =>
        obtain ⟨-, rfl⟩ := KeyStore.put_eq_ok.mp hput
        exact .inserted _ hpublic rfl ⟨_, rfl⟩ rfl
  | containsKey keyAlias => exact .kept rfl
  | publicKey keyAlias => exact .kept rfl
  | importPrivateKey keyAlias privateKey overwrite =>
    dsimp only [service]
    split
    · exact .kept rfl
    next store himport =>
      obtain ⟨publicKey, hpublic, hput⟩ := KeyStore.importKey_eq_ok.mp himport
      obtain ⟨-, rfl⟩ := KeyStore.put_eq_ok.mp hput
      exact .inserted _ hpublic rfl ⟨_, rfl⟩ rfl
  | deleteKey keyAlias => exact .erased ⟨_, rfl⟩ rfl

end SoftwareKeys

/-- A stored key has a curve that was obtained and the public key that it was stored with. -/
structure StoredKey.Paired (key : StoredKey) : Prop where
  domain : key.privateKey.domain.Obtained
  publicKey : key.privateKey.publicKey = .ok key.publicKey

/-- No alias has two entries, and every key is paired. -/
structure KeyStore.Tidy (store : KeyStore) : Prop where
  distinct : store.Distinct
  paired : ∀ keyAlias key, store.find? keyAlias = some key → key.Paired

theorem KeyStore.tidy_empty : KeyStore.empty.Tidy := ⟨distinct_empty, fun _ _ h => nomatch h⟩

namespace SoftwareKeys

open KeyService

variable {keys : SoftwareKeys}

theorem Changes.tidy {call : Call} {reply : Reply call} {store store' : KeyStore}
    (h : Changes call reply store store') (hdomain : ∀ d ∈ call.domain?, d.Obtained)
    (htidy : store.Tidy) : store'.Tidy := by
  cases h with
  | kept h => exact h ▸ htidy
  | inserted key hkey hbrought hreply h =>
    rw [h]
    refine ⟨htidy.distinct.insert, fun other found hfound => ?_⟩
    rw [KeyStore.find?_insert] at hfound
    split at hfound
    · cases hfound
      exact ⟨hdomain _ hbrought, hkey⟩
    · exact htidy.paired other found hfound
  | erased hreply h =>
    rw [h]
    refine ⟨htidy.distinct.erase, fun other found hfound => ?_⟩
    rw [KeyStore.find?_erase] at hfound
    split at hfound
    · cases hfound
    · exact htidy.paired other found hfound

theorem tidy_after (calls : List Call) (hcalls : ∀ call ∈ calls, ∀ d ∈ call.domain?, d.Obtained)
    (h : keys.store.Tidy) : (service.after keys calls).store.Tidy := by
  induction calls generalizing keys with
  | nil => exact h
  | cons call calls ih =>
    obtain ⟨hcall, hrest⟩ := List.forall_mem_cons.mp hcalls
    exact ih hrest ((changes_answer call keys).tidy hcall h)

/-! ## What can be relied on -/

/-- The keys are those of a finite map, from which every call is answered.  No call changes what is
under another alias than its own, and none that fails changes anything.  Each key is stored with
its public key, under which everything that is signed with it verifies. -/
structure Faithful (keys : SoftwareKeys) : Prop where
  find? : ∀ keyAlias, keys.store.find? keyAlias = keys.store.toMap[keyAlias]?
  size : keys.store.size = keys.store.toMap.size
  answer : ∀ call, KeyMap.service.answer call keys.view
    = ((service.answer call keys).1, (service.answer call keys).2.view)
  others : ∀ (call : Call) (other : String), other ≠ call.keyAlias →
    (service.answer call keys).2.store.find? other = keys.store.find? other
  failed : ∀ (call : Call) (e : KeyServiceError), (service.answer call keys).1 = .error e →
    (service.answer call keys).2.store = keys.store
  publicKey : ∀ keyAlias key, keys.store.find? keyAlias = some key →
    key.privateKey.publicKey = .ok key.publicKey
  verifies : ∀ (keyAlias : String) (id : ObjectId) (data signature : Bytes),
    (service.answer (.sign keyAlias id data) keys).1 = .ok signature →
      ∃ publicKey, (service.answer (.publicKey keyAlias) keys).1 = .ok publicKey ∧
        (publicKey.domain.p.Prime → publicKey.domain.order.Prime →
          (publicKey.withId id).verify data signature = .ok ())

theorem find?_answer_of_ne (call : Call) {other : String} (hother : other ≠ call.keyAlias) :
    (service.answer call keys).2.store.find? other = keys.store.find? other := by
  cases changes_answer call keys with
  | kept h => rw [h]
  | inserted key hkey hdomain hreply h => rw [h, KeyStore.find?_insert, if_neg hother]
  | erased hreply h => rw [h, KeyStore.find?_erase, if_neg hother]

theorem store_answer_of_error {call : Call} {e : KeyServiceError}
    (hfailed : (service.answer call keys).1 = .error e) :
    (service.answer call keys).2.store = keys.store := by
  cases changes_answer call keys with
  | kept h => exact h
  | inserted key hkey hdomain hreply h =>
    obtain ⟨answer, hanswer⟩ := hreply
    cases hfailed.symm.trans hanswer
  | erased hreply h =>
    obtain ⟨answer, hanswer⟩ := hreply
    cases hfailed.symm.trans hanswer

end SoftwareKeys

/-- A signature of a key that is stored with its public key verifies under it. -/
theorem KeyStore.Tidy.verify_of_sign {store : KeyStore} (h : store.Tidy) {keyAlias : String}
    {id : ObjectId} {data signature : Bytes} (hsign : store.sign keyAlias id data = .ok signature) :
    ∃ publicKey, store.publicKey keyAlias = .ok publicKey ∧
      (publicKey.domain.p.Prime → publicKey.domain.order.Prime →
        (publicKey.withId id).verify data signature = .ok ()) := by
  obtain ⟨algorithm, stored, halgorithm, hstored, hsigned⟩ := KeyStore.sign_eq_ok.mp hsign
  have hpaired := h.paired keyAlias stored hstored
  refine ⟨stored.publicKey, by rw [KeyStore.publicKey, hstored], fun hp horder => ?_⟩
  have hsame := (PrivateKey.publicKey_eq_ok.mp hpaired.publicKey).2.1
  have : Fact stored.privateKey.domain.p.Prime := ⟨hsame ▸ hp⟩
  have : Fact stored.privateKey.domain.order.Prime := ⟨hsame ▸ horder⟩
  rw [VerificationKey.verify, VerificationKey.algorithm, PublicKey.withId, bind_of_ok halgorithm]
  exact PrivateKey.verify_of_sign hpaired.domain.sound hpaired.publicKey hsigned

namespace SoftwareKeys

open KeyService

variable {keys : SoftwareKeys}

theorem faithful_of_tidy (h : keys.store.Tidy) : keys.Faithful where
  find? keyAlias := (keys.store.getElem?_toMap keyAlias).symm
  size := (KeyStore.size_toMap h.distinct).symm
  answer call := answer_view call keys
  others call _ hother := find?_answer_of_ne call hother
  failed _ _ hfailed := store_answer_of_error hfailed
  publicKey keyAlias key hkey := (h.paired keyAlias key hkey).publicKey
  verifies _ _ _ _ hsign := h.verify_of_sign hsign

/-- Whichever calls an empty store is asked for, with curves that were obtained, and whatever the
random bytes are: the keys are those that a finite map has after the same calls, and they are as
`Faithful` says. -/
theorem faithful_of_calls (random : RandomSource) (calls : List Call)
    (hcalls : ∀ call ∈ calls, ∀ d ∈ call.domain?, d.Obtained) :
    let keys := service.after ⟨.empty, random⟩ calls
    keys.view = KeyMap.service.after (∅, random) calls ∧ keys.Faithful := by
  intro keys
  exact ⟨view_after calls _, faithful_of_tidy (tidy_after calls hcalls KeyStore.tidy_empty)⟩

/-- A key from outside, another that is refused under the same alias, and one that is made. -/
theorem faithful_of_calls_small :
    let calls : List Call := [.importPrivateKey "A" ⟨Domain.small, [7]⟩ false,
      .importPrivateKey "A" ⟨Domain.small, [9]⟩ false,
      .generateKeyPair ⟨Domain.small, "B", none, false, 2⟩]
    let keys := service.after ⟨.empty, ⟨fun _ => 0, 0⟩⟩ calls
    keys.Faithful ∧ keys.store.toMap.size = 2 ∧
      keys.store.toMap["A"]?.map StoredKey.privateKey = some ⟨Domain.small, [7]⟩ := by
  intro calls keys
  have hcalls : ∀ call ∈ calls, ∀ d ∈ call.domain?, d.Obtained := by
    have hsmall : ∀ call ∈ calls, call.domain? = some Domain.small := by decide
    intro call hcall d hd
    cases (hsmall call hcall).symm.trans hd
    exact Domain.obtained_small
  have hfaithful := (faithful_of_calls ⟨fun _ => 0, 0⟩ calls hcalls).2
  refine ⟨hfaithful, ?_, ?_⟩
  · rw [← hfaithful.size]
    decide +kernel
  · rw [← hfaithful.find?]
    decide +kernel

end SoftwareKeys
end CardAccess

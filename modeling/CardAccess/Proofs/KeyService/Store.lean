import CardAccess.KeyService.Store
import CardAccess.Proofs.Key.Public
import CardAccess.Proofs.Signature.Ecdsa

/-!
# Keys in memory

A store is told by what is found in it.  Putting a key in changes what is found under one alias,
and a signature that a stored key makes verifies under the public key that belongs to it.
-/

namespace CardAccess

/-! ## Private keys -/

namespace PrivateKey

variable {key : PrivateKey} {publicKey : PublicKey}

theorem publicKey_eq_ok :
    key.publicKey = .ok publicKey ↔ key.domain.mulGenerator key.scalar.toNat = some publicKey.point ∧
      publicKey.domain = key.domain ∧ key.domain.contains publicKey.point = true := by
  rw [PrivateKey.publicKey]
  constructor
  · intro h
    split at h
    · cases h
    next point hpoint =>
    rw [PublicKey.create] at h
    split at h
    · next hcontains =>
      cases h
      exact ⟨hpoint, rfl, hcontains⟩
    · cases h
  · rintro ⟨hpoint, hdomain, hcontains⟩
    obtain ⟨domain, point⟩ := publicKey
    cases hdomain
    rw [hpoint]
    exact if_pos hcontains

/-- What a private key signs is checked with its public key. -/
theorem verify_of_sign [Fact key.domain.p.Prime] [Fact key.domain.order.Prime]
    (hdomain : key.domain.Sound) (hpublic : key.publicKey = .ok publicKey)
    {algorithm : SignatureAlgorithm} {message signature : Bytes}
    (h : key.sign algorithm message = .ok signature) :
    Ecdsa.verify publicKey.domain algorithm.hash publicKey.point message signature = .ok () := by
  obtain ⟨hpoint, hsame, hcontains⟩ := publicKey_eq_ok.mp hpublic
  rw [sign, Ecdsa.sign] at h
  split at h
  · cases h
  next hrange =>
  have hlt : key.scalar.toNat < key.domain.order := by omega
  obtain ⟨point, hmultiple, hon, hkey⟩ := Domain.exists_mulGenerator hdomain (by omega) hlt
  cases hmultiple.symm.trans hpoint
  have hsigns := Ecdsa.signs_signFrom hdomain algorithm.hash hon hkey message
    (NonceGenerator.draw key.domain.orderLength) Ecdsa.maxAttempts
    (Ecdsa.nonceSource key.domain algorithm.hash key.scalar.toNat
      (Ecdsa.messageScalar key.domain algorithm.hash message))
  rw [h] at hsigns
  rw [hsame]
  exact hsigns.2.2.2

end PrivateKey

/-! ## Stores -/

namespace KeyStore

variable {store store' : KeyStore} {keyAlias other : String} {key : StoredKey}

theorem lookup_filter_ne (entries : List (String × StoredKey)) (h : other ≠ keyAlias) :
    (entries.filter fun entry => entry.1 != keyAlias).lookup other = entries.lookup other := by
  induction entries with
  | nil => rfl
  | cons entry entries ih =>
    obtain ⟨name, stored⟩ := entry
    by_cases hname : name = keyAlias
    · have hskip : (other == name) = false := by
        rw [hname]
        exact beq_eq_false_iff_ne.mpr h
      rw [List.filter_cons_of_neg (by simp [hname]), ih, List.lookup_cons, hskip]
    · rw [List.filter_cons_of_pos (by simpa using hname), List.lookup_cons, List.lookup_cons, ih]

/-- The key that was put in is found under its alias, and what was there under others. -/
theorem find?_insert :
    (store.insert keyAlias key).find? other
      = if other = keyAlias then some key else store.find? other := by
  rw [find?, insert, List.lookup_cons]
  by_cases h : other = keyAlias
  · rw [if_pos h, h, beq_self_eq_true]
  · rw [if_neg h, beq_eq_false_iff_ne.mpr h]
    exact lookup_filter_ne store.entries h

theorem put_eq_ok {overwrite : Bool} :
    store.put keyAlias key overwrite = .ok store' ↔
      (overwrite = true ∨ store.find? keyAlias = none) ∧ store' = store.insert keyAlias key := by
  rw [put, contains]
  cases overwrite <;> cases store.find? keyAlias <;> simp [eq_comm]

theorem importKey_eq_ok {raw : PrivateKey} {overwrite : Bool} :
    store.importKey keyAlias raw overwrite = .ok store' ↔
      ∃ publicKey, raw.publicKey = .ok publicKey ∧
        store.put keyAlias ⟨raw, publicKey, none, none⟩ overwrite = .ok store' := by
  rw [importKey, bind_eq_ok]
  simp only [mapError_eq_ok]

theorem sign_eq_ok {id : ObjectId} {data signature : Bytes} :
    store.sign keyAlias id data = .ok signature ↔
      ∃ algorithm stored, SignatureAlgorithm.ofObjectId id = .ok algorithm ∧
        store.find? keyAlias = some stored ∧
        stored.privateKey.sign algorithm data = .ok signature := by
  rw [sign, bind_eq_ok]
  simp only [mapError_eq_ok]
  cases store.find? keyAlias with
  | none => simp
  | some stored => simp [mapError_eq_ok]

end KeyStore
end CardAccess

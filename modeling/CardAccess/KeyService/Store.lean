import CardAccess.KeyService.Dialogue

/-!
# Keys in memory

A key store maps aliases to keys; `find?` is its view, and every change says what
becomes of it.  The software key service answers calls from such a store and
draws new keys from a source of random bytes.
-/

namespace CardAccess

/-- A key under an alias.  A key that was brought in from outside has neither
issuer nor lifespan. -/
structure StoredKey where
  privateKey : PrivateKey
  publicKey : PublicKey
  issuerAlias : Option String
  lifespanMonths : Option Nat
  deriving DecidableEq, Repr

/-- Keys by alias, at most one for each. -/
structure KeyStore where
  entries : List (String × StoredKey)
  deriving DecidableEq, Repr

namespace KeyStore

def empty : KeyStore := ⟨[]⟩

def find? (store : KeyStore) (keyAlias : String) : Option StoredKey :=
  store.entries.lookup keyAlias

def contains (store : KeyStore) (keyAlias : String) : Bool := (store.find? keyAlias).isSome

def size (store : KeyStore) : Nat := store.entries.length

def erase (store : KeyStore) (keyAlias : String) : KeyStore :=
  ⟨store.entries.filter fun entry => entry.1 != keyAlias⟩

/-- The store with a key under an alias, in the place of any other. -/
def insert (store : KeyStore) (keyAlias : String) (key : StoredKey) : KeyStore :=
  ⟨(keyAlias, key) :: (store.erase keyAlias).entries⟩

/-- Put a key under an alias.  A key that is there is only replaced on request. -/
def put (store : KeyStore) (keyAlias : String) (key : StoredKey) (overwrite : Bool) :
    Except KeyServiceError KeyStore :=
  if !overwrite && store.contains keyAlias then .error (.keyExists keyAlias)
  else .ok (store.insert keyAlias key)

/-- Put a private key from outside under an alias, with its public key. -/
def importKey (store : KeyStore) (keyAlias : String) (key : PrivateKey) (overwrite : Bool) :
    Except KeyServiceError KeyStore := do
  let publicKey ← key.publicKey.mapError .crypto
  store.put keyAlias ⟨key, publicKey, none, none⟩ overwrite

/-- Sign with the key under an alias.  The algorithm is looked up before the
key. -/
def sign (store : KeyStore) (keyAlias : String) (id : ObjectId) (data : Bytes) :
    Except KeyServiceError Bytes := do
  let algorithm ← (SignatureAlgorithm.ofObjectId id).mapError .crypto
  match store.find? keyAlias with
  | none => .error (.keyNotFound keyAlias)
  | some key => (key.privateKey.sign algorithm data).mapError .crypto

def publicKey (store : KeyStore) (keyAlias : String) : Except KeyServiceError PublicKey :=
  match store.find? keyAlias with
  | none => .error (.keyNotFound keyAlias)
  | some key => .ok key.publicKey

end KeyStore

/-- Random bytes without end, of which `position` have been used. -/
structure RandomSource where
  byte : Nat → UInt8
  position : Nat

namespace RandomSource

def draw (source : RandomSource) (count : Nat) : Bytes × RandomSource :=
  ((List.range count).map fun i => source.byte (source.position + i),
    { source with position := source.position + count })

end RandomSource

/-- The state of the software key service. -/
structure SoftwareKeys where
  store : KeyStore
  random : RandomSource

namespace SoftwareKeys

/-- The keys of a store, for a service that is not asked to generate any. -/
def ofStore (store : KeyStore) : SoftwareKeys := ⟨store, ⟨fun _ => 0, 0⟩⟩

def generate (keys : SoftwareKeys) (request : KeyGeneration) :
    Except KeyServiceError GeneratedKeyPair × SoftwareKeys :=
  let (bytes, random) := keys.random.draw request.domain.randomLength
  -- the random bytes are used up also where the key is not stored
  let keys := { keys with random := random }
  let privateKey := PrivateKey.generate request.domain bytes
  match privateKey.publicKey with
  | .error e => (.error (.crypto e), keys)
  | .ok publicKey =>
    let stored : StoredKey :=
      ⟨privateKey, publicKey, request.issuerAlias, some request.lifespanMonths⟩
    match keys.store.put request.keyAlias stored request.overwrite with
    | .error e => (.error e, keys)
    | .ok store => (.ok ⟨publicKey, some privateKey⟩, { keys with store := store })

def service : KeyService SoftwareKeys where
  answer call keys :=
    match call with
    | .sign keyAlias id data => (keys.store.sign keyAlias id data, keys)
    | .generateKeyPair request => keys.generate request
    | .containsKey keyAlias => (.ok (keys.store.contains keyAlias), keys)
    | .publicKey keyAlias => (keys.store.publicKey keyAlias, keys)
    | .importPrivateKey keyAlias key overwrite =>
      match keys.store.importKey keyAlias key overwrite with
      | .error e => (.error e, keys)
      | .ok store => (.ok (), { keys with store := store })
    | .deleteKey keyAlias =>
      (.ok (keys.store.contains keyAlias), { keys with store := keys.store.erase keyAlias })

def lifespanMonths (keys : SoftwareKeys) (keyAlias : String) : Option Nat :=
  (keys.store.find? keyAlias).bind StoredKey.lifespanMonths

def issuerAlias (keys : SoftwareKeys) (keyAlias : String) : Option String :=
  (keys.store.find? keyAlias).bind StoredKey.issuerAlias

end SoftwareKeys
end CardAccess

import CardAccess.Cipher.Aes
import CardAccess.Cipher.Cbc
import CardAccess.Cipher.Cmac
import CardAccess.Messaging.Counter
import CardAccess.Messaging.Error

/-!
# Session keys

A session has one key to encrypt and one to compute checksums.  What is computed
with them always involves the current value of the counter, so that equal data
never looks equal on the way.
-/

namespace CardAccess
namespace Messaging

/-- Two AES keys of the same length. -/
structure SessionKeys where
  enc : Cipher.Aes.Key
  mac : Cipher.Aes.Key
  same_length : enc.bytes.length = mac.bytes.length
  deriving DecidableEq, Repr

namespace SessionKeys

def key (bytes : Bytes) : Except Error Cipher.Aes.Key :=
  match Cipher.Aes.Key.ofBytes? bytes with
  | some key => .ok key
  | none => .error (.invalidKeyLength bytes.length)

def ofBytes (enc mac : Bytes) : Except Error SessionKeys := do
  let enc ← key enc
  let mac ← key mac
  if h : enc.bytes.length = mac.bytes.length then .ok ⟨enc, mac, h⟩
  else .error .keyLengthMismatch

/-- The strength of the keys, but not the keys. -/
def debug (k : SessionKeys) : String :=
  "SessionKeys \x7b bits: " ++ toString k.enc.bits ++ ", .. \x7d"

/-- The value that enters the encryption of the first block. -/
def initialBlock (k : SessionKeys) (counter : Counter) : Cipher.Block :=
  (Cipher.Aes.cipher k.enc).encrypt counter.toBlock

def encrypt (k : SessionKeys) (counter : Counter) (data : Bytes) : Bytes :=
  Cipher.Cbc.encrypt (Cipher.Aes.cipher k.enc) (k.initialBlock counter) data

def decrypt (k : SessionKeys) (counter : Counter) (data : Bytes) : Except Error Bytes :=
  match Cipher.Cbc.decrypt? (Cipher.Aes.cipher k.enc) (k.initialBlock counter) data with
  | some plain => .ok plain
  | none => .error .padding

def checksumLength : Nat := 8

/-- The checksum of the counter and `input`, cut to its first bytes. -/
def checksum (k : SessionKeys) (counter : Counter) (input : Bytes) : Bytes :=
  (Cipher.Cmac.tag (Cipher.Aes.cipher k.mac) (counter.toBytes ++ input)).toBytes.take
    checksumLength

/-- Accept `received` only as the checksum of `input`. -/
def verify (k : SessionKeys) (counter : Counter) (input received : Bytes) : Except Error Unit :=
  if received = k.checksum counter input then .ok () else .error .checksumMismatch

end SessionKeys
end Messaging
end CardAccess

import CardAccess.Cipher.Block

/-!
# AES

Bytes are polynomials over the field with two elements, reduced modulo
`x ^ 8 + x ^ 4 + x ^ 3 + x + 1`; they form a field of 256 elements.  A round
substitutes each byte, shifts the rows of the block, mixes each column and adds a
round key; the last round does not mix.  Each step stands beside the one that
undoes it, and decryption goes through the round keys by the same recursion as
encryption, so that it undoes it whatever the round keys are.
-/

namespace CardAccess
namespace Cipher
namespace Aes

/-! ## The field of 256 elements -/

/-- The product with `x`. -/
def double (b : UInt8) : UInt8 := (b <<< 1) ^^^ (if b &&& 0x80 = 0 then 0 else 0x1B)

/-- The product of two elements, over the `count` low bits of the second. -/
def product : (count : Nat) → UInt8 → UInt8 → UInt8
  | 0, _, _ => 0
  | count + 1, a, b => (if b &&& 1 = 0 then 0 else a) ^^^ product count (double a) (b >>> 1)

def mul (a b : UInt8) : UInt8 := product 8 a b

/-- The element with which `b` has the product one, and zero for zero: the power
254 of `b`, as the product of the powers 2, 4, 8, 16, 32, 64 and 128. -/
def inverse (b : UInt8) : UInt8 :=
  go 7 (mul b b)
where
  go : Nat → UInt8 → UInt8
    | 0, _ => 1
    | count + 1, p => mul p (go count (mul p p))

/-! ## Substitution of bytes -/

/-- The bits of a byte moved up by `count` places, the highest coming back in. -/
def rotateLeft (b : UInt8) (count : UInt8) : UInt8 := (b <<< count) ||| (b >>> (8 - count))

/-- The byte that stands for `b`: an affine image of its inverse. -/
def substitution (b : UInt8) : UInt8 :=
  let i := inverse b
  i ^^^ rotateLeft i 1 ^^^ rotateLeft i 2 ^^^ rotateLeft i 3 ^^^ rotateLeft i 4 ^^^ 0x63

/-- The byte that `b` stands for. -/
def substituted (b : UInt8) : UInt8 :=
  inverse (rotateLeft b 1 ^^^ rotateLeft b 3 ^^^ rotateLeft b 6 ^^^ 0x05)

def tabulate (f : UInt8 → UInt8) : Vector UInt8 256 :=
  Vector.ofFn fun i => f (UInt8.ofNat i)

def lookUp (table : Vector UInt8 256) (b : UInt8) : UInt8 := table.get ⟨b.toNat, b.toNat_lt⟩

def substitutionTable : Vector UInt8 256 := tabulate substitution

def substitutedTable : Vector UInt8 256 := tabulate substituted

def substituteWord (w : Word) : Word := w.map (lookUp substitutionTable)

def substitute (b : Block) : Block := b.map substituteWord

def unsubstitute (b : Block) : Block := b.map fun w => w.map (lookUp substitutedTable)

/-! ## Rows and columns

The words of a block are its columns, and the bytes with one index in each of
them are a row. -/

/-- Move row `i` by `i` columns to the front. -/
def shiftRows (b : Block) : Block :=
  ⟨⟨b.w0.b0, b.w1.b1, b.w2.b2, b.w3.b3⟩, ⟨b.w1.b0, b.w2.b1, b.w3.b2, b.w0.b3⟩,
   ⟨b.w2.b0, b.w3.b1, b.w0.b2, b.w1.b3⟩, ⟨b.w3.b0, b.w0.b1, b.w1.b2, b.w2.b3⟩⟩

def unshiftRows (b : Block) : Block :=
  ⟨⟨b.w0.b0, b.w3.b1, b.w2.b2, b.w1.b3⟩, ⟨b.w1.b0, b.w0.b1, b.w3.b2, b.w2.b3⟩,
   ⟨b.w2.b0, b.w1.b1, b.w0.b2, b.w3.b3⟩, ⟨b.w3.b0, b.w2.b1, b.w1.b2, b.w0.b3⟩⟩

/-- The product of a column with the polynomial `3 y ^ 3 + y ^ 2 + y + 2`
modulo `y ^ 4 + 1`. -/
def mixColumn (w : Word) : Word :=
  let row (a b c d : UInt8) : UInt8 := double a ^^^ (double b ^^^ b) ^^^ c ^^^ d
  ⟨row w.b0 w.b1 w.b2 w.b3, row w.b1 w.b2 w.b3 w.b0,
   row w.b2 w.b3 w.b0 w.b1, row w.b3 w.b0 w.b1 w.b2⟩

/-- Undo `mixColumn`: the product with `11 y ^ 3 + 13 y ^ 2 + 9 y + 14`. -/
def unmixColumn (w : Word) : Word :=
  let times9 (b : UInt8) : UInt8 := double (double (double b)) ^^^ b
  let times11 (b : UInt8) : UInt8 := double (double (double b)) ^^^ double b ^^^ b
  let times13 (b : UInt8) : UInt8 := double (double (double b)) ^^^ double (double b) ^^^ b
  let times14 (b : UInt8) : UInt8 := double (double (double b)) ^^^ double (double b) ^^^ double b
  let row (a b c d : UInt8) : UInt8 := times14 a ^^^ times11 b ^^^ times13 c ^^^ times9 d
  ⟨row w.b0 w.b1 w.b2 w.b3, row w.b1 w.b2 w.b3 w.b0,
   row w.b2 w.b3 w.b0 w.b1, row w.b3 w.b0 w.b1 w.b2⟩

/-! ## Rounds -/

/-- Go through the rounds with the given round keys, the last without mixing. -/
def encryptRounds : List Block → Block → Block
  | [], b => b
  | [key], b => (shiftRows (substitute b)).xor key
  | key :: keys, b => encryptRounds keys (((shiftRows (substitute b)).map mixColumn).xor key)

def decryptRounds : List Block → Block → Block
  | [], b => b
  | [key], b => unsubstitute (unshiftRows (b.xor key))
  | key :: keys, b =>
    unsubstitute (unshiftRows (((decryptRounds keys b).xor key).map unmixColumn))

/-- The keys of the rounds, and the one that is added before the first. -/
structure Schedule where
  whitening : Block
  rounds : List Block
  deriving DecidableEq, Repr

def Schedule.cipher (s : Schedule) : BlockCipher where
  encrypt b := encryptRounds s.rounds (b.xor s.whitening)
  decrypt b := (decryptRounds s.rounds b).xor s.whitening

/-! ## Keys -/

def keyLengths : List Nat := [16, 24, 32]

/-- A key of one of the three lengths. -/
structure Key where
  bytes : Bytes
  length_mem : bytes.length ∈ keyLengths
  deriving DecidableEq, Repr

def Key.ofBytes? (bytes : Bytes) : Option Key :=
  if h : bytes.length ∈ keyLengths then some ⟨bytes, h⟩ else none

def Key.bits (k : Key) : Nat := k.bytes.length * 8

/-- The words of the round keys, `count` more than the `words` known so far.
Each is the sum of its predecessor and the word `period` places before; every
`period` words the predecessor is rotated, substituted and has a power of `x`
added, and in a long key it is substituted half-way through a period as well. -/
def expand (period : Nat) : (count : Nat) → (power : UInt8) → Array Word → Array Word
  | 0, _, words => words
  | count + 1, power, words =>
    let i := words.size
    let last := words.getD (i - 1) ⟨0, 0, 0, 0⟩
    let back := words.getD (i - period) ⟨0, 0, 0, 0⟩
    if i % period = 0 then
      let turned := (substituteWord last.rotate).xor ⟨power, 0, 0, 0⟩
      expand period count (double power) (words.push (back.xor turned))
    else if period > 6 ∧ i % period = 4 then
      expand period count power (words.push (back.xor (substituteWord last)))
    else expand period count power (words.push (back.xor last))

def blocks : List Word → List Block
  | w0 :: w1 :: w2 :: w3 :: rest => ⟨w0, w1, w2, w3⟩ :: blocks rest
  | _ => []

/-- The round keys of a key: one round for each of its words, and six more. -/
def Key.schedule (k : Key) : Schedule :=
  let words := (Bytes.chunks 4 k.bytes).map Word.ofBytes
  let period := words.length
  match blocks (expand period (4 * (period + 7) - period) 1 words.toArray).toList with
  | whitening :: rounds => ⟨whitening, rounds⟩
  | [] => ⟨.zero, []⟩

def cipher (k : Key) : BlockCipher := k.schedule.cipher

end Aes
end Cipher
end CardAccess

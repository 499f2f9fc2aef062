import CardAccess.Hash.Blocks

/-!
# SHA-1

Five 32-bit words, eighty rounds in four groups of twenty.  The schedule of a
block slides a window of sixteen words along.
-/

namespace CardAccess
namespace Hash
namespace Sha1

/-- The working words. -/
structure State where
  a : UInt32
  b : UInt32
  c : UInt32
  d : UInt32
  e : UInt32

/-- The bits of `x` moved left by `n`, those pushed out coming in on the right. -/
def rotateLeft (x : UInt32) (n : UInt32) : UInt32 := (x <<< n) ||| (x >>> (32 - n))

def start : State := ⟨0x67452301, 0xEFCDAB89, 0x98BADCFE, 0x10325476, 0xC3D2E1F0⟩

/-- The constant and the mixing function of a round, by its number. -/
def roundTerm (round : Nat) (b c d : UInt32) : UInt32 :=
  if round < 20 then 0x5A827999 + ((b &&& c) ||| (~~~b &&& d))
  else if round < 40 then 0x6ED9EBA1 + (b ^^^ c ^^^ d)
  else if round < 60 then 0x8F1BBCDC + ((b &&& c) ||| (b &&& d) ||| (c &&& d))
  else 0xCA62C1D6 + (b ^^^ c ^^^ d)

def State.round (s : State) (number : Nat) (w : UInt32) : State :=
  ⟨rotateLeft s.a 5 + roundTerm number s.b s.c s.d + s.e + w, s.a, rotateLeft s.b 30, s.c, s.d⟩

/-- The schedule word after the sixteen of the window. -/
def nextWord (window : List UInt32) : UInt32 :=
  rotateLeft (window.getD 13 0 ^^^ window.getD 8 0 ^^^ window.getD 2 0 ^^^ window.getD 0 0) 1

/-- Run the remaining rounds.  The window holds the next sixteen schedule words. -/
def rounds : (remaining : Nat) → (window : List UInt32) → State → State
  | remaining + 1, w :: window, s =>
    rounds remaining (window ++ [nextWord (w :: window)]) (s.round (80 - (remaining + 1)) w)
  | _, _, s => s

def compress (s : State) (block : Bytes) : State :=
  let window := (Bytes.chunks 4 block).map fun word => UInt32.ofNat word.toNat
  let t := rounds 80 window s
  ⟨s.a + t.a, s.b + t.b, s.c + t.c, s.d + t.d, s.e + t.e⟩

def State.toBytes (s : State) : Bytes :=
  [s.a, s.b, s.c, s.d, s.e].flatMap fun word => Bytes.fixed 4 word.toNat

def digest (message : Bytes) : Bytes := ((blocks 64 8 message).foldl compress start).toBytes

end Sha1
end Hash
end CardAccess

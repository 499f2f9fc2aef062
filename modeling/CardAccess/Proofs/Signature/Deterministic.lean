import CardAccess.Proofs.Hash
import CardAccess.Proofs.Signature.Verification

/-!
# Deterministic signatures

The nonces of `sign` come from a generator that hands out bytes by the block.  RFC 6979 describes
the procedure differently: bits are collected in a loop until there are as many as the order has,
and the loop around it goes on for as long as no number made of them is suitable.  Here the
procedure is written down as in section 3.2 there, without a limit, and `sign_of_accepts` says that
the signature is the one of the first suitable number, if that is among the first sixty-four, and
that there is none otherwise.
-/

namespace CardAccess
namespace Rfc6979

open Domain Ecdsa

/-! ## The procedure -/

/-- `bits2int`: as many bits as the order has, from the left, or all where there are fewer. -/
def ofBits (d : Domain) (bytes : Bytes) : Nat := bytes.leading (bitLength d.order)

/-- `int2octets`: as many octets as the bits of the order fill, the most significant one first. -/
def toOctets (d : Domain) (n : Nat) : Bytes :=
  let count := (bitLength d.order + 7) / 8
  (List.range count).map fun i => UInt8.ofNat (n / 256 ^ (count - 1 - i))

/-- `bits2octets`: the octets of a remainder modulo the order. -/
def bitsToOctets (d : Domain) (bytes : Bytes) : Bytes := toOctets d (ofBits d bytes % d.order)

/-- The variables `K` and `V`. -/
structure State where
  key : Bytes
  value : Bytes

/-- `K = HMAC_K(V || input)` and `V = HMAC_K(V)`. -/
def State.update (hash : HashAlgorithm) (state : State) (input : Bytes) : State :=
  let key := hash.hmac state.key (state.value ++ input)
  ⟨key, hash.hmac key state.value⟩

/-- Steps b to g, for the private key `x` and the digest of a message. -/
def State.initial (d : Domain) (hash : HashAlgorithm) (x : Nat) (digest : Bytes) : State :=
  let zeros := List.replicate hash.digestLength 0x00
  let ones := List.replicate hash.digestLength 0x01
  let octets := toOctets d x ++ bitsToOctets d digest
  ((State.mk zeros ones).update hash ([0x00] ++ octets)).update hash ([0x01] ++ octets)

/-- Steps h.1 and h.2: `V = HMAC_K(V)` and `T = T || V` while `T` has fewer bits than the order. -/
inductive Collects (d : Domain) (hash : HashAlgorithm) (key : Bytes) :
    (value bits value' bits' : Bytes) → Prop where
  | stop {value bits : Bytes} (enough : bitLength d.order ≤ 8 * bits.length) :
    Collects d hash key value bits value bits
  | next {value bits value' bits' : Bytes} (fewer : 8 * bits.length < bitLength d.order)
    (rest : Collects d hash key (hash.hmac key value) (bits ++ hash.hmac key value) value' bits') :
    Collects d hash key value bits value' bits'

section

variable {d : Domain} [Fact d.p.Prime] [Fact d.order.Prime]

/-- The number `k` is suitable for ECDSA: it is in range, and neither of the scalars `r` and `s`
that it gives is zero. -/
structure Suitable (h : d.Sound) (x e k r s : Nat) : Prop where
  one_le : 1 ≤ k
  lt_order : k < d.order
  r_eq : ∃ x', HasX (k • base h) x' ∧ r = x' % d.order
  s_eq : s = ((e + x * r : ZMod d.order) / k).val
  r_ne_zero : r ≠ 0
  s_ne_zero : s ≠ 0

/-- Step h.3: the candidate `i`, counted from zero, is the first one that is suitable, and gives
the scalars `r` and `s`.  After each candidate before, `K` and `V` are updated. -/
inductive Accepts (h : d.Sound) (hash : HashAlgorithm) (x e : Nat) :
    (state : State) → (i r s : Nat) → Prop where
  | accept {state : State} {value bits : Bytes} {r s : Nat}
    (collects : Collects d hash state.key state.value [] value bits)
    (suitable : Suitable h x e (ofBits d bits) r s) :
    Accepts h hash x e state 0 r s
  | reject {state : State} {value bits : Bytes} {i r s : Nat}
    (collects : Collects d hash state.key state.value [] value bits)
    (unsuitable : ∀ r s, ¬ Suitable h x e (ofBits d bits) r s)
    (later : Accepts h hash x e ((State.mk state.key value).update hash [0x00]) i r s) :
    Accepts h hash x e state (i + 1) r s

end

/-! ## Octets -/

theorem fixed_eq_map (width n : Nat) :
    Bytes.fixed width n
      = (List.range width).map fun i => UInt8.ofNat (n / 256 ^ (width - 1 - i)) := by
  induction width generalizing n with
  | zero => rfl
  | succ width ih =>
    have hlast : UInt8.ofNat (n % 256) = UInt8.ofNat (n / 256 ^ (width + 1 - 1 - width)) := by
      rw [Nat.add_sub_cancel, Nat.sub_self, Nat.pow_zero, Nat.div_one, ← UInt8.toNat_inj,
        UInt8.toNat_ofNat', UInt8.toNat_ofNat', Nat.mod_mod]
    rw [Bytes.fixed_succ, ih, List.range_succ, List.map_append, List.map_singleton, hlast]
    congr 1
    apply List.map_congr_left
    intro i hi
    have hi := List.mem_range.mp hi
    have hexponent : width + 1 - 1 - i = width - 1 - i + 1 := by omega
    rw [hexponent, Nat.div_div_eq_div_mul, Nat.pow_succ']

theorem toOctets_eq (d : Domain) (n : Nat) : toOctets d n = Bytes.fixed d.orderLength n :=
  (fixed_eq_map d.orderLength n).symm

/-! ## The generator -/

section generator

open NonceGenerator

variable {d : Domain} {g : NonceGenerator} {value bits : Bytes}

/-- The variables of a generator. -/
def State.ofGenerator (g : NonceGenerator) : State := ⟨g.key, g.value⟩

/-- The generator with one more value. -/
def renewed (g : NonceGenerator) : NonceGenerator :=
  { g with value := g.hash.hmac g.key g.value }

theorem generate_succ (blocks : Nat) (g : NonceGenerator) :
    generate (blocks + 1) g
      = ((renewed g).value ++ (generate blocks (renewed g)).1, (generate blocks (renewed g)).2) :=
  rfl

theorem length_renewed (g : NonceGenerator) : (renewed g).value.length = g.hash.digestLength :=
  g.hash.length_hmac g.key g.value

theorem generate_snd (blocks : Nat) (g : NonceGenerator) :
    (generate blocks g).2 = { g with value := (generate blocks g).2.value } := by
  induction blocks generalizing g with
  | zero => rfl
  | succ blocks ih =>
    rw [generate_succ]
    exact ih (renewed g)

theorem length_generate (blocks : Nat) (g : NonceGenerator) :
    (generate blocks g).1.length = blocks * g.hash.digestLength := by
  induction blocks generalizing g with
  | zero => exact (Nat.zero_mul _).symm
  | succ blocks ih =>
    rw [generate_succ, List.length_append, ih, length_renewed, Nat.succ_mul, Nat.add_comm]
    rfl

/-! ## Collecting bits -/

/-- Behind `length` bytes it takes `blocks` blocks of `size` bytes to have `count` bits, and no
fewer. -/
def Missing (count size length blocks : Nat) : Prop :=
  count ≤ 8 * (length + blocks * size) ∧ ∀ m < blocks, 8 * (length + m * size) < count

theorem Missing.succ {count size length blocks : Nat} (h : Missing count size length (blocks + 1)) :
    8 * length < count ∧ Missing count size (length + size) blocks := by
  have hmore (m : Nat) : length + (m + 1) * size = length + size + m * size := by
    rw [Nat.succ_mul]
    omega
  refine ⟨?_, ?_, ?_⟩
  · simpa using h.2 0 (Nat.succ_pos blocks)
  · rw [← hmore]
    exact h.1
  · intro m hm
    rw [← hmore]
    exact h.2 (m + 1) (Nat.succ_lt_succ hm)

/-- The loop collects the blocks that are missing, one by one. -/
theorem collects_iff {blocks : Nat} {front : Bytes}
    (h : Missing (bitLength d.order) g.hash.digestLength front.length blocks) :
    Collects d g.hash g.key g.value front value bits ↔
      value = (generate blocks g).2.value ∧ bits = front ++ (generate blocks g).1 := by
  induction blocks generalizing g front with
  | zero =>
    have henough : bitLength d.order ≤ 8 * front.length := by simpa using h.1
    constructor
    · intro hcollects
      cases hcollects with
      | stop => exact ⟨rfl, (List.append_nil _).symm⟩
      | next fewer => omega
    · rintro ⟨rfl, rfl⟩
      rw [generate, List.append_nil]
      exact .stop henough
  | succ blocks ih =>
    obtain ⟨hfewer, hmissing⟩ := h.succ
    have hlength : (front ++ (renewed g).value).length = front.length + g.hash.digestLength := by
      rw [List.length_append, length_renewed]
    rw [← hlength] at hmissing
    rw [generate_succ, ← List.append_assoc, ← ih (g := renewed g) hmissing]
    constructor
    · intro hcollects
      cases hcollects with
      | stop enough => omega
      | next fewer rest => exact rest
    · exact .next hfewer

/-- How many blocks the generator makes for a candidate. -/
def blockCount (d : Domain) (hash : HashAlgorithm) : Nat :=
  (d.orderLength + hash.digestLength - 1) / hash.digestLength

theorem orderLength_le (d : Domain) (hash : HashAlgorithm) :
    d.orderLength ≤ blockCount d hash * hash.digestLength := by
  have hpos := hash.digestLength_pos
  have hround : d.orderLength + hash.digestLength - 1
      < hash.digestLength * (blockCount d hash + 1) := Nat.lt_mul_div_succ _ hpos
  rw [Nat.mul_succ, Nat.mul_comm] at hround
  omega

/-- Rounding up to bytes and then to blocks is rounding up to blocks. -/
theorem missing_blockCount (d : Domain) (hash : HashAlgorithm) :
    Missing (bitLength d.order) hash.digestLength 0 (blockCount d hash) := by
  have hpos := hash.digestLength_pos
  have hbytes : d.orderLength = (bitLength d.order + 7) / 8 := rfl
  constructor
  · have := orderLength_le d hash
    omega
  · intro m hm
    have hblocks : (m + 1) * hash.digestLength ≤ d.orderLength + hash.digestLength - 1 :=
      (Nat.le_div_iff_mul_le hpos).mp hm
    rw [Nat.succ_mul] at hblocks
    omega

/-- The candidate that is made of the next bytes. -/
def candidate (d : Domain) (g : NonceGenerator) : Nat :=
  (draw d.orderLength g).1.toNat >>> excessBits d

/-- The bytes that are drawn have the leading bits of the blocks. -/
theorem candidate_eq (d : Domain) (g : NonceGenerator) :
    candidate d g = ofBits d (generate (blockCount d g.hash) g).1 := by
  have hbits : bitLength d.order ≤ 8 * d.orderLength := by
    have hbytes : d.orderLength = (bitLength d.order + 7) / 8 := rfl
    omega
  have hlength : ((generate (blockCount d g.hash) g).1.take d.orderLength).length
      = d.orderLength := by
    rw [List.length_take, length_generate, Nat.min_eq_left (orderLength_le d g.hash)]
  rw [ofBits, ← Bytes.leading_take hbits, Bytes.leading_eq, hlength, Nat.mul_comm 8]
  rfl

/-- After a candidate the variables are updated. -/
theorem draw_snd (d : Domain) (g : NonceGenerator) :
    (draw d.orderLength g).2.hash = g.hash ∧
      State.ofGenerator (draw d.orderLength g).2
        = (State.mk g.key (generate (blockCount d g.hash) g).2.value).update g.hash [0x00] := by
  have hmix : (draw d.orderLength g).2 = (generate (blockCount d g.hash) g).2.mix [0x00] := rfl
  rw [hmix, generate_snd]
  exact ⟨rfl, rfl⟩

theorem collects_draw (d : Domain) (g : NonceGenerator) :
    Collects d g.hash g.key g.value [] value bits ↔
      value = (generate (blockCount d g.hash) g).2.value ∧
        bits = (generate (blockCount d g.hash) g).1 :=
  collects_iff (missing_blockCount d g.hash)

/-- Steps b to g seed the generator. -/
theorem initial_eq (d : Domain) (hash : HashAlgorithm) (x : Nat) (message : Bytes) :
    State.ofGenerator (nonceSource d hash x (messageScalar d hash message))
      = State.initial d hash x (hash.digest message) := by
  rw [State.initial, bitsToOctets, toOctets_eq, toOctets_eq, ofBits, ← messageScalar_eq_leading]
  rfl

end generator

/-! ## Candidates -/

variable {d : Domain}

/-- The second scalar is a quotient of residues. -/
theorem second_scalar_eq [Fact d.order.Prime] {k : Nat} (hpos : 1 ≤ k) (hlt : k < d.order)
    (x e r : Nat) :
    Modular.inverse d.order k * ((e + r * x) % d.order) % d.order
      = ((e + x * r : ZMod d.order) / k).val := by
  rw [Nat.mul_comm, mul_inverse_mod hpos hlt, Modular.cast_mod]
  push_cast
  rw [mul_comm (r : ZMod d.order)]

theorem hasX_smul_base_iff [Fact d.p.Prime] (h : d.Sound) {k x : Nat} :
    HasX (k • base h) x ↔ ∃ point, d.mulGenerator k = some point ∧ point.x = x := by
  rw [hasX_iff, mulGenerator_eq_coordinates h]

variable [Fact d.p.Prime] [Fact d.order.Prime]

/-- An attempt succeeds with the suitable numbers. -/
theorem attempt_eq_some_iff (h : d.Sound) {x e k r s : Nat} :
    attempt d x e k = some (r, s) ↔ Suitable h x e k r s := by
  constructor
  · intro hattempt
    obtain ⟨⟨hpos, hlt⟩, ⟨point, hpoint, hr⟩, hr0, hs0, hs⟩ := attempt_eq_some hattempt
    exact
      { one_le := hpos
        lt_order := hlt
        r_eq := ⟨point.x, (hasX_smul_base_iff h).mpr ⟨point, hpoint, rfl⟩, hr.symm⟩
        s_eq := hs.trans (second_scalar_eq hpos hlt x e r)
        r_ne_zero := hr0
        s_ne_zero := hs0 }
  · intro hsuitable
    have hpos := hsuitable.one_le
    have hlt := hsuitable.lt_order
    obtain ⟨x', hx', hr⟩ := hsuitable.r_eq
    obtain ⟨point, hpoint, rfl⟩ := (hasX_smul_base_iff h).mp hx'
    have hs := hsuitable.s_eq.trans (second_scalar_eq hpos hlt x e r).symm
    rw [attempt, if_neg (by omega), hpoint]
    dsimp only
    rw [← hr, if_neg hsuitable.r_ne_zero, ← hs, if_neg hsuitable.s_ne_zero]

theorem attempt_eq_none_iff (h : d.Sound) {x e k : Nat} :
    attempt d x e k = none ↔ ∀ r s, ¬ Suitable h x e k r s := by
  simp only [← attempt_eq_some_iff h, Option.eq_none_iff_forall_ne_some, Prod.forall, Ne]

section

variable {h : d.Sound} {x e i r s : Nat} {g : NonceGenerator}

theorem accepts_zero_iff :
    Accepts h g.hash x e (.ofGenerator g) 0 r s ↔ attempt d x e (candidate d g) = some (r, s) := by
  rw [attempt_eq_some_iff h, candidate_eq]
  constructor
  · intro haccepts
    cases haccepts with
    | accept collects suitable =>
      obtain ⟨-, rfl⟩ := (collects_draw d g).mp collects
      exact suitable
  · exact .accept ((collects_draw d g).mpr ⟨rfl, rfl⟩)

/-- A later candidate is accepted where the first one is not and the generator has moved on. -/
theorem accepts_succ_iff :
    Accepts h g.hash x e (.ofGenerator g) (i + 1) r s ↔
      attempt d x e (candidate d g) = none ∧
        let later := (NonceGenerator.draw d.orderLength g).2
        Accepts h later.hash x e (.ofGenerator later) i r s := by
  dsimp only
  rw [attempt_eq_none_iff h, candidate_eq, (draw_snd d g).1, (draw_snd d g).2]
  constructor
  · intro haccepts
    cases haccepts with
    | reject collects unsuitable later =>
      obtain ⟨rfl, rfl⟩ := (collects_draw d g).mp collects
      exact ⟨unsuitable, later⟩
  · rintro ⟨hunsuitable, hlater⟩
    exact .reject ((collects_draw d g).mpr ⟨rfl, rfl⟩) hunsuitable hlater

end

/-- What the procedure comes to if it is given up after some number of candidates. -/
def Limited (h : d.Sound) (hash : HashAlgorithm) (x e attempts : Nat) (state : State)
    (result : Except Error Bytes) : Prop :=
  (∀ i r s, Accepts h hash x e state i r s → i < attempts →
      result = .ok (toOctets d r ++ toOctets d s)) ∧
    ((∀ i r s, Accepts h hash x e state i r s → attempts ≤ i) → result = .error .noUsableNonce)

theorem limited_signFrom (h : d.Sound) (x e attempts : Nat) (g : NonceGenerator) :
    Limited h g.hash x e attempts (.ofGenerator g)
      (signFrom d x e (NonceGenerator.draw d.orderLength) attempts g) := by
  induction attempts generalizing g with
  | zero => exact ⟨fun i r s _ hi => absurd hi (Nat.not_lt_zero i), fun _ => rfl⟩
  | succ attempts ih =>
    have hlater := ih (NonceGenerator.draw d.orderLength g).2
    have hcandidate : attempt d x e ((NonceGenerator.draw d.orderLength g).1.toNat >>> excessBits d)
        = attempt d x e (candidate d g) := rfl
    rw [signFrom]
    dsimp only
    rw [hcandidate]
    -- the first candidate decides, and after one that is not suitable the procedure goes on as it
    -- does from the generator as drawing has left it
    cases hattempt : attempt d x e (candidate d g) with
    | some scalars =>
      obtain ⟨r, s⟩ := scalars
      constructor
      · intro i r' s' haccepts hi
        cases i with
        | zero =>
          cases hattempt.symm.trans (accepts_zero_iff.mp haccepts)
          rw [toOctets_eq, toOctets_eq]
          rfl
        | succ i => cases hattempt.symm.trans (accepts_succ_iff.mp haccepts).1
      · intro hlate
        exact absurd (hlate 0 r s (accepts_zero_iff.mpr hattempt)) (Nat.not_succ_le_zero attempts)
    | none =>
      constructor
      · intro i r s haccepts hi
        cases i with
        | zero => cases hattempt.symm.trans (accepts_zero_iff.mp haccepts)
        | succ i => exact hlater.1 i r s (accepts_succ_iff.mp haccepts).2 (Nat.lt_of_succ_lt_succ hi)
      · intro hlate
        apply hlater.2
        intro i r s haccepts
        exact Nat.le_of_succ_le_succ
          (hlate (i + 1) r s (accepts_succ_iff.mpr ⟨hattempt, haccepts⟩))

/-! ## Signing -/

/-- Signing gives the scalars of the first suitable candidate in their octets, one after the other,
if it is among the first sixty-four of the procedure for the private key and the digest, and else
fails for the lack of one. -/
theorem sign_of_accepts (h : d.Obtained) (hash : HashAlgorithm) {x : Nat} (hpos : 1 ≤ x)
    (hlt : x < d.order) (message : Bytes) :
    let digest := hash.digest message
    let accepted := Accepts h.sound hash x (ofBits d digest) (.initial d hash x digest)
    (∀ i r s, accepted i r s → i < 64 →
        sign d hash x message = .ok (toOctets d r ++ toOctets d s)) ∧
      ((∀ i r s, accepted i r s → 64 ≤ i) →
        sign d hash x message = .error .noUsableNonce) := by
  intro digest accepted
  have hlimited := limited_signFrom h.sound x (messageScalar d hash message) maxAttempts
    (nonceSource d hash x (messageScalar d hash message))
  have hsigned : sign d hash x message = signFrom d x (messageScalar d hash message)
      (NonceGenerator.draw d.orderLength) maxAttempts
      (nonceSource d hash x (messageScalar d hash message)) := by
    rw [sign, if_neg (by omega)]
  rw [initial_eq, messageScalar_eq_leading] at hlimited
  rw [hsigned, messageScalar_eq_leading]
  exact hlimited

/-- A signature on the curve of nineteen points, from the five leading bits of the first byte. -/
theorem sign_small : sign small .sha1 7 [0x62] = .ok [6, 12] := by
  have haccepted : Accepts obtained_small.sound .sha1 7
      (ofBits small (HashAlgorithm.sha1.digest [0x62]))
      (.initial small .sha1 7 (HashAlgorithm.sha1.digest [0x62])) 0 6 12 := by
    rw [← initial_eq, ofBits, ← messageScalar_eq_leading]
    have hfirst : attempt small 7 (messageScalar small .sha1 [0x62]) (candidate small
        (nonceSource small .sha1 7 (messageScalar small .sha1 [0x62]))) = some (6, 12) := by
      rw [candidate]
      exact attempt_small
    exact accepts_zero_iff.mpr hfirst
  exact (sign_of_accepts obtained_small .sha1 (by decide) (by decide) [0x62]).1 0 6 12 haccepted
    (by decide)

end Rfc6979
end CardAccess

import CardAccess.Proofs.Messaging.Form
import CardAccess.Proofs.Messaging.Protection

/-!
# The expected length in both forms of a command

A command says in two places how many bytes of response it expects: behind its data
when it goes out plain, and in an object of its own when it is protected.  Two bytes
hold no more than 65536, written as zero.  The plain form saturates there, and writes
zero, which stands for the greatest length, also for a command that expects zero.  The
protected form keeps the low 16 bits, and has no object for zero.  `sameNe_iff` says
which commands ask for the same length in both forms.
-/

namespace CardAccess
namespace Messaging
namespace Command

/-! ## The plain form -/

/-- The length for which the plain form asks. -/
def asked (extended : Bool) (n : UInt32) : UInt32 :=
  if n = 0 then (if extended then extendedExpectedMax else shortExpectedMax)
  else if extendedExpectedMax ≤ n then extendedExpectedMax
  else n

/-- The command that the bytes of `c` stand for.  Data that is there but empty does not
show in them. -/
def written (c : Command) : Command :=
  { c with
    data := if c.nc = 0 then none else some c.content
    expected := c.expected.map (asked c.isExtended) }

variable {c : Command} {n : UInt32}

theorem asked_le (h : n ≤ shortExpectedMax) : asked false n ≤ shortExpectedMax := by
  have hle : n.toNat ≤ 256 := h
  have hbelow : ¬ extendedExpectedMax ≤ n := by
    show ¬ 65536 ≤ n.toNat
    omega
  rw [asked, if_neg hbelow]
  split
  · exact UInt32.le_refl _
  · exact h

theorem lt_asked (h : shortExpectedMax < n) (extended : Bool) :
    shortExpectedMax < asked extended n := by
  have hlt : 256 < n.toNat := h
  have hpos : ¬ n = 0 := by
    intro hzero
    rw [hzero] at hlt
    exact absurd hlt (by decide)
  rw [asked, if_neg hpos]
  split
  · decide
  · exact h

theorem toNat_asked (hpos : n ≠ 0) (extended : Bool) :
    (asked extended n).toNat = min n.toNat 65536 := by
  rw [asked, if_neg hpos]
  by_cases hmax : extendedExpectedMax ≤ n
  · have hle : 65536 ≤ n.toNat := hmax
    rw [if_pos hmax]
    show 65536 = min n.toNat 65536
    omega
  · have hlt : ¬ 65536 ≤ n.toNat := hmax
    rw [if_neg hmax]
    omega

/-- Both lengths are written alike. -/
theorem expectedField_asked {extended : Bool} (nc : Nat)
    (hshort : extended = false → n ≤ shortExpectedMax) :
    expectedField extended nc (asked extended n) = expectedField extended nc n := by
  cases extended with
  | true =>
    by_cases hzero : n = 0
    · rw [hzero]
      rfl
    · by_cases hmax : extendedExpectedMax ≤ n
      · rw [asked, if_neg hzero, if_pos hmax, expectedField, expectedField, if_pos hmax]
        rfl
      · rw [asked, if_neg hzero, if_neg hmax]
  | false =>
    by_cases hzero : n = 0
    · rw [hzero]
      rfl
    · have hle : n.toNat ≤ 256 := hshort rfl
      have hbelow : ¬ extendedExpectedMax ≤ n := by
        show ¬ 65536 ≤ n.toNat
        omega
      rw [asked, if_neg hzero, if_neg hbelow]

theorem content_written (c : Command) : c.written.content = c.content := by
  by_cases hnc : c.nc = 0
  · have hempty : c.content = [] := List.length_eq_zero_iff.mp hnc
    have hnone : c.written.data = none := if_pos hnc
    rw [content_of_none hnone, hempty]
  · exact content_of_some (if_neg hnc)

theorem nc_written (c : Command) : c.written.nc = c.nc := by
  rw [nc, content_written, nc]

theorem expected_written_of_none (h : c.expected = none) : c.written.expected = none := by
  rw [written, h]
  rfl

theorem expected_written {n : UInt32} (h : c.expected = some n) :
    c.written.expected = some (asked c.isExtended n) := by
  rw [written, h]
  rfl

theorem isExtended_written (c : Command) : c.written.isExtended = c.isExtended := by
  by_cases hlong : shortDataMax < c.nc
  · have hlong' : shortDataMax < c.written.nc := by rwa [nc_written]
    rw [isExtended, isExtended, decide_eq_true hlong, decide_eq_true hlong', Bool.true_or,
      Bool.true_or]
  · rw [isExtended, isExtended, nc_written, decide_eq_false hlong, Bool.false_or, Bool.false_or,
      decide_eq_decide]
    cases hn : c.expected with
    | none =>
      rw [ne_of_none hn, ne_of_none (expected_written_of_none hn)]
    | some n =>
      rw [ne_of_some hn, ne_of_some (expected_written hn)]
      refine ⟨fun hlt => ?_, fun hlt => lt_asked hlt _⟩
      -- With a short length the command is short, and so is the length it asks for.
      by_cases hshort : shortExpectedMax < n
      · exact hshort
      · have hle := UInt32.not_lt.mp hshort
        have hextended : c.isExtended = false := by
          apply isExtended_eq_false (Nat.le_of_not_lt hlong)
          rwa [ne_of_some hn]
        rw [hextended] at hlt
        exact absurd hlt (UInt32.not_lt.mpr (asked_le hle))

theorem expectedPart_written (c : Command) : c.written.expectedPart = c.expectedPart := by
  cases hn : c.expected with
  | none =>
    rw [expectedPart, expectedPart, hn, expected_written_of_none hn]
  | some n =>
    have hshort (h : c.isExtended = false) : n ≤ shortExpectedMax := by
      rw [← ne_of_some hn]
      exact (not_isExtended h).2
    rw [expectedPart, expectedPart, hn, expected_written hn, isExtended_written, nc_written]
    exact expectedField_asked c.nc hshort

theorem toBytes_written (c : Command) : c.written.toBytes = c.toBytes := by
  have hheader : c.written.header = c.header := rfl
  by_cases hlong : extendedDataMax < c.nc
  · rw [toBytes, toBytes, nc_written, if_pos hlong, if_pos hlong]
  · have hfits := Nat.le_of_not_lt hlong
    have hfits' : c.written.nc ≤ extendedDataMax := by rwa [nc_written]
    rw [toBytes_eq hfits, toBytes_eq hfits', hheader, content_written, isExtended_written,
      expectedPart_written]

theorem toNat_asked_bounds (extended : Bool) (n : UInt32) :
    1 ≤ (asked extended n).toNat ∧ (asked extended n).toNat ≤ 65536 := by
  by_cases hzero : n = 0
  · rw [hzero]
    cases extended <;> decide
  · have hpos : n.toNat ≠ 0 := fun h => hzero (UInt32.toNat_inj.mp h)
    rw [toNat_asked hzero]
    omega

theorem writable_written (h : c.nc ≤ extendedDataMax) : c.written.Writable where
  data := by
    intro data hdata
    have hcontent := content_of_some hdata
    rw [content_written] at hcontent
    rw [← hcontent]
    refine ⟨?_, h⟩
    show 1 ≤ c.nc
    by_cases hnc : c.nc = 0
    · rw [written, if_pos hnc] at hdata
      cases hdata
    · omega
  expected := by
    intro n hn
    obtain ⟨m, -, rfl⟩ := Option.map_eq_some_iff.mp hn
    exact toNat_asked_bounds _ m

theorem nc_le_of_toBytes {bytes : Bytes} (h : c.toBytes = .ok bytes) : c.nc ≤ extendedDataMax := by
  by_cases hlong : extendedDataMax < c.nc
  · rw [toBytes, if_pos hlong] at h
    cases h
  · exact Nat.le_of_not_lt hlong

/-- The bytes of a command are read as the command for which they stand. -/
theorem ofBytes_toBytes_written {bytes : Bytes} (h : c.toBytes = .ok bytes) :
    ofBytes bytes = .ok c.written := by
  obtain ⟨bytes', hwritten, hread⟩ := (writable_written (nc_le_of_toBytes h)).readsBack
  rw [toBytes_written, h] at hwritten
  rw [Except.ok.inj hwritten, hread]

/-! ## The protected form -/

/-- The length that two bytes keep of `n`, and none for zero. -/
def carried (n : UInt32) : UInt32 :=
  if n = 0 then 0
  else if n.toNat % 65536 = 0 then extendedExpectedMax
  else UInt32.ofNat (n.toNat % 65536)

theorem toNat_carried (n : UInt32) :
    (carried n).toNat = if n = 0 then 0 else if n.toNat % 65536 = 0 then 65536
      else n.toNat % 65536 := by
  rw [carried]
  split
  · rfl
  · split
    · rfl
    · rw [UInt32.toNat_ofNat']
      omega

theorem carried_of_le {n : UInt32} (hle : n ≤ extendedExpectedMax) : carried n = n := by
  have hle : n.toNat ≤ 65536 := hle
  apply UInt32.toNat_inj.mp
  rw [toNat_carried]
  split
  · next hzero => rw [hzero]; rfl
  · next hpos =>
    have hpos : n.toNat ≠ 0 := fun h => hpos (UInt32.toNat_inj.mp h)
    split <;> omega

/-- The expected length in a protected command: what its object says, and zero if there
is none. -/
def protectedNe (p : Command) : Except Error UInt32 := do
  let objects ← (Tlv.parseAll p.content).mapError .tlv
  match objects.find? fun object => object.tag = DataObject.expectedTag with
  | none => .ok 0
  | some object => DataObject.expectedOf object

/-- Two bytes hold the low bits of a greater length. -/
theorem expectedOf_fixed (n : UInt32) :
    DataObject.expectedOf (.primitive DataObject.expectedTag (Bytes.fixed 2 n.toNat))
      = .ok (if n.toNat % 65536 = 0 then extendedExpectedMax
          else UInt32.ofNat (n.toNat % 65536)) := by
  have hlow : Bytes.fixed 2 n.toNat = Bytes.fixed 2 (n.toNat % 65536) :=
    (Bytes.fixed_mod 2 n.toNat).symm
  rw [hlow]
  by_cases hzero : n.toNat % 65536 = 0
  · rw [if_pos hzero, hzero]
    rfl
  · have hnat : (UInt32.ofNat (n.toNat % 65536)).toNat = n.toNat % 65536 := by
      rw [UInt32.toNat_ofNat']
      omega
    have hpos : UInt32.ofNat (n.toNat % 65536) ≠ 0 := by
      intro h
      rw [h] at hnat
      exact hzero hnat.symm
    have hbelow : ¬ extendedExpectedMax ≤ UInt32.ofNat (n.toNat % 65536) := by
      show ¬ 65536 ≤ (UInt32.ofNat (n.toNat % 65536)).toNat
      omega
    obtain ⟨high, low, hfield, hread⟩ :=
      extendedExpected_fixed hpos (UInt32.le_of_lt (UInt32.not_le.mp hbelow))
    rw [if_neg hbelow, hnat] at hfield
    rw [if_neg hzero, hfield]
    show Except.ok (extendedExpected high low) = _
    rw [hread]

theorem expectedOf_carried {extended : Bool} {n : UInt32} (hpos : n ≠ 0)
    (hshort : extended = false → n ≤ shortExpectedMax) :
    ∃ value, DataObject.expectedValue? extended n = some value ∧
      DataObject.expectedOf (.primitive DataObject.expectedTag value) = .ok (carried n) := by
  by_cases hle : n ≤ extendedExpectedMax
  · rw [carried_of_le hle]
    exact DataObject.expectedOf_expectedValue? hpos hle hshort
  · have hlt : ¬ n.toNat ≤ 65536 := hle
    have hne (max : UInt32) (hmax : max.toNat ≤ 65536) : ¬ n = max := by
      intro h
      rw [h] at hlt
      exact hlt hmax
    have hwide : extended = true := by
      cases extended with
      | true => rfl
      | false =>
        have hshort : n.toNat ≤ 256 := hshort rfl
        omega
    refine ⟨Bytes.fixed 2 n.toNat, ?_, ?_⟩
    · rw [DataObject.expectedValue?, if_neg hpos, if_neg (fun h => hne _ (by decide) h.1),
        if_neg (hne _ (by decide)), if_pos hwide]
    · rw [expectedOf_fixed, carried, if_neg hpos]

/-- The data and the checksum are not taken for an expected length. -/
theorem find?_protectedObjects (keys : SessionKeys) (counter : Counter) (c : Command) :
    (protectedObjects keys counter c).find? (fun object => object.tag = DataObject.expectedTag)
      = (expectedObjects c).head? := by
  have hdata : (dataObjects keys counter c).find?
      (fun object => object.tag = DataObject.expectedTag) = none := by
    rw [dataObjects, DataObject.cryptogram]
    split
    · rfl
    · split <;> rfl
  rw [protectedObjects, coveredObjects_eq, List.append_assoc, List.find?_append, hdata,
    expectedObjects]
  cases DataObject.expectedValue? c.isExtended c.ne with
  | none => rfl
  | some value => rfl

theorem protectedNe_protectedForm (hfits : c.Protectable) (keys : SessionKeys)
    (counter : Counter) : (protectedForm keys counter c).protectedNe = .ok (carried c.ne) := by
  have hparse : (Tlv.parseAll (protectedForm keys counter c).content).mapError Error.tlv
      = .ok (protectedObjects keys counter c) :=
    congrArg (Except.mapError Error.tlv) (parseAll_protectedData hfits)
  rw [protectedNe, bind_of_ok hparse, find?_protectedObjects, expectedObjects]
  by_cases hzero : c.ne = 0
  · rw [hzero, DataObject.expectedValue?_zero]
    rfl
  · obtain ⟨value, hvalue, hread⟩ :=
      expectedOf_carried hzero fun hshort => (not_isExtended hshort).2
    rw [hvalue]
    exact hread

/-! ## Both forms -/

/-- A saturated length is the low bits of the same length only where both are the length
itself, or where the low bits are zero and so stand for the greatest length. -/
theorem carried_eq_asked_iff (extended : Bool) (n : UInt32) :
    carried n = asked extended n ↔ n ≠ 0 ∧ (n.toNat ≤ 65536 ∨ n.toNat % 65536 = 0) := by
  by_cases hzero : n = 0
  · have hpos := (toNat_asked_bounds extended n).1
    have hne : carried n ≠ asked extended n := by
      intro h
      rw [← h, toNat_carried, if_pos hzero] at hpos
      exact absurd hpos (by decide)
    exact ⟨fun h => absurd h hne, fun h => absurd hzero h.1⟩
  · have hpos : n.toNat ≠ 0 := fun h => hzero (UInt32.toNat_inj.mp h)
    rw [← UInt32.toNat_inj, toNat_carried, if_neg hzero, toNat_asked hzero]
    constructor
    · intro h
      refine ⟨hzero, ?_⟩
      split at h <;> omega
    · rintro ⟨-, h⟩
      split <;> omega

theorem carried_eq_ne_written_iff (c : Command) :
    carried c.ne = c.written.ne ↔ c.expected = none ∨
      ∃ n, c.expected = some n ∧ n ≠ 0 ∧ (n.toNat ≤ 65536 ∨ n.toNat % 65536 = 0) := by
  cases hn : c.expected with
  | none =>
    rw [ne_of_none hn, ne_of_none (expected_written_of_none hn)]
    exact ⟨fun _ => .inl rfl, fun _ => rfl⟩
  | some n =>
    rw [ne_of_some hn, ne_of_some (expected_written hn), carried_eq_asked_iff]
    constructor
    · intro h
      exact .inr ⟨n, rfl, h⟩
    · rintro (hnone | ⟨m, hm, h⟩)
      · cases hnone
      · cases hm
        exact h

section

variable {s s' : Session} {p : Command} {bytes : Bytes}

theorem protectedNe_of_encipher (hsent : s.encipher c = (.ok p, s')) :
    p.protectedNe = .ok (carried c.ne) := by
  have hfits : c.Protectable := ⟨s, p, s', hsent⟩
  rw [Session.encipher] at hsent
  split at hsent
  · cases hsent
  · next keys _ =>
    injection hsent with hprotect
    rw [(protect_eq_ok.mp hprotect).2]
    exact protectedNe_protectedForm hfits keys _

/-- The two forms of a command ask for the same length just if none is expected, or one
that is not zero and either fits two bytes or has nothing in its low 16 bits. -/
theorem sameNe_iff (hsent : s.encipher c = (.ok p, s')) (hwritten : c.toBytes = .ok bytes) :
    ∃ plain n, ofBytes bytes = .ok plain ∧ p.protectedNe = .ok n ∧
      (n = plain.ne ↔ c.expected = none ∨
        ∃ n, c.expected = some n ∧ n ≠ 0 ∧ (n.toNat ≤ 65536 ∨ n.toNat % 65536 = 0)) :=
  ⟨c.written, carried c.ne, ofBytes_toBytes_written hwritten, protectedNe_of_encipher hsent,
    carried_eq_ne_written_iff c⟩

end

/-- Twice the greatest length is the greatest length in both forms. -/
theorem sameNe_iff_twice :
    let keys : SessionKeys := ⟨⟨Bytes.zeros 16, by decide⟩, ⟨Bytes.zeros 16, by decide⟩, rfl⟩
    let s := Session.start keys (.ofNat 0)
    let read : Command := ⟨0x00, 0xB0, 0x00, 0x00, none, some 131072⟩
    let p := protectedForm keys (.ofNat 1) read
    s.encipher read = (.ok p, s.advance) ∧
      read.toBytes = .ok [0x00, 0xB0, 0x00, 0x00, 0x00, 0x00, 0x00] ∧
      ∃ plain n, ofBytes [0x00, 0xB0, 0x00, 0x00, 0x00, 0x00, 0x00] = .ok plain ∧
        p.protectedNe = .ok n ∧ n = plain.ne := by
  intro keys s read p
  have hfits : read.Protectable := protectable_iff.mpr (by decide)
  have hsent : s.encipher read = (.ok p, s.advance) :=
    Prod.ext (protect_of_protectable hfits keys _) rfl
  have hwritten : read.toBytes = .ok [0x00, 0xB0, 0x00, 0x00, 0x00, 0x00, 0x00] := by decide
  obtain ⟨plain, n, hread, hprotected, hiff⟩ := sameNe_iff hsent hwritten
  exact ⟨hsent, hwritten, plain, n, hread, hprotected,
    hiff.mpr (.inr ⟨131072, rfl, by decide, .inr (by decide)⟩)⟩

/-- One more than the greatest length is 65536 in the plain form and 1 in the protected
one, and zero is 256 in the plain form and nothing in the protected one. -/
theorem unequal_expected :
    let keys : SessionKeys := ⟨⟨Bytes.zeros 16, by decide⟩, ⟨Bytes.zeros 16, by decide⟩, rfl⟩
    let s := Session.start keys (.ofNat 0)
    let most : Command := ⟨0x00, 0xB0, 0x00, 0x00, none, some 65537⟩
    let least : Command := ⟨0x00, 0xB0, 0x00, 0x00, none, some 0⟩
    (∃ p plain, s.encipher most = (.ok p, s.advance) ∧
      most.toBytes = .ok [0x00, 0xB0, 0x00, 0x00, 0x00, 0x00, 0x00] ∧
      ofBytes [0x00, 0xB0, 0x00, 0x00, 0x00, 0x00, 0x00] = .ok plain ∧
      p.protectedNe = .ok 1 ∧ plain.ne = 65536) ∧
    ∃ p plain, s.encipher least = (.ok p, s.advance) ∧
      least.toBytes = .ok [0x00, 0xB0, 0x00, 0x00, 0x00] ∧
      ofBytes [0x00, 0xB0, 0x00, 0x00, 0x00] = .ok plain ∧
      p.protectedNe = .ok 0 ∧ plain.ne = 256 := by
  intro keys s most least
  have hsent {c : Command} (h : c.protectedLength ≤ extendedDataMax) :
      s.encipher c = (.ok (protectedForm keys (.ofNat 1) c), s.advance) :=
    Prod.ext (protect_eq_ok.mpr ⟨h, rfl⟩) rfl
  have hmost := hsent (c := most) (by decide)
  have hleast := hsent (c := least) (by decide)
  have hcarried : carried most.ne = 1 ∧ carried least.ne = 0 := by decide
  have hmostNe := protectedNe_of_encipher hmost
  have hleastNe := protectedNe_of_encipher hleast
  rw [hcarried.1] at hmostNe
  rw [hcarried.2] at hleastNe
  exact ⟨⟨_, _, hmost, by decide, rfl, hmostNe, rfl⟩, ⟨_, _, hleast, by decide, rfl, hleastNe, rfl⟩⟩

end Command
end Messaging
end CardAccess

import CardAccess.Messaging.Command
import CardAccess.Proofs.Bytes
import CardAccess.Proofs.Tlv.Cursor

/-!
# Commands in bytes

`ofBytes_toBytes`: a command reads back from its bytes if its data is absent or
not empty, fits an extended command, and its expected length can be written.
What follows the header has seven forms, by whether there is data, whether a length
is expected and how wide the lengths are; the seventh, with neither, has no width.
-/

namespace CardAccess
namespace Messaging

theorem fixed_two (n : Nat) :
    Bytes.fixed 2 n = [UInt8.ofNat (n / 256 % 256), UInt8.ofNat (n % 256)] := rfl

namespace Command

/-! ## Lengths -/

theorem shortExpected_toUInt8 {n : UInt32} (hpos : n ≠ 0) (hle : n ≤ shortExpectedMax) :
    shortExpected (if shortExpectedMax ≤ n then 0 else n.toUInt8) = n := by
  have hle : n.toNat ≤ 256 := hle
  have hpos : n.toNat ≠ 0 := fun h => hpos (UInt32.toNat_inj.mp h)
  by_cases hmax : shortExpectedMax ≤ n
  · have hmax' : 256 ≤ n.toNat := hmax
    have hn : n = shortExpectedMax := UInt32.toNat_inj.mp (Nat.le_antisymm hle hmax')
    rw [if_pos hmax, hn]
    rfl
  · have hmax' : ¬ 256 ≤ n.toNat := hmax
    have hbyte : n.toUInt8.toNat = n.toNat := by
      rw [UInt32.toNat_toUInt8]
      omega
    have hzero : ¬ n.toUInt8 = 0 := by
      intro h
      rw [h] at hbyte
      exact hpos hbyte.symm
    rw [if_neg hmax, shortExpected, if_neg hzero]
    apply UInt32.toNat_inj.mp
    rw [UInt8.toNat_toUInt32, hbyte]

theorem extendedExpected_fixed {n : UInt32} (hpos : n ≠ 0) (hle : n ≤ extendedExpectedMax) :
    ∃ high low, Bytes.fixed 2 (if extendedExpectedMax ≤ n then 0 else n.toNat) = [high, low] ∧
      extendedExpected high low = n := by
  have hle : n.toNat ≤ 65536 := hle
  have hpos : n.toNat ≠ 0 := fun h => hpos (UInt32.toNat_inj.mp h)
  by_cases hmax : extendedExpectedMax ≤ n
  · have hmax' : 65536 ≤ n.toNat := hmax
    have hn : n = extendedExpectedMax := UInt32.toNat_inj.mp (Nat.le_antisymm hle hmax')
    rw [if_pos hmax, hn]
    exact ⟨0, 0, rfl, rfl⟩
  · have hmax' : ¬ 65536 ≤ n.toNat := hmax
    have hhigh := Bytes.toNat_ofNat_mod (n.toNat / 256)
    have hlow := Bytes.toNat_ofNat_mod n.toNat
    have hzero : ¬ (UInt8.ofNat (n.toNat / 256 % 256) = 0 ∧ UInt8.ofNat (n.toNat % 256) = 0) := by
      rintro ⟨h, h'⟩
      rw [h, UInt8.toNat_zero] at hhigh
      rw [h', UInt8.toNat_zero] at hlow
      omega
    rw [if_neg hmax]
    refine ⟨_, _, fixed_two n.toNat, ?_⟩
    rw [extendedExpected, if_neg hzero]
    apply UInt32.toNat_inj.mp
    rw [UInt32.toNat_add, UInt32.toNat_mul, UInt8.toNat_toUInt32, UInt8.toNat_toUInt32, hhigh, hlow]
    show (n.toNat / 256 % 256 * 256 % 2 ^ 32 + n.toNat % 256) % 2 ^ 32 = n.toNat
    omega

/-! ## What follows the header -/

theorem Body.read_short {first : UInt8} {rest : Bytes} (hfirst : first ≠ 0) (hrest : rest ≠ []) :
    Body.read (first :: rest) = readShort first.toNat rest := by
  cases rest with
  | nil => exact absurd rfl hrest
  | cons byte rest => exact if_pos hfirst

theorem Body.read_extended {high low : UInt8} {rest : Bytes}
    (hlength : high.toNat * 256 + low.toNat ≠ 0) (hrest : rest ≠ []) :
    Body.read (0 :: high :: low :: rest) = readExtended (high.toNat * 256 + low.toNat) rest := by
  cases rest with
  | nil => exact absurd rfl hrest
  | cons byte rest => exact if_neg hlength

/-- The expected length of a command as it stands behind the data. -/
def expectedPart (c : Command) : Bytes :=
  match c.expected with
  | none => []
  | some expected => expectedField c.isExtended c.nc expected

theorem toBytes_eq {c : Command} (h : c.nc ≤ extendedDataMax) :
    c.toBytes = .ok (c.header ++ (dataField c.isExtended c.content ++ c.expectedPart)) := by
  rw [toBytes, if_neg (Nat.not_lt_of_le h), ← List.append_assoc]
  rfl

theorem ofBytes_header {c : Command} {rest : Bytes}
    (h : Body.read rest = some ⟨c.data, c.expected⟩) : ofBytes (c.header ++ rest) = .ok c := by
  rw [header, List.cons_append, List.cons_append, List.cons_append, List.cons_append,
    List.nil_append, ofBytes, h]

section read

variable {c : Command}

theorem content_of_some {data : Bytes} (h : c.data = some data) : c.content = data := by
  rw [content, h]
  rfl

theorem content_of_none (h : c.data = none) : c.content = [] := by
  rw [content, h]
  rfl

theorem nc_of_none (h : c.data = none) : c.nc = 0 := by
  rw [nc, content_of_none h]
  rfl

theorem ne_of_some {n : UInt32} (h : c.expected = some n) : c.ne = n := by
  rw [ne, h]
  rfl

theorem ne_of_none (h : c.expected = none) : c.ne = 0 := by
  rw [ne, h]
  rfl

theorem not_isExtended (h : c.isExtended = false) :
    c.nc ≤ shortDataMax ∧ c.ne ≤ shortExpectedMax := by
  rw [isExtended, Bool.or_eq_false_iff, decide_eq_false_iff_not, decide_eq_false_iff_not] at h
  exact ⟨Nat.le_of_not_lt h.1, UInt32.not_lt.mp h.2⟩

/-- A command is extended without data only if it expects a length. -/
theorem expected_of_isExtended (h : c.isExtended = true) (hdata : c.data = none) :
    ∃ n, c.expected = some n := by
  cases hexpected : c.expected with
  | some n => exact ⟨n, rfl⟩
  | none =>
    rw [isExtended, nc, content, ne, hdata, hexpected] at h
    exact absurd h (by decide)

theorem read_without_data (hdata : c.data = none)
    (hexpected : ∀ n, c.expected = some n → n ≠ 0 ∧ n ≤ extendedExpectedMax) :
    Body.read (dataField c.isExtended c.content ++ c.expectedPart) = some ⟨none, c.expected⟩ := by
  rw [expectedPart, content_of_none hdata, nc_of_none hdata]
  show Body.read (match c.expected with
    | none => []
    | some expected => expectedField c.isExtended 0 expected) = _
  cases hextended : c.isExtended with
  | false =>
    cases hn : c.expected with
    | none => rfl
    | some n =>
      have hle : n ≤ shortExpectedMax := by
        have hne := (not_isExtended hextended).2
        rwa [ne_of_some hn] at hne
      show some (⟨none, some (shortExpected _)⟩ : Body) = _
      rw [shortExpected_toUInt8 (hexpected n hn).1 hle]
  | true =>
    obtain ⟨n, hn⟩ := expected_of_isExtended hextended hdata
    obtain ⟨hpos, hle⟩ := hexpected n hn
    obtain ⟨high, low, hfield, hread⟩ := extendedExpected_fixed hpos hle
    rw [hn]
    dsimp only
    rw [expectedField, if_pos rfl, if_pos rfl, hfield]
    show some (⟨none, some (extendedExpected high low)⟩ : Body) = _
    rw [hread]

theorem read_short_with_data {data : Bytes} (hdata : c.data = some data) (hnil : data ≠ [])
    (hshort : c.isExtended = false) (hexpected : ∀ n, c.expected = some n → n ≠ 0) :
    Body.read (dataField c.isExtended c.content ++ c.expectedPart)
      = some ⟨some data, c.expected⟩ := by
  have hcontent := content_of_some hdata
  obtain ⟨hnc, hne⟩ := not_isExtended hshort
  have hlength : data.length ≤ 255 := by rwa [nc, hcontent] at hnc
  have hpos : 0 < data.length := List.length_pos_iff.mpr hnil
  have hbyte : (UInt8.ofNat data.length).toNat = data.length := by
    rw [UInt8.toNat_ofNat']
    omega
  have hfirst : UInt8.ofNat data.length ≠ 0 := by
    intro h
    rw [h, UInt8.toNat_zero] at hbyte
    omega
  have hempty : ¬ data.isEmpty = true := fun h => hnil (List.isEmpty_iff.mp h)
  rw [expectedPart, hcontent, hshort, dataField, if_neg hempty, if_neg Bool.false_ne_true,
    List.cons_append, Body.read_short hfirst (List.append_ne_nil_of_left_ne_nil hnil _),
    Body.readShort, hbyte, Bytes.split?_append rfl]
  cases hn : c.expected with
  | none => rfl
  | some n =>
    have hle : n ≤ shortExpectedMax := by rwa [ne_of_some hn] at hne
    show some (⟨some data, some (shortExpected _)⟩ : Body) = _
    rw [shortExpected_toUInt8 (hexpected n hn) hle]

theorem read_extended_with_data {data : Bytes} (hdata : c.data = some data) (hnil : data ≠ [])
    (hfits : data.length ≤ extendedDataMax) (hextended : c.isExtended = true)
    (hexpected : ∀ n, c.expected = some n → n ≠ 0 ∧ n ≤ extendedExpectedMax) :
    Body.read (dataField c.isExtended c.content ++ c.expectedPart)
      = some ⟨some data, c.expected⟩ := by
  have hcontent := content_of_some hdata
  have hpos : 0 < data.length := List.length_pos_iff.mpr hnil
  have hfits : data.length ≤ 65535 := hfits
  have hhigh := Bytes.toNat_ofNat_mod (data.length / 256)
  have hlow := Bytes.toNat_ofNat_mod data.length
  have hnumber : (UInt8.ofNat (data.length / 256 % 256)).toNat * 256
      + (UInt8.ofNat (data.length % 256)).toNat = data.length := by
    omega
  have hempty : ¬ data.isEmpty = true := fun h => hnil (List.isEmpty_iff.mp h)
  have hnc : ¬ c.nc = 0 := by
    rw [nc, hcontent]
    omega
  rw [expectedPart, hcontent, hextended, dataField, if_neg hempty, if_pos rfl, fixed_two]
  show Body.read (0 :: UInt8.ofNat (data.length / 256 % 256) :: UInt8.ofNat (data.length % 256)
    :: (data ++ _)) = _
  rw [Body.read_extended (by omega) (List.append_ne_nil_of_left_ne_nil hnil _), Body.readExtended,
    hnumber, Bytes.split?_append rfl]
  cases hn : c.expected with
  | none => rfl
  | some n =>
    obtain ⟨hpos, hle⟩ := hexpected n hn
    obtain ⟨high, low, hfield, hread⟩ := extendedExpected_fixed hpos hle
    dsimp only
    rw [expectedField, if_pos rfl, if_neg hnc, hfield]
    show some (⟨some data, some (extendedExpected high low)⟩ : Body) = _
    rw [hread]

end read

/-! ## Whole commands -/

/-- A command is read back from its bytes. -/
theorem ofBytes_toBytes {c : Command} (hdata : c.data ≠ some []) (hfits : c.nc ≤ extendedDataMax)
    (hexpected : ∀ n, c.expected = some n → n ≠ 0 ∧ n ≤ extendedExpectedMax) :
    ∃ bytes, c.toBytes = .ok bytes ∧ ofBytes bytes = .ok c := by
  refine ⟨_, toBytes_eq hfits, ofBytes_header ?_⟩
  cases h : c.data with
  | none => exact read_without_data h hexpected
  | some data =>
    have hnil : data ≠ [] := fun hnil => hdata (by rw [h, hnil])
    cases hextended : c.isExtended with
    | false =>
      rw [← hextended]
      exact read_short_with_data h hnil hextended fun n hn => (hexpected n hn).1
    | true =>
      have hlength : data.length ≤ extendedDataMax := by rwa [nc, content_of_some h] at hfits
      rw [← hextended]
      exact read_extended_with_data h hnil hlength hextended hexpected

end Command
end Messaging
end CardAccess

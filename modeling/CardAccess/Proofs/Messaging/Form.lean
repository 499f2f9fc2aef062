import CardAccess.Proofs.Messaging.Command

/-!
# The forms of a command

What stands behind the header of a command has one of seven forms, by whether there
is data, whether a length is expected, and whether these are counted in one byte or in
two behind a zero byte; with neither there is nothing to count.  The forms overlap in
their first bytes, so that a reader has to look at the whole length.  Still no bytes
have two forms, because the length of the data is written in front of it.

Reading takes exactly these forms, and `readsBack_and_reads_forms` adds what becomes of
them: a command that is read can be written and read again, in bytes that are not more.
-/

namespace CardAccess
namespace Messaging
namespace Command

/-! ## Forms -/

/-- The number that two bytes write. -/
def wide (high low : UInt8) : Nat := high.toNat * 256 + low.toNat

/-- What stands behind the header, byte for byte. -/
inductive Form where
  | bare
  | expects (le : UInt8)
  | carries (lc : UInt8) (data : Bytes)
  | carriesExpects (lc : UInt8) (data : Bytes) (le : UInt8)
  | expectsWide (high low : UInt8)
  | carriesWide (high low : UInt8) (data : Bytes)
  | carriesExpectsWide (high low : UInt8) (data : Bytes) (leHigh leLow : UInt8)
  deriving DecidableEq, Repr

namespace Form

def bytes : Form → Bytes
  | bare => []
  | expects le => [le]
  | carries lc data => lc :: data
  | carriesExpects lc data le => lc :: (data ++ [le])
  | expectsWide high low => [0, high, low]
  | carriesWide high low data => 0 :: high :: low :: data
  | carriesExpectsWide high low data leHigh leLow => 0 :: high :: low :: (data ++ [leHigh, leLow])

/-- The count in front of the data is right, and it is not zero. -/
def Counts : Form → Prop
  | bare | expects _ | expectsWide _ _ => True
  | carries lc data | carriesExpects lc data _ => lc ≠ 0 ∧ data.length = lc.toNat
  | carriesWide high low data | carriesExpectsWide high low data _ _ =>
    wide high low ≠ 0 ∧ data.length = wide high low

/-- What the form says. -/
def body : Form → Body
  | bare => ⟨none, none⟩
  | expects le => ⟨none, some (shortExpected le)⟩
  | carries _ data => ⟨some data, none⟩
  | carriesExpects _ data le => ⟨some data, some (shortExpected le)⟩
  | expectsWide high low => ⟨none, some (extendedExpected high low)⟩
  | carriesWide _ _ data => ⟨some data, none⟩
  | carriesExpectsWide _ _ data leHigh leLow => ⟨some data, some (extendedExpected leHigh leLow)⟩

end Form

/-- The bytes are a header of four bytes and a form whose counts are right. -/
structure Splits (bytes header : Bytes) (f : Form) : Prop where
  length : header.length = 4
  counts : f.Counts
  bytes : bytes = header ++ f.bytes

/-- A command whose data and expected length can be written: what is there is not
empty, and fits two bytes. -/
structure Writable (c : Command) : Prop where
  data : ∀ data, c.data = some data → 1 ≤ data.length ∧ data.length ≤ 65535
  expected : ∀ n, c.expected = some n → 1 ≤ n.toNat ∧ n.toNat ≤ 65536

/-! ## Reading a form -/

section read

variable {nc : Nat} {bytes : Bytes} {b : Body} {f : Form}

theorem split?_bind_eq_some {tail : Bytes × Bytes → Option Body} :
    (bytes.split? nc >>= tail) = some b ↔
      ∃ data rest, bytes = data ++ rest ∧ data.length = nc ∧ tail (data, rest) = some b := by
  rw [Option.bind_eq_bind, Option.bind_eq_some_iff]
  constructor
  · rintro ⟨⟨data, rest⟩, hsplit, htail⟩
    obtain ⟨hbytes, hlength⟩ := Bytes.split?_eq_some.mp hsplit
    exact ⟨data, rest, hbytes, hlength, htail⟩
  · rintro ⟨data, rest, hbytes, hlength, htail⟩
    exact ⟨(data, rest), Bytes.split?_eq_some.mpr ⟨hbytes, hlength⟩, htail⟩

/-- Behind `nc` bytes of data there is nothing, or an expected length of one byte. -/
theorem Body.readShort_eq_some : readShort nc bytes = some b ↔
    ∃ data, data.length = nc ∧ (bytes = data ∧ b = ⟨some data, none⟩ ∨
      ∃ le, bytes = data ++ [le] ∧ b = ⟨some data, some (shortExpected le)⟩) := by
  rw [readShort, split?_bind_eq_some]
  constructor
  · rintro ⟨data, rest, rfl, hlength, htail⟩
    refine ⟨data, hlength, ?_⟩
    dsimp only at htail
    split at htail
    · cases htail
      exact .inl ⟨List.append_nil data, rfl⟩
    · next le =>
      cases htail
      exact .inr ⟨le, rfl, rfl⟩
    · cases htail
  · rintro ⟨data, hlength, ⟨rfl, rfl⟩ | ⟨le, rfl, rfl⟩⟩
    · exact ⟨bytes, [], (List.append_nil bytes).symm, hlength, rfl⟩
    · exact ⟨data, [le], rfl, hlength, rfl⟩

/-- Behind `nc` bytes of data there is nothing, or an expected length of two bytes. -/
theorem Body.readExtended_eq_some : readExtended nc bytes = some b ↔
    ∃ data, data.length = nc ∧ (bytes = data ∧ b = ⟨some data, none⟩ ∨
      ∃ high low, bytes = data ++ [high, low] ∧
        b = ⟨some data, some (extendedExpected high low)⟩) := by
  rw [readExtended, split?_bind_eq_some]
  constructor
  · rintro ⟨data, rest, rfl, hlength, htail⟩
    refine ⟨data, hlength, ?_⟩
    dsimp only at htail
    split at htail
    · cases htail
      exact .inl ⟨List.append_nil data, rfl⟩
    · next high low =>
      cases htail
      exact .inr ⟨high, low, rfl, rfl⟩
    · cases htail
  · rintro ⟨data, hlength, ⟨rfl, rfl⟩ | ⟨high, low, rfl, rfl⟩⟩
    · exact ⟨bytes, [], (List.append_nil bytes).symm, hlength, rfl⟩
    · exact ⟨data, [high, low], rfl, hlength, rfl⟩

theorem toNat_ne_zero {byte : UInt8} (h : byte ≠ 0) : byte.toNat ≠ 0 :=
  fun hzero => h (UInt8.toNat_inj.mp hzero)

/-- A form whose counts are right is read as what it says. -/
theorem Form.read_bytes (h : f.Counts) : Body.read f.bytes = some f.body := by
  have hnil {data : Bytes} {nc : Nat} (hlength : data.length = nc) (hnc : nc ≠ 0) (rest : Bytes) :
      data ++ rest ≠ [] :=
    List.append_ne_nil_of_left_ne_nil (List.ne_nil_of_length_pos (by omega)) rest
  cases f with
  | bare => rfl
  | expects le => rfl
  | expectsWide high low => rfl
  | carries lc data =>
    obtain ⟨hlc, hlength⟩ := h
    have hdata := hnil hlength (toNat_ne_zero hlc) []
    rw [List.append_nil] at hdata
    rw [bytes, Body.read_short hlc hdata, Body.readShort_eq_some]
    exact ⟨data, hlength, .inl ⟨rfl, rfl⟩⟩
  | carriesExpects lc data le =>
    obtain ⟨hlc, hlength⟩ := h
    rw [bytes, Body.read_short hlc (hnil hlength (toNat_ne_zero hlc) [le]),
      Body.readShort_eq_some]
    exact ⟨data, hlength, .inr ⟨le, rfl, rfl⟩⟩
  | carriesWide high low data =>
    obtain ⟨hnc, hlength⟩ := h
    have hdata := hnil hlength hnc []
    rw [List.append_nil] at hdata
    rw [bytes, Body.read_extended hnc hdata, Body.readExtended_eq_some]
    exact ⟨data, hlength, .inl ⟨rfl, rfl⟩⟩
  | carriesExpectsWide high low data leHigh leLow =>
    obtain ⟨hnc, hlength⟩ := h
    rw [bytes, Body.read_extended hnc (hnil hlength hnc [leHigh, leLow]),
      Body.readExtended_eq_some]
    exact ⟨data, hlength, .inr ⟨leHigh, leLow, rfl, rfl⟩⟩

/-- Whatever is read has a form. -/
theorem exists_form (h : Body.read bytes = some b) :
    ∃ f : Form, f.Counts ∧ f.bytes = bytes ∧ f.body = b := by
  unfold Body.read at h
  split at h
  · cases h
    exact ⟨.bare, trivial, rfl, rfl⟩
  · next le =>
    cases h
    exact ⟨.expects le, trivial, rfl, rfl⟩
  · next lc rest hrest =>
    split at h
    · next hlc =>
      obtain ⟨data, hlength, ⟨rfl, rfl⟩ | ⟨le, rfl, rfl⟩⟩ := Body.readShort_eq_some.mp h
      · exact ⟨.carries lc rest, ⟨hlc, hlength⟩, rfl, rfl⟩
      · exact ⟨.carriesExpects lc data le, ⟨hlc, hlength⟩, rfl, rfl⟩
    · next hzero =>
      cases Decidable.not_not.mp hzero
      split at h
      · next high low =>
        cases h
        exact ⟨.expectsWide high low, trivial, rfl, rfl⟩
      · next high low rest hrest =>
        dsimp only at h
        split at h
        · cases h
        · next hnc =>
          obtain ⟨data, hlength, ⟨rfl, rfl⟩ | ⟨leHigh, leLow, rfl, rfl⟩⟩ :=
            Body.readExtended_eq_some.mp h
          · exact ⟨.carriesWide high low rest, ⟨hnc, hlength⟩, rfl, rfl⟩
          · exact ⟨.carriesExpectsWide high low data leHigh leLow, ⟨hnc, hlength⟩, rfl, rfl⟩
      · cases h

/-- Bytes that say the same have the same form: where one form counts in one byte and
another in two, they are not equally long. -/
theorem Form.eq_of_bytes {f' : Form} (hbytes : f.bytes = f'.bytes) (hbody : f.body = f'.body) :
    f = f' := by
  have hlength := congrArg List.length hbytes
  cases f <;> cases f' <;> grind [bytes, body, List.append_cancel_left]

end read

/-! ## Reading a command -/

section whole

variable {bytes : Bytes} {c : Command} {header header' : Bytes} {f f' : Form}

theorem ofBytes_eq_ok : ofBytes bytes = .ok c ↔
    ∃ rest, bytes = c.header ++ rest ∧ Body.read rest = some ⟨c.data, c.expected⟩ := by
  constructor
  · intro h
    unfold ofBytes at h
    split at h
    · next cla ins p1 p2 rest =>
      split at h
      · next body hbody =>
        cases h
        exact ⟨rest, rfl, hbody⟩
      · cases h
    · cases h
  · rintro ⟨rest, rfl, hbody⟩
    exact ofBytes_header hbody

/-- A command is read from the header that it has and a form that says the rest. -/
theorem ofBytes_eq_ok_iff_splits : ofBytes bytes = .ok c ↔
    ∃ f, Splits bytes c.header f ∧ f.body = ⟨c.data, c.expected⟩ := by
  rw [ofBytes_eq_ok]
  constructor
  · rintro ⟨rest, rfl, hread⟩
    obtain ⟨f, hcounts, rfl, hbody⟩ := exists_form hread
    exact ⟨f, ⟨rfl, hcounts, rfl⟩, hbody⟩
  · rintro ⟨f, hsplits, hbody⟩
    refine ⟨f.bytes, hsplits.bytes, ?_⟩
    rw [Form.read_bytes hsplits.counts, hbody]

theorem exists_header (h : header.length = 4) (b : Body) :
    ∃ c : Command, c.header = header ∧ c.data = b.data ∧ c.expected = b.expected := by
  match header, h with
  | [cla, ins, p1, p2], _ => exact ⟨⟨cla, ins, p1, p2, b.data, b.expected⟩, rfl, rfl, rfl⟩

theorem Splits.exists_command (h : Splits bytes header f) : ∃ c, ofBytes bytes = .ok c := by
  obtain ⟨c, hheader, hdata, hexpected⟩ := exists_header h.length f.body
  refine ⟨c, ofBytes_eq_ok_iff_splits.mpr ⟨f, ?_, ?_⟩⟩
  · rw [hheader]
    exact h
  · rw [hdata, hexpected]

theorem Splits.unique (h : Splits bytes header f) (h' : Splits bytes header' f') :
    header = header' ∧ f = f' := by
  have hlength : header.length = header'.length := h.length.trans h'.length.symm
  obtain ⟨hheader, hbytes⟩ := List.append_inj (h.bytes.symm.trans h'.bytes) hlength
  have hread := Form.read_bytes h.counts
  rw [hbytes, Form.read_bytes h'.counts] at hread
  exact ⟨hheader, Form.eq_of_bytes hbytes (Option.some.inj hread).symm⟩

/-! ## Writing what was read -/

theorem toNat_shortExpected (byte : UInt8) :
    1 ≤ (shortExpected byte).toNat ∧ (shortExpected byte).toNat ≤ 256 := by
  have hlt := byte.toNat_lt
  by_cases hzero : byte = 0
  · rw [shortExpected, if_pos hzero]
    decide
  · have hpos := toNat_ne_zero hzero
    rw [shortExpected, if_neg hzero, UInt8.toNat_toUInt32]
    omega

theorem toNat_extendedExpected (high low : UInt8) :
    1 ≤ (extendedExpected high low).toNat ∧ (extendedExpected high low).toNat ≤ 65536 := by
  have hhigh := high.toNat_lt
  have hlow := low.toNat_lt
  by_cases hzero : high = 0 ∧ low = 0
  · rw [extendedExpected, if_pos hzero]
    decide
  · have hpos : high.toNat ≠ 0 ∨ low.toNat ≠ 0 := by
      by_cases hhigh : high = 0
      · exact .inr (toNat_ne_zero fun hlow => hzero ⟨hhigh, hlow⟩)
      · exact .inl (toNat_ne_zero hhigh)
    rw [extendedExpected, if_neg hzero, UInt32.toNat_add, UInt32.toNat_mul, UInt8.toNat_toUInt32,
      UInt8.toNat_toUInt32]
    show 1 ≤ (high.toNat * 256 % 2 ^ 32 + low.toNat) % 2 ^ 32 ∧
      (high.toNat * 256 % 2 ^ 32 + low.toNat) % 2 ^ 32 ≤ 65536
    omega

theorem Writable.nc_le (h : c.Writable) : c.nc ≤ extendedDataMax := by
  cases hdata : c.data with
  | none =>
    rw [nc_of_none hdata]
    exact Nat.zero_le _
  | some data =>
    rw [nc, content_of_some hdata]
    exact (h.data data hdata).2

theorem Writable.readsBack (h : c.Writable) :
    ∃ bytes, c.toBytes = .ok bytes ∧ ofBytes bytes = .ok c := by
  apply ofBytes_toBytes
  · intro hnil
    exact absurd (h.data [] hnil).1 (by decide)
  · exact h.nc_le
  · intro n hn
    obtain ⟨hpos, hle⟩ := h.expected n hn
    refine ⟨?_, hle⟩
    intro hzero
    rw [hzero] at hpos
    exact absurd hpos (by decide)

theorem Form.Counts.length_data (h : f.Counts) {data : Bytes} (hdata : f.body.data = some data) :
    1 ≤ data.length ∧ data.length ≤ 65535 := by
  have hshort {lc : UInt8} (hlc : lc ≠ 0) (hlength : data.length = lc.toNat) :
      1 ≤ data.length ∧ data.length ≤ 65535 := by
    have hpos := toNat_ne_zero hlc
    have hlt := lc.toNat_lt
    omega
  have hwide {high low : UInt8} (hnc : wide high low ≠ 0) (hlength : data.length = wide high low) :
      1 ≤ data.length ∧ data.length ≤ 65535 := by
    have hhigh := high.toNat_lt
    have hlow := low.toNat_lt
    rw [wide] at hnc hlength
    omega
  cases f with
  | bare | expects _ | expectsWide _ _ => cases hdata
  | carries _ _ | carriesExpects _ _ _ =>
    cases hdata
    exact hshort h.1 h.2
  | carriesWide _ _ _ | carriesExpectsWide _ _ _ _ _ =>
    cases hdata
    exact hwide h.1 h.2

theorem Form.toNat_expected {n : UInt32} (hn : f.body.expected = some n) :
    1 ≤ n.toNat ∧ n.toNat ≤ 65536 := by
  cases f with
  | bare | carries _ _ | carriesWide _ _ _ => cases hn
  | expects le | carriesExpects _ _ le =>
    cases hn
    have hle := toNat_shortExpected le
    omega
  | expectsWide high low | carriesExpectsWide _ _ _ high low =>
    cases hn
    exact toNat_extendedExpected high low

/-- What is read can be written. -/
theorem writable_of_form (hcounts : f.Counts) (hbody : f.body = ⟨c.data, c.expected⟩) :
    c.Writable where
  data := fun data hdata => hcounts.length_data (by rw [hbody]; exact hdata)
  expected := fun n hn => Form.toNat_expected (by rw [hbody]; exact hn)

theorem length_dataField (extended : Bool) {data : Bytes} (h : data ≠ []) :
    (dataField extended data).length = data.length + if extended then 3 else 1 := by
  have hempty : ¬ data.isEmpty = true := fun hempty => h (List.isEmpty_iff.mp hempty)
  rw [dataField, if_neg hempty]
  cases extended with
  | false => rfl
  | true =>
    show (Bytes.fixed 2 data.length ++ data).length + 1 = data.length + 3
    rw [List.length_append, Bytes.length_fixed]
    omega

theorem length_expectedField (extended : Bool) (nc : Nat) (n : UInt32) :
    (expectedField extended nc n).length
      = if extended then (if nc = 0 then 3 else 2) else 1 := by
  rw [expectedField]
  cases extended with
  | false => rfl
  | true =>
    rw [if_pos rfl, if_pos rfl]
    dsimp only
    split
    · rw [List.length_cons, Bytes.length_fixed]
    · exact Bytes.length_fixed _ _

/-- The number of bytes that say what `b` says, with the counts in two bytes or in one. -/
def Body.lengthIn (isWide : Bool) (b : Body) : Nat :=
  match b.data, b.expected with
  | none, none => 0
  | none, some _ => if isWide then 3 else 1
  | some data, none => data.length + if isWide then 3 else 1
  | some data, some _ => data.length + if isWide then 5 else 2

/-- Whether the form counts in two bytes. -/
def Form.isWide : Form → Bool
  | bare | expects _ | carries _ _ | carriesExpects _ _ _ => false
  | expectsWide _ _ | carriesWide _ _ _ | carriesExpectsWide _ _ _ _ _ => true

theorem Form.length_bytes (f : Form) : f.bytes.length = f.body.lengthIn f.isWide := by
  cases f with
  | bare | expects _ | expectsWide _ _ | carries _ _ | carriesWide _ _ _ => rfl
  | carriesExpects lc data le =>
    rw [bytes, List.length_cons, List.length_append]
    rfl
  | carriesExpectsWide high low data leHigh leLow =>
    rw [bytes, List.length_cons, List.length_cons, List.length_cons, List.length_append]
    rfl

theorem Body.lengthIn_le (b : Body) (isWide : Bool) : b.lengthIn false ≤ b.lengthIn isWide := by
  obtain ⟨data, expected⟩ := b
  cases isWide with
  | false => exact Nat.le_refl _
  | true =>
    cases data with
    | none =>
      cases expected with
      | none => exact Nat.le_refl 0
      | some n =>
        show 1 ≤ 3
        omega
    | some data =>
      cases expected with
      | none =>
        show data.length + 1 ≤ data.length + 3
        omega
      | some n =>
        show data.length + 2 ≤ data.length + 5
        omega

theorem isExtended_eq_false (hnc : c.nc ≤ 255) (hne : c.ne.toNat ≤ 256) :
    c.isExtended = false := by
  rw [isExtended, Bool.or_eq_false_iff, decide_eq_false_iff_not, decide_eq_false_iff_not]
  exact ⟨Nat.not_lt_of_le hnc, Nat.not_lt_of_le hne⟩

/-- What one byte has counted, one byte counts again. -/
theorem isExtended_of_form (hcounts : f.Counts) (hbody : f.body = ⟨c.data, c.expected⟩)
    (hshort : f.isWide = false) : c.isExtended = false := by
  have hdata : c.data = f.body.data := (congrArg Body.data hbody).symm
  have hexpected : c.expected = f.body.expected := (congrArg Body.expected hbody).symm
  apply isExtended_eq_false
  · cases f with
    | bare | expects _ =>
      rw [nc_of_none hdata]
      omega
    | carries lc data | carriesExpects lc data le =>
      have hlt := lc.toNat_lt
      have hlength : data.length = lc.toNat := hcounts.2
      rw [nc, content_of_some hdata]
      omega
    | expectsWide _ _ | carriesWide _ _ _ | carriesExpectsWide _ _ _ _ _ => cases hshort
  · cases f with
    | bare | carries _ _ =>
      rw [ne_of_none hexpected]
      decide
    | expects le | carriesExpects lc data le =>
      rw [ne_of_some hexpected]
      exact (toNat_shortExpected le).2
    | expectsWide _ _ | carriesWide _ _ _ | carriesExpectsWide _ _ _ _ _ => cases hshort

theorem length_written (h : c.Writable) :
    (dataField c.isExtended c.content ++ c.expectedPart).length
      = (⟨c.data, c.expected⟩ : Body).lengthIn c.isExtended := by
  rw [List.length_append]
  cases hdata : c.data with
  | none =>
    have hempty : (dataField c.isExtended c.content).length = 0 := by
      rw [content_of_none hdata]
      rfl
    rw [hempty, Nat.zero_add, expectedPart]
    cases c.expected with
    | none => rfl
    | some n =>
      show (expectedField _ _ n).length = _
      rw [length_expectedField, nc_of_none hdata, if_pos rfl]
      rfl
  | some data =>
    have hlong := (h.data data hdata).1
    have hnc : ¬ c.nc = 0 := by
      rw [nc, content_of_some hdata]
      omega
    rw [content_of_some hdata, length_dataField _ (List.ne_nil_of_length_pos hlong), expectedPart]
    cases c.expected with
    | none => rfl
    | some n =>
      show data.length + _ + (expectedField _ _ n).length = data.length + _
      rw [length_expectedField, if_neg hnc, Nat.add_assoc]
      cases c.isExtended with
      | false => rfl
      | true => rfl

/-- Writing what was read takes no more bytes than were read. -/
theorem length_written_le (hcounts : f.Counts) (hbody : f.body = ⟨c.data, c.expected⟩) :
    (dataField c.isExtended c.content ++ c.expectedPart).length ≤ f.bytes.length := by
  rw [length_written (writable_of_form hcounts hbody), f.length_bytes, ← hbody]
  cases hwide : f.isWide with
  | false =>
    rw [isExtended_of_form hcounts hbody hwide]
  | true =>
    cases c.isExtended with
    | false => exact f.body.lengthIn_le true
    | true => exact Nat.le_refl _

end whole

/-! ## Both directions -/

/-- A command whose data and expected length can be written reads back.  Reading takes
exactly a header and a form whose counts are right, in one way only, and what it has
read is written in bytes that are not more and read as the same. -/
theorem readsBack_and_reads_forms :
    (∀ c : Command, c.Writable → c.toBytes >>= ofBytes = .ok c) ∧
    (∀ bytes c, ofBytes bytes = .ok c ↔
      ∃ f, Splits bytes c.header f ∧ f.body = ⟨c.data, c.expected⟩) ∧
    (∀ bytes, (∃ c, ofBytes bytes = .ok c) ↔ ∃ header f, Splits bytes header f) ∧
    (∀ bytes header header' f f', Splits bytes header f → Splits bytes header' f' →
      header = header' ∧ f = f') ∧
    (∀ bytes c, ofBytes bytes = .ok c →
      ∃ again, c.toBytes = .ok again ∧ ofBytes again = .ok c ∧ again.length ≤ bytes.length) := by
  refine ⟨fun c hc => ?_, fun bytes c => ofBytes_eq_ok_iff_splits, fun bytes => ⟨?_, ?_⟩,
    fun bytes header header' f f' h h' => h.unique h', fun bytes c h => ?_⟩
  · obtain ⟨bytes, hwritten, hread⟩ := hc.readsBack
    rw [bind_of_ok hwritten, hread]
  · rintro ⟨c, h⟩
    obtain ⟨f, hsplits, -⟩ := ofBytes_eq_ok_iff_splits.mp h
    exact ⟨c.header, f, hsplits⟩
  · rintro ⟨header, f, hsplits⟩
    exact hsplits.exists_command
  · obtain ⟨f, hsplits, hbody⟩ := ofBytes_eq_ok_iff_splits.mp h
    have hwritable := writable_of_form hsplits.counts hbody
    obtain ⟨again, hwritten, hread⟩ := hwritable.readsBack
    refine ⟨again, hwritten, hread, ?_⟩
    rw [toBytes_eq hwritable.nc_le] at hwritten
    have hle := length_written_le hsplits.counts hbody
    rw [← Except.ok.inj hwritten, hsplits.bytes]
    simp only [List.length_append] at hle ⊢
    omega

/-- The greatest expected length goes out as two zero bytes and comes back, and a command that
counts one byte of data in two is written shorter than it was read. -/
theorem readsBack_and_reads_forms_wide :
    let greatest : Command := ⟨0x00, 0xB0, 0x00, 0x00, none, some 65536⟩
    let update : Command := ⟨0x00, 0xD6, 0x00, 0x00, some [0x2A], some 16⟩
    let bytes : Bytes := [0x00, 0xD6, 0x00, 0x00, 0x00, 0x00, 0x01, 0x2A, 0x00, 0x10]
    let f : Form := .carriesExpectsWide 0x00 0x01 [0x2A] 0x00 0x10
    greatest.Writable ∧ greatest.toBytes >>= ofBytes = .ok greatest ∧
      Splits bytes update.header f ∧ ofBytes bytes = .ok update ∧
      (∀ header' f', Splits bytes header' f' → update.header = header' ∧ f = f') ∧
      ∃ again, update.toBytes = .ok again ∧ ofBytes again = .ok update ∧
        again.length ≤ bytes.length := by
  intro greatest update bytes f
  obtain ⟨hback, hreads, -, hunique, hagain⟩ := readsBack_and_reads_forms
  have hgreatest : greatest.Writable := by
    refine ⟨fun data hdata => ?_, fun n hn => ?_⟩
    · cases hdata
    · cases hn
      decide
  have hsplits : Splits bytes update.header f := ⟨rfl, ⟨by decide, by decide⟩, rfl⟩
  have hupdate : ofBytes bytes = .ok update := (hreads bytes update).mpr ⟨f, hsplits, rfl⟩
  exact ⟨hgreatest, hback greatest hgreatest, hsplits, hupdate,
    fun header' f' h => hunique bytes _ header' f f' hsplits h, hagain bytes update hupdate⟩

end Command
end Messaging
end CardAccess

import CardAccess.Proofs.Messaging.ExpectedLength

/-!
# What the checksum of a command covers

The checksum is computed over the position of the counter, the padded header and, if there are
any, the padded objects with the data and the expected length.  Nothing says where one of these
ends and the next begins, so that two commands could in principle come to the same bytes.  They
do not: the header has a fixed length, a padding can be taken off in one way only, and the
objects can be told apart by their tags.  The data is then read back by decrypting it, and the
expected length by the width of its object.

`checksum_covers_command` says that two commands with one checksum message have the same header
up to the bits that mark protection, the same data and the same expected length, and that
nothing else of a command is covered.
-/

namespace CardAccess

namespace Cipher.Padding

theorem pad_inj {data data' : Bytes} : pad data = pad data' ↔ data = data' := by
  refine ⟨fun h => ?_, congrArg pad⟩
  have hstrip := congrArg strip? h
  rw [strip?_pad, strip?_pad] at hstrip
  exact Option.some.inj hstrip

end Cipher.Padding

namespace Messaging

/-! ## Header and objects -/

namespace DataObject

variable {header header' : Bytes} {objects objects' : List Tlv}

theorem length_paddedHeader (h : header.length = 4) : (paddedHeader header).length = 16 := by
  simp [paddedHeader, Cipher.Padding.length_pad, h, Cipher.Block.size]

/-- Without objects there is one block, with objects there are more. -/
theorem length_commandInput (h : header.length = 4) :
    (commandInput header objects).length = 16 ↔ objects = [] := by
  have hheader := length_paddedHeader h
  constructor
  · intro hlength
    by_contra hobjects
    have hsize : Cipher.Block.size = 16 := rfl
    rw [commandInput, if_neg (by simpa using hobjects), Cipher.Padding.length_pad,
      List.length_append, hheader, hsize] at hlength
    omega
  · rintro rfl
    exact hheader

/-- The bytes that a checksum covers determine the header and the objects. -/
theorem commandInput_inj (h : header.length = 4) (h' : header'.length = 4)
    (hsendable : ∀ object ∈ objects, Sendable object)
    (hsendable' : ∀ object ∈ objects', Sendable object) :
    commandInput header objects = commandInput header' objects' ↔
      header = header' ∧ objects = objects' := by
  constructor
  · intro hinput
    have hempty : objects = [] ↔ objects' = [] := by
      rw [← length_commandInput h, ← length_commandInput h', hinput]
    by_cases hobjects : objects = []
    · have hobjects' := hempty.mp hobjects
      subst hobjects hobjects'
      exact ⟨Cipher.Padding.pad_inj.mp hinput, rfl⟩
    · have hobjects' : objects' ≠ [] := fun h => hobjects (hempty.mpr h)
      rw [commandInput, commandInput, if_neg (by simpa using hobjects),
        if_neg (by simpa using hobjects'), Cipher.Padding.pad_inj] at hinput
      obtain ⟨hheader, hencoded⟩ := List.append_inj hinput
        ((length_paddedHeader h).trans (length_paddedHeader h').symm)
      have hparsed := congrArg Tlv.parseAll hencoded
      rw [parseAll_encodeAll hsendable, parseAll_encodeAll hsendable'] at hparsed
      exact ⟨Cipher.Padding.pad_inj.mp hheader, Except.ok.inj hparsed⟩
  · rintro ⟨rfl, rfl⟩
    rfl

end DataObject

/-! ## Back from the objects to the command -/

/-- The bytes over which the checksum of a command is computed: the position of the counter, and
what the checksum covers of the command. -/
def checksumMessage (keys : SessionKeys) (counter : Counter) (c : Command) : Bytes :=
  counter.toBytes ++ checksumInput keys counter c

/-- The commands differ at most in the bits of the class that mark protection, in whether empty
data is there or missing, and in whether an expected length of zero is. -/
structure Command.Alike (c c' : Command) : Prop where
  cla : c.cla ||| DataObject.protectedClass = c'.cla ||| DataObject.protectedClass
  ins : c.ins = c'.ins
  p1 : c.p1 = c'.p1
  p2 : c.p2 = c'.p2
  content : c.content = c'.content
  ne : c.ne = c'.ne

/-- The commands come to the same header and the same objects. -/
structure SameObjects (keys : SessionKeys) (counter : Counter) (c c' : Command) : Prop where
  header : protectedHeader c = protectedHeader c'
  data : dataObjects keys counter c = dataObjects keys counter c'
  expected : expectedObjects c = expectedObjects c'

section

variable {keys : SessionKeys} {counter : Counter} {c c' : Command}

theorem filter_coveredObjects (keys : SessionKeys) (counter : Counter) (c : Command) :
    (coveredObjects keys counter c).filter DataObject.isCryptogram = dataObjects keys counter c ∧
      (coveredObjects keys counter c).filter (fun object => !DataObject.isCryptogram object)
        = expectedObjects c := by
  have hexpected : ∀ object ∈ expectedObjects c, DataObject.isCryptogram object = false := by
    intro object hobject
    obtain ⟨value, -, rfl⟩ := List.mem_map.mp hobject
    rfl
  have hdata : ∀ object ∈ dataObjects keys counter c,
      DataObject.isCryptogram object = true := by
    intro object hobject
    rw [dataObjects] at hobject
    split at hobject
    · cases hobject
    · rw [List.mem_singleton.mp hobject]
      exact DataObject.isCryptogram_cryptogram _ _
  rw [coveredObjects_eq, List.filter_append, List.filter_append]
  constructor
  · rw [List.filter_eq_self.mpr hdata,
      List.filter_eq_nil_iff.mpr fun object h => by simp [hexpected object h], List.append_nil]
  · rw [List.filter_eq_nil_iff.mpr fun object h => by simp [hdata object h],
      List.filter_eq_self.mpr fun object h => by simp [hexpected object h], List.nil_append]

theorem sendable_coveredObjects (hfits : c.Protectable) :
    ∀ object ∈ coveredObjects keys counter c, DataObject.Sendable object := fun object hobject =>
  sendable_protectedObjects hfits object (List.mem_append_left _ hobject)

theorem checksumMessage_eq_iff (hfits : c.Protectable) (hfits' : c'.Protectable) :
    checksumMessage keys counter c = checksumMessage keys counter c' ↔
      SameObjects keys counter c c' := by
  obtain ⟨hdata, hexpected⟩ := filter_coveredObjects keys counter c
  obtain ⟨hdata', hexpected'⟩ := filter_coveredObjects keys counter c'
  rw [checksumMessage, checksumMessage, List.append_right_inj, checksumInput, checksumInput,
    DataObject.commandInput_inj rfl rfl (sendable_coveredObjects hfits)
      (sendable_coveredObjects hfits')]
  constructor
  · rintro ⟨hheader, hobjects⟩
    refine ⟨hheader, ?_, ?_⟩
    · rw [← hdata, ← hdata', hobjects]
    · rw [← hexpected, ← hexpected', hobjects]
  · rintro ⟨hheader, hdata, hexpected⟩
    rw [coveredObjects_eq, coveredObjects_eq, hdata, hexpected]
    exact ⟨hheader, rfl⟩

/-- What has an object of its own unless it is `absent` is told by its objects. -/
theorem eq_of_objects_eq {α : Type} [DecidableEq α] {absent a b : α}
    (h : (if a = absent then [] else [a]) = if b = absent then [] else [b]) : a = b := by
  by_cases ha : a = absent <;> by_cases hb : b = absent <;> simp_all

/-- What the object with the data of a command decrypts to. -/
theorem decrypt_dataObjects (keys : SessionKeys) (counter : Counter) (c : Command) :
    ((dataObjects keys counter c).mapM fun object =>
        keys.decrypt counter (DataObject.encryptedOf object))
      = .ok (if c.content = [] then [] else [c.content]) := by
  by_cases hempty : c.content = []
  · have hnc : c.nc = 0 := List.length_eq_zero_iff.mpr hempty
    rw [dataObjects, if_pos hnc, if_pos hempty]
    rfl
  · have hnc : ¬ c.nc = 0 := fun h => hempty (List.length_eq_zero_iff.mp h)
    rw [dataObjects, if_neg hnc, if_neg hempty, List.mapM_cons,
      DataObject.encryptedOf_cryptogram, SessionKeys.decrypt_encrypt]
    rfl

/-- What the object with the expected length of a command says. -/
theorem read_expectedObjects (h : c.ne ≤ Command.extendedExpectedMax) :
    (expectedObjects c).mapM DataObject.expectedOf = .ok (if c.ne = 0 then [] else [c.ne]) := by
  rw [expectedObjects]
  by_cases hzero : c.ne = 0
  · rw [if_pos hzero, hzero, DataObject.expectedValue?_zero]
    rfl
  · obtain ⟨value, hvalue, hread⟩ := DataObject.expectedOf_expectedValue? hzero h
      fun hshort => (Command.not_isExtended hshort).2
    rw [if_neg hzero, hvalue, Option.toList_some, List.map_singleton, List.mapM_cons, hread]
    rfl

theorem content_eq_of_dataObjects
    (h : dataObjects keys counter c = dataObjects keys counter c') : c.content = c'.content := by
  have hdecrypted := decrypt_dataObjects keys counter c
  rw [h, decrypt_dataObjects] at hdecrypted
  exact (eq_of_objects_eq (Except.ok.inj hdecrypted)).symm

theorem ne_eq_of_expectedObjects (hle : c.ne ≤ Command.extendedExpectedMax)
    (hle' : c'.ne ≤ Command.extendedExpectedMax) (h : expectedObjects c = expectedObjects c') :
    c.ne = c'.ne := by
  have hread := read_expectedObjects hle
  rw [h, read_expectedObjects hle'] at hread
  exact (eq_of_objects_eq (Except.ok.inj hread)).symm

/-- A length that is not expected is within any bound. -/
theorem Command.ne_le (h : ∀ n, c.expected = some n → n ≤ extendedExpectedMax) :
    c.ne ≤ extendedExpectedMax := by
  cases hn : c.expected with
  | none =>
    rw [ne_of_none hn]
    decide
  | some n =>
    rw [ne_of_some hn]
    exact h n hn

theorem sameObjects_iff (hle : c.ne ≤ Command.extendedExpectedMax)
    (hle' : c'.ne ≤ Command.extendedExpectedMax) :
    SameObjects keys counter c c' ↔ c.Alike c' := by
  constructor
  · rintro ⟨hheader, hdata, hexpected⟩
    rw [protectedHeader, protectedHeader] at hheader
    injection hheader with hcla hheader
    injection hheader with hins hheader
    injection hheader with hp1 hheader
    injection hheader with hp2 hheader
    exact ⟨hcla, hins, hp1, hp2, content_eq_of_dataObjects hdata,
      ne_eq_of_expectedObjects hle hle' hexpected⟩
  · rintro ⟨hcla, hins, hp1, hp2, hcontent, hne⟩
    -- how wide the expected length is depends on both lengths
    have hnc : c.nc = c'.nc := congrArg List.length hcontent
    have hextended : c.isExtended = c'.isExtended := by
      rw [Command.isExtended, Command.isExtended, hnc, hne]
    refine ⟨?_, ?_, ?_⟩
    · rw [protectedHeader, protectedHeader, hcla, hins, hp1, hp2]
    · rw [dataObjects, dataObjects, hnc, hins, hcontent]
    · rw [expectedObjects, expectedObjects, hextended, hne]

end

/-! ## Commands of a session -/

/-- `p` is `c` with its checksum: it has the header of `c` with the class marked, and its data is the
objects of `c` and behind them the checksum of the message. -/
structure EndsWithChecksum (keys : SessionKeys) (counter : Counter) (c p : Command) : Prop where
  header : p.header = protectedHeader c
  content : p.content = Tlv.encodeAll (coveredObjects keys counter c ++
    [.primitive DataObject.checksumTag ((Cipher.Cmac.tag (Cipher.Aes.cipher keys.mac)
      (checksumMessage keys counter c)).toBytes.take 8)])

section

variable {s s₁ s₁' : Session} {c c' p p' : Command}

theorem endsWithChecksum_of_encipher {keys : SessionKeys} (hkeys : s.keys = some keys)
    (h : s.encipher c = (.ok p, s₁)) :
    EndsWithChecksum keys s.advance.counter.current c p := by
  rw [Session.encipher, hkeys] at h
  injection h with hprotect
  obtain ⟨-, rfl⟩ := protect_eq_ok.mp hprotect
  exact ⟨rfl, rfl⟩

theorem exists_keys_of_encipher (h : s.encipher c = (.ok p, s₁)) : ∃ keys, s.keys = some keys := by
  rw [Session.encipher] at h
  split at h
  · cases h
  · next keys hkeys => exact ⟨keys, hkeys⟩

/-- Of two commands that a session can protect next, the checksums are computed over the same
bytes exactly if the headers and the objects are the same, and that is so exactly if the commands
are alike.  Without the bounds an object would leave out what is above the low 16 bits of an
expected length. -/
theorem checksum_covers_command (h : s.encipher c = (.ok p, s₁))
    (h' : s.encipher c' = (.ok p', s₁'))
    (hle : ∀ n, c.expected = some n → n ≤ Command.extendedExpectedMax)
    (hle' : ∀ n, c'.expected = some n → n ≤ Command.extendedExpectedMax) :
    ∃ keys, s.keys = some keys ∧
      let counter := s.advance.counter.current
      EndsWithChecksum keys counter c p ∧ EndsWithChecksum keys counter c' p' ∧
        (checksumMessage keys counter c = checksumMessage keys counter c' ↔
          SameObjects keys counter c c') ∧
        (SameObjects keys counter c c' ↔ c.Alike c') := by
  obtain ⟨keys, hkeys⟩ := exists_keys_of_encipher h
  exact ⟨keys, hkeys, endsWithChecksum_of_encipher hkeys h, endsWithChecksum_of_encipher hkeys h',
    checksumMessage_eq_iff ⟨s, p, s₁, h⟩ ⟨s, p', s₁', h'⟩,
    sameObjects_iff (Command.ne_le hle) (Command.ne_le hle')⟩

end

/-- A command that selects a file. -/
def selectFile (cla low : UInt8) : Command := ⟨cla, 0xA4, 0x04, 0x0C, some [0x3F, low], some 256⟩

/-- A class that is marked before makes no difference, and another byte of data does. -/
theorem checksum_covers_command_select :
    let keys : SessionKeys := ⟨⟨Bytes.zeros 16, by decide⟩, ⟨Bytes.zeros 16, by decide⟩, rfl⟩
    let s := Session.start keys (.ofNat 0)
    let message := checksumMessage keys (.ofNat 1)
    (∀ cla low, ∃ p, s.encipher (selectFile cla low) = (.ok p, s.advance) ∧
        EndsWithChecksum keys (.ofNat 1) (selectFile cla low) p) ∧
      message (selectFile 0x00 0x00) = message (selectFile 0x0C 0x00) ∧
      message (selectFile 0x00 0x00) ≠ message (selectFile 0x00 0x01) := by
  intro keys s message
  have hsent (cla low : UInt8) : s.encipher (selectFile cla low)
      = (.ok (protectedForm keys (.ofNat 1) (selectFile cla low)), s.advance) := by
    have hfits : (selectFile cla low).protectedLength ≤ Command.extendedDataMax := by
      show (selectFile 0 0).protectedLength ≤ _
      decide
    exact Prod.ext (protect_eq_ok.mpr ⟨hfits, rfl⟩) rfl
  have hle (cla low : UInt8) :
      ∀ n, (selectFile cla low).expected = some n → n ≤ Command.extendedExpectedMax := by
    intro n hn
    cases hn
    decide
  have hcovers (cla low cla' low' : UInt8) :=
    checksum_covers_command (hsent cla low) (hsent cla' low') (hle _ _) (hle _ _)
  refine ⟨fun cla low => ⟨_, hsent cla low, ?_⟩, ?_, fun hmessage => ?_⟩
  · obtain ⟨_, hkeys, hends, -⟩ := hcovers cla low cla low
    cases hkeys
    exact hends
  · obtain ⟨_, hkeys, -, -, hobjects, halike⟩ := hcovers 0x00 0x00 0x0C 0x00
    cases hkeys
    exact hobjects.mpr (halike.mpr ⟨by decide, rfl, rfl, rfl, rfl, rfl⟩)
  · obtain ⟨_, hkeys, -, -, hobjects, halike⟩ := hcovers 0x00 0x00 0x00 0x01
    cases hkeys
    exact absurd (halike.mp (hobjects.mp hmessage)).content (by decide)

end Messaging
end CardAccess

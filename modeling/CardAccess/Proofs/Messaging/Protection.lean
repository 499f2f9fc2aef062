import CardAccess.Messaging.Card
import CardAccess.Messaging.Session
import CardAccess.Proofs.Messaging.DataObject

/-!
# Each end opens what the other protects

Host and card put together what the checksum covers each on its own.  Whenever
both stand at the same position of the counter with the same keys, the card gets
back the command that the host protected, and the host the response that the card
protected.  Whether a command can be protected depends on its lengths alone,
`protectedLength`, and not on the keys or the counter.
-/

namespace CardAccess
namespace Messaging

/-! ## The length of a protected command -/

namespace DataObject

/-- The number of bytes of an object whose value has `length` bytes. -/
def objectLength (length : Nat) : Nat := 1 + Tlv.Length.fieldLength length + length

theorem encodedLength_primitive {tag : Tlv.Tag} (h : tag ∈ tags) (value : Bytes) :
    (Tlv.primitive tag value).encodedLength = objectLength value.length := by
  rw [Tlv.encodedLength, (tag_eq_short h).2.2, objectLength]

theorem encodedLength_cryptogram (ins : UInt8) (encrypted : Bytes) :
    (cryptogram ins encrypted).encodedLength
      = objectLength (encrypted.length + if ins % 2 = 0 then 1 else 0) := by
  rw [← length_value_cryptogram, cryptogram]
  split
  · exact encodedLength_primitive (by decide) _
  · exact encodedLength_primitive (by decide) _

end DataObject

/-- The number of bytes of the objects of a protected command. -/
def Command.protectedLength (c : Command) : Nat :=
  let data :=
    if c.nc = 0 then 0
    else DataObject.objectLength (16 * (c.nc / 16 + 1) + if c.ins % 2 = 0 then 1 else 0)
  let expected := match DataObject.expectedValue? c.isExtended c.ne with
    | none => 0
    | some value => DataObject.objectLength value.length
  data + expected + DataObject.objectLength SessionKeys.checksumLength

/-- The object with the data of a command, if it has data. -/
def dataObjects (keys : SessionKeys) (counter : Counter) (c : Command) : List Tlv :=
  if c.nc = 0 then []
  else [DataObject.cryptogram c.ins (keys.encrypt counter c.content)]

/-- The object with the expected length of a command, if it expects any. -/
def expectedObjects (c : Command) : List Tlv :=
  (DataObject.expectedValue? c.isExtended c.ne).toList.map (Tlv.primitive DataObject.expectedTag)

theorem coveredObjects_eq (keys : SessionKeys) (counter : Counter) (c : Command) :
    coveredObjects keys counter c = dataObjects keys counter c ++ expectedObjects c := rfl

theorem encodedLengthAll_dataObjects (keys : SessionKeys) (counter : Counter) (c : Command) :
    Tlv.encodedLengthAll (dataObjects keys counter c)
      = if c.nc = 0 then 0
        else DataObject.objectLength (16 * (c.nc / 16 + 1) + if c.ins % 2 = 0 then 1 else 0) := by
  rw [dataObjects]
  by_cases hnc : c.nc = 0
  · rw [if_pos hnc, if_pos hnc]
    rfl
  · have hlength : (keys.encrypt counter c.content).length = 16 * (c.nc / 16 + 1) :=
      SessionKeys.length_encrypt keys counter c.content
    rw [if_neg hnc, if_neg hnc, Tlv.encodedLengthAll, DataObject.encodedLength_cryptogram, hlength]
    rfl

theorem encodedLengthAll_expectedObjects (c : Command) :
    Tlv.encodedLengthAll (expectedObjects c)
      = match DataObject.expectedValue? c.isExtended c.ne with
        | none => 0
        | some value => DataObject.objectLength value.length := by
  rw [expectedObjects]
  cases DataObject.expectedValue? c.isExtended c.ne with
  | none => rfl
  | some value =>
    show Tlv.encodedLength _ + 0 = _
    rw [DataObject.encodedLength_primitive (by decide), Nat.add_zero]

theorem encodedLengthAll_checksum (keys : SessionKeys) (counter : Counter) (input : Bytes) :
    Tlv.encodedLengthAll [.primitive DataObject.checksumTag (keys.checksum counter input)]
      = DataObject.objectLength SessionKeys.checksumLength := by
  rw [Tlv.encodedLengthAll, DataObject.encodedLength_primitive (by decide),
    SessionKeys.length_checksum]
  rfl

theorem length_protectedData (keys : SessionKeys) (counter : Counter) (c : Command) :
    (protectedData keys counter c).length = c.protectedLength := by
  rw [protectedData, Tlv.length_encodeAll, Tlv.encodedLengthAll_append, coveredObjects_eq,
    Tlv.encodedLengthAll_append, encodedLengthAll_dataObjects, encodedLengthAll_expectedObjects,
    encodedLengthAll_checksum, Command.protectedLength]

/-- The protected form of a command, whether it fits or not. -/
def protectedForm (keys : SessionKeys) (counter : Counter) (c : Command) : Command :=
  let data := protectedData keys counter c
  ⟨c.cla ||| DataObject.protectedClass, c.ins, c.p1, c.p2, some data,
    some (protectedExpected c data)⟩

theorem protect_eq_ok {keys : SessionKeys} {counter : Counter} {c p : Command} :
    protect keys counter c = .ok p ↔
      c.protectedLength ≤ Command.extendedDataMax ∧ p = protectedForm keys counter c := by
  rw [protect, length_protectedData]
  by_cases h : Command.extendedDataMax < c.protectedLength
  · rw [if_pos h]
    constructor
    · intro hp
      cases hp
    · rintro ⟨hle, -⟩
      exact absurd h (Nat.not_lt_of_le hle)
  · rw [if_neg h]
    constructor
    · intro hp
      cases hp
      exact ⟨Nat.le_of_not_lt h, rfl⟩
    · rintro ⟨-, rfl⟩
      rfl

theorem protect_eq_error {keys : SessionKeys} {counter : Counter} {c : Command} {e : Error} :
    protect keys counter c = .error e ↔
      Command.extendedDataMax < c.protectedLength ∧ e = .dataTooLong c.protectedLength := by
  rw [protect, length_protectedData]
  by_cases h : Command.extendedDataMax < c.protectedLength
  · rw [if_pos h]
    exact ⟨fun he => ⟨h, (Except.error.inj he).symm⟩, fun he => congrArg Except.error he.2.symm⟩
  · rw [if_neg h]
    exact ⟨(nomatch ·), fun he => absurd he.1 h⟩

/-- The commands that some session protects. -/
def Command.Protectable (c : Command) : Prop :=
  ∃ (s : Session) (p : Command) (s' : Session), s.encipher c = (.ok p, s')

/-- Whether a command is protected does not depend on the session. -/
theorem Command.protectable_iff {c : Command} :
    c.Protectable ↔ c.protectedLength ≤ extendedDataMax := by
  constructor
  · rintro ⟨s, p, s', h⟩
    rw [Session.encipher] at h
    split at h
    · cases h
    · injection h with hprotect
      exact (protect_eq_ok.mp hprotect).1
  · intro h
    have zeros : 16 ∈ Cipher.Aes.keyLengths := by decide
    let key : Cipher.Aes.Key := ⟨Bytes.zeros 16, zeros⟩
    let s : Session := .start ⟨key, key, rfl⟩ (.ofNat 0)
    exact ⟨s, _, s.advance, Prod.ext (protect_eq_ok.mpr ⟨h, rfl⟩) rfl⟩

theorem protect_of_protectable {c : Command} (h : c.Protectable) (keys : SessionKeys)
    (counter : Counter) : protect keys counter c = .ok (protectedForm keys counter c) :=
  protect_eq_ok.mpr ⟨Command.protectable_iff.mp h, rfl⟩

theorem Command.nc_lt_of_protectable {c : Command} (h : c.Protectable) :
    c.nc < extendedDataMax := by
  have hlength := protectable_iff.mp h
  have hmax : extendedDataMax = 65535 := rfl
  by_cases hnc : c.nc = 0
  · omega
  · rw [protectedLength, if_neg hnc, DataObject.objectLength] at hlength
    omega

/-! ## From the host to the card -/

/-- Marking the class of a plain command can be undone. -/
theorem unmark_mark (cla : UInt8) (h : cla &&& DataObject.protectedClass = 0) :
    (cla ||| DataObject.protectedClass) &&& ~~~DataObject.protectedClass = cla := by
  revert cla
  exact Bytes.forall_byte (by decide +kernel)

/-- What a command must be to read back: its class leaves the two bits free that
mark protection, and neither its data nor its expected length is there but
empty. -/
structure Command.Plain (c : Command) : Prop where
  cla : c.cla &&& DataObject.protectedClass = 0
  data : c.data ≠ some []
  expected : ∀ n, c.expected = some n → n ≠ 0 ∧ n ≤ Command.extendedExpectedMax

def protectedObjects (keys : SessionKeys) (counter : Counter) (c : Command) : List Tlv :=
  coveredObjects keys counter c ++
    [.primitive DataObject.checksumTag (keys.checksum counter (checksumInput keys counter c))]

section command

variable {keys : SessionKeys} {counter : Counter} {c : Command}

theorem sendable_dataObjects (hfits : c.Protectable) :
    ∀ object ∈ dataObjects keys counter c, DataObject.Sendable object := by
  intro object hobject
  have hnc := Command.nc_lt_of_protectable hfits
  have hmax : Command.extendedDataMax = 65535 := rfl
  have hlength := SessionKeys.length_encrypt keys counter c.content
  rw [← Command.nc] at hlength
  rw [dataObjects] at hobject
  split at hobject
  · cases hobject
  · rw [List.mem_singleton.mp hobject]
    exact DataObject.sendable_cryptogram c.ins (by omega)

theorem expectedObjects_of_none (h : c.expected = none) : expectedObjects c = [] := by
  rw [expectedObjects, Command.ne_of_none h, DataObject.expectedValue?_zero]
  rfl

theorem expectedObjects_of_some (hc : c.Plain) {n : UInt32} (h : c.expected = some n) :
    ∃ value, expectedObjects c = [.primitive DataObject.expectedTag value] ∧
      DataObject.expectedOf (.primitive DataObject.expectedTag value) = .ok n := by
  have hne := Command.ne_of_some h
  have hshort (hshort : c.isExtended = false) : n ≤ Command.shortExpectedMax := by
    rw [← hne]
    exact (Command.not_isExtended hshort).2
  obtain ⟨hpos, hle⟩ := hc.expected n h
  obtain ⟨value, hvalue, hread⟩ := DataObject.expectedOf_expectedValue? hpos hle hshort
  refine ⟨value, ?_, hread⟩
  rw [expectedObjects, hne, hvalue]
  rfl

theorem sendable_expectedObjects :
    ∀ object ∈ expectedObjects c, DataObject.Sendable object := by
  intro object hobject
  rw [expectedObjects] at hobject
  cases hvalue : DataObject.expectedValue? c.isExtended c.ne with
  | none =>
    rw [hvalue] at hobject
    cases hobject
  | some value =>
    have hlength := DataObject.length_expectedValue? hvalue
    rw [hvalue] at hobject
    rw [List.mem_singleton.mp hobject]
    exact DataObject.sendable_primitive (by decide) (by omega)

theorem sendable_protectedObjects (hfits : c.Protectable) :
    ∀ object ∈ protectedObjects keys counter c, DataObject.Sendable object := by
  intro object hobject
  rcases List.mem_append.mp hobject with hcovered | hchecksum
  · rcases List.mem_append.mp hcovered with hdata | hexpected
    · exact sendable_dataObjects hfits object hdata
    · exact sendable_expectedObjects object hexpected
  · rw [List.mem_singleton.mp hchecksum]
    exact DataObject.sendable_checksum keys counter _

theorem parseAll_protectedData (hfits : c.Protectable) :
    Tlv.parseAll (protectedData keys counter c) = .ok (protectedObjects keys counter c) :=
  DataObject.parseAll_encodeAll (sendable_protectedObjects hfits)

theorem add_cryptogram {r : ReceivedCommand} {ins : UInt8} {data : Bytes} :
    r.add keys counter (DataObject.cryptogram ins (keys.encrypt counter data))
      = .ok { r with
          plain := { r.plain with data := some data },
          covered := r.covered ++ [DataObject.cryptogram ins (keys.encrypt counter data)] } := by
  rw [ReceivedCommand.add]
  dsimp only
  rw [if_pos (DataObject.isCryptogram_cryptogram ins _), DataObject.encryptedOf_cryptogram,
    SessionKeys.decrypt_encrypt]
  rfl

theorem add_expected {r : ReceivedCommand} {value : Bytes} {n : UInt32}
    (h : DataObject.expectedOf (.primitive DataObject.expectedTag value) = .ok n) :
    r.add keys counter (.primitive DataObject.expectedTag value)
      = .ok { r with
          plain := { r.plain with expected := some n },
          covered := r.covered ++ [.primitive DataObject.expectedTag value] } := by
  show (DataObject.expectedOf (.primitive DataObject.expectedTag value) >>= fun n =>
    Except.ok ({ r with
      plain := { r.plain with expected := some n },
      covered := r.covered ++ [.primitive DataObject.expectedTag value] } : ReceivedCommand)) = _
  rw [h]
  rfl

theorem foldlM_dataObjects (hc : c.Plain) (cla : UInt8) :
    (dataObjects keys counter c).foldlM (ReceivedCommand.add keys counter)
        ⟨⟨cla, c.ins, c.p1, c.p2, none, none⟩, [], none⟩
      = .ok ⟨⟨cla, c.ins, c.p1, c.p2, c.data, none⟩, dataObjects keys counter c, none⟩ := by
  rw [dataObjects]
  cases hsome : c.data with
  | none =>
    rw [if_pos (Command.nc_of_none hsome)]
    rfl
  | some data =>
    have hcontent := Command.content_of_some hsome
    have hnc : ¬ c.nc = 0 := by
      rw [Command.nc, hcontent]
      exact fun h => hc.data (by rw [hsome, List.length_eq_zero_iff.mp h])
    rw [if_neg hnc, hcontent, List.foldlM_cons, add_cryptogram]
    rfl

theorem foldlM_expectedObjects (hc : c.Plain) (cla : UInt8) (data : Option Bytes)
    (covered : List Tlv) :
    (expectedObjects c).foldlM (ReceivedCommand.add keys counter)
        ⟨⟨cla, c.ins, c.p1, c.p2, data, none⟩, covered, none⟩
      = .ok ⟨⟨cla, c.ins, c.p1, c.p2, data, c.expected⟩, covered ++ expectedObjects c, none⟩ := by
  cases hexpected : c.expected with
  | none =>
    rw [expectedObjects_of_none hexpected, List.append_nil]
    rfl
  | some n =>
    obtain ⟨value, hobjects, hread⟩ := expectedObjects_of_some hc hexpected
    rw [hobjects, List.foldlM_cons, add_expected hread]
    rfl

theorem foldlM_coveredObjects (hc : c.Plain) (cla : UInt8) :
    (coveredObjects keys counter c).foldlM (ReceivedCommand.add keys counter)
        ⟨⟨cla, c.ins, c.p1, c.p2, none, none⟩, [], none⟩
      = .ok ⟨⟨cla, c.ins, c.p1, c.p2, c.data, c.expected⟩, coveredObjects keys counter c,
          none⟩ := by
  rw [coveredObjects_eq, List.foldlM_append, foldlM_dataObjects hc]
  exact foldlM_expectedObjects hc cla c.data (dataObjects keys counter c)

/-- The card gets back the command that the host protected. -/
theorem unprotect_protect {p : Command} (hc : c.Plain) (h : protect keys counter c = .ok p) :
    Card.unprotect keys counter p = .ok c := by
  obtain ⟨hfits, rfl⟩ := protect_eq_ok.mp h
  have hparse : (Tlv.parseAll (protectedData keys counter c)).mapError Error.tlv
      = .ok (protectedObjects keys counter c) :=
    congrArg (Except.mapError Error.tlv)
      (parseAll_protectedData (Command.protectable_iff.mpr hfits))
  have hread : (protectedObjects keys counter c).foldlM (ReceivedCommand.add keys counter)
        ⟨⟨c.cla, c.ins, c.p1, c.p2, none, none⟩, [], none⟩
      = .ok ⟨c, coveredObjects keys counter c,
          some (keys.checksum counter (checksumInput keys counter c))⟩ := by
    rw [protectedObjects, List.foldlM_append, foldlM_coveredObjects hc]
    rfl
  rw [Card.unprotect]
  refine (bind_of_ok hparse).trans ?_
  dsimp only [protectedForm]
  rw [unmark_mark c.cla hc.cla]
  exact (bind_of_ok hread).trans (bind_of_ok (SessionKeys.verify_checksum keys counter _))

theorem ofBytes_toBytes_protect {p : Command} (h : protect keys counter c = .ok p) :
    ∃ bytes, p.toBytes = .ok bytes ∧ Command.ofBytes bytes = .ok p := by
  obtain ⟨hfits, rfl⟩ := protect_eq_ok.mp h
  have hlength := length_protectedData keys counter c
  apply Command.ofBytes_toBytes
  · intro hnil
    have hempty : c.protectedLength = 0 := by
      rw [← hlength, Option.some.inj hnil]
      rfl
    rw [Command.protectedLength] at hempty
    exact absurd (Nat.eq_zero_of_add_eq_zero hempty).2 (by decide)
  · show (protectedData keys counter c).length ≤ _
    rwa [hlength]
  · intro n hn
    rw [← Option.some.inj hn, protectedExpected]
    split
    · exact ⟨by decide, by decide⟩
    · exact ⟨by decide, by decide⟩

end command

/-! ## From the card to the host -/

section response

variable {keys : SessionKeys} {counter : Counter} {r : Response} {objects : ResponseObjects}

theorem ResponseObjects.verify_of_checksum {checksum : Bytes}
    (h : objects.checksum.map Tlv.value = some checksum) (hne : checksum ≠ []) :
    objects.verify keys counter
      = keys.verify counter (DataObject.responseInput objects.covered) checksum := by
  rw [verify, h]
  cases checksum with
  | nil => exact absurd rfl hne
  | cons _ _ => rfl

theorem ResponseObjects.plain_of_cryptogram {encrypted : Bytes}
    (h : objects.cryptogram.map DataObject.encryptedOf = some encrypted) (hne : encrypted ≠ []) :
    objects.plain keys counter = keys.decrypt counter encrypted := by
  rw [plain, h]
  cases encrypted with
  | nil => exact absurd rfl hne
  | cons _ _ => rfl

/-- A response that can be read and has the right checksum takes the counter one
position further. -/
theorem Session.decipher_of_verified (hread : ResponseObjects.ofResponse r = .ok objects)
    (hverified : objects.verify keys counter.next = .ok ()) :
    (start keys counter).decipher r
      = (objects.response keys counter.next r.status, start keys counter.next) := by
  have hkeys : (start keys counter).keys = some keys := rfl
  have hnext : (start keys counter).advance = start keys counter.next := rfl
  have hcurrent : (start keys counter.next).counter.current = counter.next := rfl
  rw [decipher, hkeys, hread, hnext]
  dsimp only
  rw [hcurrent, hverified]

/-- A response fails before its checksum is looked at, fails the check, or is opened. -/
theorem Session.decipher_cases {s : Session} {keys : SessionKeys} (hkeys : s.keys = some keys)
    (r : Response) :
    (∃ e, ResponseObjects.ofResponse r = .error e ∧ s.decipher r = (.error e, s.advance)) ∨
      ∃ read, ResponseObjects.ofResponse r = .ok read ∧
        ((∃ e, read.verify keys s.advance.counter.current = .error e ∧
            s.decipher r = (.error e, s.advance.discardKeys)) ∨
          read.verify keys s.advance.counter.current = .ok () ∧
            s.decipher r
              = (read.response keys s.advance.counter.current r.status, s.advance)) := by
  rw [decipher, hkeys]
  dsimp only
  cases hread : ResponseObjects.ofResponse r with
  | error e => exact .inl ⟨e, rfl, rfl⟩
  | ok read =>
    refine .inr ⟨read, rfl, ?_⟩
    dsimp only
    cases hverify : read.verify keys s.advance.counter.current with
    | error e => exact .inl ⟨e, rfl, rfl⟩
    | ok _ => exact .inr ⟨rfl, rfl⟩

/-- Opening a response moves the counter by one, and at worst costs the keys. -/
theorem Session.decipher_session {s : Session} {keys : SessionKeys} (h : s.keys = some keys)
    (r : Response) :
    (s.decipher r).2 = s.advance ∨
      (s.decipher r).2 = s.advance.discardKeys ∧ ∃ e, (s.decipher r).1 = .error e := by
  rcases decipher_cases h r with ⟨e, -, h⟩ | ⟨read, -, ⟨e, -, h⟩ | ⟨-, h⟩⟩
  · exact .inl (congrArg Prod.snd h)
  · exact .inr ⟨congrArg Prod.snd h, e, congrArg Prod.fst h⟩
  · exact .inl (congrArg Prod.snd h)

def respondedObjects (keys : SessionKeys) (counter : Counter) (r : Response) : List Tlv :=
  Card.coveredObjects keys counter r ++ [.primitive DataObject.checksumTag
    (keys.checksum counter (DataObject.responseInput (Card.coveredObjects keys counter r)))]

theorem sendable_respondedObjects (hlength : r.data.length < 2 ^ 31) :
    ∀ object ∈ respondedObjects keys counter r, DataObject.Sendable object := by
  intro object hobject
  rcases List.mem_append.mp hobject with hcovered | hchecksum
  · rcases List.mem_append.mp hcovered with hdata | hstatus
    · have hencrypted := SessionKeys.length_encrypt keys counter r.data
      split at hdata
      · cases hdata
      · rw [List.mem_singleton.mp hdata]
        exact DataObject.sendable_cryptogram 0 (by omega)
    · rw [List.mem_singleton.mp hstatus]
      exact DataObject.sendable_status r.status
  · rw [List.mem_singleton.mp hchecksum]
    exact DataObject.sendable_checksum keys counter _

/-- What the host reads in a protected response: the encrypted data if there is
data, the status and the checksum, of which the checksum covers the others. -/
def readObjects (keys : SessionKeys) (counter : Counter) (r : Response) : ResponseObjects where
  cryptogram :=
    if r.data.isEmpty then none
    else some (DataObject.cryptogram 0 (keys.encrypt counter r.data))
  status := some (.primitive DataObject.statusTag (Response.statusBytes r.status))
  checksum := some (.primitive DataObject.checksumTag
    (keys.checksum counter (DataObject.responseInput (Card.coveredObjects keys counter r))))
  covered := Card.coveredObjects keys counter r

theorem foldlM_respondedObjects :
    (respondedObjects keys counter r).foldlM ResponseObjects.add .empty
      = .ok (readObjects keys counter r) := by
  rw [respondedObjects, readObjects, Card.coveredObjects]
  by_cases hempty : r.data.isEmpty = true
  · rw [if_pos hempty, if_pos hempty]
    rfl
  · rw [if_neg hempty, if_neg hempty]
    rfl

theorem encodeAll_respondedObjects_ne_nil :
    Tlv.encodeAll (respondedObjects keys counter r) ≠ [] := by
  intro hnil
  have hlength := congrArg List.length hnil
  rw [Tlv.length_encodeAll, respondedObjects, Tlv.encodedLengthAll_append, Tlv.encodedLengthAll,
    DataObject.encodedLength_primitive (by decide), DataObject.objectLength] at hlength
  simp only [List.length_nil] at hlength
  omega

theorem ofResponse_respond (hlength : r.data.length < 2 ^ 31) :
    ResponseObjects.ofResponse ⟨Tlv.encodeAll (respondedObjects keys counter r), r.status⟩
      = .ok (readObjects keys counter r) := by
  have hempty : ¬ (Tlv.encodeAll (respondedObjects keys counter r)).isEmpty = true :=
    fun h => encodeAll_respondedObjects_ne_nil (List.isEmpty_iff.mp h)
  have hparse : (Tlv.parseAll (Tlv.encodeAll (respondedObjects keys counter r))).mapError Error.tlv
      = .ok (respondedObjects keys counter r) :=
    congrArg (Except.mapError Error.tlv)
      (DataObject.parseAll_encodeAll (sendable_respondedObjects hlength))
  rw [ResponseObjects.ofResponse, if_neg hempty]
  exact (bind_of_ok hparse).trans foldlM_respondedObjects

theorem verify_readObjects : (readObjects keys counter r).verify keys counter = .ok () := by
  have hlength := SessionKeys.length_checksum keys counter
    (DataObject.responseInput (Card.coveredObjects keys counter r))
  have hne := List.ne_nil_of_length_eq_add_one hlength
  exact (ResponseObjects.verify_of_checksum rfl hne).trans
    (SessionKeys.verify_checksum keys counter _)

theorem plain_readObjects : (readObjects keys counter r).plain keys counter = .ok r.data := by
  by_cases hempty : r.data.isEmpty = true
  · rw [ResponseObjects.plain, readObjects, if_pos hempty, List.isEmpty_iff.mp hempty]
    rfl
  · have hlength := SessionKeys.length_encrypt keys counter r.data
    have hne : keys.encrypt counter r.data ≠ [] := List.ne_nil_of_length_pos (by omega)
    have hcryptogram : (readObjects keys counter r).cryptogram.map DataObject.encryptedOf
        = some (keys.encrypt counter r.data) := by
      rw [readObjects, if_neg hempty, Option.map_some, DataObject.encryptedOf_cryptogram]
    exact (ResponseObjects.plain_of_cryptogram hcryptogram hne).trans
      (SessionKeys.decrypt_encrypt keys counter r.data)

theorem response_readObjects (outer : UInt16) :
    (readObjects keys counter r).response keys counter outer = .ok r :=
  (bind_of_ok plain_readObjects).trans (Response.ofBytes_append r.data r.status)

end response

end Messaging
end CardAccess

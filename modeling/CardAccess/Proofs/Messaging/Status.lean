import CardAccess.Proofs.Messaging.Acceptance

/-!
# Data and status of an opened response

Once a response is accepted, the decrypted data and the value of its status object are
put behind one another and read like any response, whose status is the last two bytes.
Nothing looks at the length of the status object.  Where it has two bytes, the reading
gives back what was put together.  A longer one leaves its first bytes to the data, and
a shorter one takes the last bytes of the data into the status.

All of this happens: `accepts_answer` says that a response with any data and any status
object is accepted, as long as the two have two bytes between them.
-/

namespace CardAccess
namespace Messaging

open DataObject (isCryptogram isStatus isChecksum)

/-! ## Two bytes from the end -/

/-- The response consists of these data and these status bytes. -/
structure Response.HasParts (r : Response) (data status : Bytes) : Prop where
  data : r.data = data
  status : Response.statusBytes r.status = status

namespace Response

variable {out : Response} {plain status : Bytes}

/-- Data and status are read back as long as the status has its two bytes. -/
theorem hasParts_iff (h : out.toBytes = plain ++ status) :
    out.HasParts plain status ↔ status.length = statusLength := by
  have hread := length_statusBytes out.status
  constructor
  · intro hparts
    rw [← hparts.status, hread]
  · intro hlength
    have hparts := List.append_inj' h (hread.trans hlength.symm)
    exact ⟨hparts.1, hparts.2⟩

/-- What a status has in front of its last two bytes comes behind the data. -/
theorem hasParts_of_long (h : out.toBytes = plain ++ status)
    (hlong : statusLength ≤ status.length) :
    out.HasParts (plain ++ status.take (status.length - statusLength))
      (status.drop (status.length - statusLength)) := by
  have hsplit : out.toBytes = (plain ++ status.take (status.length - statusLength))
      ++ status.drop (status.length - statusLength) := by
    rw [List.append_assoc, List.take_append_drop, h]
  apply (hasParts_iff hsplit).mpr
  rw [List.length_drop]
  omega

/-- What a status lacks of two bytes is taken from the end of the data. -/
theorem hasParts_of_short (h : out.toBytes = plain ++ status)
    (hshort : status.length ≤ statusLength) :
    let kept := plain.length - (statusLength - status.length)
    out.HasParts (plain.take kept) (plain.drop kept ++ status) := by
  intro kept
  have hsplit : out.toBytes = plain.take kept ++ (plain.drop kept ++ status) := by
    rw [← List.append_assoc, List.take_append_drop, h]
  have hlength : out.data.length + statusLength = plain.length + status.length := by
    have hall := congrArg List.length h
    rwa [toBytes, List.length_append, List.length_append, length_statusBytes] at hall
  apply (hasParts_iff hsplit).mpr
  rw [List.length_append, List.length_drop]
  omega

theorem eq_of_hasParts {outer : UInt16} (h : out.HasParts plain (statusBytes outer)) :
    out = ⟨plain, outer⟩ := by
  have hbytes : out.toBytes = plain ++ statusBytes outer := by
    rw [toBytes, h.data, h.status]
  have hread := ofBytes_append out.data out.status
  rw [← toBytes, hbytes, ofBytes_append] at hread
  exact (Except.ok.inj hread).symm

end Response

/-! ## Accepted responses -/

section accepted

variable {keys : SessionKeys} {counter : Counter} {objects : List Tlv} {outer : UInt16}

theorem statusOf_of_absent (h : ∀ object ∈ objects, isStatus object = false) :
    statusOf objects outer = Response.statusBytes outer := by
  have hnone : objects.find? isStatus = none := by
    apply List.find?_eq_none.mpr
    intro object hmem
    simp [h object hmem]
  rw [statusOf, hnone]

theorem statusOf_of_mem (h : objects.countP isStatus ≤ 1) {object : Tlv} (hmem : object ∈ objects)
    (hkind : isStatus object = true) : statusOf objects outer = object.value := by
  rw [statusOf, (find?_eq_some_of_once h).mpr ⟨hmem, hkind⟩]

/-- The encrypted data stand for one plain text only. -/
theorem opens_unique (h : Admissible objects) {plain plain' : Bytes}
    (hopens : Opens keys counter objects plain) (hopens' : Opens keys counter objects plain') :
    plain' = plain :=
  Except.ok.inj (((plain_slots h).mpr hopens').symm.trans ((plain_slots h).mpr hopens))

theorem accepts_unique {r : Response} {objects' : List Tlv} {plain plain' : Bytes}
    (h : Accepts keys counter r objects plain) (h' : Accepts keys counter r objects' plain') :
    objects' = objects ∧ plain' = plain := by
  obtain rfl := Session.carries_unique h.carries h'.carries
  exact ⟨rfl, opens_unique h.carries.admissible h.opens h'.opens⟩

end accepted

namespace Session

theorem keys_of_decipher_ok {s : Session} {r out : Response} (h : (s.decipher r).1 = .ok out) :
    ∃ keys, s.keys = some keys := by
  cases hkeys : s.keys with
  | some keys => exact ⟨keys, rfl⟩
  | none =>
    rw [decipher, hkeys] at h
    cases h

/-- What data and status an accepted response is opened to.  It has one list of objects
and one plain text.  Without a status object the plain text and the outer status are
returned.  With one, the plain text and its value are returned exactly if the value has
two bytes; where it is longer, the bytes in front of its last two end the data, and
where it is shorter, the last bytes of the plain text begin the status. -/
theorem decipher_parts {s : Session} {r out : Response} (h : (s.decipher r).1 = .ok out) :
    ∃ keys objects plain, s.keys = some keys ∧
      Accepts keys s.counter.current.next r objects plain ∧
      (∀ objects' plain', Accepts keys s.counter.current.next r objects' plain' →
        objects' = objects ∧ plain' = plain) ∧
      ((∀ object ∈ objects, isStatus object = false) → out = ⟨plain, r.status⟩) ∧
      ∀ object ∈ objects, isStatus object = true →
        (out.HasParts plain object.value ↔ object.value.length = Response.statusLength) ∧
        (Response.statusLength ≤ object.value.length →
          let extra := object.value.length - Response.statusLength
          out.HasParts (plain ++ object.value.take extra) (object.value.drop extra)) ∧
        (object.value.length ≤ Response.statusLength →
          let kept := plain.length - (Response.statusLength - object.value.length)
          out.HasParts (plain.take kept) (plain.drop kept ++ object.value)) := by
  obtain ⟨keys, hkeys⟩ := keys_of_decipher_ok h
  obtain ⟨objects, plain, haccepts, hout⟩ := (decipher_eq_ok hkeys).mp h
  refine ⟨keys, objects, plain, hkeys, haccepts, ?_, ?_, ?_⟩
  · intro objects' plain' haccepts'
    exact accepts_unique haccepts haccepts'
  · intro habsent
    rw [statusOf_of_absent habsent] at hout
    exact Response.eq_of_hasParts
      ((Response.hasParts_iff hout).mpr (Response.length_statusBytes r.status))
  · intro object hmem hkind
    rw [statusOf_of_mem haccepts.carries.admissible.status hmem hkind] at hout
    exact ⟨Response.hasParts_iff hout, Response.hasParts_of_long hout,
      Response.hasParts_of_short hout⟩

/-- The answer of a card, whose status object has two bytes. -/
theorem decipher_parts_respond :
    let keys : SessionKeys := ⟨⟨Bytes.zeros 16, by decide⟩, ⟨Bytes.zeros 16, by decide⟩, rfl⟩
    let s := start keys (.ofNat 0)
    let answered := ((⟨keys, .ofNat 0⟩ : Card).respond ⟨[0x2A], 0x6282⟩).1
    (s.decipher answered).1 = .ok ⟨[0x2A], 0x6282⟩ ∧
      ∃ objects plain, Accepts keys (.ofNat 1) answered objects plain ∧
        ∃ object ∈ objects, isStatus object = true ∧ object.value = [0x62, 0x82] ∧
          (⟨[0x2A], 0x6282⟩ : Response).HasParts plain object.value := by
  intro keys s answered
  have hanswered : s.decipher answered = (.ok ⟨[0x2A], 0x6282⟩, _) :=
    Link.decipher_respond (by decide)
  have hopened : (s.decipher answered).1 = .ok ⟨[0x2A], 0x6282⟩ := congrArg Prod.fst hanswered
  obtain ⟨keys', objects, plain, hkeys, haccepts, -, -, hstatus⟩ := decipher_parts hopened
  cases hkeys
  have hparsed : Tlv.parseAll answered.data
      = .ok (respondedObjects keys (.ofNat 1) ⟨[0x2A], 0x6282⟩) :=
    DataObject.parseAll_encodeAll (sendable_respondedObjects (by decide))
  obtain rfl := Except.ok.inj (haccepts.carries.parsed.symm.trans hparsed)
  have hmem : Tlv.primitive DataObject.statusTag [0x62, 0x82]
      ∈ respondedObjects keys (.ofNat 1) ⟨[0x2A], 0x6282⟩ := .tail _ (.head _)
  exact ⟨hopened, _, plain, haccepts, _, hmem, rfl, rfl, (hstatus _ hmem rfl).1.mpr rfl⟩

end Session

/-! ## Status objects of any length -/

/-- Objects of a response with their checksum behind them. -/
def sealedObjects (keys : SessionKeys) (counter : Counter) (covered : List Tlv) : List Tlv :=
  covered ++
    [.primitive DataObject.checksumTag (keys.checksum counter (DataObject.responseInput covered))]

section sealed

variable {keys : SessionKeys} {counter : Counter} {covered : List Tlv}

theorem authentic_sealedObjects (h : ∀ object ∈ covered, isChecksum object = false) :
    Authentic keys counter (sealedObjects keys counter covered) := by
  refine ⟨_, List.mem_append_right _ List.mem_cons_self, rfl, ?_⟩
  have hcovered : (sealedObjects keys counter covered).filter (fun object => !isChecksum object)
      = covered := by
    rw [sealedObjects, List.filter_append, List.filter_eq_self.mpr]
    · exact List.append_nil covered
    · intro object hmem
      rw [h object hmem]
      rfl
  rw [checksumOf_eq, slots, hcovered]
  rfl

theorem sendable_sealedObjects (h : ∀ object ∈ covered, DataObject.Sendable object) :
    ∀ object ∈ sealedObjects keys counter covered, DataObject.Sendable object := by
  intro object hmem
  rcases List.mem_append.mp hmem with hcovered | hchecksum
  · exact h object hcovered
  · rw [List.mem_singleton.mp hchecksum]
    exact DataObject.sendable_checksum keys counter _

/-- An answer with encrypted data and a status object of any bytes. -/
def answerObjects (keys : SessionKeys) (counter : Counter) (plain status : Bytes) : List Tlv :=
  sealedObjects keys counter [DataObject.cryptogram 0 (keys.encrypt counter plain),
    .primitive DataObject.statusTag status]

theorem admissible_answerObjects (plain status : Bytes) :
    Admissible (answerObjects keys counter plain status) := by
  refine ⟨?_, Nat.le_refl 1, Nat.le_refl 1, Nat.le_refl 1⟩
  intro object hmem
  simp only [answerObjects, sealedObjects, List.cons_append, List.nil_append, List.mem_cons,
    List.not_mem_nil, or_false] at hmem
  rcases hmem with rfl | rfl | rfl
  · exact .inl rfl
  · exact .inr (.inl rfl)
  · exact .inr (.inr rfl)

theorem opens_answerObjects (plain status : Bytes) :
    Opens keys counter (answerObjects keys counter plain status) plain := by
  have hlength := SessionKeys.length_encrypt keys counter plain
  have hencrypted := DataObject.encryptedOf_cryptogram 0 (keys.encrypt counter plain)
  refine .encrypted (DataObject.cryptogram 0 (keys.encrypt counter plain)) plain (.head _) rfl ?_ ?_
  · rw [hencrypted]
    exact List.ne_nil_of_length_pos (by omega)
  · rw [hencrypted]
    exact decrypt_eq_ok.mp (SessionKeys.decrypt_encrypt keys counter plain)

/-- Any data with a status object of any length is accepted, if the two have room for a
status. -/
theorem accepts_answer {plain status : Bytes} (outer : UInt16) (hplain : plain.length < 2 ^ 31)
    (hstatus : status.length < 2 ^ 31) (hroom : 2 ≤ (plain ++ status).length) :
    Accepts keys counter ⟨Tlv.encodeAll (answerObjects keys counter plain status), outer⟩
      (answerObjects keys counter plain status) plain := by
  have hlength := SessionKeys.length_encrypt keys counter plain
  have hsendable : ∀ object ∈ answerObjects keys counter plain status,
      DataObject.Sendable object := by
    apply sendable_sealedObjects
    intro object hmem
    rcases List.mem_cons.mp hmem with rfl | hmem
    · exact DataObject.sendable_cryptogram 0 (by omega)
    · rw [List.mem_singleton.mp hmem]
      exact DataObject.sendable_primitive (by decide) (by omega)
  have hparsed := DataObject.parseAll_encodeAll hsendable
  refine ⟨⟨?_, hparsed, admissible_answerObjects plain status⟩, ?_,
    opens_answerObjects plain status, hroom⟩
  · intro hempty
    have hempty : Tlv.encodeAll (answerObjects keys counter plain status) = [] := hempty
    rw [hempty] at hparsed
    cases hparsed
  · apply authentic_sealedObjects
    intro object hmem
    rcases List.mem_cons.mp hmem with rfl | hmem
    · rfl
    · rw [List.mem_singleton.mp hmem]
      rfl

theorem decipher_answer {plain status : Bytes} {outer : UInt16} {out : Response}
    (haccepts : Accepts keys counter.next
      ⟨Tlv.encodeAll (answerObjects keys counter.next plain status), outer⟩
      (answerObjects keys counter.next plain status) plain)
    (hout : out.toBytes = plain ++ status) :
    ((Session.start keys counter).decipher
      ⟨Tlv.encodeAll (answerObjects keys counter.next plain status), outer⟩).1 = .ok out :=
  (Session.decipher_eq_ok rfl).mpr ⟨_, plain, haccepts, hout⟩

end sealed

namespace Session

/-- A status object of one byte makes the last byte of the data the first of the status,
and one of three bytes makes its first byte data. -/
theorem decipher_mixes_parts :
    let keys : SessionKeys := ⟨⟨Bytes.zeros 16, by decide⟩, ⟨Bytes.zeros 16, by decide⟩, rfl⟩
    let short := answerObjects keys (.ofNat 1) [0x01, 0x02] [0x90]
    let long := answerObjects keys (.ofNat 1) [] [0x61, 0x90, 0x00]
    Accepts keys (.ofNat 1) ⟨Tlv.encodeAll short, 0x9000⟩ short [0x01, 0x02] ∧
      ((start keys (.ofNat 0)).decipher ⟨Tlv.encodeAll short, 0x9000⟩).1 = .ok ⟨[0x01], 0x0290⟩ ∧
      Accepts keys (.ofNat 1) ⟨Tlv.encodeAll long, 0x9000⟩ long [] ∧
      ((start keys (.ofNat 0)).decipher ⟨Tlv.encodeAll long, 0x9000⟩).1 = .ok ⟨[0x61], 0x9000⟩ := by
  intro keys short long
  have hshort : Accepts keys (.ofNat 1) ⟨Tlv.encodeAll short, 0x9000⟩ short [0x01, 0x02] :=
    accepts_answer 0x9000 (by decide) (by decide) (by decide)
  have hlong : Accepts keys (.ofNat 1) ⟨Tlv.encodeAll long, 0x9000⟩ long [] :=
    accepts_answer 0x9000 (by decide) (by decide) (by decide)
  exact ⟨hshort, decipher_answer hshort (by decide), hlong, decipher_answer hlong (by decide)⟩

end Session

end Messaging
end CardAccess

import CardAccess.Proofs.Messaging.Exchange

/-!
# Which responses a session accepts

A response is accepted if its objects are of the three known kinds, none is there
twice, the checksum is the one of the other objects, and what is encrypted comes out
padded.  Each of these conditions is said here of the list of objects, while the
session looks at them one after the other and keeps what it has seen in slots;
`foldlM_add_eq_ok` says that the slots hold the first object of each kind and that
filling them fails exactly on a list that is not admissible.

The keys are lost when the objects are admissible and the checksum is not theirs, and
in no other way.  From then on every call fails and leaves the session as it is.
-/

namespace CardAccess
namespace Messaging

namespace DataObject

/-- Whether `object` holds the status. -/
def isStatus (object : Tlv) : Bool := object.tag = statusTag

/-- Whether `object` holds the checksum. -/
def isChecksum (object : Tlv) : Bool := object.tag = checksumTag

end DataObject

open DataObject (isCryptogram isStatus isChecksum)

/-! ## The conditions -/

/-- The objects that a protected response may consist of, in any order. -/
structure Admissible (objects : List Tlv) : Prop where
  known : ∀ object ∈ objects,
    isCryptogram object = true ∨ isStatus object = true ∨ isChecksum object = true
  cryptogram : objects.countP isCryptogram ≤ 1
  status : objects.countP isStatus ≤ 1
  checksum : objects.countP isChecksum ≤ 1

/-- The data of the response is a list of elements, at least one, that is admissible. -/
structure Carries (r : Response) (objects : List Tlv) : Prop where
  data : r.data ≠ []
  parsed : Tlv.parseAll r.data = .ok objects
  admissible : Admissible objects

/-- The checksum of the objects, which covers the position of the counter and all
objects but the checksum itself, written again in their order and padded. -/
def checksumOf (keys : SessionKeys) (counter : Counter) (objects : List Tlv) : Bytes :=
  let others := objects.filter fun object => !isChecksum object
  (Cipher.Cmac.tag (Cipher.Aes.cipher keys.mac)
    (counter.toBytes ++ Cipher.Padding.pad (Tlv.encodeAll others))).toBytes.take 8

/-- One of the objects is the checksum of all of them. -/
def Authentic (keys : SessionKeys) (counter : Counter) (objects : List Tlv) : Prop :=
  ∃ object ∈ objects, isChecksum object = true ∧ object.value = checksumOf keys counter objects

/-- The checksum is missing, empty or wrong. -/
def Unverified (keys : SessionKeys) (counter : Counter) (objects : List Tlv) : Prop :=
  (∀ object ∈ objects, isChecksum object = false) ∨
    ∃ object ∈ objects, isChecksum object = true ∧
      (object.value = [] ∨ object.value ≠ checksumOf keys counter objects)

/-- `encrypted` is whole blocks, which decrypt to the padded `plain` if the chain starts
with the encrypted counter. -/
def Decrypts (keys : SessionKeys) (counter : Counter) (encrypted plain : Bytes) : Prop :=
  let cipher := Cipher.Aes.cipher keys.enc
  encrypted.length % Cipher.Block.size = 0 ∧
    Cipher.Block.join (Cipher.Cbc.decryptBlocks cipher (cipher.encrypt counter.toBlock)
      (Cipher.Block.cut encrypted)) = Cipher.Padding.pad plain

/-- What the encrypted data among the objects stands for, which is nothing where there
is none. -/
inductive Opens (keys : SessionKeys) (counter : Counter) (objects : List Tlv) : Bytes → Prop where
  | absent (h : ∀ object ∈ objects, isCryptogram object = false) : Opens keys counter objects []
  | empty (object : Tlv) (hmem : object ∈ objects) (hkind : isCryptogram object = true)
      (h : DataObject.encryptedOf object = []) : Opens keys counter objects []
  | encrypted (object : Tlv) (plain : Bytes) (hmem : object ∈ objects)
      (hkind : isCryptogram object = true) (hne : DataObject.encryptedOf object ≠ [])
      (h : Decrypts keys counter (DataObject.encryptedOf object) plain) :
      Opens keys counter objects plain

/-- The status among the objects, or the one outside. -/
def statusOf (objects : List Tlv) (outer : UInt16) : Bytes :=
  match objects.find? isStatus with
  | some object => object.value
  | none => Response.statusBytes outer

/-- The response is accepted: it carries the objects, they are authentic, and the
data opened and the status together have room for a status. -/
structure Accepts (keys : SessionKeys) (counter : Counter) (r : Response) (objects : List Tlv)
    (plain : Bytes) : Prop where
  carries : Carries r objects
  authentic : Authentic keys counter objects
  opens : Opens keys counter objects plain
  length : 2 ≤ (plain ++ statusOf objects r.status).length

/-! ## Filling the slots -/

section once

variable {p : Tlv → Bool} {objects : List Tlv} {object : Tlv}

theorem find?_eq_some_of_once (h : objects.countP p ≤ 1) :
    objects.find? p = some object ↔ object ∈ objects ∧ p object = true := by
  constructor
  · exact fun hfound => ⟨List.mem_of_find?_eq_some hfound, List.find?_some hfound⟩
  · rintro ⟨hmem, hp⟩
    induction objects with
    | nil => cases hmem
    | cons first objects ih =>
      by_cases hfirst : p first = true
      · -- no other object but the first is of the kind
        rw [List.countP_cons_of_pos hfirst] at h
        have hnone := List.countP_eq_zero.mp (Nat.le_zero.mp (Nat.le_of_succ_le_succ h))
        rcases List.mem_cons.mp hmem with rfl | hmem
        · exact List.find?_cons_of_pos hfirst
        · exact absurd hp (hnone object hmem)
      · rw [List.countP_cons_of_neg hfirst] at h
        rw [List.find?_cons_of_neg hfirst]
        rcases List.mem_cons.mp hmem with rfl | hmem
        · exact absurd hp hfirst
        · exact ih h hmem

theorem countP_concat_le_one (h : objects.countP p ≤ 1) :
    (objects ++ [object]).countP p ≤ 1 ↔ (p object = true → objects.find? p = none) := by
  have hnone : objects.find? p = none ↔ objects.countP p = 0 := by
    rw [List.find?_eq_none, List.countP_eq_zero]
  rw [List.countP_append, List.countP_singleton, hnone]
  by_cases hp : p object = true
  · rw [if_pos hp]
    exact ⟨fun hle _ => by omega, fun himp => by rw [himp hp]⟩
  · rw [if_neg hp]
    exact ⟨fun _ hpos => absurd hpos hp, fun _ => h⟩

end once

/-- The first object of each kind, and those that the checksum covers. -/
def slots (objects : List Tlv) : ResponseObjects where
  cryptogram := objects.find? isCryptogram
  status := objects.find? isStatus
  checksum := objects.find? isChecksum
  covered := objects.filter fun object => !isChecksum object

section slots

variable {objects : List Tlv} {object : Tlv} {filled : ResponseObjects}

/-- A slot is filled only once. -/
theorem fill_eq_ok {slot : Option Tlv} {e : Error} {filled' : ResponseObjects} :
    (if slot.isSome then Except.error e else .ok filled) = .ok filled' ↔
      slot = none ∧ filled' = filled := by
  cases slot with
  | none => exact ⟨fun h => ⟨rfl, (Except.ok.inj h).symm⟩, fun h => congrArg Except.ok h.2.symm⟩
  | some object => exact ⟨(nomatch ·), fun h => nomatch h.1⟩

theorem admissible_concat (h : Admissible objects) :
    Admissible (objects ++ [object]) ↔
      (isCryptogram object = true ∨ isStatus object = true ∨ isChecksum object = true) ∧
        (isCryptogram object = true → objects.find? isCryptogram = none) ∧
        (isStatus object = true → objects.find? isStatus = none) ∧
        (isChecksum object = true → objects.find? isChecksum = none) := by
  rw [← countP_concat_le_one h.cryptogram, ← countP_concat_le_one h.status,
    ← countP_concat_le_one h.checksum]
  constructor
  · intro h'
    exact ⟨h'.known object (List.mem_append_right _ List.mem_cons_self), h'.cryptogram, h'.status,
      h'.checksum⟩
  · rintro ⟨hknown, hcryptogram, hstatus, hchecksum⟩
    refine ⟨fun o ho => ?_, hcryptogram, hstatus, hchecksum⟩
    rcases List.mem_append.mp ho with ho | ho
    · exact h.known o ho
    · rwa [List.mem_singleton.mp ho]

theorem Admissible.of_concat (h : Admissible (objects ++ [object])) : Admissible objects := by
  have hfewer {p : Tlv → Bool} (hp : (objects ++ [object]).countP p ≤ 1) :
      objects.countP p ≤ 1 := by
    rw [List.countP_append] at hp
    omega
  exact ⟨fun o ho => h.known o (List.mem_append_left _ ho), hfewer h.cryptogram, hfewer h.status,
    hfewer h.checksum⟩

/-- An object is of one kind at most. -/
theorem kind_cases (object : Tlv) :
    (isCryptogram object = true ∧ isStatus object = false ∧ isChecksum object = false) ∨
      (isCryptogram object = false ∧ isStatus object = true ∧ isChecksum object = false) ∨
      (isCryptogram object = false ∧ isStatus object = false ∧ isChecksum object = true) ∨
      (isCryptogram object = false ∧ isStatus object = false ∧ isChecksum object = false) := by
  have hkinds {tag : Tlv.Tag} (htag : object.tag = tag) :
      isCryptogram object
          = (decide (tag = DataObject.cryptogramTag) || decide (tag = DataObject.oddCryptogramTag)) ∧
        isStatus object = decide (tag = DataObject.statusTag) ∧
        isChecksum object = decide (tag = DataObject.checksumTag) := by
    subst htag
    exact ⟨rfl, rfl, rfl⟩
  by_cases hstatus : object.tag = DataObject.statusTag
  · exact .inr (.inl (hkinds hstatus))
  by_cases hchecksum : object.tag = DataObject.checksumTag
  · exact .inr (.inr (.inl (hkinds hchecksum)))
  have hstatus' : isStatus object = false := decide_eq_false hstatus
  have hchecksum' : isChecksum object = false := decide_eq_false hchecksum
  cases hcryptogram : isCryptogram object with
  | true => exact .inl ⟨rfl, hstatus', hchecksum'⟩
  | false => exact .inr (.inr (.inr ⟨rfl, hstatus', hchecksum'⟩))

theorem slots_concat (objects : List Tlv) (object : Tlv) :
    slots (objects ++ [object]) =
      { cryptogram := (slots objects).cryptogram.or (if isCryptogram object then some object else none)
        status := (slots objects).status.or (if isStatus object then some object else none)
        checksum := (slots objects).checksum.or (if isChecksum object then some object else none)
        covered := (slots objects).covered ++ if isChecksum object then [] else [object] } := by
  have hfind (p : Tlv → Bool) : (objects ++ [object]).find? p
      = (objects.find? p).or (if p object then some object else none) := by
    rw [List.find?_append, List.find?_singleton]
  have hfilter : (objects ++ [object]).filter (fun object => !isChecksum object)
      = (objects.filter fun object => !isChecksum object)
        ++ if isChecksum object then [] else [object] := by
    rw [List.filter_append]
    cases hkind : isChecksum object with
    | true => rw [List.filter_cons_of_neg (by rw [hkind]; decide), List.filter_nil]; rfl
    | false => rw [List.filter_cons_of_pos (by rw [hkind]; decide), List.filter_nil]; rfl
  rw [slots, hfind, hfind, hfind, hfilter]
  rfl

/-- One more object fills a slot that was empty, or the list is no longer admissible. -/
theorem add_slots (h : Admissible objects) :
    (slots objects).add object = .ok filled ↔
      Admissible (objects ++ [object]) ∧ filled = slots (objects ++ [object]) := by
  rw [admissible_concat h, slots_concat, ResponseObjects.add]
  rcases kind_cases object with ⟨hc, hs, hk⟩ | ⟨hc, hs, hk⟩ | ⟨hc, hs, hk⟩ | ⟨hc, hs, hk⟩
  · rw [if_pos hc, fill_eq_ok]
    constructor
    · rintro ⟨hnone, rfl⟩
      exact ⟨⟨.inl hc, fun _ => hnone, by simp [hs], by simp [hk]⟩, by simp [hc, hs, hk, hnone]⟩
    · rintro ⟨⟨-, hempty, -⟩, rfl⟩
      have hnone : (slots objects).cryptogram = none := hempty hc
      exact ⟨hnone, by simp [hc, hs, hk, hnone]⟩
  · rw [if_neg (by simp [hc]), if_pos (of_decide_eq_true hs), fill_eq_ok]
    constructor
    · rintro ⟨hnone, rfl⟩
      exact ⟨⟨.inr (.inl hs), by simp [hc], fun _ => hnone, by simp [hk]⟩,
        by simp [hc, hs, hk, hnone]⟩
    · rintro ⟨⟨-, -, hempty, -⟩, rfl⟩
      have hnone : (slots objects).status = none := hempty hs
      exact ⟨hnone, by simp [hc, hs, hk, hnone]⟩
  · rw [if_neg (by simp [hc]), if_neg (of_decide_eq_false hs), if_pos (of_decide_eq_true hk),
      fill_eq_ok]
    constructor
    · rintro ⟨hnone, rfl⟩
      exact ⟨⟨.inr (.inr hk), by simp [hc], by simp [hs], fun _ => hnone⟩,
        by simp [hc, hs, hk, hnone]⟩
    · rintro ⟨⟨-, -, -, hempty⟩, rfl⟩
      have hnone : (slots objects).checksum = none := hempty hk
      exact ⟨hnone, by simp [hc, hs, hk, hnone]⟩
  · rw [if_neg (by simp [hc]), if_neg (of_decide_eq_false hs), if_neg (of_decide_eq_false hk)]
    exact ⟨(nomatch ·), fun h => by simp [hc, hs, hk] at h⟩

/-- Reading the objects one after the other finds out whether they are admissible. -/
theorem foldlM_add_eq_ok :
    objects.foldlM ResponseObjects.add .empty = .ok filled ↔
      Admissible objects ∧ filled = slots objects := by
  induction objects using List.reverseRecOn generalizing filled with
  | nil =>
    have hempty : Admissible [] := by
      refine ⟨fun object h => ?_, by decide, by decide, by decide⟩
      cases h
    exact ⟨fun h => ⟨hempty, (Except.ok.inj h).symm⟩, fun h => congrArg Except.ok h.2.symm⟩
  | append_singleton objects object ih =>
    have hlast (before : ResponseObjects) : [object].foldlM ResponseObjects.add before
        = before.add object := by
      rw [List.foldlM_cons]
      exact bind_pure _
    rw [List.foldlM_append, bind_eq_ok]
    constructor
    · rintro ⟨before, hbefore, hfilled⟩
      obtain ⟨hadmissible, rfl⟩ := ih.mp hbefore
      rw [hlast] at hfilled
      exact (add_slots hadmissible).mp hfilled
    · rintro ⟨hadmissible, hfilled⟩
      have hbefore := hadmissible.of_concat
      refine ⟨slots objects, ih.mpr ⟨hbefore, rfl⟩, ?_⟩
      rw [hlast]
      exact (add_slots hbefore).mpr ⟨hadmissible, hfilled⟩

theorem ofResponse_eq_ok {r : Response} :
    ResponseObjects.ofResponse r = .ok filled ↔
      ∃ objects, Carries r objects ∧ filled = slots objects := by
  rw [ResponseObjects.ofResponse]
  by_cases hempty : r.data = []
  · rw [if_pos (List.isEmpty_iff.mpr hempty)]
    constructor
    · intro h
      cases h
    · rintro ⟨objects, h, -⟩
      exact absurd hempty h.data
  · rw [if_neg (fun h => hempty (List.isEmpty_iff.mp h)), bind_eq_ok]
    constructor
    · rintro ⟨objects, hobjects, hfilled⟩
      obtain ⟨hadmissible, hslots⟩ := foldlM_add_eq_ok.mp hfilled
      exact ⟨objects, ⟨hempty, mapError_eq_ok.mp hobjects, hadmissible⟩, hslots⟩
    · rintro ⟨objects, h, hslots⟩
      exact ⟨objects, mapError_eq_ok.mpr h.parsed, foldlM_add_eq_ok.mpr ⟨h.admissible, hslots⟩⟩

end slots

/-! ## The checks -/

section checks

variable {keys : SessionKeys} {counter : Counter} {objects : List Tlv}

theorem checksumOf_eq (keys : SessionKeys) (counter : Counter) (objects : List Tlv) :
    checksumOf keys counter objects
      = keys.checksum counter (DataObject.responseInput (slots objects).covered) := rfl

theorem checksumOf_ne_nil (keys : SessionKeys) (counter : Counter) (objects : List Tlv) :
    checksumOf keys counter objects ≠ [] := by
  rw [checksumOf_eq]
  exact List.ne_nil_of_length_eq_add_one (SessionKeys.length_checksum keys counter _)

theorem verify_slots (h : Admissible objects) :
    (slots objects).verify keys counter = .ok () ↔ Authentic keys counter objects := by
  have hfound {object : Tlv} : (slots objects).checksum = some object ↔ _ :=
    find?_eq_some_of_once h.checksum
  constructor
  · intro hverify
    rw [ResponseObjects.verify] at hverify
    split at hverify
    · cases hverify
    · cases hverify
    · next received _ hreceived =>
      obtain ⟨object, hobject, rfl⟩ := Option.map_eq_some_iff.mp hreceived
      obtain ⟨hmem, hkind⟩ := hfound.mp hobject
      refine ⟨object, hmem, hkind, ?_⟩
      rw [SessionKeys.verify] at hverify
      split at hverify
      · next hequal => exact hequal
      · cases hverify
  · rintro ⟨object, hmem, hkind, hvalue⟩
    have hreceived : (slots objects).checksum.map Tlv.value
        = some (checksumOf keys counter objects) := by
      rw [hfound.mpr ⟨hmem, hkind⟩, Option.map_some, hvalue]
    rw [ResponseObjects.verify_of_checksum hreceived (checksumOf_ne_nil keys counter objects)]
    exact SessionKeys.verify_checksum keys counter _

theorem not_authentic_iff (h : Admissible objects) :
    ¬ Authentic keys counter objects ↔ Unverified keys counter objects := by
  constructor
  · intro hnot
    by_cases hsome : ∃ object ∈ objects, isChecksum object = true
    · obtain ⟨object, hmem, hkind⟩ := hsome
      exact .inr ⟨object, hmem, hkind, .inr fun hvalue => hnot ⟨object, hmem, hkind, hvalue⟩⟩
    · exact .inl fun object hmem =>
        Bool.eq_false_iff.mpr fun hkind => hsome ⟨object, hmem, hkind⟩
  · rintro (hnone | ⟨object, hmem, hkind, hwrong⟩) ⟨object', hmem', hkind', hvalue⟩
    · rw [hnone object' hmem'] at hkind'
      cases hkind'
    · -- there is one checksum only, so the two objects are the same
      have hfound := (find?_eq_some_of_once h.checksum).mpr ⟨hmem, hkind⟩
      have hfound' := (find?_eq_some_of_once h.checksum).mpr ⟨hmem', hkind'⟩
      obtain rfl := Option.some.inj (hfound.symm.trans hfound')
      rcases hwrong with hempty | hne
      · exact checksumOf_ne_nil keys counter objects (hvalue.symm.trans hempty)
      · exact hne hvalue

theorem decrypt_eq_ok {encrypted plain : Bytes} :
    keys.decrypt counter encrypted = .ok plain ↔ Decrypts keys counter encrypted plain := by
  have hdecrypts : Cipher.Cbc.decrypt? (Cipher.Aes.cipher keys.enc) (keys.initialBlock counter)
      encrypted = some plain ↔ Decrypts keys counter encrypted plain :=
    Cipher.Cbc.decrypt?_eq_some
  rw [← hdecrypts, SessionKeys.decrypt]
  cases Cipher.Cbc.decrypt? (Cipher.Aes.cipher keys.enc) (keys.initialBlock counter) encrypted with
  | none =>
    constructor
    · intro h
      cases h
    · intro h
      cases h
  | some found =>
    constructor
    · intro h
      cases h
      rfl
    · intro h
      cases h
      rfl

theorem plain_slots (h : Admissible objects) {plain : Bytes} :
    (slots objects).plain keys counter = .ok plain ↔ Opens keys counter objects plain := by
  have hfound {object : Tlv} : (slots objects).cryptogram = some object ↔ _ :=
    find?_eq_some_of_once h.cryptogram
  constructor
  · intro hplain
    rw [ResponseObjects.plain] at hplain
    split at hplain
    · next hnone =>
      cases hplain
      have hnone : objects.find? isCryptogram = none := Option.map_eq_none_iff.mp hnone
      exact .absent fun object hmem => by simpa using List.find?_eq_none.mp hnone object hmem
    · next hempty =>
      cases hplain
      obtain ⟨object, hobject, hempty⟩ := Option.map_eq_some_iff.mp hempty
      obtain ⟨hmem, hkind⟩ := hfound.mp hobject
      exact .empty object hmem hkind hempty
    · next encrypted hne hencrypted =>
      obtain ⟨object, hobject, rfl⟩ := Option.map_eq_some_iff.mp hencrypted
      obtain ⟨hmem, hkind⟩ := hfound.mp hobject
      exact .encrypted object plain hmem hkind hne (decrypt_eq_ok.mp hplain)
  · intro hopens
    cases hopens with
    | absent hnone =>
      have hfind : (slots objects).cryptogram = none :=
        List.find?_eq_none.mpr fun object hmem => by simp [hnone object hmem]
      rw [ResponseObjects.plain, hfind]
      rfl
    | empty object hmem hkind hempty =>
      rw [ResponseObjects.plain, hfound.mpr ⟨hmem, hkind⟩, Option.map_some, hempty]
    | encrypted object plain hmem hkind hne hdecrypts =>
      have hmap : (slots objects).cryptogram.map DataObject.encryptedOf
          = some (DataObject.encryptedOf object) := by
        rw [hfound.mpr ⟨hmem, hkind⟩, Option.map_some]
      rw [ResponseObjects.plain_of_cryptogram hmap hne]
      exact decrypt_eq_ok.mpr hdecrypts

theorem response_slots (h : Admissible objects) {outer : UInt16} {out : Response} :
    (slots objects).response keys counter outer = .ok out ↔
      ∃ plain, Opens keys counter objects plain ∧ 2 ≤ (plain ++ statusOf objects outer).length ∧
        out.toBytes = plain ++ statusOf objects outer := by
  rw [ResponseObjects.response, bind_eq_ok]
  constructor
  · rintro ⟨plain, hplain, hout⟩
    exact ⟨plain, (plain_slots h).mp hplain, Response.ofBytes_eq_ok.mp hout⟩
  · rintro ⟨plain, hopens, hout⟩
    exact ⟨plain, (plain_slots h).mpr hopens, Response.ofBytes_eq_ok.mpr hout⟩

end checks

/-! ## One response -/

namespace Session

theorem carries_unique {r : Response} {objects objects' : List Tlv} (h : Carries r objects)
    (h' : Carries r objects') : objects' = objects :=
  Except.ok.inj (h'.parsed.symm.trans h.parsed)

theorem decipher_eq_ok {s : Session} {keys : SessionKeys} (hkeys : s.keys = some keys)
    {r out : Response} :
    (s.decipher r).1 = .ok out ↔
      ∃ objects plain, Accepts keys s.counter.current.next r objects plain ∧
        out.toBytes = plain ++ statusOf objects r.status := by
  rcases decipher_cases hkeys r with ⟨e, hread, h⟩ | ⟨read, hread, ⟨e, hverify, h⟩ | ⟨hverify, h⟩⟩
  · rw [h]
    refine ⟨(nomatch ·), ?_⟩
    rintro ⟨objects, plain, haccepts, -⟩
    cases hread.symm.trans (ofResponse_eq_ok.mpr ⟨objects, haccepts.carries, rfl⟩)
  · obtain ⟨objects, hcarries, rfl⟩ := ofResponse_eq_ok.mp hread
    rw [h]
    refine ⟨(nomatch ·), ?_⟩
    rintro ⟨objects', plain, haccepts, -⟩
    obtain rfl := carries_unique hcarries haccepts.carries
    cases hverify.symm.trans ((verify_slots hcarries.admissible).mpr haccepts.authentic)
  · obtain ⟨objects, hcarries, rfl⟩ := ofResponse_eq_ok.mp hread
    have hauthentic := (verify_slots hcarries.admissible).mp hverify
    rw [h, response_slots hcarries.admissible]
    constructor
    · rintro ⟨plain, hopens, hlength, hout⟩
      exact ⟨objects, plain, ⟨hcarries, hauthentic, hopens, hlength⟩, hout⟩
    · rintro ⟨objects', plain, haccepts, hout⟩
      obtain rfl := carries_unique hcarries haccepts.carries
      exact ⟨plain, haccepts.opens, haccepts.length, hout⟩

theorem keys_decipher_eq_none {s : Session} {keys : SessionKeys} (hkeys : s.keys = some keys)
    {r : Response} :
    (s.decipher r).2.keys = none ↔
      ∃ objects, Carries r objects ∧ Unverified keys s.counter.current.next objects := by
  have hkept : s.advance.keys ≠ none := fun hnone => nomatch hkeys.symm.trans hnone
  rcases decipher_cases hkeys r with ⟨e, hread, h⟩ | ⟨read, hread, ⟨e, hverify, h⟩ | ⟨hverify, h⟩⟩
  · rw [h]
    refine ⟨fun hnone => absurd hnone hkept, ?_⟩
    rintro ⟨objects, hcarries, -⟩
    cases hread.symm.trans (ofResponse_eq_ok.mpr ⟨objects, hcarries, rfl⟩)
  · obtain ⟨objects, hcarries, rfl⟩ := ofResponse_eq_ok.mp hread
    rw [h]
    refine ⟨fun _ => ⟨objects, hcarries, (not_authentic_iff hcarries.admissible).mp ?_⟩,
      fun _ => rfl⟩
    intro hauthentic
    cases hverify.symm.trans ((verify_slots hcarries.admissible).mpr hauthentic)
  · obtain ⟨objects, hcarries, rfl⟩ := ofResponse_eq_ok.mp hread
    rw [h]
    refine ⟨fun hnone => absurd hnone hkept, ?_⟩
    rintro ⟨objects', hcarries', hunverified⟩
    obtain rfl := carries_unique hcarries hcarries'
    exact absurd ((verify_slots hcarries.admissible).mp hverify)
      ((not_authentic_iff hcarries.admissible).mpr hunverified)

end Session

/-! ## Runs of calls -/

/-- A call on a session. -/
inductive SessionCall where
  | encipher (c : Command)
  | decipher (r : Response)
  deriving DecidableEq, Repr

/-- What a call returns. -/
inductive SessionReply where
  | command (result : Except Error Command)
  | response (result : Except Error Response)
  deriving DecidableEq, Repr

/-- The reply to a call of a session without keys. -/
def SessionCall.refused : SessionCall → SessionReply
  | .encipher _ => .command (.error .keysInvalidated)
  | .decipher _ => .response (.error .keysInvalidated)

namespace Session

/-- Carry out a call. -/
def call (s : Session) : SessionCall → SessionReply × Session
  | .encipher c => ((.command (s.encipher c).1), (s.encipher c).2)
  | .decipher r => ((.response (s.decipher r).1), (s.decipher r).2)

/-- Carry out calls one after the other. -/
def calls (s : Session) : List SessionCall → List SessionReply × Session
  | [] => ([], s)
  | c :: cs => ((s.call c).1 :: ((s.call c).2.calls cs).1, ((s.call c).2.calls cs).2)

theorem calls_append (s : Session) (before later : List SessionCall) :
    s.calls (before ++ later) =
      ((s.calls before).1 ++ ((s.calls before).2.calls later).1,
        ((s.calls before).2.calls later).2) := by
  induction before generalizing s with
  | nil => rfl
  | cons c before ih => rw [List.cons_append, calls, ih, calls, List.cons_append]

theorem call_without_keys {s : Session} (h : s.keys = none) (c : SessionCall) :
    s.call c = (c.refused, s) := by
  cases c with
  | encipher c => rw [call, encipher, h]; rfl
  | decipher r => rw [call, decipher, h]; rfl

theorem calls_without_keys {s : Session} (h : s.keys = none) (cs : List SessionCall) :
    s.calls cs = (cs.map SessionCall.refused, s) := by
  induction cs with
  | nil => rfl
  | cons c cs ih => rw [calls, call_without_keys h, ih, List.map_cons]

/-- A session accepts exactly the authenticated responses.  Whatever comes, the counter
takes one step.  The result is that of an accepted response, and the keys are discarded
exactly where the objects are admissible and the checksum is not theirs.  In a run of
calls, those that follow the loss of the keys are all refused, and none of them moves the
counter. -/
theorem decipher_accepts_authenticated :
    (∀ (s : Session) (keys : SessionKeys) (r : Response), s.keys = some keys →
      (s.decipher r).2.counter.current = s.counter.current.next ∧
      ((∃ out, (s.decipher r).1 = .ok out) ↔
        ∃ objects plain, Accepts keys s.counter.current.next r objects plain) ∧
      (∀ out, (s.decipher r).1 = .ok out ↔
        ∃ objects plain, Accepts keys s.counter.current.next r objects plain ∧
          out.toBytes = plain ++ statusOf objects r.status) ∧
      ((s.decipher r).2.keys = none ↔
        ∃ objects, Carries r objects ∧ Unverified keys s.counter.current.next objects) ∧
      ((s.decipher r).2.keys ≠ none → (s.decipher r).2 = s.advance)) ∧
    (∀ (s : Session) (before later : List SessionCall), (s.calls before).2.keys = none →
      s.calls (before ++ later)
        = ((s.calls before).1 ++ later.map SessionCall.refused, (s.calls before).2)) := by
  refine ⟨fun s keys r hkeys => ⟨?_, ?_, fun out => decipher_eq_ok hkeys,
    keys_decipher_eq_none hkeys, fun hkept => ?_⟩, fun s before later hnone => ?_⟩
  · rcases decipher_session hkeys r with h | ⟨h, -⟩ <;> rw [h] <;> rfl
  · constructor
    · rintro ⟨out, hout⟩
      obtain ⟨objects, plain, haccepts, -⟩ := (decipher_eq_ok hkeys).mp hout
      exact ⟨objects, plain, haccepts⟩
    · rintro ⟨objects, plain, haccepts⟩
      have hlong : ¬ (plain ++ statusOf objects r.status).length < Response.statusLength :=
        Nat.not_lt_of_le haccepts.length
      have hread : Response.ofBytes (plain ++ statusOf objects r.status) = .ok _ := if_neg hlong
      exact ⟨_, (decipher_eq_ok hkeys).mpr
        ⟨objects, plain, haccepts, (Response.ofBytes_eq_ok.mp hread).2⟩⟩
  · rcases decipher_session hkeys r with h | ⟨h, -⟩
    · exact h
    · rw [h] at hkept
      exact absurd rfl hkept
  · rw [calls_append, calls_without_keys hnone]

/-- A protected response is accepted, and one with an empty checksum costs the session its
keys, so that a command after it is refused. -/
theorem decipher_accepts_authenticated_thenRefuses :
    let keys : SessionKeys := ⟨⟨Bytes.zeros 16, by decide⟩, ⟨Bytes.zeros 16, by decide⟩, rfl⟩
    let s := start keys (.ofNat (2 ^ 128 - 1))
    let answered := ((⟨keys, .ofNat (2 ^ 128 - 1)⟩ : Card).respond ⟨[0x2A], 0x6282⟩).1
    let unchecked : Response := ⟨[0x99, 0x02, 0x90, 0x00, 0x8E, 0x00], 0x9000⟩
    let command : Command := ⟨0x00, 0xA4, 0x02, 0x0C, none, none⟩
    s.keys = some keys ∧ (∃ objects plain, Accepts keys (.ofNat 0) answered objects plain) ∧
      (s.decipher unchecked).2.counter.current = .ofNat 0 ∧
      (s.calls [.decipher unchecked]).2.keys = none ∧
      (s.calls [.decipher unchecked, .encipher command]).2.counter.current = .ofNat 0 := by
  intro keys s answered unchecked command
  have hkeys : s.keys = some keys := rfl
  have hnext : s.counter.current.next = .ofNat 0 := by decide
  have hanswered : s.decipher answered = (.ok ⟨[0x2A], 0x6282⟩, _) :=
    Link.decipher_respond (by decide)
  have haccepts := (decipher_accepts_authenticated.1 s keys answered hkeys).2.1.mp
    ⟨_, congrArg Prod.fst hanswered⟩
  obtain ⟨hcounter, -, -, hlost, -⟩ := decipher_accepts_authenticated.1 s keys unchecked hkeys
  rw [hnext] at haccepts hcounter
  have hobjects : Carries unchecked [.primitive DataObject.statusTag [0x90, 0x00],
      .primitive DataObject.checksumTag []] :=
    ⟨by decide, by decide +kernel, ⟨by decide, by decide, by decide, by decide⟩⟩
  have hnone : (s.calls [.decipher unchecked]).2.keys = none :=
    hlost.mpr ⟨_, hobjects, .inr ⟨_, .tail _ (.head _), rfl, .inl rfl⟩⟩
  refine ⟨hkeys, haccepts, hcounter, hnone, ?_⟩
  have hrefused := decipher_accepts_authenticated.2 s [.decipher unchecked] [.encipher command] hnone
  rw [List.singleton_append] at hrefused
  rw [hrefused]
  exact hcounter

end Session
end Messaging
end CardAccess

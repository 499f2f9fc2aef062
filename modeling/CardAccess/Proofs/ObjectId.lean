import CardAccess.ObjectId
import CardAccess.Tlv.Edit
import CardAccess.Proofs.Tlv.Cursor

/-!
# Identifiers read back

The reader takes one arc after the other, so bytes that end where an arc ends are read apart from
what comes behind them, and `arcsIn_append` says so.  The arcs that the writer makes of one number
end within its bytes.  Four bytes or less are always read; of five the last may be more than the
reader takes, which depends on the number alone and is `Refused`.  `ofBytes_of_ofText` adds this up
over the numbers of a text: its content bytes are read again unless one of them is refused.
-/

namespace CardAccess
namespace ObjectId

variable {content bytes front back rest : Bytes} {byte : UInt8} {id : ObjectId}
variable {count value arc position : Nat} {arcs : List Nat}

/-! ## Reading one arc after the other -/

/-- The bytes end where an arc ends. -/
def Complete (bytes : Bytes) : Prop := ∀ last ∈ bytes.getLast?, last &&& 0x80 = 0

theorem complete_nil : Complete [] := fun _ h => nomatch h

theorem Complete.tail (h : Complete (byte :: rest)) : Complete rest := by
  cases rest with
  | nil => exact complete_nil
  | cons next rest => exact fun last hlast => h last (List.getLast?_cons_cons.trans hlast)

theorem Complete.append (hfront : Complete front) (hback : Complete back) :
    Complete (front ++ back) := by
  intro last hlast
  rw [List.getLast?_append] at hlast
  cases hend : back.getLast? with
  | none =>
    rw [hend] at hlast
    exact hfront last hlast
  | some end_ =>
    rw [hend] at hlast
    exact hback last (hend.trans hlast)

theorem Complete.ne_nil (h : Complete (byte :: rest)) (hmore : byte &&& 0x80 ≠ 0) :
    rest ≠ [] := by
  rintro rfl
  exact hmore (h byte rfl)

theorem readArc_cons (count value : Nat) (byte : UInt8) (rest : Bytes) :
    readArc count value (byte :: rest) =
      if count + 1 > 4 ∧ byte &&& 0xF0 ≠ 0 then .error .arcTooBig
      else if byte &&& 0x80 = 0 then .ok ((value * 128 + byte.toNat % 128) % 2 ^ 32, rest)
      else readArc (count + 1) ((value * 128 + byte.toNat % 128) % 2 ^ 32) rest := rfl

theorem length_of_readArc (h : readArc count value bytes = .ok (arc, rest)) :
    rest.length < bytes.length := by
  induction bytes generalizing count value with
  | nil => cases h
  | cons byte bytes ih =>
    rw [readArc_cons] at h
    split at h
    · cases h
    split at h
    · cases h
      exact Nat.lt_succ_self _
    · exact Nat.lt_succ_of_lt (ih h)

theorem Complete.of_readArc (hbytes : Complete bytes)
    (h : readArc count value bytes = .ok (arc, rest)) : Complete rest := by
  induction bytes generalizing count value with
  | nil => cases h
  | cons byte bytes ih =>
    rw [readArc_cons] at h
    split at h
    · cases h
    split at h
    · cases h
      exact hbytes.tail
    · exact ih hbytes.tail h

/-- An arc that ends within the bytes is read as if none came behind them. -/
theorem readArc_append (hfront : Complete front) (hne : front ≠ []) :
    readArc count value (front ++ back)
      = (readArc count value front).map fun read => (read.1, read.2 ++ back) := by
  induction front generalizing count value with
  | nil => exact absurd rfl hne
  | cons byte front ih =>
    rw [List.cons_append, readArc_cons, readArc_cons]
    split
    · rfl
    split
    · rfl
    · next hmore => exact ih hfront.tail (hfront.ne_nil hmore)

theorem readArcs_cons (fuel : Nat) (byte : UInt8) (rest : Bytes) :
    readArcs (fuel + 1) (byte :: rest) = (do
      let read ← readArc 0 0 (byte :: rest)
      let arcs ← readArcs fuel read.2
      .ok (read.1 :: arcs)) := rfl

/-- More fuel than one for each byte changes nothing. -/
theorem readArcs_eq {fuel fuel' : Nat} (h : bytes.length ≤ fuel) (h' : bytes.length ≤ fuel') :
    readArcs fuel bytes = readArcs fuel' bytes := by
  induction fuel generalizing fuel' bytes with
  | zero =>
    cases List.eq_nil_of_length_eq_zero (Nat.le_zero.mp h)
    cases fuel' <;> rfl
  | succ fuel ih =>
    cases bytes with
    | nil => cases fuel' <;> rfl
    | cons byte bytes =>
      obtain ⟨fuel', rfl⟩ := Nat.exists_eq_succ_of_ne_zero (Nat.ne_zero_of_lt h')
      rw [readArcs_cons, readArcs_cons]
      cases hread : readArc 0 0 (byte :: bytes) with
      | error e => rfl
      | ok read =>
        have hshort := length_of_readArc hread
        rw [List.length_cons] at h h' hshort
        have hrest : readArcs fuel read.2 = readArcs fuel' read.2 := ih (by omega) (by omega)
        rw [bind_of_ok rfl, bind_of_ok rfl, hrest]

/-- The arcs in the bytes behind the first. -/
def arcsIn (bytes : Bytes) : Except Error (List Nat) := readArcs bytes.length bytes

theorem arcsIn_cons (byte : UInt8) (rest : Bytes) : arcsIn (byte :: rest) = (do
    let read ← readArc 0 0 (byte :: rest)
    let arcs ← arcsIn read.2
    .ok (read.1 :: arcs)) := by
  rw [arcsIn, List.length_cons, readArcs_cons]
  cases hread : readArc 0 0 (byte :: rest) with
  | error e => rfl
  | ok read =>
    have hshort := length_of_readArc hread
    rw [List.length_cons] at hshort
    rw [bind_of_ok rfl, bind_of_ok rfl, arcsIn, readArcs_eq (by omega) (Nat.le_refl _)]

/-- Bytes that end where an arc ends are read before what comes behind them. -/
theorem arcsIn_append (hfront : Complete front) : arcsIn (front ++ back) = (do
    let before ← arcsIn front
    let behind ← arcsIn back
    .ok (before ++ behind)) := by
  induction hlength : front.length using Nat.strongRecOn generalizing front with
  | ind length ih =>
    subst hlength
    cases front with
    | nil =>
      rw [List.nil_append]
      cases arcsIn back <;> rfl
    | cons byte front =>
      rw [List.cons_append, arcsIn_cons, arcsIn_cons, ← List.cons_append,
        readArc_append hfront (List.cons_ne_nil _ _)]
      cases hread : readArc 0 0 (byte :: front) with
      | error e => rfl
      | ok read =>
        have hrest := ih _ (length_of_readArc hread) (hfront.of_readArc hread) rfl
        rw [Except.map, bind_of_ok rfl, bind_of_ok rfl, hrest]
        cases arcsIn read.2 with
        | error e => rfl
        | ok before => cases arcsIn back <;> rfl

/-- Only a fifth byte can be too much. -/
theorem exists_readArc (hbytes : Complete bytes) (hne : bytes ≠ [])
    (hlength : count + bytes.length ≤ 4) :
    ∃ arc rest, readArc count value bytes = .ok (arc, rest) := by
  induction bytes generalizing count value with
  | nil => exact absurd rfl hne
  | cons byte bytes ih =>
    rw [List.length_cons] at hlength
    rw [readArc_cons, if_neg (by omega)]
    split
    · exact ⟨_, _, rfl⟩
    · next hmore => exact ih hbytes.tail (hbytes.ne_nil hmore) (by omega)

theorem exists_arcsIn (hbytes : Complete bytes) (hlength : bytes.length ≤ 4) :
    ∃ arcs, arcsIn bytes = .ok arcs := by
  induction hsize : bytes.length using Nat.strongRecOn generalizing bytes with
  | ind size ih =>
    subst hsize
    cases bytes with
    | nil => exact ⟨[], rfl⟩
    | cons byte bytes =>
      obtain ⟨arc, rest, hread⟩ : ∃ arc rest, readArc 0 0 (byte :: bytes) = .ok (arc, rest) :=
        exists_readArc hbytes (List.cons_ne_nil _ _) (by omega)
      have hshort := length_of_readArc hread
      obtain ⟨arcs, harcs⟩ := ih _ hshort (hbytes.of_readArc hread) (by omega) rfl
      refine ⟨arc :: arcs, ?_⟩
      rw [arcsIn_cons, hread, bind_of_ok rfl, harcs]
      rfl

/-! ## Reading what was written -/

/-- A written arc takes five bytes and the last of them is more than is read from a fifth byte,
although the arc itself is not too big. -/
def Refused (arc : Nat) : Prop := 2 ^ 29 ≤ arc ∧ 16 ≤ arc % 128

instance : DecidablePred Refused := fun _ => inferInstanceAs (Decidable (_ ∧ _))

theorem length_writeArc {more : Bool} {tail : Bytes}
    (h : writeArc position arc more tail = .ok bytes) :
    bytes.length = position + 1 + tail.length := by
  induction position generalizing arc more tail with
  | zero =>
    rw [writeArc] at h
    split at h
    · cases h
    · cases h
      simp only [Bytes.zeros, List.replicate_zero, List.nil_append, List.length_cons]
      omega
  | succ position ih =>
    rw [writeArc] at h
    split at h
    · have hlength := ih h
      rw [List.length_cons] at hlength
      omega
    · cases h
      rw [List.length_cons, List.length_append, Bytes.zeros, List.length_replicate]
      omega

theorem Complete.behind (front : Bytes) (hback : Complete back) (hne : back ≠ []) :
    Complete (front ++ back) := by
  obtain ⟨last, hlast⟩ := List.getLast?_isSome.mpr hne |> Option.isSome_iff_exists.mp
  intro found hfound
  rw [List.getLast?_append, hlast] at hfound
  cases hfound
  exact hback last hlast

theorem mark_and_mark (byte : UInt8) : (byte ||| 0x80) &&& 0x80 ≠ 0 := by
  revert byte
  exact Bytes.forall_byte (by decide +kernel)

theorem ofNat_and_mark : ∀ n < 128, UInt8.ofNat n &&& 0x80 = 0 := by decide +kernel

theorem ofNat_and_high : ∀ n < 128, (UInt8.ofNat n &&& 0xF0 ≠ 0 ↔ 16 ≤ n) := by decide +kernel

theorem complete_writeArc_true {tail : Bytes} (htail : Complete tail) (hne : tail ≠ [])
    (h : writeArc position arc true tail = .ok bytes) : Complete bytes := by
  induction position generalizing arc tail with
  | zero =>
    rw [writeArc] at h
    split at h
    · cases h
    · cases h
      exact htail.behind (_ :: Bytes.zeros 0) hne
  | succ position ih =>
    rw [writeArc] at h
    split at h
    · exact ih (htail.behind [_] hne) (List.cons_ne_nil _ _) h
    · cases h
      exact htail.behind (_ :: Bytes.zeros (position + 1)) hne

theorem complete_writeArc (hlast : arc < 128 ∨ 0 < position)
    (h : writeArc position arc false [] = .ok bytes) : Complete bytes := by
  have hsingle {n : Nat} (hn : n < 128) : Complete [UInt8.ofNat n ||| 0] := by
    intro last hlast
    cases hlast
    rw [UInt8.or_zero]
    exact ofNat_and_mark n hn
  rw [writeArc] at h
  split at h
  · cases position with
    | zero => cases h
    | succ position =>
      exact complete_writeArc_true (hsingle (Nat.mod_lt _ (by decide))) (List.cons_ne_nil _ _) h
  · cases h
    cases position with
    | zero => exact hsingle (hlast.resolve_right (Nat.lt_irrefl 0))
    | succ position =>
      have hzero : Complete [(0 : UInt8)] := fun last hlast => by
        cases hlast
        rfl
      rw [List.append_nil, Bytes.zeros, List.replicate_succ']
      exact hzero.behind (_ :: List.replicate position 0) (List.cons_ne_nil _ _)

/-- From `2 ^ 29` on an arc takes all of its five bytes. -/
theorem writeArc_wide (harc : arc < 2 ^ 32) (hwide : 2 ^ 29 ≤ arc) :
    writeArc (extraBytes arc) arc false [] = .ok
      [UInt8.ofNat (arc / 128 / 128 / 128 / 128) ||| 0x80,
        UInt8.ofNat (arc / 128 / 128 / 128 % 128) ||| 0x80,
        UInt8.ofNat (arc / 128 / 128 % 128) ||| 0x80,
        UInt8.ofNat (arc / 128 % 128) ||| 0x80, UInt8.ofNat (arc % 128)] := by
  have hextra : extraBytes arc = 4 := by
    rw [extraBytes, if_neg (by omega), if_neg (by omega), if_neg (by omega), if_neg (by omega)]
  rw [hextra, writeArc, if_pos (by omega)]
  dsimp only
  rw [writeArc, if_pos (by omega)]
  dsimp only
  rw [writeArc, if_pos (by omega)]
  dsimp only
  rw [writeArc, if_pos (by omega)]
  dsimp only
  rw [writeArc, if_neg (by omega), Bytes.zeros, List.replicate_zero]
  simp only [Bool.false_eq_true, if_false, if_true, UInt8.or_zero, List.nil_append]

theorem readArc_marked (hcount : count < 4) :
    readArc count value ((byte ||| 0x80) :: rest)
      = readArc (count + 1) ((value * 128 + (byte ||| 0x80).toNat % 128) % 2 ^ 32) rest := by
  rw [readArc_cons, if_neg (by omega), if_neg (mark_and_mark byte)]

theorem arcsIn_writeArc_wide (harc : arc < 2 ^ 32) (hwide : 2 ^ 29 ≤ arc)
    (h : writeArc (extraBytes arc) arc false [] = .ok bytes) :
    (16 ≤ arc % 128 → arcsIn bytes = .error .arcTooBig) ∧
      (arc % 128 < 16 → ∃ arcs, arcsIn bytes = .ok arcs) := by
  rw [writeArc_wide harc hwide] at h
  cases h
  have hlow : arc % 128 < 128 := Nat.mod_lt _ (by decide)
  rw [arcsIn_cons, readArc_marked (by decide), readArc_marked (by decide),
    readArc_marked (by decide), readArc_marked (by decide), readArc_cons]
  rw [if_pos (ofNat_and_mark _ hlow)]
  constructor
  · intro hhigh
    rw [if_pos ⟨by decide, (ofNat_and_high _ hlow).mpr hhigh⟩]
    rfl
  · intro hhigh
    rw [if_neg fun h => absurd ((ofNat_and_high _ hlow).mp h.2) (by omega)]
    exact ⟨_, rfl⟩

/-- The bytes are read as arcs of their own, unless they are refused for one of them. -/
structure Spelled (refused : Prop) (bytes : Bytes) : Prop where
  complete : Complete bytes
  error : refused → arcsIn bytes = .error .arcTooBig
  ok : ¬refused → ∃ arcs, arcsIn bytes = .ok arcs

theorem spelled_nil : Spelled False [] := ⟨complete_nil, False.elim, fun _ => ⟨[], rfl⟩⟩

theorem Spelled.append {p q : Prop} (hfront : Spelled p front) (hback : Spelled q back) :
    Spelled (p ∨ q) (front ++ back) := by
  refine ⟨hfront.complete.append hback.complete, fun h => ?_, fun h => ?_⟩
  · rw [arcsIn_append hfront.complete]
    by_cases hp : p
    · rw [hfront.error hp]
      rfl
    · obtain ⟨arcs, harcs⟩ := hfront.ok hp
      rw [harcs, bind_of_ok rfl, hback.error (h.resolve_left hp)]
      rfl
  · obtain ⟨hp, hq⟩ := not_or.mp h
    obtain ⟨before, hbefore⟩ := hfront.ok hp
    obtain ⟨behind, hbehind⟩ := hback.ok hq
    refine ⟨before ++ behind, ?_⟩
    rw [arcsIn_append hfront.complete, hbefore, bind_of_ok rfl, hbehind]
    rfl

theorem spelled_writeArc (harc : arc < 2 ^ 32)
    (h : writeArc (extraBytes arc) arc false [] = .ok bytes) : Spelled (Refused arc) bytes := by
  have hlast : arc < 128 ∨ 0 < extraBytes arc := by
    rw [extraBytes]
    split_ifs <;> omega
  have hcomplete := complete_writeArc hlast h
  rcases Nat.lt_or_ge arc (2 ^ 29) with hnarrow | hwide
  · have hextra : extraBytes arc ≤ 3 := by
      rw [extraBytes]
      split_ifs <;> omega
    have hlength := length_writeArc h
    rw [List.length_nil] at hlength
    exact ⟨hcomplete, fun hrefused => absurd hrefused.1 (by omega),
      fun _ => exists_arcsIn hcomplete (by omega)⟩
  · obtain ⟨herror, hok⟩ := arcsIn_writeArc_wide harc hwide h
    exact ⟨hcomplete, fun hrefused => herror hrefused.2,
      fun hread => hok (Nat.lt_of_not_le fun hhigh => hread ⟨hwide, hhigh⟩)⟩

/-! ## Texts -/

/-- The numbers between the dots of a text, of which the first has the digits of `arc` in
front. -/
def numbers : (text : Bytes) → (arc : Nat) → List Nat
  | [], arc => [arc]
  | byte :: rest, arc =>
    if 0x30 ≤ byte.toNat ∧ byte.toNat ≤ 0x39 then
      numbers rest ((arc * 10 + (byte.toNat - 0x30)) % 2 ^ 32)
    else arc :: numbers rest 0

/-- The arcs that a dotted text names. -/
def arcsNamed (text : String) : List Nat := numbers text.toUTF8.toList 0

theorem lt_of_mem_numbers {text : Bytes} (harc : arc < 2 ^ 32) :
    ∀ n ∈ numbers text arc, n < 2 ^ 32 := by
  induction text generalizing arc with
  | nil => exact List.forall_mem_singleton.mpr harc
  | cons byte rest ih =>
    rw [numbers]
    split
    · exact ih (Nat.mod_lt _ (by decide))
    · exact List.forall_mem_cons.mpr ⟨harc, ih (by decide)⟩

theorem readText_cons (byte : UInt8) (rest : Bytes) (arc : Nat) (draft : Draft) :
    readText (byte :: rest) arc draft =
      if 0x30 ≤ byte.toNat ∧ byte.toNat ≤ 0x39 then
        readText rest ((arc * 10 + (byte.toNat - 0x30)) % 2 ^ 32) draft
      else if byte = 0x2E then
        if rest.isEmpty then .error .trailingDot
        else
          match draft.push arc with
          | .error e => .error e
          | .ok draft => readText rest 0 draft
      else .error (.digitExpected byte) := rfl

/-- A text is read by taking in its numbers one after the other. -/
theorem foldlM_numbers {text : Bytes} {draft result : Draft}
    (h : readText text arc draft = .ok result) :
    (numbers text arc).foldlM Draft.push draft = .ok result := by
  induction text generalizing arc draft with
  | nil =>
    rw [numbers, List.foldlM_cons, show draft.push arc = _ from h]
    rfl
  | cons byte rest ih =>
    rw [readText_cons] at h
    rw [numbers]
    split at h
    · next hdigit =>
      rw [if_pos hdigit]
      exact ih h
    · next hdigit =>
      rw [if_neg hdigit]
      split at h
      · split at h
        · cases h
        split at h
        · cases h
        next pushed hpush =>
        rw [List.foldlM_cons, hpush, bind_of_ok rfl]
        exact ih h
      · cases h

/-- What is written behind the first byte. -/
theorem body_of_foldlM {result : Draft} (harcs : ∀ n ∈ arcs, n < 2 ^ 32)
    (h : arcs.foldlM Draft.push (.body content) = .ok result) :
    ∃ body, result = .body (content ++ body) ∧ Spelled (∃ n ∈ arcs, Refused n) body := by
  induction arcs generalizing content with
  | nil =>
    cases h
    refine ⟨[], by rw [List.append_nil], ?_⟩
    simp only [List.not_mem_nil, false_and, exists_false]
    exact spelled_nil
  | cons n arcs ih =>
    obtain ⟨hn, harcs⟩ := List.forall_mem_cons.mp harcs
    rw [List.foldlM_cons] at h
    obtain ⟨draft, hpush, h⟩ := bind_eq_ok.mp h
    rw [Draft.push] at hpush
    split at hpush
    · cases hpush
    obtain ⟨bytes, hbytes, rfl⟩ := map_eq_ok.mp hpush
    obtain ⟨body, rfl, hbody⟩ := ih harcs h
    refine ⟨bytes ++ body, by rw [List.append_assoc], ?_⟩
    simp only [List.mem_cons, exists_eq_or_imp]
    exact (spelled_writeArc hn hbytes).append hbody

theorem exists_of_foldlM_start (h : arcs.foldlM Draft.push .start = .ok (.body content)) :
    ∃ root second more, arcs = root :: second :: more ∧ root ≤ maxFirst ∧ second ≤ maxSecond ∧
      more.foldlM Draft.push (.body [UInt8.ofNat (root * 40 + second)]) = .ok (.body content) := by
  cases arcs with
  | nil => cases h
  | cons root arcs =>
    rw [List.foldlM_cons] at h
    obtain ⟨draft, hroot, h⟩ := bind_eq_ok.mp h
    rw [Draft.push] at hroot
    split at hroot
    · cases hroot
    next hle =>
    cases hroot
    cases arcs with
    | nil => cases h
    | cons second more =>
      rw [List.foldlM_cons] at h
      obtain ⟨draft, hsecond, h⟩ := bind_eq_ok.mp h
      rw [Draft.push] at hsecond
      split at hsecond
      · cases hsecond
      next hle' =>
      cases hsecond
      exact ⟨root, second, more, rfl, Nat.le_of_not_lt hle, Nat.le_of_not_lt hle', h⟩

/-- The content bytes that are written for a text. -/
theorem content_of_ofText {text : String} (h : ofText text = .ok id) :
    ∃ first body, id.content = first :: body ∧ first.toNat / 40 ≤ maxFirst ∧
      Spelled (∃ n ∈ arcsNamed text, Refused n) body := by
  have hread : ∃ content, readText text.toUTF8.toList 0 .start = .ok (.body content) ∧
      id.content = content := by
    rw [ofText] at h
    split at h
    · cases h
    next first rest htext =>
    split at h
    · split at h
      · cases h
      · next content hread =>
        split at h
        · cases h
        · cases h
          exact ⟨content, htext ▸ hread, rfl⟩
      · cases h
    · cases h
  obtain ⟨content, hread, rfl⟩ := hread
  obtain ⟨root, second, more, harcs, hroot, hsecond, hmore⟩ :=
    exists_of_foldlM_start (foldlM_numbers hread)
  have hlt : ∀ n ∈ arcsNamed text, n < 2 ^ 32 := lt_of_mem_numbers (by decide)
  have hnamed : arcsNamed text = root :: second :: more := harcs
  rw [hnamed] at hlt ⊢
  obtain ⟨-, hlt⟩ := List.forall_mem_cons.mp hlt
  obtain ⟨-, hlt⟩ := List.forall_mem_cons.mp hlt
  obtain ⟨body, hcontent, hbody⟩ := body_of_foldlM hlt hmore
  rw [maxFirst] at hroot
  rw [maxSecond] at hsecond
  refine ⟨UInt8.ofNat (root * 40 + second), body, Draft.body.inj hcontent, ?_, ?_⟩
  · rw [UInt8.toNat_ofNat', Nat.mod_eq_of_lt (by omega), maxFirst]
    omega
  · -- the first two arcs share a byte and are too small to be refused
    have hsmall {n : Nat} (hn : n < 40) : ¬Refused n := fun h => absurd h.1 (by omega)
    simp only [List.mem_cons, exists_eq_or_imp, hsmall (n := root) (by omega),
      hsmall (n := second) (by omega), false_or]
    exact hbody

/-- Content bytes that were written for a text are read again, unless the text names an arc that
is refused. -/
theorem ofBytes_of_ofText {text : String} (h : ofText text = .ok id)
    (hleast : 3 ≤ id.content.length) (hmost : id.content.length ≤ maxLength) :
    ofBytes id.content
      = if ∃ n ∈ arcsNamed text, Refused n then .error .arcTooBig else .ok id := by
  obtain ⟨first, body, hcontent, hfirst, hbody⟩ := content_of_ofText h
  have hread : ofBytes id.content = (arcsIn body).map fun _ => id := by
    have hempty : id.content.isEmpty = false := by
      rw [hcontent]
      rfl
    rw [ofBytes, hempty, if_neg Bool.false_ne_true, if_neg (by omega), hcontent, arcsOf,
      if_neg (Nat.not_lt_of_le hfirst), ← hcontent]
    show ((arcsIn body >>= _) >>= _) = _
    cases arcsIn body <;> rfl
  rw [hread]
  split
  · next hrefused =>
    rw [hbody.error hrefused]
    rfl
  · next hnone =>
    obtain ⟨arcs, harcs⟩ := hbody.ok hnone
    rw [harcs]
    rfl

theorem content_of_ofBytes (h : ofBytes content = .ok id) : id.content = content := by
  rw [ofBytes] at h
  split at h
  · cases h
  split at h
  · cases h
  obtain ⟨arcs, -, h⟩ := bind_eq_ok.mp h
  cases h
  rfl

theorem toObjectId_toTlv (id : ObjectId) :
    id.toTlv.toObjectId = (ofBytes id.content).mapError .objectId := by
  have htag : id.toTlv.tag = Tlv.Tag.objectIdentifier := rfl
  have hvalue : id.toTlv.value = id.content := rfl
  rw [Tlv.toObjectId, if_pos htag, hvalue]
  cases ofBytes id.content <;> rfl

end ObjectId

theorem Tlv.toObjectId_eq_ok {t : Tlv} {id : ObjectId} :
    t.toObjectId = .ok id ↔ t.tag = Tag.objectIdentifier ∧ ObjectId.ofBytes t.value = .ok id := by
  rw [toObjectId]
  split
  · next htag =>
    cases ObjectId.ofBytes t.value with
    | error e => exact ⟨(nomatch ·), fun ⟨_, h⟩ => nomatch h⟩
    | ok read =>
      constructor
      · intro h
        cases h
        exact ⟨htag, rfl⟩
      · rintro ⟨-, h⟩
        cases h
        rfl
  · next htag => exact ⟨(nomatch ·), fun ⟨h, _⟩ => absurd h htag⟩

end CardAccess

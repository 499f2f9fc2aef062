import CardAccess.Proofs.Messaging.CounterReuse
import CardAccess.Proofs.Messaging.Form

/-!
# The session behind a command that is not sent

A command that cannot be protected never reaches the card, and neither does a batch that
holds one.  The keys stay as they are.  The counter does not: it moves before the length
of the protected command is known, and a batch that stops goes back neither to where it
began nor to its mark.  Only what is refused before the counter moves, for want of keys
or because the batch cannot be read, leaves the session in step with the card.
-/

namespace CardAccess
namespace Messaging

/-- The counter when a batch stops behind `count` commands: their positions and those of
their answers are passed, and the position of the command that is too long is reached.
The first position of the batch is marked once a command was protected there. -/
def MarkedCounter.stopped (m : MarkedCounter) (count : Nat) : MarkedCounter where
  current := m.current.after (2 * count + 1)
  mark := if count = 0 then m.mark else some m.current.next

/-- The number of positions passed is odd, and the counter has an even number of them. -/
theorem MarkedCounter.current_stopped_ne (m : MarkedCounter) (count : Nat) :
    (m.stopped count).current ≠ m.current := by
  intro h
  have hsame : m.current.after (2 * count + 1) = m.current.after 0 := by
    rw [Counter.after_zero]
    exact h
  have hsteps := Counter.after_inj.mp hsame
  omega

theorem MarkedCounter.stopped_ne_start (m : MarkedCounter) (count : Nat) :
    m.stopped count ≠ .start m.current := by
  intro h
  apply m.current_stopped_ne count
  rw [h]
  rfl

theorem MarkedCounter.advance_ne (m : MarkedCounter) : m.advance ≠ m := by
  intro h
  have hnext : m.current.next = m.current := congrArg MarkedCounter.current h
  apply m.current_stopped_ne 0
  rw [stopped]
  show m.current.after 1 = m.current
  rw [← Counter.next_eq_after, hnext]

theorem MarkedCounter.eq_start_iff (m : MarkedCounter) : m = .start m.current ↔ m.mark = none := by
  cases m
  simp [start]

namespace Session

variable {s : Session} {c : Command} {b : Batch} {e : Error}

/-! ## One command -/

/-- A command is refused without keys, or because its protected form is too long. -/
theorem encipher_error (h : (s.encipher c).1 = .error e) :
    (s.keys = none ∧ e = .keysInvalidated ∧ (s.encipher c).2 = s) ∨
      (s.keys ≠ none ∧ Command.extendedDataMax < c.protectedLength ∧
        e = .dataTooLong c.protectedLength ∧ (s.encipher c).2 = s.advance) := by
  cases hkeys : s.keys with
  | none =>
    rw [encipher_without_keys hkeys] at h ⊢
    exact .inl ⟨rfl, (Except.error.inj h).symm, rfl⟩
  | some keys =>
    rw [encipher_of_keys hkeys] at h ⊢
    obtain ⟨hlong, he⟩ := protect_eq_error.mp h
    exact .inr ⟨Option.some_ne_none keys, hlong, he, rfl⟩

/-! ## A batch -/

/-- Protecting the batch fails with `e`, which is recorded in place of any failure that
the batch came with. -/
def Refuses (s : Session) (b : Batch) (e : Error) : Prop :=
  ∀ failure, (s.toCard { b with failure := failure }).2.failure = some e

theorem refuses_iff : s.Refuses b e ↔
    b.readCommands = .error e ∨
      ∃ cs, b.readCommands = .ok cs ∧ (s.encipherAll cs).1 = .error e := by
  have hread (failure : Option Error) :
      { b with failure := failure }.readCommands = b.readCommands := rfl
  constructor
  · intro h
    -- with no failure before, the one recorded can only come from this call
    have hrecorded := h none
    rw [toCard, hread] at hrecorded
    cases hcs : b.readCommands with
    | error e' =>
      rw [hcs] at hrecorded
      exact .inl (congrArg Except.error (Option.some.inj hrecorded))
    | ok cs =>
      rw [hcs] at hrecorded
      cases hall : s.encipherAll cs with
      | mk outcome s' =>
        dsimp only at hrecorded
        rw [hall] at hrecorded
        cases outcome with
        | error e' =>
          refine .inr ⟨cs, rfl, ?_⟩
          rw [hall]
          exact congrArg Except.error (Option.some.inj hrecorded)
        | ok ps => cases hrecorded
  · rintro (hcs | ⟨cs, hcs, hfails⟩) failure
    · rw [toCard, hread, hcs]
      rfl
    · have hall : s.encipherAll cs = (.error e, (s.encipherAll cs).2) := Prod.ext hfails rfl
      rw [toCard, hread, hcs]
      dsimp only
      rw [hall]
      rfl

theorem toCard_of_readCommands {cs : List Command} (h : b.readCommands = .ok cs) :
    (s.toCard b).1 = (s.encipherAll cs).2 := by
  rw [toCard_session, h]

/-- With keys, protecting commands stops at the first that is too long. -/
theorem encipherAll_error {keys : SessionKeys} {m : MarkedCounter} {cs : List Command}
    (h : ((⟨some keys, m⟩ : Session).encipherAll cs).1 = .error e) :
    ∃ c, cs[leading cs]? = some c ∧ e = .dataTooLong c.protectedLength ∧
      ((⟨some keys, m⟩ : Session).encipherAll cs).2 = ⟨some keys, m.stopped (leading cs)⟩ := by
  by_cases hnil : cs = []
  · subst hnil
    cases h
  · rcases encipherFrom_cases keys m.current m.current.next m.mark true rfl hnil with
      ⟨-, hall⟩ | ⟨-, c, hstop, -, hall⟩
    · rw [encipherAll, hall] at h
      cases h
    · rw [encipherAll, hall] at h ⊢
      exact ⟨c, hstop, (Except.error.inj h).symm, rfl⟩

/-- A batch is refused before the counter moves, for want of keys or because it cannot be
read, or at its first command that is too long. -/
theorem toCard_counter_of_refuses (h : s.Refuses b e) :
    (s.toCard b).1.keys = s.keys ∧
      (((s.keys = none ∨ ∃ e, b.readCommands = .error e) ∧ (s.toCard b).1.counter = s.counter) ∨
        ∃ cs c, s.keys ≠ none ∧ b.readCommands = .ok cs ∧ cs[leading cs]? = some c ∧
          e = .dataTooLong c.protectedLength ∧
          (s.toCard b).1.counter = s.counter.stopped (leading cs)) := by
  rcases refuses_iff.mp h with hread | ⟨cs, hread, hfails⟩
  · rw [toCard_session, hread]
    exact ⟨rfl, .inl ⟨.inr ⟨e, rfl⟩, rfl⟩⟩
  · rw [toCard_of_readCommands hread]
    obtain ⟨keys, counter⟩ := s
    cases keys with
    | none =>
      rw [encipherAll, encipherFrom_without_keys rfl]
      exact ⟨rfl, .inl ⟨.inl rfl, rfl⟩⟩
    | some keys =>
      obtain ⟨c, hstop, he, hafter⟩ := encipherAll_error hfails
      rw [hafter]
      exact ⟨rfl, .inr ⟨cs, c, Option.some_ne_none keys, hread, hstop, he, rfl⟩⟩

/-! ## In step with the card -/

/-- A refused command leaves the counter as it was just if there were no keys; with keys
the counter is one position further.  A refused batch leaves it as it was, with no mark,
just if there was no mark before and there were no keys or the batch could not be read;
with keys, a batch that could be read leaves it where it stopped.  The keys stay. -/
theorem refused_in_step_iff (s : Session) :
    (∀ (c : Command) (e : Error), (s.encipher c).1 = .error e →
      (s.encipher c).2.keys = s.keys ∧
      ((s.encipher c).2.counter = s.counter ↔ s.keys = none) ∧
      (s.keys ≠ none → e = .dataTooLong c.protectedLength ∧
        (s.encipher c).2.counter = s.counter.advance)) ∧
    (∀ (b : Batch) (e : Error), s.Refuses b e →
      (s.toCard b).1.keys = s.keys ∧
      ((s.toCard b).1.counter = .start s.counter.current ↔
        s.counter.mark = none ∧ (s.keys = none ∨ ∃ e, b.readCommands = .error e)) ∧
      ((s.keys = none ∨ ∃ e, b.readCommands = .error e) → (s.toCard b).1.counter = s.counter) ∧
      (∀ cs, b.readCommands = .ok cs → s.keys ≠ none →
        (∃ c, cs[leading cs]? = some c ∧ e = .dataTooLong c.protectedLength) ∧
        (s.toCard b).1.counter = s.counter.stopped (leading cs))) := by
  constructor
  · intro c e h
    rcases encipher_error h with ⟨hkeys, -, hafter⟩ | ⟨hkeys, -, he, hafter⟩
    · rw [hafter]
      exact ⟨rfl, iff_of_true rfl hkeys, fun hsome => absurd hkeys hsome⟩
    · rw [hafter]
      exact ⟨rfl, iff_of_false s.counter.advance_ne hkeys, fun _ => ⟨he, rfl⟩⟩
  · intro b e h
    obtain ⟨hkept, ⟨hearly, hcounter⟩ | ⟨cs, c, hkeys, hread, hstop, he, hcounter⟩⟩ :=
      toCard_counter_of_refuses h
    · refine ⟨hkept, ?_, fun _ => hcounter, fun cs hcs hsome => ?_⟩
      · rw [hcounter, MarkedCounter.eq_start_iff, and_iff_left hearly]
      · rcases hearly with hnone | ⟨e', he'⟩
        · exact absurd hnone hsome
        · cases he'.symm.trans hcs
    · have hlate : ¬ (s.keys = none ∨ ∃ e, b.readCommands = .error e) := by
        rintro (hnone | ⟨e', he'⟩)
        · exact hkeys hnone
        · cases hread.symm.trans he'
      refine ⟨hkept, ?_, fun hearly => absurd hearly hlate, fun cs' hcs' _ => ?_⟩
      · rw [hcounter]
        exact iff_of_false (s.counter.stopped_ne_start _) fun hall => hlate hall.2
      · cases hread.symm.trans hcs'
        exact ⟨⟨c, hstop, he⟩, hcounter⟩

/-- A session that has lost its keys refuses a command, and one with keys a batch whose
bytes are no command. -/
theorem refused_in_step_iff_early :
    let keys : SessionKeys := ⟨⟨Bytes.zeros 16, by decide⟩, ⟨Bytes.zeros 16, by decide⟩, rfl⟩
    let s := start keys (.ofNat 0)
    let select : Command := ⟨0x00, 0xA4, 0x02, 0x0C, none, none⟩
    let b : Batch := { Batch.empty with commands := [[0x00, 0xA4, 0x02, 0x0C, 0x00, 0x01]] }
    (s.discardKeys.encipher select).1 = .error .keysInvalidated ∧
      (s.discardKeys.encipher select).2.counter = s.discardKeys.counter ∧
      s.Refuses b (.invalidCommandLength 6) ∧
      (s.toCard b).1.counter = .start (.ofNat 0) := by
  intro keys s select b
  have hrefused : (s.discardKeys.encipher select).1 = .error .keysInvalidated := rfl
  have hunread : s.Refuses b (.invalidCommandLength 6) := refuses_iff.mpr (.inl rfl)
  exact ⟨hrefused, ((refused_in_step_iff s.discardKeys).1 select _ hrefused).2.1.mpr rfl, hunread,
    ((refused_in_step_iff s).2 b _ hunread).2.1.mpr ⟨rfl, .inr ⟨_, rfl⟩⟩⟩

end Session

/-! ## Out of step -/

namespace Command

/-- A command with as much data as a command can have. -/
def full : Command := ⟨0x00, 0xD6, 0x00, 0x00, some (Bytes.zeros 65535), none⟩

/-- The full command byte for byte. -/
def fullBytes : Bytes := full.header ++ 0x00 :: 0xFF :: 0xFF :: Bytes.zeros 65535

theorem protectedLength_full : full.protectedLength = 65552 := by
  have hnc : full.nc = 65535 := List.length_replicate
  have hne : full.ne = 0 := rfl
  rw [protectedLength, hnc, hne, DataObject.expectedValue?_zero]
  rfl

theorem ofBytes_fullBytes : ofBytes fullBytes = .ok full := by
  have hcounts : (Form.carriesWide 0xFF 0xFF (Bytes.zeros 65535)).Counts :=
    ⟨by decide, List.length_replicate⟩
  exact ofBytes_eq_ok_iff_splits.mpr ⟨_, ⟨rfl, hcounts, rfl⟩, rfl⟩

end Command

namespace Session

/-- The full command is refused, and the counter is one position further.  In a batch
behind another command it leaves the counter three positions further, with a mark. -/
theorem refused_out_of_step :
    let keys : SessionKeys := ⟨⟨Bytes.zeros 16, by decide⟩, ⟨Bytes.zeros 16, by decide⟩, rfl⟩
    let s := start keys (.ofNat 0)
    let b : Batch := { Batch.empty with
      commands := [[0x00, 0xB0, 0x00, 0x00, 0x00], Command.fullBytes] }
    (s.encipher Command.full).1 = .error (.dataTooLong 65552) ∧
      (s.encipher Command.full).2.counter = .start (.ofNat 1) ∧
      s.Refuses b (.dataTooLong 65552) ∧
      (s.toCard b).1.counter = ⟨.ofNat 3, some (.ofNat 1)⟩ ∧
      s.counter = .start (.ofNat 0) := by
  intro keys s b
  let read : Command := ⟨0x00, 0xB0, 0x00, 0x00, none, some 256⟩
  have hlong : ¬ Command.full.protectedLength ≤ Command.extendedDataMax := by
    rw [Command.protectedLength_full]
    decide
  have hprotect : protect keys (.ofNat 1) Command.full = .error (.dataTooLong 65552) :=
    protect_eq_error.mpr ⟨Nat.lt_of_not_le hlong, by rw [Command.protectedLength_full]⟩
  have hread : b.readCommands = .ok [read, Command.full] := by
    have hfirst : Command.ofBytes [0x00, 0xB0, 0x00, 0x00, 0x00] = .ok read := rfl
    show List.mapM Command.ofBytes [_, _] = _
    rw [List.mapM_cons, bind_of_ok hfirst, List.mapM_cons, bind_of_ok Command.ofBytes_fullBytes]
    rfl
  have hleading : leading [read, Command.full] = 1 := by
    rw [leading, if_pos (by decide), leading, if_neg hlong]
  have hstops : s.encipherAll [read, Command.full]
      = (.error (.dataTooLong 65552), ⟨some keys, (MarkedCounter.start (.ofNat 0)).stopped 1⟩) := by
    rcases encipherFrom_cases keys (.ofNat 0) (.ofNat 1) none true rfl
      (List.cons_ne_nil read [Command.full]) with ⟨hall, -⟩ | ⟨-, c, hstop, -, hresult⟩
    · cases hleading.symm.trans hall
    · rw [hleading] at hstop hresult
      cases hstop
      rw [Command.protectedLength_full] at hresult
      exact hresult
  have hafter : (s.toCard b).1 = ⟨some keys, (MarkedCounter.start (.ofNat 0)).stopped 1⟩ :=
    (toCard_of_readCommands hread).trans (congrArg Prod.snd hstops)
  have hsend : s.encipher Command.full = (protect keys (.ofNat 1) Command.full, s.advance) :=
    encipher_of_keys rfl Command.full
  rw [hsend, hprotect]
  refine ⟨rfl, rfl, ?_, congrArg Session.counter hafter, rfl⟩
  exact refuses_iff.mpr (.inr ⟨[read, Command.full], hread, congrArg Prod.fst hstops⟩)

end Session
end Messaging
end CardAccess

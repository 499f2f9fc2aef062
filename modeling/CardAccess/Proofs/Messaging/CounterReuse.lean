import CardAccess.Proofs.Messaging.Batch
import Mathlib.Data.List.Nodup

/-!
# Positions under which commands are protected

Two commands of a session must not be protected at the same position of the
counter.  Within a batch they never are, but the counter returns to the first
position of a batch once it is protected, and moves on only as responses are
opened.  If fewer responses come than there were commands, or one of them fails
and leaves the session its keys, the next batch starts among the positions of the
last one.

`used_nodup_iff` says exactly when that does harm: a batch takes every second
position, so a later one meets it if it starts an even number of positions further
and still inside the stretch.  `used_nodup_of_opened` is the case in which nothing
goes wrong, and `used_not_nodup` a run in which something does.
-/

namespace CardAccess
namespace Messaging

/-! ## Every second position -/

/-- `count` numbers, every second one, the first of them next to `n`. -/
def spots (n count : Nat) : List Nat := (List.range count).map fun i => n + 2 * i + 1

theorem spots_succ (n count : Nat) : spots n (count + 1) = (n + 1) :: spots (n + 2) count := by
  rw [spots, List.range_succ_eq_map, List.map_cons, List.map_map, spots]
  congr 1
  apply List.map_congr_left
  intro i _
  show n + 2 * (i + 1) + 1 = n + 2 + 2 * i + 1
  omega

theorem length_spots (n count : Nat) : (spots n count).length = count := by
  rw [spots, List.length_map, List.length_range]

theorem mem_spots {n count x : Nat} : x ∈ spots n count ↔ ∃ i, i < count ∧ x = n + 2 * i + 1 := by
  rw [spots, List.mem_map]
  constructor
  · rintro ⟨i, hi, rfl⟩
    exact ⟨i, List.mem_range.mp hi, rfl⟩
  · rintro ⟨i, hi, rfl⟩
    exact ⟨i, List.mem_range.mpr hi, rfl⟩

theorem nodup_spots (n count : Nat) : (spots n count).Nodup := by
  apply List.Nodup.map _ List.nodup_range
  intro i j h
  have h : n + 2 * i + 1 = n + 2 * j + 1 := h
  omega

/-- Two stretches of every second number meet if both have numbers, one starts an
even way behind the other and not behind its last number. -/
theorem disjoint_spots {n n' count count' : Nat} (hle : n ≤ n') :
    (spots n count).Disjoint (spots n' count') ↔
      count = 0 ∨ count' = 0 ∨ (n' - n) % 2 = 1 ∨ 2 * count ≤ n' - n := by
  constructor
  · intro hdisjoint
    by_cases hmeet : count = 0 ∨ count' = 0 ∨ (n' - n) % 2 = 1 ∨ 2 * count ≤ n' - n
    · exact hmeet
    · have hfirst : n' + 1 ∈ spots n count := mem_spots.mpr ⟨(n' - n) / 2, by omega, by omega⟩
      have hsecond : n' + 1 ∈ spots n' count' := mem_spots.mpr ⟨0, by omega, by omega⟩
      exact absurd hsecond (hdisjoint hfirst)
  · intro hapart x hx hx'
    obtain ⟨i, hi, rfl⟩ := mem_spots.mp hx
    obtain ⟨j, hj, heq⟩ := mem_spots.mp hx'
    omega

namespace Session

/-! ## What a batch uses -/

/-- The positions at which commands are protected one after the other, as far as
protecting them succeeds. -/
def positions (s : Session) : List Command → List Counter
  | [] => []
  | c :: cs =>
    match s.encipher c with
    | (.error _, _) => []
    | (.ok _, s) => s.counter.current :: positions s.advance cs

/-- The positions that protecting a batch uses. -/
def usedBy (s : Session) (b : Batch) : List Counter :=
  match b.readCommands with
  | .error _ => []
  | .ok cs => s.positions cs

theorem positions_without_keys {s : Session} (h : s.keys = none) (cs : List Command) :
    s.positions cs = [] := by
  cases cs with
  | nil => rfl
  | cons c cs => rw [positions, encipher_without_keys h]

/-- The commands in front of the first that is too long get every second
position. -/
theorem positions_eq (keys : SessionKeys) (base : Counter) (n : Nat) (mark : Option Counter)
    (cs : List Command) :
    (⟨some keys, ⟨base.after n, mark⟩⟩ : Session).positions cs
      = (spots n (leading cs)).map base.after := by
  induction cs generalizing n with
  | nil => rfl
  | cons c cs ih =>
    cases hc : protect keys (base.after n).next c with
    | error e =>
      have hsend : (⟨some keys, ⟨base.after n, mark⟩⟩ : Session).encipher c
          = (.error e, ⟨some keys, ⟨(base.after n).next, mark⟩⟩) := Prod.ext hc rfl
      rw [positions, hsend, leading_of_error hc]
      rfl
    | ok p =>
      have hsend : (⟨some keys, ⟨base.after n, mark⟩⟩ : Session).encipher c
          = (.ok p, ⟨some keys, ⟨(base.after n).next, mark⟩⟩) := Prod.ext hc rfl
      rw [positions, hsend, leading_of_ok hc, spots_succ, List.map_cons, ← ih]
      show (base.after n).next
        :: (⟨some keys, ⟨(base.after n).next.next, mark⟩⟩ : Session).positions cs = _
      rw [Counter.next_after, Counter.next_after]

theorem zipWith_spots (keys : SessionKeys) (base : Counter) (n : Nat) (cs : List Command) :
    List.zipWith (protectedForm keys) ((spots n cs.length).map base.after) cs
      = protectedForms keys (base.after n) cs := by
  induction cs generalizing n with
  | nil => rfl
  | cons c cs ih =>
    rw [List.length_cons, spots_succ, List.map_cons, List.zipWith_cons_cons, ih, protectedForms,
      Counter.next_after, Counter.after_after]

/-- If the whole batch is protected, its commands go out as protecting gives them
at these positions. -/
theorem zipWith_positions {keys : SessionKeys} {m : MarkedCounter} {cs ps : List Command}
    {s : Session} (h : (⟨some keys, m⟩ : Session).encipherAll cs = (.ok ps, s)) :
    List.zipWith (protectedForm keys) ((⟨some keys, m⟩ : Session).positions cs) cs = ps := by
  cases cs with
  | nil =>
    cases h
    rfl
  | cons c cs =>
    have hpositions := positions_eq keys m.current 0 m.mark (c :: cs)
    rw [Counter.after_zero] at hpositions
    rcases encipherFrom_cases keys m.current m.current.next m.mark true rfl
      (List.cons_ne_nil c cs) with ⟨hall, hforms⟩ | ⟨-, long, -, -, herror⟩
    · have hps := hforms.symm.trans h
      injection hps with hps
      injection hps with hps
      rw [← hps, hpositions, hall, zipWith_spots, Counter.after_zero]
    · have hps := herror.symm.trans h
      injection hps with hps
      cases hps

/-! ## How far a round goes -/

theorem encipherFrom_without_keys {s : Session} (h : s.keys = none) (first : Bool)
    (cs : List Command) : (s.encipherFrom first cs).2 = s := by
  cases cs with
  | nil => rfl
  | cons c cs => rw [encipherFrom, encipher_without_keys h]

/-- Opening a response moves the counter by one position at most, and by one if
it succeeds. -/
theorem decipher_counter {base : Counter} {s : Session} {n : Nat}
    (h : s.counter.current = base.after n) (r : Response) :
    ∃ n', (s.decipher r).2.counter.current = base.after n' ∧ n ≤ n' ∧ n' ≤ n + 1 ∧
      ∀ opened, (s.decipher r).1 = .ok opened → n' = n + 1 := by
  cases hkeys : s.keys with
  | none =>
    have hopen : s.decipher r = (.error .keysInvalidated, s) := by rw [decipher, hkeys]
    rw [hopen]
    refine ⟨n, h, Nat.le_refl n, Nat.le_succ n, ?_⟩
    intro opened hopened
    cases hopened
  | some keys =>
    have hnext : s.advance.counter.current = base.after (n + 1) := by
      rw [← Counter.next_after, ← h]
      rfl
    refine ⟨n + 1, ?_, Nat.le_succ n, Nat.le_refl _, fun _ _ => rfl⟩
    rcases decipher_session hkeys r with hs | ⟨hs, -⟩
    · rw [hs, hnext]
    · rw [hs, ← hnext]
      rfl

/-- Opening `count` responses takes the counter two positions further with each,
save that nothing is skipped behind the last one. -/
def Opens (base : Counter) (n count : Nat) (run : Except Error (List Response) × Session) : Prop :=
  ∃ n', run.2.counter.current = base.after n' ∧ n ≤ n' ∧ n' ≤ n + 2 * count ∧
    ∀ opened, run.1 = .ok opened → opened.length = count ∧ n + 2 * count ≤ n' + 1

theorem opens_of_error {base : Counter} {n n' count : Nat} {e : Error} {s : Session}
    (hcount : 0 < count) (h : s.counter.current = base.after n') (hn : n ≤ n')
    (hn' : n' ≤ n + 1) : Opens base n count (.error e, s) := by
  refine ⟨n', h, hn, by omega, ?_⟩
  intro opened hopened
  cases hopened

theorem opens_singleton {base : Counter} {n : Nat} {opened : Response} {s : Session}
    (h : s.counter.current = base.after (n + 1)) : Opens base n 1 (.ok [opened], s) := by
  refine ⟨n + 1, h, Nat.le_succ n, Nat.le_succ _, ?_⟩
  intro all hall
  cases hall
  exact ⟨rfl, Nat.le_refl _⟩

theorem opens_cons {base : Counter} {n count : Nat} {opened : Response}
    {rest : Except Error (List Response) × Session} (h : Opens base (n + 2) count rest) :
    Opens base n (count + 1) (rest.1.map (opened :: ·), rest.2) := by
  obtain ⟨n', hend, hlow, hhigh, hall⟩ := h
  refine ⟨n', hend, by omega, by omega, ?_⟩
  intro all hopened
  dsimp only at hopened
  cases hothers : rest.1 with
  | error e =>
    rw [hothers] at hopened
    cases hopened
  | ok others =>
    obtain ⟨hlength, hfar⟩ := hall others hothers
    rw [hothers] at hopened
    cases hopened
    exact ⟨congrArg (· + 1) hlength, by omega⟩

theorem opens_decipherAll {base : Counter} (raws : List Bytes) {s : Session} {n : Nat}
    (h : s.counter.current = base.after n) : Opens base n raws.length (s.decipherAll raws) := by
  induction raws generalizing s n with
  | nil =>
    refine ⟨n, h, Nat.le_refl n, Nat.le_refl n, ?_⟩
    intro opened hopened
    cases hopened
    exact ⟨rfl, Nat.le_succ n⟩
  | cons raw raws ih =>
    have hcount : 0 < (raw :: raws).length := Nat.succ_pos _
    cases hread : Response.ofBytes raw with
    | error e =>
      rw [decipherAll, hread]
      exact opens_of_error hcount h (Nat.le_refl n) (Nat.le_succ n)
    | ok r =>
      obtain ⟨n', hcurrent, hle, hle', hok⟩ := decipher_counter h r
      cases hopen : s.decipher r with
      | mk result s' =>
        rw [hopen] at hcurrent hok
        cases result with
        | error e =>
          rw [decipherAll_error hread hopen]
          exact opens_of_error hcount hcurrent hle hle'
        | ok opened =>
          rw [hok opened rfl] at hcurrent
          cases raws with
          | nil =>
            rw [decipherAll_singleton hread hopen]
            exact opens_singleton hcurrent
          | cons raw' raws =>
            -- Only between two responses is the position of a command skipped.
            have hskip : s'.advance.counter.current = base.after (n + 2) := by
              rw [← Counter.next_after, ← hcurrent]
              rfl
            rw [decipherAll_cons_cons hread hopen]
            exact opens_cons (ih hskip)

theorem length_of_mapM {α β : Type} {f : α → Except Error β} {xs : List α} {ys : List β}
    (h : xs.mapM f = .ok ys) : ys.length = xs.length := by
  induction xs generalizing ys with
  | nil =>
    cases h
    rfl
  | cons x xs ih =>
    rw [List.mapM_cons] at h
    obtain ⟨y, -, h⟩ := bind_eq_ok.mp h
    obtain ⟨others, hothers, h⟩ := bind_eq_ok.mp h
    cases h
    rw [List.length_cons, ih hothers, List.length_cons]

theorem toCard_session (s : Session) (b : Batch) :
    (s.toCard b).1 = match b.readCommands with
      | .error _ => s
      | .ok cs => (s.encipherAll cs).2 := by
  rw [toCard]
  cases b.readCommands with
  | error e => rfl
  | ok cs =>
    dsimp only
    cases s.encipherAll cs with
    | mk outcome s' => cases outcome <;> rfl

theorem responses_toCard (s : Session) (b : Batch) : (s.toCard b).2.responses = b.responses := by
  rw [toCard]
  cases b.readCommands with
  | error e => rfl
  | ok cs =>
    dsimp only
    cases s.encipherAll cs with
    | mk outcome s' => cases outcome <;> rfl

theorem fromCard_session (s : Session) (b : Batch) :
    (s.fromCard b).1 = match b.responses with
      | none => s
      | some raws => (s.decipherAll raws).2 := by
  rw [fromCard]
  cases b.responses with
  | none => rfl
  | some raws =>
    dsimp only
    cases s.decipherAll raws with
    | mk outcome s' => cases outcome <;> rfl

/-- Protecting a batch uses every second position from where the session stands,
and leaves it at the first of them or behind the last. -/
theorem toCard_counter {base : Counter} {s : Session} {n : Nat}
    (h : s.counter.current = base.after n) (b : Batch) :
    ∃ count n', s.usedBy b = (spots n count).map base.after ∧
      (s.toCard b).1.counter.current = base.after n' ∧
      n ≤ n' ∧ n' ≤ n + 2 * b.commands.length ∧ count ≤ b.commands.length ∧
      (n' = n + 1 ∨ n + 2 * count ≤ n') := by
  rw [toCard_session, usedBy]
  cases hread : b.readCommands with
  | error e => exact ⟨0, n, rfl, h, Nat.le_refl n, by omega, Nat.zero_le _, .inr (Nat.le_refl n)⟩
  | ok cs =>
    have hlength := length_of_mapM hread
    obtain ⟨keys, current, mark⟩ := s
    have hcurrent : current = base.after n := h
    subst hcurrent
    dsimp only
    rw [← hlength]
    cases keys with
    | none =>
      rw [positions_without_keys rfl, encipherAll, encipherFrom_without_keys rfl]
      exact ⟨0, n, rfl, h, Nat.le_refl n, by omega, Nat.zero_le _, .inr (Nat.le_refl n)⟩
    | some keys =>
      rw [positions_eq]
      by_cases hnil : cs = []
      · subst hnil
        exact ⟨0, n, rfl, rfl, Nat.le_refl n, Nat.le_refl n, Nat.le_refl 0, .inr (Nat.le_refl n)⟩
      · have hpos := List.length_pos_iff.mpr hnil
        have hle := leading_le cs
        rcases encipherFrom_cases keys (base.after n) (base.after (n + 1)) mark true
          (by rw [Counter.next_after]; rfl) hnil with ⟨-, hall⟩ | ⟨hlt, long, -, -, hstop⟩
        · rw [encipherAll, hall]
          exact ⟨leading cs, n + 1, rfl, rfl, Nat.le_succ n, by omega, hle, .inl rfl⟩
        · rw [encipherAll, hstop]
          refine ⟨leading cs, n + (2 * leading cs + 1), rfl, Counter.after_after base n _, ?_⟩
          omega

end Session

/-! ## Rounds -/

/-- A batch, and the responses that the card gives to it, if it gives any. -/
structure Round where
  batch : Batch
  answers : Option (List Bytes)
  deriving DecidableEq, Repr

namespace Round

/-- The batch once the responses have come.  Responses without a status are not
taken. -/
def answered (r : Round) (b : Batch) : Batch :=
  match r.answers with
  | none => b
  | some raws =>
    match b.setResponses raws with
    | .ok b => b
    | .error _ => b

/-- The number of commands and responses in the batch. -/
def apdus (r : Round) : Nat :=
  r.batch.commands.length + ((r.answered r.batch).responses.getD []).length

theorem apdus_of_status {b : Batch} {raws : List Bytes}
    (h : ∀ raw ∈ raws, Response.statusLength ≤ raw.length) :
    (⟨b, some raws⟩ : Round).apdus = b.commands.length + raws.length := by
  rw [apdus, answered]
  dsimp only
  rw [Session.setResponses_of_status h]
  rfl

theorem responses_answered (r : Round) {b b' : Batch} (h : b.responses = b'.responses) :
    (r.answered b).responses = (r.answered b').responses := by
  rw [answered, answered]
  cases r.answers with
  | none => exact h
  | some raws =>
    dsimp only
    rw [Batch.setResponses, Batch.setResponses]
    cases raws.find? fun raw => raw.length < Response.statusLength with
    | none => rfl
    | some short => exact h

end Round

namespace Session

/-- Protect a batch, let the responses come and open them. -/
def round (s : Session) (r : Round) : Session :=
  ((s.toCard r.batch).1.fromCard (r.answered (s.toCard r.batch).2)).1

/-- The responses of a round can all be opened, and there is one to each command
that was protected. -/
def Opened (s : Session) (r : Round) : Prop :=
  ∃ raws opened, (r.answered r.batch).responses = some raws ∧
    ((s.toCard r.batch).1.decipherAll raws).1 = .ok opened ∧
    (s.usedBy r.batch).length ≤ opened.length

theorem round_counter {base : Counter} {s : Session} {n : Nat}
    (h : s.counter.current = base.after n) (r : Round) :
    ∃ count n', s.usedBy r.batch = (spots n count).map base.after ∧
      (s.round r).counter.current = base.after n' ∧
      n ≤ n' ∧ n' ≤ n + 2 * r.apdus ∧ count ≤ r.apdus ∧ (s.Opened r → n + 2 * count ≤ n') := by
  obtain ⟨count, n₁, hused, hcurrent, hle, hhigh, hcount, hstep⟩ := toCard_counter h r.batch
  have hresponses : (r.answered (s.toCard r.batch).2).responses
      = (r.answered r.batch).responses := r.responses_answered (responses_toCard s r.batch)
  rw [round, fromCard_session, hresponses, Round.apdus]
  cases hraws : (r.answered r.batch).responses with
  | none =>
    refine ⟨count, n₁, hused, hcurrent, hle, by omega, by omega, ?_⟩
    rintro ⟨raws, opened, hsome, -⟩
    rw [hraws] at hsome
    cases hsome
  | some raws =>
    obtain ⟨n₂, hend, hlow, hfar, hall⟩ := opens_decipherAll raws hcurrent
    have hlength : ((some raws).getD []).length = raws.length := rfl
    rw [hlength]
    refine ⟨count, n₂, hused, hend, by omega, by omega, by omega, ?_⟩
    rintro ⟨raws', opened, hsome, hopened, hcomplete⟩
    rw [hraws] at hsome
    cases hsome
    obtain ⟨hmany, hpassed⟩ := hall opened hopened
    rw [hused, List.length_map, length_spots] at hcomplete
    omega

/-! ## Runs -/

/-- The positions at which the commands of a run of rounds are protected. -/
def used (s : Session) : List Round → List Counter
  | [] => []
  | r :: rs => s.usedBy r.batch ++ used (s.round r) rs

/-- Where the rounds of a run start, and how many commands each protects. -/
def stretches (s : Session) : List Round → List (Counter × Nat)
  | [] => []
  | r :: rs => (s.counter.current, (s.usedBy r.batch).length) :: stretches (s.round r) rs

/-- Every round of a run has its responses opened. -/
def AllOpened (s : Session) : List Round → Prop
  | [] => True
  | r :: rs => s.Opened r ∧ AllOpened (s.round r) rs

/-- The number of commands and responses in a run. -/
def apdus (rounds : List Round) : Nat := (rounds.map Round.apdus).sum

/-- Two stretches have no position in common: one of them is empty, or they start
an odd number of steps apart, or the later starts behind the earlier. -/
def Apart (earlier later : Counter × Nat) : Prop :=
  earlier.2 = 0 ∨ later.2 = 0 ∨ earlier.1.distance later.1 % 2 = 1 ∨
    2 * earlier.2 ≤ earlier.1.distance later.1

/-- A run in steps from `base`: `offsets` are the steps to the starts of the
rounds, with the numbers of commands. -/
structure Laid (base : Counter) (s : Session) (n : Nat) (rounds : List Round)
    (offsets : List (Nat × Nat)) : Prop where
  stretches : s.stretches rounds = offsets.map fun o => (base.after o.1, o.2)
  used : s.used rounds = (offsets.flatMap fun o => spots o.1 o.2).map base.after
  bound : ∀ o ∈ offsets, n ≤ o.1 ∧ o.1 + 2 * o.2 ≤ n + 2 * apdus rounds
  sorted : offsets.Pairwise fun o o' => o.1 ≤ o'.1
  opened : s.AllOpened rounds → offsets.Pairwise fun o o' => o.1 + 2 * o.2 ≤ o'.1

theorem exists_laid {base : Counter} (rounds : List Round) {s : Session} {n : Nat}
    (h : s.counter.current = base.after n) : ∃ offsets, Laid base s n rounds offsets := by
  induction rounds generalizing s n with
  | nil => exact ⟨[], rfl, rfl, by simp, .nil, fun _ => .nil⟩
  | cons r rs ih =>
    obtain ⟨count, n', hused, hcurrent, hle, hhigh, hcount, hopen⟩ := round_counter h r
    obtain ⟨offsets, hrest⟩ := ih hcurrent
    have hsum : apdus (r :: rs) = r.apdus + apdus rs := by
      rw [apdus, List.map_cons, List.sum_cons, apdus]
    have hbehind : ∀ o ∈ offsets, n' ≤ o.1 := fun o ho => (hrest.bound o ho).1
    refine ⟨(n, count) :: offsets, ?_, ?_, ?_, ?_, ?_⟩
    · rw [Session.stretches, hrest.stretches, hused, List.length_map, length_spots, h]
      rfl
    · rw [Session.used, hrest.used, hused, List.flatMap_cons, List.map_append]
    · intro o ho
      rcases List.mem_cons.mp ho with rfl | ho
      · dsimp only
        omega
      · have hbound := hrest.bound o ho
        omega
    · refine List.pairwise_cons.mpr ⟨?_, hrest.sorted⟩
      intro o ho
      exact Nat.le_trans hle (hbehind o ho)
    · rintro ⟨hfirst, hothers⟩
      refine List.pairwise_cons.mpr ⟨?_, hrest.opened hothers⟩
      intro o ho
      exact Nat.le_trans (hopen hfirst) (hbehind o ho)

/-- As long as the steps fit the counter, positions differ when steps do. -/
theorem Laid.nodup_iff {base : Counter} {s : Session} {n : Nat} {rounds : List Round}
    {offsets : List (Nat × Nat)} (h : Laid base s n rounds offsets)
    (hfits : n + 2 * apdus rounds < 2 ^ 128) :
    (s.used rounds).Nodup ↔
      offsets.Pairwise fun o o' => (spots o.1 o.2).Disjoint (spots o'.1 o'.2) := by
  have hinj : ∀ x ∈ offsets.flatMap fun o => spots o.1 o.2,
      ∀ y ∈ offsets.flatMap fun o => spots o.1 o.2, base.after x = base.after y → x = y := by
    have hlt : ∀ x ∈ offsets.flatMap fun o => spots o.1 o.2, x < 2 ^ 128 := by
      intro x hx
      obtain ⟨o, ho, hx⟩ := List.mem_flatMap.mp hx
      obtain ⟨i, hi, rfl⟩ := mem_spots.mp hx
      have hbound := h.bound o ho
      omega
    intro x hx y hy hxy
    rw [Counter.after_inj, Nat.mod_eq_of_lt (hlt x hx), Nat.mod_eq_of_lt (hlt y hy)] at hxy
    exact hxy
  have hmap : (s.used rounds).Nodup ↔ (offsets.flatMap fun o => spots o.1 o.2).Nodup := by
    rw [h.used]
    exact ⟨List.Nodup.of_map _, List.Nodup.map_on hinj⟩
  rw [hmap, List.nodup_flatMap]
  exact ⟨fun hall => hall.2, fun hapart => ⟨fun o _ => nodup_spots o.1 o.2, hapart⟩⟩

/-- The positions at which the commands of a session are protected are all
different exactly if the stretches of any two rounds lie apart. -/
theorem used_nodup_iff (s : Session) (rounds : List Round) (h : apdus rounds < 2 ^ 127) :
    (s.used rounds).Nodup ↔ (s.stretches rounds).Pairwise Apart := by
  have hstart : s.counter.current = s.counter.current.after 0 := (Counter.after_zero _).symm
  obtain ⟨offsets, hlaid⟩ := exists_laid rounds hstart
  have hfits : 0 + 2 * apdus rounds < 2 ^ 128 := by omega
  -- Below `2 ^ 128` the distance of two starts is the difference of their steps.
  have hsame (o o' : Nat × Nat) (hle : o.1 ≤ o'.1) (hlt : o'.1 < 2 ^ 128) :
      Apart (s.counter.current.after o.1, o.2) (s.counter.current.after o'.1, o'.2) ↔
        (spots o.1 o.2).Disjoint (spots o'.1 o'.2) := by
    rw [disjoint_spots hle, Apart]
    dsimp only
    rw [Counter.distance_after hle hlt]
  have hordered : offsets.Pairwise fun o o' => o.1 ≤ o'.1 ∧ o'.1 < 2 ^ 128 := by
    refine hlaid.sorted.imp_of_mem ?_
    intro o o' _ ho' hle
    have hbound := hlaid.bound o' ho'
    exact ⟨hle, by omega⟩
  rw [hlaid.nodup_iff hfits, hlaid.stretches, List.pairwise_map]
  constructor
  · intro hdisjoint
    refine hordered.imp₂ ?_ hdisjoint
    intro o o' hle hd
    exact (hsame o o' hle.1 hle.2).mpr hd
  · intro hapart
    refine hordered.imp₂ ?_ hapart
    intro o o' hle ha
    exact (hsame o o' hle.1 hle.2).mp ha

theorem positions_start (keys : SessionKeys) (counter : Counter) (cs : List Command) :
    (start keys counter).positions cs = (spots 0 (leading cs)).map counter.after := by
  rw [← positions_eq keys counter 0 none cs, Counter.after_zero]
  rfl

theorem length_usedBy_start (keys : SessionKeys) (counter : Counter) {b : Batch}
    {cs : List Command} (hread : b.readCommands = .ok cs) (hcs : ∀ c ∈ cs, c.Protectable) :
    ((start keys counter).usedBy b).length = cs.length := by
  rw [usedBy, hread]
  dsimp only
  rw [positions_start, List.length_map, length_spots, leading_of_protectable hcs]

/-- A round in which responses with a status come to a batch that is protected. -/
theorem round_start {keys : SessionKeys} {counter : Counter} {b : Batch} {cs : List Command}
    (hread : b.readCommands = .ok cs) (hne : cs ≠ []) (hcs : ∀ c ∈ cs, c.Protectable)
    {raws : List Bytes} (hraws : ∀ raw ∈ raws, Response.statusLength ≤ raw.length) :
    (start keys counter).round ⟨b, some raws⟩
      = ((start keys counter.next).decipherAll raws).2 := by
  have hall : (start keys counter).encipherAll cs = (_, start keys counter.next) :=
    encipherAll_of_protectable keys (.start counter) hne hcs
  rw [round]
  dsimp only
  rw [toCard_of_encipherAll hread hall, Round.answered]
  dsimp only
  rw [setResponses_of_status hraws, fromCard_session]

/-- A status without protection in answer to the first command leaves the session
two positions further, however many commands the batch had. -/
theorem round_refused {keys : SessionKeys} {counter : Counter} {b : Batch} {cs : List Command}
    (hread : b.readCommands = .ok cs) (hne : cs ≠ []) (hcs : ∀ c ∈ cs, c.Protectable)
    {raw : Bytes} {raws : List Bytes} (hraw : raw.length = Response.statusLength)
    (hraws : ∀ raw ∈ raws, Response.statusLength ≤ raw.length) :
    (start keys counter).round ⟨b, some (raw :: raws)⟩ = start keys (counter.after 2) := by
  have hstatus : ∀ raw' ∈ raw :: raws, Response.statusLength ≤ raw'.length :=
    List.forall_mem_cons.mpr ⟨Nat.le_of_eq hraw.symm, hraws⟩
  rw [round_start hread hne hcs hstatus,
    decipherAll_error (Response.ofBytes_bare hraw) (decipher_bare keys counter _) raws]

/-- A card that answers every command leaves the session behind all positions of the batch. -/
theorem round_answers {keys : SessionKeys} {counter : Counter} {b : Batch} {cs : List Command}
    (hread : b.readCommands = .ok cs) (hne : cs ≠ []) (hcs : ∀ c ∈ cs, c.Protectable)
    {rs : List Response} (hlength : rs.length = cs.length)
    (hrs : ∀ r ∈ rs, r.data.length < 2 ^ 31) :
    (start keys counter).round ⟨b, some (Card.answers keys counter rs)⟩
      = start keys (counter.after (2 * cs.length)) := by
  rw [round_start hread hne hcs Card.statusLength_le_of_mem_answers,
    decipherAll_answers keys counter hlength hne hcs hrs]

/-- A batch of two commands that the card answers, and one command behind it that is refused. -/
theorem used_nodup_iff_answered :
    let keys : SessionKeys := ⟨⟨Bytes.zeros 16, by decide⟩, ⟨Bytes.zeros 16, by decide⟩, rfl⟩
    let answers := Card.answers keys (.ofNat 0)
      [⟨[0x01, 0x02], Response.success⟩, ⟨[], Response.success⟩]
    let both : Round := ⟨{ Batch.empty with commands :=
      [[0x00, 0xB0, 0x00, 0x00, 0x00], [0x00, 0xA4, 0x02, 0x0C, 0x02, 0x01, 0x01]] },
      some answers⟩
    let one : Round := ⟨{ Batch.empty with commands :=
      [[0x00, 0xA4, 0x02, 0x0C, 0x02, 0x01, 0x01]] }, some [[0x6A, 0x82]]⟩
    apdus [both, one] < 2 ^ 127 ∧
      (start keys (.ofNat 0)).stretches [both, one] = [(.ofNat 0, 2), (.ofNat 4, 1)] ∧
      ((start keys (.ofNat 0)).used [both, one]).Nodup := by
  intro keys answers both one
  let read : Command := ⟨0x00, 0xB0, 0x00, 0x00, none, some 256⟩
  let select : Command := ⟨0x00, 0xA4, 0x02, 0x0C, some [0x01, 0x01], none⟩
  have hfits : ∀ c ∈ [read, select], c.Protectable := by
    intro c hc
    apply Command.protectable_iff.mpr
    revert c
    decide
  have hselect : ∀ c ∈ [select], c.Protectable := List.forall_mem_of_forall_mem_cons hfits
  have hstatus : ∀ raw ∈ answers, Response.statusLength ≤ raw.length :=
    Card.statusLength_le_of_mem_answers
  have hfew : apdus [both, one] < 2 ^ 127 := by
    rw [apdus, List.map_cons, Round.apdus_of_status hstatus, Card.length_answers]
    decide
  have hround : (start keys (.ofNat 0)).round both = start keys (.ofNat 4) :=
    round_answers rfl (List.cons_ne_nil _ _) hfits rfl (by decide)
  have hstretches : (start keys (.ofNat 0)).stretches [both, one]
      = [(.ofNat 0, 2), (.ofNat 4, 1)] := by
    rw [stretches, stretches, stretches, hround, length_usedBy_start keys _ rfl hfits,
      length_usedBy_start keys _ rfl hselect]
    rfl
  have hapart : ((start keys (.ofNat 0)).stretches [both, one]).Pairwise Apart := by
    rw [hstretches, List.pairwise_pair]
    exact .inr (.inr (.inr (by decide)))
  exact ⟨hfew, hstretches, (used_nodup_iff _ _ hfew).mpr hapart⟩

/-- A round of two commands that the card refuses without protection, and a
round of one command behind it, which is protected at the position of the second. -/
theorem used_not_nodup :
    let keys : SessionKeys := ⟨⟨Bytes.zeros 16, by decide⟩, ⟨Bytes.zeros 16, by decide⟩, rfl⟩
    let rounds : List Round :=
      [⟨{ Batch.empty with commands :=
          [[0x00, 0xB0, 0x00, 0x00, 0x00], [0x00, 0xA4, 0x02, 0x0C, 0x02, 0x01, 0x01]] },
        some [[0x6A, 0x82], [0x6A, 0x82]]⟩,
       ⟨{ Batch.empty with commands := [[0x00, 0xA4, 0x02, 0x0C, 0x02, 0x01, 0x01]] }, none⟩]
    apdus rounds < 2 ^ 127 ∧ ¬ ((start keys (.ofNat 0)).used rounds).Nodup := by
  intro keys rounds
  refine ⟨by decide, ?_⟩
  let read : Command := ⟨0x00, 0xB0, 0x00, 0x00, none, some 256⟩
  let select : Command := ⟨0x00, 0xA4, 0x02, 0x0C, some [0x01, 0x01], none⟩
  have hfits : ∀ c ∈ [read, select], c.Protectable := by
    intro c hc
    apply Command.protectable_iff.mpr
    revert c
    decide
  have hround : (start keys (.ofNat 0)).round rounds[0] = start keys ((Counter.ofNat 0).after 2) :=
    round_refused rfl (List.cons_ne_nil _ _) hfits rfl (by decide)
  have hfirst : (start keys (.ofNat 0)).usedBy rounds[0].batch
      = (spots 0 (leading [read, select])).map (Counter.ofNat 0).after :=
    positions_start keys (.ofNat 0) [read, select]
  have hsecond : (start keys ((Counter.ofNat 0).after 2)).usedBy rounds[1].batch
      = (spots 2 (leading [select])).map (Counter.ofNat 0).after :=
    positions_eq keys (.ofNat 0) 2 none [select]
  have hused : (start keys (.ofNat 0)).used rounds
      = (start keys (.ofNat 0)).usedBy rounds[0].batch
        ++ (((start keys (.ofNat 0)).round rounds[0]).usedBy rounds[1].batch ++ []) := rfl
  have hlist : (start keys (.ofNat 0)).used rounds
      = [(Counter.ofNat 0).after 1, (Counter.ofNat 0).after 3, (Counter.ofNat 0).after 3] := by
    rw [hused, hround, hfirst, hsecond, leading_of_protectable hfits,
      leading_of_protectable (List.forall_mem_of_forall_mem_cons hfits)]
    rfl
  rw [hlist]
  simp

/-- No position is used twice if every batch has its responses opened. -/
theorem used_nodup_of_opened (s : Session) (rounds : List Round) (h : apdus rounds < 2 ^ 127)
    (hopened : s.AllOpened rounds) : (s.used rounds).Nodup := by
  have hstart : s.counter.current = s.counter.current.after 0 := (Counter.after_zero _).symm
  obtain ⟨offsets, hlaid⟩ := exists_laid rounds hstart
  have hfits : 0 + 2 * apdus rounds < 2 ^ 128 := by omega
  rw [hlaid.nodup_iff hfits]
  refine (hlaid.opened hopened).imp ?_
  intro o o' hbehind
  rw [disjoint_spots (by omega)]
  omega

end Session
end Messaging
end CardAccess

import CardAccess.Proofs.Messaging.Batch
import Mathlib.Logic.Function.Iterate

/-!
# What a batch records

A call that goes over a batch records what it has made of all commands or responses, or else a
failure.  What the calls before it recorded stays beside that: a failure until it is taken out,
and protected commands or plain responses until others take their place.  So the record need not
be about the last call.  It is, as `settled_iff` says, exactly if a call that succeeds finds no
failure of an earlier one, and a call that fails finds nothing that an earlier one in the same
direction has made.
-/

namespace CardAccess
namespace Messaging

namespace Session

variable {α β : Type}

/-! ## Results at every second position -/

/-- The outputs are those of the inputs, one by one in order, where the session stands two
positions further for each. -/
def Yields (f : Session → α → Except Error β) (s : Session) (inputs : List α)
    (outputs : List β) : Prop :=
  outputs.length = inputs.length ∧
    ∀ (i : Nat) (a : α) (b : β), inputs[i]? = some a → outputs[i]? = some b →
      f (advance^[2 * i] s) a = .ok b

section Yields

variable {f : Session → α → Except Error β} {s : Session} {a : α} {as : List α} {bs : List β}

theorem yields_nil : s.Yields f [] bs ↔ bs = [] := by
  constructor
  · rintro ⟨hlength, -⟩
    exact List.length_eq_zero_iff.mp hlength
  · rintro rfl
    exact ⟨rfl, fun i a b ha => nomatch ha⟩

theorem yields_cons : s.Yields f (a :: as) bs ↔
    ∃ b, f s a = .ok b ∧ ∃ rest, s.advance.advance.Yields f as rest ∧ bs = b :: rest := by
  have hlater (i : Nat) : advance^[2 * (i + 1)] s = advance^[2 * i] s.advance.advance := rfl
  constructor
  · rintro ⟨hlength, hall⟩
    cases bs with
    | nil => cases hlength
    | cons b rest =>
      refine ⟨b, hall 0 a b rfl rfl, rest, ⟨Nat.succ.inj hlength, fun i a' b' ha hb => ?_⟩, rfl⟩
      rw [← hlater]
      exact hall (i + 1) a' b' ha hb
  · rintro ⟨b, hfirst, rest, ⟨hlength, hall⟩, rfl⟩
    refine ⟨congrArg (· + 1) hlength, fun i a' b' ha hb => ?_⟩
    cases i with
    | zero =>
      cases ha
      cases hb
      exact hfirst
    | succ i =>
      rw [hlater]
      exact hall i a' b' ha hb

end Yields

/-- Read a response and open it. -/
def openRaw (s : Session) (raw : Bytes) : Except Error Response := do
  let r ← Response.ofBytes raw
  (s.decipher r).1

def protectOne (s : Session) (c : Command) : Except Error Command := (s.encipher c).1

variable {s s' : Session}

theorem decipherAll_cons_fst {raw : Bytes} {r opened : Response}
    (hread : Response.ofBytes raw = .ok r) (h : s.decipher r = (.ok opened, s'))
    (raws : List Bytes) :
    (s.decipherAll (raw :: raws)).1 = (s'.advance.decipherAll raws).1.map (opened :: ·) := by
  cases raws with
  | nil => rw [decipherAll_singleton hread h]; rfl
  | cons raw' raws => rw [decipherAll_cons_cons hread h]

theorem decipher_ok_snd {r opened : Response} (h : s.decipher r = (.ok opened, s')) :
    s' = s.advance := by
  cases hkeys : s.keys with
  | none =>
    rw [decipher, hkeys] at h
    cases h
  | some keys =>
    rcases decipher_session hkeys r with hs | ⟨-, e, he⟩
    · rw [h] at hs
      exact hs
    · rw [h] at he
      cases he

theorem encipher_ok_snd {c p : Command} (h : s.encipher c = (.ok p, s')) : s' = s.advance := by
  rw [encipher] at h
  split at h
  · cases h
  · exact (congrArg Prod.snd h).symm

/-- Where the first input fails, so do all together. -/
theorem error_iff_yields_cons {f : Session → α → Except Error β} {a : α} {as : List α}
    {bs : List β} {e e' : Error} (h : f s a = .error e) :
    (Except.error e' : Except Error (List β)) = .ok bs ↔ s.Yields f (a :: as) bs := by
  constructor
  · intro hok
    cases hok
  · intro hall
    obtain ⟨b, hb, -⟩ := yields_cons.mp hall
    cases h.symm.trans hb

/-- Responses can all be opened just if they open one by one. -/
theorem decipherAll_eq_ok {raws : List Bytes} {opened : List Response} :
    (s.decipherAll raws).1 = .ok opened ↔ s.Yields openRaw raws opened := by
  induction raws generalizing s opened with
  | nil =>
    rw [yields_nil, decipherAll]
    exact ⟨fun h => (Except.ok.inj h).symm, fun h => congrArg Except.ok h.symm⟩
  | cons raw raws ih =>
    cases hread : Response.ofBytes raw with
    | error e =>
      have hfirst : s.openRaw raw = .error e := by rw [openRaw, hread]; rfl
      rw [decipherAll, hread]
      exact error_iff_yields_cons hfirst
    | ok r =>
      cases hopen : s.decipher r with
      | mk outcome s' =>
        have hfirst : s.openRaw raw = outcome := by
          rw [openRaw, bind_of_ok hread, hopen]
        cases outcome with
        | error e =>
          rw [decipherAll_error hread hopen]
          exact error_iff_yields_cons hfirst
        | ok out =>
          rw [decipherAll_cons_fst hread hopen, decipher_ok_snd hopen, map_eq_ok, yields_cons,
            hfirst]
          simp only [ih, Except.ok.injEq, exists_eq_left']

/-! ## Protecting does not look at the mark -/

def unmark (s : Session) : Session := { s with counter := .start s.counter.current }

theorem protectOne_unmark (s : Session) (c : Command) : s.unmark.protectOne c = s.protectOne c := by
  obtain ⟨keys, counter⟩ := s
  cases keys <;> rfl

theorem yields_unmark {cs ps : List Command} :
    s.unmark.Yields protectOne cs ps ↔ s.Yields protectOne cs ps := by
  have hadvance : Function.Semiconj unmark advance advance := fun _ => rfl
  have hlater (n : Nat) (c : Command) :
      (advance^[n] s.unmark).protectOne c = (advance^[n] s).protectOne c := by
    rw [← (hadvance.iterate_right n).eq, protectOne_unmark]
  rw [Yields, Yields]
  simp only [hlater]

theorem encipherFrom_cons_fst {c p : Command} (h : s.encipher c = (.ok p, s')) (first : Bool)
    (cs : List Command) :
    (s.encipherFrom first (c :: cs)).1
      = ((if first then s'.setMark else s').advance.encipherFrom false cs).1.map (p :: ·) := by
  rw [encipherFrom, h]
  dsimp only
  cases cs with
  | nil => rfl
  | cons c' cs =>
    dsimp only
    cases (if first then s'.setMark else s').advance.encipherFrom false (c' :: cs) with
    | mk outcome s'' => cases outcome <;> rfl

/-- Commands can all be protected just if they can be one by one. -/
theorem encipherFrom_eq_ok {first : Bool} {cs ps : List Command} :
    (s.encipherFrom first cs).1 = .ok ps ↔ s.Yields protectOne cs ps := by
  induction cs generalizing s first ps with
  | nil =>
    rw [yields_nil, encipherFrom]
    exact ⟨fun h => (Except.ok.inj h).symm, fun h => congrArg Except.ok h.symm⟩
  | cons c cs ih =>
    cases hsend : s.encipher c with
    | mk outcome s' =>
      have hfirst : s.protectOne c = outcome := congrArg Prod.fst hsend
      cases outcome with
      | error e =>
        rw [encipherFrom, hsend]
        exact error_iff_yields_cons hfirst
      | ok p =>
        have hmarked (rest : List Command) :
            (if first then s'.setMark else s').advance.Yields protectOne cs rest
              ↔ s.advance.advance.Yields protectOne cs rest := by
          rw [encipher_ok_snd hsend, ← yields_unmark, ← yields_unmark (s := s.advance.advance)]
          cases first <;> rfl
        rw [encipherFrom_cons_fst hsend, map_eq_ok, yields_cons, hfirst]
        simp only [ih, hmarked, Except.ok.injEq, exists_eq_left']

/-! ## What one call records -/

variable {b : Batch}

/-- The batch has responses, and they open to `opened`. -/
def OpensTo (s : Session) (b : Batch) (opened : List Response) : Prop :=
  ∃ raws, b.responses = some raws ∧ s.Yields openRaw raws opened

/-- The commands of the batch can be read, and `ps` are their protected forms. -/
def ProtectsTo (s : Session) (b : Batch) (ps : List Command) : Prop :=
  ∃ cs, b.readCommands = .ok cs ∧ s.Yields protectOne cs ps

theorem fromCard_of_opensTo {opened : List Response} (h : s.OpensTo b opened) :
    (s.fromCard b).2 = { b with plainResponses := some opened }.finish := by
  obtain ⟨raws, hraws, hyields⟩ := h
  rw [fromCard_of_decipherAll hraws (Prod.ext (decipherAll_eq_ok.mpr hyields) rfl)]
  rfl

theorem fromCard_of_not_opensTo (h : ∀ opened, ¬ s.OpensTo b opened) :
    ∃ e, (s.fromCard b).2 = { b with failure := some e }.finish := by
  rcases Option.eq_none_or_eq_some b.responses with hnone | ⟨raws, hraws⟩
  · exact ⟨.missingResponses, by rw [fromCard, hnone]⟩
  · cases hall : (s.decipherAll raws).1 with
    | error e =>
      rw [fromCard_of_decipherAll hraws (Prod.ext hall rfl)]
      exact ⟨e, rfl⟩
    | ok opened => exact absurd ⟨raws, hraws, decipherAll_eq_ok.mp hall⟩ (h opened)

theorem responses_fromCard (s : Session) (b : Batch) :
    (s.fromCard b).2.responses = b.responses := by
  by_cases h : ∃ opened, s.OpensTo b opened
  · obtain ⟨opened, hopens⟩ := h
    rw [fromCard_of_opensTo hopens]
    rfl
  · obtain ⟨e, hafter⟩ := fromCard_of_not_opensTo (not_exists.mp h)
    rw [hafter]
    rfl

theorem toCard_of_protectsTo {ps : List Command} (h : s.ProtectsTo b ps) :
    (s.toCard b).2 = { b with protectedCommands := some ps }.finish := by
  obtain ⟨cs, hread, hyields⟩ := h
  rw [toCard_of_encipherAll hread (Prod.ext (encipherFrom_eq_ok.mpr hyields) rfl)]

theorem toCard_of_not_protectsTo (h : ∀ ps, ¬ s.ProtectsTo b ps) :
    ∃ e, (s.toCard b).2 = { b with failure := some e }.finish := by
  cases hread : b.readCommands with
  | error e => exact ⟨e, by rw [toCard, hread]⟩
  | ok cs =>
    cases hall : s.encipherAll cs with
    | mk outcome s' =>
      cases outcome with
      | error e =>
        refine ⟨e, ?_⟩
        rw [toCard, hread]
        dsimp only
        rw [hall]
      | ok ps =>
        have hyields := encipherFrom_eq_ok.mp (congrArg Prod.fst hall)
        exact absurd ⟨cs, hread, hyields⟩ (h ps)

theorem commands_toCard (s : Session) (b : Batch) : (s.toCard b).2.commands = b.commands := by
  by_cases h : ∃ ps, s.ProtectsTo b ps
  · obtain ⟨ps, hprotects⟩ := h
    rw [toCard_of_protectsTo hprotects]
    rfl
  · obtain ⟨e, hafter⟩ := toCard_of_not_protectsTo (not_exists.mp h)
    rw [hafter]
    rfl

/-- What is recorded is about one call, which may come to the results of `p`: there is no failure
and there is such a result, or there is a failure and no result. -/
def Settled (p : α → Prop) (failure : Option Error) (result : Option α) : Prop :=
  (failure = none ∧ ∃ x, p x ∧ result = some x) ∨ (failure ≠ none ∧ result = none)

/-- A call leaves the failure when it comes to a result and the result when it fails. -/
theorem settled_iff_of_call {p : α → Prop} {failure failure' : Option Error}
    {result result' : Option α} (hok : ∀ x, p x → failure' = failure ∧ result' = some x)
    (hfailed : (∀ x, ¬ p x) → failure' ≠ none ∧ result' = result) :
    Settled p failure' result' ↔
      ((∃ x, p x) ∧ failure = none) ∨ ((∀ x, ¬ p x) ∧ result = none) := by
  by_cases h : ∃ x, p x
  · obtain ⟨x, hx⟩ := h
    obtain ⟨rfl, rfl⟩ := hok x hx
    constructor
    · rintro (⟨hfailure, -⟩ | ⟨-, hnone⟩)
      · exact .inl ⟨⟨x, hx⟩, hfailure⟩
      · cases hnone
    · rintro (⟨-, hfailure⟩ | ⟨hnever, -⟩)
      · exact .inl ⟨hfailure, x, hx, rfl⟩
      · exact absurd hx (hnever x)
  · have hnever := not_exists.mp h
    obtain ⟨hfailure', rfl⟩ := hfailed hnever
    constructor
    · rintro (⟨hfailure, -⟩ | ⟨-, hnone⟩)
      · exact absurd hfailure hfailure'
      · exact .inr ⟨hnever, hnone⟩
    · rintro (⟨hsome, -⟩ | ⟨-, hnone⟩)
      · exact absurd hsome h
      · exact .inr ⟨hfailure', hnone⟩

/-- After a call that opened responses from where the session stood: there is no failure, and the
plain responses are those of the responses, or there is a failure and there are none. -/
def OpenedOrFailed (s : Session) (after : Batch) : Prop :=
  Settled (s.OpensTo after) after.failure after.plainResponses

/-- The same of a call that protected commands. -/
def ProtectedOrFailed (s : Session) (after : Batch) : Prop :=
  Settled (s.ProtectsTo after) after.failure after.protectedCommands

theorem openedOrFailed_iff : s.OpenedOrFailed (s.fromCard b).2 ↔
    ((∃ opened, s.OpensTo b opened) ∧ b.failure = none) ∨
      ((∀ opened, ¬ s.OpensTo b opened) ∧ b.plainResponses = none) := by
  have hsame : s.OpensTo (s.fromCard b).2 = s.OpensTo b := by
    unfold OpensTo
    rw [responses_fromCard]
  rw [OpenedOrFailed, hsame]
  refine settled_iff_of_call (fun opened hopens => ?_) fun hnever => ?_
  · rw [fromCard_of_opensTo hopens]
    exact ⟨rfl, rfl⟩
  · obtain ⟨e, hafter⟩ := fromCard_of_not_opensTo hnever
    rw [hafter]
    exact ⟨Option.some_ne_none e, rfl⟩

theorem protectedOrFailed_iff : s.ProtectedOrFailed (s.toCard b).2 ↔
    ((∃ ps, s.ProtectsTo b ps) ∧ b.failure = none) ∨
      ((∀ ps, ¬ s.ProtectsTo b ps) ∧ b.protectedCommands = none) := by
  have hsame : s.ProtectsTo (s.toCard b).2 = s.ProtectsTo b := by
    unfold ProtectsTo Batch.readCommands
    rw [commands_toCard]
  rw [ProtectedOrFailed, hsame]
  refine settled_iff_of_call (fun ps hprotects => ?_) fun hnever => ?_
  · rw [toCard_of_protectsTo hprotects]
    exact ⟨rfl, rfl⟩
  · obtain ⟨e, hafter⟩ := toCard_of_not_protectsTo hnever
    rw [hafter]
    exact ⟨Option.some_ne_none e, rfl⟩

theorem not_openedOrFailed {after : Batch} {e : Error} {opened : List Response}
    (hfailure : after.failure = some e) (hplain : after.plainResponses = some opened) :
    ¬ s.OpenedOrFailed after := by
  rintro (⟨hnone, -⟩ | ⟨-, hnone⟩)
  · cases hfailure.symm.trans hnone
  · cases hplain.symm.trans hnone

end Session

namespace Batch

open Session

/-! ## Steps of a batch -/

/-- What may be done with a batch.  A step that goes over it is taken by a session as it stands
then, whatever it has been used for in between. -/
inductive Step where
  | setCommands (commands : List Command)
  | setRawCommands (commands : List Bytes)
  | setResponses (responses : List Bytes)
  | toCard (s : Session)
  | fromCard (s : Session)
  | takeFailure
  | setPhase (phase : Phase)
  | setFinished (finished : Bool)

/-- The batch after a step.  One that is refused leaves it as it is. -/
def perform (b : Batch) : Step → Batch
  | .setCommands commands => (b.setCommands commands).toOption.getD b
  | .setRawCommands commands => (b.setRawCommands commands).toOption.getD b
  | .setResponses responses => (b.setResponses responses).toOption.getD b
  | .toCard s => (s.toCard b).2
  | .fromCard s => (s.fromCard b).2
  | .takeFailure => b.takeFailure.2
  | .setPhase phase => (b.setPhase phase).toOption.getD b
  | .setFinished finished => b.setFinished finished

/-- The batch after several steps from an empty one. -/
def performAll (steps : List Step) : Batch := steps.foldl perform empty

/-- The step goes over the batch and fails. -/
def Step.Fails (b : Batch) : Step → Prop
  | .toCard s => ∀ ps, ¬ s.ProtectsTo b ps
  | .fromCard s => ∀ opened, ¬ s.OpensTo b opened
  | _ => False

/-- The step opens the responses of the batch. -/
def Step.Opens (b : Batch) : Step → Prop
  | .fromCard s => ∃ opened, s.OpensTo b opened
  | _ => False

/-- The step protects the commands of the batch. -/
def Step.Protects (b : Batch) : Step → Prop
  | .toCard s => ∃ ps, s.ProtectsTo b ps
  | _ => False

/-- What is recorded after a step, by what was recorded before it. -/
structure Records (b : Batch) (step : Step) (b' : Batch) : Prop where
  failure : b'.failure = none ↔ step = .takeFailure ∨ ¬ step.Fails b ∧ b.failure = none
  plainResponses : b'.plainResponses = none ↔ ¬ step.Opens b ∧ b.plainResponses = none
  protectedCommands : b'.protectedCommands = none ↔ ¬ step.Protects b ∧ b.protectedCommands = none

variable {b b' : Batch} {step : Step}

section

variable {α : Type} {p : Prop} {x x' : Option α}

theorem none_iff_of_kept (hp : ¬ p) (h : x' = x) : x' = none ↔ ¬ p ∧ x = none := by
  rw [h]
  exact ⟨fun hnone => ⟨hp, hnone⟩, And.right⟩

theorem none_iff_of_set (hp : p) (h : x'.isSome) : x' = none ↔ ¬ p ∧ x = none :=
  ⟨fun hnone => absurd h (Option.not_isSome_iff_eq_none.mpr hnone), fun hnot => absurd hp hnot.1⟩

end

/-- The steps that neither go over a batch nor take its failure out change nothing that is
recorded. -/
theorem records_of_set (result : Except Error Batch) (hfails : ¬ step.Fails b)
    (hopens : ¬ step.Opens b) (hprotects : ¬ step.Protects b) (htake : step ≠ .takeFailure)
    (h : ∀ b', result = .ok b' → b'.failure = b.failure ∧
      b'.plainResponses = b.plainResponses ∧ b'.protectedCommands = b.protectedCommands) :
    b.Records step (result.toOption.getD b) := by
  have hsame : (result.toOption.getD b).failure = b.failure ∧
      (result.toOption.getD b).plainResponses = b.plainResponses ∧
      (result.toOption.getD b).protectedCommands = b.protectedCommands := by
    cases result with
    | error e => exact ⟨rfl, rfl, rfl⟩
    | ok b' => exact h b' rfl
  exact ⟨(none_iff_of_kept hfails hsame.1).trans (or_iff_right htake).symm,
    none_iff_of_kept hopens hsame.2.1, none_iff_of_kept hprotects hsame.2.2⟩

theorem records_toCard (b : Batch) (s : Session) : b.Records (.toCard s) (s.toCard b).2 := by
  have htake : Step.toCard s ≠ .takeFailure := Step.noConfusion
  by_cases h : ∃ ps, s.ProtectsTo b ps
  · obtain ⟨ps, hprotects⟩ := h
    have hfails : ¬ (Step.toCard s).Fails b := fun hnever => hnever ps hprotects
    rw [toCard_of_protectsTo hprotects]
    exact ⟨(none_iff_of_kept hfails rfl).trans (or_iff_right htake).symm,
      none_iff_of_kept id rfl, none_iff_of_set ⟨ps, hprotects⟩ rfl⟩
  · have hfails : (Step.toCard s).Fails b := not_exists.mp h
    obtain ⟨e, hafter⟩ := toCard_of_not_protectsTo hfails
    rw [hafter]
    exact ⟨(none_iff_of_set hfails rfl).trans (or_iff_right htake).symm,
      none_iff_of_kept id rfl, none_iff_of_kept h rfl⟩

theorem records_fromCard (b : Batch) (s : Session) : b.Records (.fromCard s) (s.fromCard b).2 := by
  have htake : Step.fromCard s ≠ .takeFailure := Step.noConfusion
  by_cases h : ∃ opened, s.OpensTo b opened
  · obtain ⟨opened, hopens⟩ := h
    have hfails : ¬ (Step.fromCard s).Fails b := fun hnever => hnever opened hopens
    rw [fromCard_of_opensTo hopens]
    exact ⟨(none_iff_of_kept hfails rfl).trans (or_iff_right htake).symm,
      none_iff_of_set ⟨opened, hopens⟩ rfl, none_iff_of_kept id rfl⟩
  · have hfails : (Step.fromCard s).Fails b := not_exists.mp h
    obtain ⟨e, hafter⟩ := fromCard_of_not_opensTo hfails
    rw [hafter]
    exact ⟨(none_iff_of_set hfails rfl).trans (or_iff_right htake).symm,
      none_iff_of_kept h rfl, none_iff_of_kept id rfl⟩

theorem setRawCommands_eq_ok {commands : List Bytes} (h : b.setRawCommands commands = .ok b') :
    b' = { b with commands := commands } := by
  rw [setRawCommands] at h
  split at h
  · cases h
  split at h
  · cases h
  · exact (Except.ok.inj h).symm

/-- One case for each step. -/
theorem records_perform (b : Batch) (step : Step) : b.Records step (b.perform step) := by
  cases step with
  | setCommands commands =>
    refine records_of_set _ id id id Step.noConfusion fun b' h => ?_
    obtain ⟨raws, -, hset⟩ := bind_eq_ok.mp h
    rw [setRawCommands_eq_ok hset]
    exact ⟨rfl, rfl, rfl⟩
  | setRawCommands commands =>
    refine records_of_set _ id id id Step.noConfusion fun b' h => ?_
    rw [setRawCommands_eq_ok h]
    exact ⟨rfl, rfl, rfl⟩
  | setResponses responses =>
    refine records_of_set _ id id id Step.noConfusion fun b' h => ?_
    rw [setResponses] at h
    split at h
    · cases h
    · cases h
      exact ⟨rfl, rfl, rfl⟩
  | toCard s => exact records_toCard b s
  | fromCard s => exact records_fromCard b s
  | takeFailure =>
    exact ⟨⟨fun _ => .inl rfl, fun _ => rfl⟩, none_iff_of_kept id rfl, none_iff_of_kept id rfl⟩
  | setPhase phase =>
    refine records_of_set _ id id id Step.noConfusion fun b' h => ?_
    rw [setPhase] at h
    split at h
    · cases h
    · cases h
      exact ⟨rfl, rfl, rfl⟩
  | setFinished finished =>
    exact records_of_set (.ok (b.setFinished finished)) id id id Step.noConfusion
      fun b' h => by
        cases h
        exact ⟨rfl, rfl, rfl⟩

/-! ## Runs -/

/-- Something holds of each step of a run, given the batch before it and the steps after it. -/
def Throughout (steps : List Step) (p : Batch → Step → List Step → Prop) : Prop :=
  ∀ before step later, steps = before ++ step :: later → p (performAll before) step later

/-- Every step that failed was followed by taking the failure out. -/
def AllTaken (steps : List Step) : Prop :=
  Throughout steps fun b step later => step.Fails b → Step.takeFailure ∈ later

/-- No step has opened responses. -/
def NeverOpened (steps : List Step) : Prop := Throughout steps fun b step _ => ¬ step.Opens b

/-- No step has protected commands. -/
def NeverProtected (steps : List Step) : Prop := Throughout steps fun b step _ => ¬ step.Protects b

variable {steps : List Step}

theorem throughout_nil (p : Batch → Step → List Step → Prop) : Throughout [] p := by
  intro before step later h
  exact absurd h.symm (List.append_ne_nil_of_right_ne_nil _ (List.cons_ne_nil _ _))

theorem throughout_concat {last : Step} {p : Batch → Step → List Step → Prop} :
    Throughout (steps ++ [last]) p ↔
      p (performAll steps) last [] ∧
        Throughout steps fun b step later => p b step (later ++ [last]) := by
  constructor
  · intro h
    refine ⟨h steps last [] rfl, fun before step later heq => ?_⟩
    refine h before step (later ++ [last]) ?_
    rw [heq, List.append_assoc, List.cons_append]
  · rintro ⟨hlast, hrest⟩ before step later heq
    rcases List.eq_nil_or_concat later with rfl | ⟨later', x, rfl⟩
    · obtain ⟨rfl, hstep⟩ := List.append_inj' heq rfl
      cases hstep
      exact hlast
    · rw [List.concat_eq_append, ← List.cons_append, ← List.append_assoc] at heq
      obtain ⟨hsteps, hx⟩ := List.append_inj' heq rfl
      cases hx
      rw [List.concat_eq_append]
      exact hrest before step later' hsteps

theorem performAll_concat (steps : List Step) (last : Step) :
    performAll (steps ++ [last]) = (performAll steps).perform last := by
  rw [performAll, List.foldl_append]
  rfl

theorem performAll_pair (steps : List Step) (first second : Step) :
    performAll (steps ++ [first, second]) = ((performAll steps).perform first).perform second := by
  rw [performAll, List.foldl_append]
  rfl

theorem failure_performAll : (performAll steps).failure = none ↔ AllTaken steps := by
  induction steps using List.reverseRecOn with
  | nil => exact ⟨fun _ => throughout_nil _, fun _ => rfl⟩
  | append_singleton steps last ih =>
    rw [performAll_concat, (records_perform _ last).failure, ih, AllTaken, AllTaken,
      throughout_concat]
    by_cases htake : last = .takeFailure
    · have hmem (later : List Step) : Step.takeFailure ∈ later ++ [last] :=
        List.mem_append_right _ (htake ▸ List.mem_singleton_self _)
      refine ⟨fun _ => ⟨fun hfails => ?_, fun _ _ later _ _ => hmem later⟩, fun _ => .inl htake⟩
      rw [htake] at hfails
      exact hfails.elim
    · have hmem (later : List Step) : Step.takeFailure ∈ later ++ [last] ↔
          Step.takeFailure ∈ later := by
        rw [List.mem_append, List.mem_singleton, or_iff_left (Ne.symm htake)]
      simp only [hmem, or_iff_right htake, List.not_mem_nil, imp_false]

/-- A field that starts empty, and that only steps with `p` fill, is empty after a run without such
steps and after no other. -/
theorem field_performAll {α : Type} {field : Batch → Option α} {p : Batch → Step → Prop}
    (hempty : field empty = none)
    (hstep : ∀ b step, field (b.perform step) = none ↔ ¬ p b step ∧ field b = none) :
    field (performAll steps) = none ↔ Throughout steps fun b step _ => ¬ p b step := by
  induction steps using List.reverseRecOn with
  | nil => exact ⟨fun _ => throughout_nil _, fun _ => hempty⟩
  | append_singleton steps last ih =>
    rw [performAll_concat, hstep, ih, throughout_concat]

theorem plainResponses_performAll :
    (performAll steps).plainResponses = none ↔ NeverOpened steps :=
  field_performAll rfl fun b step => (records_perform b step).plainResponses

theorem protectedCommands_performAll :
    (performAll steps).protectedCommands = none ↔ NeverProtected steps :=
  field_performAll rfl fun b step => (records_perform b step).protectedCommands

/-- After any run, what a call leaves recorded is about that call exactly if it succeeds and every
failure before it was taken out, or if it fails and no call before it has done the same. -/
theorem settled_iff (steps : List Step) (s : Session) :
    let b := performAll steps
    (s.OpenedOrFailed (s.fromCard b).2 ↔
        ((∃ opened, s.OpensTo b opened) ∧ AllTaken steps) ∨
          ((∀ opened, ¬ s.OpensTo b opened) ∧ NeverOpened steps)) ∧
      (s.ProtectedOrFailed (s.toCard b).2 ↔
        ((∃ ps, s.ProtectsTo b ps) ∧ AllTaken steps) ∨
          ((∀ ps, ¬ s.ProtectsTo b ps) ∧ NeverProtected steps)) := by
  intro b
  rw [← failure_performAll, ← plainResponses_performAll, ← protectedCommands_performAll]
  exact ⟨openedOrFailed_iff, protectedOrFailed_iff⟩

theorem fromCard_perform_setResponses {s s' : Session} {raws : List Bytes}
    {outcome : Except Error (List Response)}
    (hraws : ∀ raw ∈ raws, Response.statusLength ≤ raw.length)
    (h : s.decipherAll raws = (outcome, s')) :
    s.fromCard (b.perform (.setResponses raws))
      = (s', ({ b with responses := some raws }.record outcome).finish) := by
  have hset : b.perform (.setResponses raws) = { b with responses := some raws } := by
    rw [perform, setResponses_of_status hraws]
    rfl
  rw [hset]
  exact fromCard_of_decipherAll rfl h

/-- Responses that open, and then others that do not: what the first opened to is left, beside the
failure of the others. -/
theorem opened_left {s s' s'' : Session} {raws others : List Bytes} {opened : List Response}
    {e : Error} (hraws : ∀ raw ∈ raws, Response.statusLength ≤ raw.length)
    (hothers : ∀ raw ∈ others, Response.statusLength ≤ raw.length)
    (hopen : s.decipherAll raws = (.ok opened, s'))
    (hrefused : s'.decipherAll others = (.error e, s''))
    (b : Batch) :
    let answered := b.perform (.setResponses raws)
    let after := (s'.fromCard ((answered.perform (.fromCard s)).perform (.setResponses others))).2
    (s.fromCard answered).1 = s' ∧ after.failure = some e ∧ after.plainResponses = some opened := by
  intro answered after
  have hfirst := fromCard_perform_setResponses (b := b) hraws hopen
  have hafter : after = _ := congrArg Prod.snd
    (fromCard_perform_setResponses (b := answered.perform (.fromCard s)) hothers hrefused)
  refine ⟨congrArg Prod.fst hfirst, ?_, ?_⟩
  · rw [hafter]
    rfl
  · rw [hafter, perform, hfirst]
    rfl

/-- A response that opens, and in its place another without protection, which does not: the plain
response to the first is still there, beside the failure. -/
theorem opened_response_left :
    let keys : SessionKeys := ⟨⟨Bytes.zeros 16, by decide⟩, ⟨Bytes.zeros 16, by decide⟩, rfl⟩
    let start (n : Nat) := Session.start keys (.ofNat n)
    let r : Response := ⟨[1, 2, 3, 4, 5, 6, 7, 8], Response.success⟩
    let raw := ((⟨keys, .ofNat 1⟩ : Card).respond r).1.toBytes
    let asked : List Step := [.setRawCommands [[0x00, 0x84, 0x00, 0x00, 0x08]]]
    let answered := asked ++ [.toCard (start 0), .setResponses [raw]]
    let refused := answered ++ [.fromCard (start 1), .setResponses [[0x6A, 0x82]]]
    ((start 0).toCard (performAll asked)).1 = start 1 ∧
      ((start 1).fromCard (performAll answered)).1 = start 2 ∧
      ((start 2).fromCard (performAll refused)).2.failure = some .notEncrypted ∧
      ((start 2).fromCard (performAll refused)).2.plainResponses = some [r] ∧
      ¬ (start 2).OpenedOrFailed ((start 2).fromCard (performAll refused)).2 := by
  intro keys start r raw asked answered refused
  let challenge : Command := ⟨0x00, 0x84, 0x00, 0x00, none, some 8⟩
  have hfits : ∀ c ∈ [challenge], c.Protectable :=
    List.forall_mem_singleton.mpr (Command.protectable_iff.mpr (by decide))
  have hprotected : (start 0).encipherAll [challenge] = (_, start 1) :=
    encipherAll_of_protectable keys (.start (.ofNat 0)) (List.cons_ne_nil _ _) hfits
  have hsent : ((start 0).toCard (performAll asked)).1 = start 1 :=
    congrArg Prod.fst (toCard_of_encipherAll (b := performAll asked) rfl hprotected)
  have hread : Response.ofBytes raw = .ok ((⟨keys, .ofNat 1⟩ : Card).respond r).1 :=
    Response.ofBytes_append _ _
  have hstatus : ∀ raw' ∈ [raw], Response.statusLength ≤ raw'.length :=
    List.forall_mem_singleton.mpr (Response.ofBytes_eq_ok.mp hread).1
  have hopen : (start 1).decipherAll [raw] = (.ok [r], start 2) :=
    decipherAll_singleton hread (Link.decipher_respond (by decide))
  have hbare : Response.ofBytes [0x6A, 0x82] = .ok ⟨[], 0x6A82⟩ := rfl
  have hrefused : (start 2).decipherAll [[0x6A, 0x82]] = (.error .notEncrypted, start 3) :=
    decipherAll_error hbare rfl []
  have hanswered : performAll answered
      = ((performAll asked).perform (.toCard (start 0))).perform (.setResponses [raw]) :=
    performAll_pair asked _ _
  have hrun : performAll refused = ((performAll answered).perform (.fromCard (start 1))).perform
      (.setResponses [[0x6A, 0x82]]) := performAll_pair answered _ _
  obtain ⟨hopened, hfailure, hplain⟩ := opened_left hstatus (by decide) hopen hrefused
    ((performAll asked).perform (.toCard (start 0)))
  rw [← hanswered] at hopened
  rw [← hanswered, ← hrun] at hfailure hplain
  exact ⟨hsent, hopened, hfailure, hplain, Session.not_openedOrFailed hfailure hplain⟩

end Batch
end Messaging
end CardAccess

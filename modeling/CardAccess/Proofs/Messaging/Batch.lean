import CardAccess.Messaging.Batch
import CardAccess.Proofs.Messaging.Exchange

/-!
# A batch and the same commands one at a time

`Session.converse` is the session without batches: it protects a command, opens
the response to it and goes on to the next, until something fails.  A batch
protects all commands first and opens the responses afterwards, and yet ends in
the same session with the same responses or the same failure.

The two runs meet at every response.  Before the response to command `i` is
opened, the session without batches has just protected that command, and the
batch has come back to the first position and gone two further for each response
opened.  Both stand `2 i + 1` positions behind the start, so opening is the same
call in both.

A card that has the keys and answers every command brings either run to its end
(`converse_answers`), and a status without protection stops it (`converse_bare`).
-/

namespace CardAccess
namespace Messaging

/-! ## One at a time -/

/-- What has come of a session that protects and opens in turn: the commands it
sent, the responses it opened or the first failure, and the session. -/
structure Conversation where
  sent : List Command
  outcome : Except Error (List Response)
  session : Session

/-- Put a command and the response to it in front. -/
def Conversation.after (sent : Command) (opened : Response) (rest : Conversation) :
    Conversation where
  sent := sent :: rest.sent
  outcome := rest.outcome.map (opened :: ·)
  session := rest.session

/-- Protect a command, open the response to it and go on, until something
fails. -/
def Session.converse (s : Session) : List (Command × Bytes) → Conversation
  | [] => ⟨[], .ok [], s⟩
  | (command, raw) :: rest =>
    match s.encipher command with
    | (.error e, s) => ⟨[], .error e, s⟩
    | (.ok sent, s) =>
      match Response.ofBytes raw with
      | .error e => ⟨[sent], .error e, s⟩
      | .ok response =>
        match s.decipher response with
        | (.error e, s) => ⟨[sent], .error e, s⟩
        | (.ok opened, s) => .after sent opened (converse s rest)

/-! ## Protecting all commands -/

/-- The protected forms of commands at every second position, the first of them
next to `counter`. -/
def protectedForms (keys : SessionKeys) : Counter → List Command → List Command
  | _, [] => []
  | counter, c :: cs =>
    protectedForm keys counter.next c :: protectedForms keys (counter.after 2) cs

namespace Session

/-- The number of commands in front of the first that is too long. -/
def leading : List Command → Nat
  | [] => 0
  | c :: cs => if c.protectedLength ≤ Command.extendedDataMax then leading cs + 1 else 0

theorem leading_le (cs : List Command) : leading cs ≤ cs.length := by
  induction cs with
  | nil => exact Nat.le_refl 0
  | cons c cs ih =>
    rw [leading, List.length_cons]
    split <;> omega

theorem leading_of_protectable {cs : List Command} (h : ∀ c ∈ cs, c.Protectable) :
    leading cs = cs.length := by
  induction cs with
  | nil => rfl
  | cons c cs ih =>
    rw [leading, if_pos (Command.protectable_iff.mp (h c List.mem_cons_self)),
      ih fun c hc => h c (List.mem_cons_of_mem _ hc), List.length_cons]

section encipher

variable {s : Session}

theorem encipher_of_keys {keys : SessionKeys} (hkeys : s.keys = some keys) (c : Command) :
    s.encipher c = (protect keys s.advance.counter.current c, s.advance) := by
  rw [encipher, hkeys]

theorem encipher_without_keys (hkeys : s.keys = none) (c : Command) :
    s.encipher c = (.error .keysInvalidated, s) := by
  rw [encipher, hkeys]

end encipher

section encipherFrom

/- The position to which the counter returns at the end is `home`: the one of the
first command, which is marked with it, or else the mark. -/
variable {keys : SessionKeys} {counter home : Counter} {mark : Option Counter} {first : Bool}
  {c p : Command}

theorem encipherFrom_error {e : Error} (h : protect keys counter.next c = .error e)
    (cs : List Command) :
    (⟨some keys, ⟨counter, mark⟩⟩ : Session).encipherFrom first (c :: cs)
      = (.error e, ⟨some keys, ⟨counter.next, mark⟩⟩) := by
  have hsend : (⟨some keys, ⟨counter, mark⟩⟩ : Session).encipher c
      = (.error e, ⟨some keys, ⟨counter.next, mark⟩⟩) := Prod.ext h rfl
  rw [encipherFrom, hsend]

theorem encipherFrom_singleton (hhome : (if first then some counter.next else mark) = some home)
    (h : protect keys counter.next c = .ok p) :
    (⟨some keys, ⟨counter, mark⟩⟩ : Session).encipherFrom first [c]
      = (.ok [p], start keys home) := by
  have hsend : (⟨some keys, ⟨counter, mark⟩⟩ : Session).encipher c
      = (.ok p, ⟨some keys, ⟨counter.next, mark⟩⟩) := Prod.ext h rfl
  rw [encipherFrom, hsend]
  cases first with
  | true =>
    cases hhome
    rfl
  | false =>
    have hmark : mark = some home := hhome
    rw [hmark]
    rfl

theorem encipherFrom_cons_cons (hhome : (if first then some counter.next else mark) = some home)
    (h : protect keys counter.next c = .ok p) (c' : Command) (cs : List Command) :
    (⟨some keys, ⟨counter, mark⟩⟩ : Session).encipherFrom first (c :: c' :: cs)
      = (((⟨some keys, ⟨counter.after 2, some home⟩⟩ : Session).encipherFrom false
          (c' :: cs)).1.map (p :: ·),
        ((⟨some keys, ⟨counter.after 2, some home⟩⟩ : Session).encipherFrom false
          (c' :: cs)).2) := by
  have hsend : (⟨some keys, ⟨counter, mark⟩⟩ : Session).encipher c
      = (.ok p, ⟨some keys, ⟨counter.next, mark⟩⟩) := Prod.ext h rfl
  have hmarked : (if first then (⟨some keys, ⟨counter.next, mark⟩⟩ : Session).setMark
      else ⟨some keys, ⟨counter.next, mark⟩⟩).advance
        = ⟨some keys, ⟨counter.after 2, some home⟩⟩ := by
    rw [← hhome, ← Counter.next_next]
    cases first <;> rfl
  rw [encipherFrom, hsend]
  dsimp only
  rw [hmarked]
  cases (⟨some keys, ⟨counter.after 2, some home⟩⟩ : Session).encipherFrom false (c' :: cs) with
  | mk outcome s => cases outcome <;> rfl

theorem leading_of_ok (h : protect keys counter c = .ok p) (cs : List Command) :
    leading (c :: cs) = leading cs + 1 :=
  if_pos (protect_eq_ok.mp h).1

theorem leading_of_error {e : Error} (h : protect keys counter c = .error e) (cs : List Command) :
    leading (c :: cs) = 0 := by
  apply if_neg
  intro hfits
  rw [protect_eq_ok.mpr ⟨hfits, rfl⟩] at h
  cases h

end encipherFrom

/-- How a batch leaves the session: back at `home` if all its commands are
protected, else at the position of the first that is too long, with `home` marked
if commands were protected before it. -/
theorem encipherFrom_cases (keys : SessionKeys) (counter home : Counter) (mark : Option Counter)
    (first : Bool) (hhome : (if first then some counter.next else mark) = some home)
    {cs : List Command} (hne : cs ≠ []) :
    leading cs = cs.length ∧
        (⟨some keys, ⟨counter, mark⟩⟩ : Session).encipherFrom first cs
          = (.ok (protectedForms keys counter cs), start keys home) ∨
      leading cs < cs.length ∧ ∃ c, cs[leading cs]? = some c ∧
        Command.extendedDataMax < c.protectedLength ∧
        (⟨some keys, ⟨counter, mark⟩⟩ : Session).encipherFrom first cs
          = (.error (.dataTooLong c.protectedLength),
            ⟨some keys, ⟨counter.after (2 * leading cs + 1),
              if leading cs = 0 then mark else some home⟩⟩) := by
  induction cs generalizing counter mark first with
  | nil => exact absurd rfl hne
  | cons c cs ih =>
    cases hc : protect keys counter.next c with
    | error e =>
      right
      obtain ⟨hlong, rfl⟩ := protect_eq_error.mp hc
      rw [leading_of_error hc, encipherFrom_error hc, ← Counter.next_eq_after]
      exact ⟨Nat.succ_pos _, c, rfl, hlong, rfl⟩
    | ok p =>
      have hp : p = protectedForm keys counter.next c := (protect_eq_ok.mp hc).2
      rw [leading_of_ok hc]
      cases cs with
      | nil =>
        left
        rw [encipherFrom_singleton hhome hc, hp]
        exact ⟨rfl, rfl⟩
      | cons c' cs =>
        rw [encipherFrom_cons_cons hhome hc]
        -- The others are not first, so they come back to the mark that now stands.
        rcases ih (counter.after 2) (some home) false rfl (List.cons_ne_nil c' cs) with
          ⟨hall, hrest⟩ | ⟨hlt, long, hstop, hlong, hrest⟩
        · left
          rw [hrest, hp]
          exact ⟨congrArg (· + 1) hall, rfl⟩
        · right
          rw [hrest, Counter.after_after, ite_self, if_neg (Nat.succ_ne_zero _)]
          refine ⟨Nat.succ_lt_succ hlt, long, hstop, hlong, ?_⟩
          have hsteps : 2 + (2 * leading (c' :: cs) + 1) = 2 * (leading (c' :: cs) + 1) + 1 := by
            omega
          rw [hsteps]
          rfl

/-- A batch whose commands all fit goes out at every second position, and the
counter comes back to the first of them with the mark taken away. -/
theorem encipherAll_of_protectable (keys : SessionKeys) (m : MarkedCounter) {cs : List Command}
    (hne : cs ≠ []) (hcs : ∀ c ∈ cs, c.Protectable) :
    (⟨some keys, m⟩ : Session).encipherAll cs
      = (.ok (protectedForms keys m.current cs), start keys m.current.next) := by
  rcases encipherFrom_cases keys m.current m.current.next m.mark true rfl hne with
    ⟨-, h⟩ | ⟨hlt, -⟩
  · exact h
  · rw [leading_of_protectable hcs] at hlt
    exact absurd hlt (Nat.lt_irrefl _)

/-! ## Opening all responses -/

theorem session_of_decipher_ok {keys : SessionKeys} {counter : Counter} {r opened : Response}
    {s' : Session} (h : (start keys counter).decipher r = (.ok opened, s')) :
    s' = start keys counter.next := by
  rcases decipher_session (s := start keys counter) rfl r with hs | ⟨-, e, he⟩
  · rw [h] at hs
    exact hs
  · rw [h] at he
    cases he

theorem decipherAll_error {s s' : Session} {raw : Bytes} {r : Response} {e : Error}
    (hread : Response.ofBytes raw = .ok r) (h : s.decipher r = (.error e, s')) (raws : List Bytes) :
    s.decipherAll (raw :: raws) = (.error e, s') := by
  rw [decipherAll, hread]
  dsimp only
  rw [h]

theorem decipherAll_singleton {s s' : Session} {raw : Bytes} {r opened : Response}
    (hread : Response.ofBytes raw = .ok r) (h : s.decipher r = (.ok opened, s')) :
    s.decipherAll [raw] = (.ok [opened], s') := by
  rw [decipherAll, hread]
  dsimp only
  rw [h]

theorem decipherAll_cons_cons {s s' : Session} {raw : Bytes} {r opened : Response}
    (hread : Response.ofBytes raw = .ok r) (h : s.decipher r = (.ok opened, s')) (raw' : Bytes)
    (raws : List Bytes) :
    s.decipherAll (raw :: raw' :: raws)
      = ((s'.advance.decipherAll (raw' :: raws)).1.map (opened :: ·),
        (s'.advance.decipherAll (raw' :: raws)).2) := by
  rw [decipherAll, hread]
  dsimp only
  rw [h]
  dsimp only
  cases s'.advance.decipherAll (raw' :: raws) with
  | mk outcome s'' => cases outcome <;> rfl

/-! ## Both runs together -/

theorem converse_unread {s s' : Session} {c p : Command} {raw : Bytes} {e : Error}
    (h : s.encipher c = (.ok p, s')) (hread : Response.ofBytes raw = .error e)
    (rest : List (Command × Bytes)) : s.converse ((c, raw) :: rest) = ⟨[p], .error e, s'⟩ := by
  rw [converse, h]
  dsimp only
  rw [hread]

theorem converse_error {s s' s'' : Session} {c p : Command} {raw : Bytes} {r : Response} {e : Error}
    (h : s.encipher c = (.ok p, s')) (hread : Response.ofBytes raw = .ok r)
    (hopen : s'.decipher r = (.error e, s'')) (rest : List (Command × Bytes)) :
    s.converse ((c, raw) :: rest) = ⟨[p], .error e, s''⟩ := by
  rw [converse, h]
  dsimp only
  rw [hread]
  dsimp only
  rw [hopen]

theorem converse_cons {s s' s'' : Session} {c p : Command} {raw : Bytes} {r opened : Response}
    (h : s.encipher c = (.ok p, s')) (hread : Response.ofBytes raw = .ok r)
    (hopen : s'.decipher r = (.ok opened, s'')) (rest : List (Command × Bytes)) :
    s.converse ((c, raw) :: rest) = .after p opened (s''.converse rest) := by
  rw [converse, h]
  dsimp only
  rw [hread]
  dsimp only
  rw [hopen]

/-- What opening the responses of a batch, from the position next to `counter`,
has in common with a session without batches that starts at `counter`. -/
structure Agree (keys : SessionKeys) (counter : Counter) (cs : List Command) (raws : List Bytes)
    (talk : Conversation) : Prop where
  same : (start keys counter.next).decipherAll raws = (talk.outcome, talk.session)
  sent : talk.sent <+: protectedForms keys counter cs
  complete : ∀ opened, talk.outcome = .ok opened →
    opened.length = cs.length ∧ talk.sent = protectedForms keys counter cs ∧
    talk.session = start keys (counter.after (2 * cs.length))

section agree

variable {keys : SessionKeys} {counter : Counter} {c : Command} {raw : Bytes} {r : Response}

/-- Both stop at a response that cannot be read or opened. -/
theorem agree_of_error {cs : List Command} {raws : List Bytes} {e : Error} {s : Session}
    (h : (start keys counter.next).decipherAll (raw :: raws) = (.error e, s)) :
    Agree keys counter (c :: cs) (raw :: raws)
      ⟨[protectedForm keys counter.next c], .error e, s⟩ where
  same := h
  sent := ⟨protectedForms keys (counter.after 2) cs, rfl⟩
  complete := by
    intro opened hopened
    cases hopened

theorem agree_singleton {opened : Response} (hread : Response.ofBytes raw = .ok r)
    (hopen : (start keys counter.next).decipher r = (.ok opened, start keys (counter.after 2))) :
    Agree keys counter [c] [raw] (.after (protectedForm keys counter.next c) opened
      ((start keys (counter.after 2)).converse [])) where
  same := decipherAll_singleton hread hopen
  sent := List.prefix_refl _
  complete := by
    intro all hall
    cases hall
    exact ⟨rfl, rfl, rfl⟩

/-- Once a response is opened, both go on from two positions later. -/
theorem agree_cons {cs : List Command} {raw' : Bytes} {raws : List Bytes} {opened : Response}
    {rest : Conversation} (hread : Response.ofBytes raw = .ok r)
    (hopen : (start keys counter.next).decipher r = (.ok opened, start keys (counter.after 2)))
    (hrest : Agree keys (counter.after 2) cs (raw' :: raws) rest) :
    Agree keys counter (c :: cs) (raw :: raw' :: raws)
      (.after (protectedForm keys counter.next c) opened rest) where
  same := by
    have hadvance :
        (start keys (counter.after 2)).advance = start keys (counter.after 2).next := rfl
    rw [decipherAll_cons_cons hread hopen, hadvance, hrest.same]
    rfl
  sent := (List.prefix_cons_inj _).mpr hrest.sent
  complete := by
    intro all hall
    cases houtcome : rest.outcome with
    | error e =>
      rw [Conversation.after, houtcome] at hall
      cases hall
    | ok others =>
      obtain ⟨hlength, hsent, hsession⟩ := hrest.complete others houtcome
      rw [Conversation.after, houtcome] at hall
      cases hall
      refine ⟨congrArg (· + 1) hlength, congrArg (_ :: ·) hsent, ?_⟩
      show rest.session = _
      rw [hsession, Counter.after_after, List.length_cons, Nat.mul_succ, Nat.add_comm 2]

end agree

/-- A session without batches does what the batch does, response by response. -/
theorem agree_converse (keys : SessionKeys) (counter : Counter) {cs : List Command}
    {raws : List Bytes} (hlength : raws.length = cs.length) (hne : cs ≠ [])
    (hcs : ∀ c ∈ cs, c.Protectable) :
    Agree keys counter cs raws ((start keys counter).converse (cs.zip raws)) := by
  induction cs generalizing counter raws with
  | nil => exact absurd rfl hne
  | cons c cs ih =>
    cases raws with
    | nil => exact absurd hlength.symm (Nat.succ_ne_zero _)
    | cons raw raws =>
      have hlength : raws.length = cs.length := Nat.succ.inj hlength
      have hsend := Link.encipher_start
        (protect_of_protectable (hcs c List.mem_cons_self) keys counter.next)
      rw [List.zip_cons_cons]
      cases hread : Response.ofBytes raw with
      | error e =>
        rw [converse_unread hsend hread]
        apply agree_of_error
        rw [decipherAll, hread]
      | ok r =>
        cases hopen : (start keys counter.next).decipher r with
        | mk result s =>
          cases result with
          | error e =>
            rw [converse_error hsend hread hopen]
            exact agree_of_error (decipherAll_error hread hopen raws)
          | ok opened =>
            -- The keys are kept, so both runs go on from the same session.
            have hs : s = start keys (counter.after 2) := by
              rw [session_of_decipher_ok hopen, Counter.next_next]
            rw [converse_cons hsend hread hopen]
            rw [hs] at hopen ⊢
            cases cs with
            | nil =>
              cases List.length_eq_zero_iff.mp hlength
              exact agree_singleton hread hopen
            | cons c' cs =>
              have hrest := ih (counter.after 2) hlength (List.cons_ne_nil c' cs)
                fun c hc => hcs c (List.mem_cons_of_mem _ hc)
              cases raws with
              | nil => exact absurd hlength.symm (Nat.succ_ne_zero _)
              | cons raw' raws => exact agree_cons hread hopen hrest

end Session

/-! ## What comes from cards -/

/-- What a card with the same keys sends for these responses, one to each command. -/
def Card.answers (keys : SessionKeys) : Counter → List Response → List Bytes
  | _, [] => []
  | counter, r :: rs =>
    ((⟨keys, counter.next⟩ : Card).respond r).1.toBytes :: answers keys (counter.after 2) rs

theorem Card.length_answers (keys : SessionKeys) (counter : Counter) (rs : List Response) :
    (answers keys counter rs).length = rs.length := by
  induction rs generalizing counter with
  | nil => rfl
  | cons r rs ih => exact congrArg (· + 1) (ih _)

theorem Card.statusLength_le_of_mem_answers {keys : SessionKeys} {counter : Counter}
    {rs : List Response} : ∀ raw ∈ answers keys counter rs, Response.statusLength ≤ raw.length := by
  induction rs generalizing counter with
  | nil => exact fun raw hraw => nomatch hraw
  | cons r rs ih =>
    exact List.forall_mem_cons.mpr ⟨(Response.ofBytes_eq_ok.mp (Response.ofBytes_append _ _)).1, ih⟩

theorem Response.ofBytes_bare {raw : Bytes} (h : raw.length = statusLength) :
    ofBytes raw = .ok ⟨[], UInt16.ofNat raw.toNat⟩ := by
  rw [ofBytes, h]
  rfl

namespace Session

theorem decipher_bare (keys : SessionKeys) (counter : Counter) (status : UInt16) :
    (start keys counter.next).decipher ⟨[], status⟩
      = (.error .notEncrypted, start keys (counter.after 2)) := by
  rw [← Counter.next_next]
  rfl

/-- A status without protection ends it after one command, and the keys stay. -/
theorem converse_bare (keys : SessionKeys) (counter : Counter) {c : Command} {raw : Bytes}
    (hc : c.Protectable) (hraw : raw.length = Response.statusLength)
    (rest : List (Command × Bytes)) :
    (start keys counter).converse ((c, raw) :: rest)
      = ⟨[protectedForm keys counter.next c], .error .notEncrypted,
        start keys (counter.after 2)⟩ :=
  converse_error (Link.encipher_start (protect_of_protectable hc keys counter.next))
    (Response.ofBytes_bare hraw) (decipher_bare keys counter _) rest

/-- With a card that answers every command all responses are opened. -/
theorem converse_answers (keys : SessionKeys) (counter : Counter) {cs : List Command}
    {rs : List Response} (hlength : rs.length = cs.length) (hcs : ∀ c ∈ cs, c.Protectable)
    (hrs : ∀ r ∈ rs, r.data.length < 2 ^ 31) :
    (start keys counter).converse (cs.zip (Card.answers keys counter rs))
      = ⟨protectedForms keys counter cs, .ok rs, start keys (counter.after (2 * cs.length))⟩ := by
  induction cs generalizing counter rs with
  | nil =>
    cases List.length_eq_zero_iff.mp hlength
    show _ = (⟨[], .ok [], start keys (counter.after 0)⟩ : Conversation)
    rw [Counter.after_zero]
    rfl
  | cons c cs ih =>
    cases rs with
    | nil => exact absurd hlength.symm (Nat.succ_ne_zero _)
    | cons r rs =>
      obtain ⟨hc, hcs⟩ := List.forall_mem_cons.mp hcs
      obtain ⟨hr, hrs⟩ := List.forall_mem_cons.mp hrs
      have hsend := Link.encipher_start (protect_of_protectable hc keys counter.next)
      have hread : Response.ofBytes ((⟨keys, counter.next⟩ : Card).respond r).1.toBytes = .ok _ :=
        Response.ofBytes_append _ _
      rw [Card.answers, List.zip_cons_cons, converse_cons hsend hread (Link.decipher_respond hr),
        Counter.next_next, ih _ (Nat.succ.inj hlength) hcs hrs, Counter.after_after, List.length_cons,
        Nat.mul_succ, Nat.add_comm 2]
      rfl

theorem decipherAll_answers (keys : SessionKeys) (counter : Counter) {cs : List Command}
    {rs : List Response} (hlength : rs.length = cs.length) (hne : cs ≠ [])
    (hcs : ∀ c ∈ cs, c.Protectable) (hrs : ∀ r ∈ rs, r.data.length < 2 ^ 31) :
    (start keys counter.next).decipherAll (Card.answers keys counter rs)
      = (.ok rs, start keys (counter.after (2 * cs.length))) := by
  have hagree := agree_converse keys counter
    ((Card.length_answers keys counter rs).trans hlength) hne hcs
  rw [hagree.same, converse_answers keys counter hlength hcs hrs]

end Session

/-! ## The batch as a whole -/

/-- The batch with what opening its responses has come to. -/
def Batch.record (b : Batch) : Except Error (List Response) → Batch
  | .ok opened => { b with plainResponses := some opened }
  | .error e => { b with failure := some e }

namespace Session

theorem toCard_of_encipherAll {s s' : Session} {b : Batch} {cs ps : List Command}
    (hread : b.readCommands = .ok cs) (h : s.encipherAll cs = (.ok ps, s')) :
    s.toCard b = (s', { b with protectedCommands := some ps }.finish) := by
  rw [toCard, hread]
  dsimp only
  rw [h]

theorem fromCard_of_decipherAll {s s' : Session} {b : Batch} {raws : List Bytes}
    {outcome : Except Error (List Response)} (hraws : b.responses = some raws)
    (h : s.decipherAll raws = (outcome, s')) : s.fromCard b = (s', (b.record outcome).finish) := by
  obtain ⟨commands, protectedCommands, responses, plainResponses, failure, phase, finished⟩ := b
  cases hraws
  rw [fromCard]
  dsimp only
  rw [h]
  cases outcome <;> rfl

theorem setResponses_of_status {b : Batch} {raws : List Bytes}
    (h : ∀ raw ∈ raws, Response.statusLength ≤ raw.length) :
    b.setResponses raws = .ok { b with responses := some raws } := by
  have hnone : (raws.find? fun raw => raw.length < Response.statusLength) = none := by
    rw [List.find?_eq_none]
    intro raw hraw hshort
    exact absurd (h raw hraw) (Nat.not_le_of_lt (of_decide_eq_true hshort))
  rw [Batch.setResponses, hnone]

/-- Batches refine the session without them.  The commands of a batch go out in
the forms that the session without batches gives them, as far as that one gets;
the responses come to the same plain ones or to the same first failure, and both
runs end in the same session, with or without its keys.  In between the batch
stands at its first position without a mark, and after complete responses two
positions further for each command. -/
theorem batch_eq_converse (keys : SessionKeys) (counter : Counter) (b : Batch)
    {cs : List Command} (hread : b.readCommands = .ok cs) (hne : cs ≠ [])
    (hcs : ∀ c ∈ cs, c.Protectable) (raws : List Bytes) (hlength : raws.length = cs.length)
    (hraws : ∀ raw ∈ raws, Response.statusLength ≤ raw.length) :
    let talk := (start keys counter).converse (cs.zip raws)
    let forms := protectedForms keys counter cs
    let sent := { b with protectedCommands := some forms }.finish
    let answered := { sent with responses := some raws }
    (start keys counter).toCard b = (start keys (counter.after 1), sent) ∧
      sent.setResponses raws = .ok answered ∧
      (start keys (counter.after 1)).fromCard answered
        = (talk.session, (answered.record talk.outcome).finish) ∧
      talk.sent <+: forms ∧
      ∀ opened, talk.outcome = .ok opened →
        opened.length = cs.length ∧ talk.sent = forms ∧
        talk.session = start keys (counter.after (2 * cs.length)) := by
  intro talk forms sent answered
  have hagree : Agree keys counter cs raws talk := agree_converse keys counter hlength hne hcs
  have hall := encipherAll_of_protectable keys (.start counter) hne hcs
  rw [← Counter.next_eq_after]
  exact ⟨toCard_of_encipherAll hread hall, setResponses_of_status hraws,
    fromCard_of_decipherAll rfl hagree.same, hagree.sent, hagree.complete⟩

/-- A batch of two commands.  If the first is refused without protection, that is recorded, and if
the card answers both, then its responses are. -/
theorem batch_eq_converse_refused :
    let keys : SessionKeys := ⟨⟨Bytes.zeros 16, by decide⟩, ⟨Bytes.zeros 16, by decide⟩, rfl⟩
    let b : Batch := { Batch.empty with commands :=
      [[0x00, 0xA4, 0x02, 0x0C, 0x02, 0x01, 0x01], [0x00, 0xB0, 0x00, 0x00, 0x00]] }
    let cs : List Command := [⟨0x00, 0xA4, 0x02, 0x0C, some [0x01, 0x01], none⟩,
      ⟨0x00, 0xB0, 0x00, 0x00, none, some 256⟩]
    let rs : List Response := [⟨[], Response.success⟩, ⟨[0x3F, 0x00], Response.success⟩]
    let forms := protectedForms keys (.ofNat 0) cs
    let sent := { b with protectedCommands := some forms }.finish
    let refused := { sent with responses := some [[0x6A, 0x82], [0x90, 0x00]] }
    let answered := { sent with responses := some (Card.answers keys (.ofNat 0) rs) }
    b.readCommands = .ok cs ∧
      (start keys (.ofNat 0)).toCard b = (start keys (.ofNat 1), sent) ∧
      (start keys (.ofNat 1)).fromCard refused
        = (start keys (.ofNat 2), { refused with failure := some .notEncrypted }.finish) ∧
      ((start keys (.ofNat 0)).converse (cs.zip [[0x6A, 0x82], [0x90, 0x00]])).sent <+: forms ∧
      (start keys (.ofNat 1)).fromCard answered
        = (start keys (.ofNat 4), { answered with plainResponses := some rs }.finish) ∧
      ((start keys (.ofNat 0)).converse (cs.zip (Card.answers keys (.ofNat 0) rs))).sent
        = forms := by
  intro keys b cs rs forms sent refused answered
  have hread : b.readCommands = .ok cs := rfl
  have hne : cs ≠ [] := List.cons_ne_nil _ _
  have hcs : ∀ c ∈ cs, c.Protectable := by
    intro c hc
    apply Command.protectable_iff.mpr
    revert c
    decide
  have hbare : (start keys (.ofNat 0)).converse (cs.zip [[0x6A, 0x82], [0x90, 0x00]]) = _ :=
    converse_bare keys (.ofNat 0) (List.forall_mem_cons.mp hcs).1 rfl _
  have hanswers : (start keys (.ofNat 0)).converse (cs.zip (Card.answers keys (.ofNat 0) rs)) = _ :=
    converse_answers keys (.ofNat 0) rfl hcs (by decide)
  obtain ⟨hcard, -, hrefused, hsent, -⟩ :=
    batch_eq_converse keys (.ofNat 0) b hread hne hcs [[0x6A, 0x82], [0x90, 0x00]] rfl (by decide)
  obtain ⟨-, -, hanswered, -, hcomplete⟩ :=
    batch_eq_converse keys (.ofNat 0) b hread hne hcs _ (Card.length_answers keys (.ofNat 0) rs)
      Card.statusLength_le_of_mem_answers
  obtain ⟨-, hforms, -⟩ := hcomplete rs (by rw [hanswers])
  rw [hbare] at hrefused
  rw [hanswers] at hanswered
  exact ⟨hread, hcard, hrefused, hsent, hanswered, hforms⟩

end Session
end Messaging
end CardAccess

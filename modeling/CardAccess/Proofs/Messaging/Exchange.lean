import CardAccess.Proofs.Messaging.Counter
import CardAccess.Proofs.Messaging.Protection

/-!
# Host and card in a run of exchanges

A `Link` is both ends of a session.  An exchange takes a command through the host,
its bytes and the card, and the answer of the card back to the host.  Whatever is
exchanged, the link that comes out is a link that was just started, two positions
of the counter later; so exchanges can follow each other without end, across the
last position of the counter as well.
-/

namespace CardAccess
namespace Messaging

/-- A command and the answer of the card to it. -/
structure Exchange where
  command : Command
  answer : Response
  deriving DecidableEq, Repr

/-- An exchange that both ends can carry out: the command is plain, some session
protects it, and the answer leaves room for its padding in a length field. -/
structure Exchange.Admissible (e : Exchange) : Prop where
  plain : e.command.Plain
  fits : e.command.Protectable
  length : e.answer.data.length < 2 ^ 31

/-- Both ends of a session. -/
structure Link where
  host : Session
  card : Card
  deriving DecidableEq, Repr

namespace Link

/-- Both ends with the same keys at the same position of the counter. -/
def start (keys : SessionKeys) (counter : Counter) : Link :=
  ⟨.start keys counter, ⟨keys, counter⟩⟩

/-- Carry out an exchange.  The result is the command as the card reads it from
the bytes of the protected one, and the answer as the host opens it. -/
def exchange (l : Link) (e : Exchange) : Except Error Exchange × Link :=
  match l.host.encipher e.command with
  | (.error err, host) => (.error err, ⟨host, l.card⟩)
  | (.ok sent, host) =>
    match sent.toBytes >>= Command.ofBytes with
    | .error err => (.error err, ⟨host, l.card⟩)
    | .ok arrived =>
      match l.card.receive arrived with
      | (.error err, card) => (.error err, ⟨host, card⟩)
      | (.ok command, card) =>
        let (answer, card) := card.respond e.answer
        match host.decipher answer with
        | (.error err, host) => (.error err, ⟨host, card⟩)
        | (.ok answer, host) => (.ok ⟨command, answer⟩, ⟨host, card⟩)

/-- Carry out exchanges one after the other, until one fails. -/
def run (l : Link) : List Exchange → Except Error (List Exchange) × Link
  | [] => (.ok [], l)
  | e :: es =>
    match l.exchange e with
    | (.error err, l) => (.error err, l)
    | (.ok done, l) =>
      match run l es with
      | (.error err, l) => (.error err, l)
      | (.ok others, l) => (.ok (done :: others), l)

/-! ## One exchange -/

theorem encipher_start {keys : SessionKeys} {counter : Counter} {c p : Command}
    (h : protect keys counter.next c = .ok p) :
    (Session.start keys counter).encipher c = (.ok p, .start keys counter.next) :=
  Prod.ext h rfl

theorem receive_protect {keys : SessionKeys} {counter : Counter} {c p : Command} (hc : c.Plain)
    (h : protect keys counter.next c = .ok p) :
    (⟨keys, counter⟩ : Card).receive p = (.ok c, ⟨keys, counter.next⟩) :=
  Prod.ext (unprotect_protect hc h) rfl

theorem decipher_respond {keys : SessionKeys} {counter : Counter} {r : Response}
    (h : r.data.length < 2 ^ 31) :
    (Session.start keys counter).decipher ((⟨keys, counter⟩ : Card).respond r).1
      = (.ok r, .start keys counter.next) := by
  have hread : ResponseObjects.ofResponse ((⟨keys, counter⟩ : Card).respond r).1 = _ :=
    ofResponse_respond h
  rw [Session.decipher_of_verified hread verify_readObjects, response_readObjects]

/-- Both ends hand over what was put in, and stand two positions later. -/
theorem exchange_start (keys : SessionKeys) (counter : Counter) {e : Exchange}
    (h : e.Admissible) :
    (start keys counter).exchange e = (.ok e, start keys (counter.after 2)) := by
  have hprotect := protect_of_protectable h.fits keys counter.next
  obtain ⟨bytes, hwritten, hread⟩ := ofBytes_toBytes_protect hprotect
  have hhost : (start keys counter).host.encipher e.command = _ := encipher_start hprotect
  have hcard : (start keys counter).card.receive _ = _ := receive_protect h.plain hprotect
  have hanswer : (Session.start keys counter.next).decipher _ = _ := decipher_respond h.length
  rw [exchange, hhost]
  dsimp only
  rw [bind_of_ok hwritten, hread]
  dsimp only
  rw [hcard]
  dsimp only
  rw [hanswer]
  show (Except.ok e, start keys counter.next.next) = _
  rw [Counter.next_next]

/-! ## Runs -/

theorem run_cons {l l' : Link} {e done : Exchange} (h : l.exchange e = (.ok done, l'))
    (es : List Exchange) :
    l.run (e :: es) = (match l'.run es with
      | (.error err, l'') => (.error err, l'')
      | (.ok others, l'') => (.ok (done :: others), l'')) := by
  rw [run, h]

/-- In a run of any length, from any position of the counter, the card recovers
each command and the host each answer, and both counters end twice as many
positions later as there were exchanges, modulo `2 ^ 128`. -/
theorem run_start (keys : SessionKeys) (counter : Counter) (es : List Exchange)
    (h : ∀ e ∈ es, e.Admissible) :
    (start keys counter).run es = (.ok es, start keys (counter.after (2 * es.length))) := by
  induction es generalizing counter with
  | nil => rw [List.length_nil, Nat.mul_zero, Counter.after_zero, run]
  | cons e es ih =>
    have hfirst := exchange_start keys counter (h e List.mem_cons_self)
    have hrest := ih (counter.after 2) fun e he => h e (List.mem_cons_of_mem _ he)
    rw [run_cons hfirst, hrest, Counter.after_after, List.length_cons, Nat.mul_succ,
      Nat.add_comm 2]

/-- Two exchanges across the last position of the counter. -/
theorem run_start_wraps :
    let keys : SessionKeys := ⟨⟨Bytes.zeros 16, by decide⟩, ⟨Bytes.zeros 16, by decide⟩, rfl⟩
    let es : List Exchange := [⟨⟨0x00, 0xA4, 0x02, 0x0C, some [0x01, 0x01], none⟩, ⟨[], 0x9000⟩⟩,
      ⟨⟨0x00, 0xB1, 0x00, 0x00, some [0x54, 0x00], some 65536⟩, ⟨[0x53, 0x01, 0x2A], 0x6282⟩⟩]
    (∀ e ∈ es, e.Admissible) ∧
      (start keys (.ofNat (2 ^ 128 - 1))).run es = (.ok es, start keys (.ofNat 3)) := by
  intro keys es
  have hadmissible : ∀ e ∈ es, e.Admissible := by
    intro e he
    rcases List.mem_cons.mp he with rfl | he
    · exact ⟨⟨by decide, by decide, by simp⟩, Command.protectable_iff.mpr (by decide), by decide⟩
    · rw [List.mem_singleton.mp he]
      exact ⟨⟨by decide, by decide, by simp; decide⟩, Command.protectable_iff.mpr (by decide),
        by decide⟩
  have hend : (Counter.ofNat (2 ^ 128 - 1)).after (2 * es.length) = .ofNat 3 := by decide +kernel
  rw [← hend]
  exact ⟨hadmissible, run_start keys (.ofNat (2 ^ 128 - 1)) es hadmissible⟩

end Link
end Messaging
end CardAccess

import CardAccess.Proofs.Key.Public
import CardAccess.Proofs.Request.Signing
import CardAccess.Proofs.Signature.Ecdsa

/-!
# How far signing has come

The state of a request is told by which signatures are there.  `Standing` keeps
account, over a run of calls, of what those signatures are worth: whether the body has
been signed, and with which key the wrapper was signed last, unless the body has been
signed again since, which changes what the wrapper encloses and leaves its signature
where it is.  `standing_perform` says that the request is always as the account says;
`stale_outer_signature` is a run that ends with a signature of the wrapper that does
not verify.
-/

namespace CardAccess
namespace Request

open KeyService (Dialogue)

/-! ## Runs -/

/-- A call that takes part in signing.  Of the key for the wrapper only the identifier
is handed over; the signature is to verify under the key. -/
inductive SigningCall where
  | nameSigner (reference : String)
  | signBody (key : VerificationKey) (keyAlias : String)
  | signWrapper (keyAlias : Option String) (key : VerificationKey)
  deriving DecidableEq, Repr

/-- What the call does to a request. -/
def SigningCall.dialogue (r : Request) : SigningCall → Dialogue (Except Error Unit × Request)
  | .nameSigner reference => .done (r.setOuterAuthorityReference reference)
  | .signBody key keyAlias => r.signInner key keyAlias
  | .signWrapper keyAlias key => r.signOuter keyAlias key.id

/-- Where a run stands: the calls that have succeeded, the request and the state of the
key service. -/
structure SigningRun (σ : Type) where
  done : List SigningCall
  request : Request
  state : σ

variable {σ : Type}

/-- Make one call. -/
def SigningRun.step (service : KeyService σ) (run : SigningRun σ) (call : SigningCall) :
    SigningRun σ :=
  match (call.dialogue run.request).run service run.state with
  | ((.ok (), r), s) => ⟨run.done ++ [call], r, s⟩
  | ((.error _, r), s) => ⟨run.done, r, s⟩

/-- Make several calls, one after the other. -/
def perform (service : KeyService σ) (calls : List SigningCall) (run : SigningRun σ) :
    SigningRun σ :=
  calls.foldl (SigningRun.step service) run

/-- Signatures that the service makes in the state `s` under an alias verify under the
key. -/
def Vouches (service : KeyService σ) (s : σ) (keyAlias : String) (key : VerificationKey) : Prop :=
  ∀ data signature, (service.answer (.sign keyAlias key.id data) s).1 = .ok signature →
    key.verify data signature = .ok ()

/-- The public key of a call fits the private one that the service signs with. -/
def SigningCall.Honest (service : KeyService σ) (s : σ) : SigningCall → Prop
  | .nameSigner _ => True
  | .signBody key keyAlias => key.Valid ∧ Vouches service s keyAlias key
  | .signWrapper keyAlias key => ∀ signer, keyAlias = some signer → Vouches service s signer key

/-- Every call of a run is honest when it is made. -/
def Honest (service : KeyService σ) : List SigningCall → SigningRun σ → Prop
  | [], _ => True
  | call :: calls, run => call.Honest service run.state ∧ Honest service calls (run.step service call)

/-! ## The account -/

/-- What the signature of the wrapper is worth. -/
inductive WrapperStanding where
  | unsigned
  | signed (key : VerificationKey)
  | stale

/-- What it is worth once the body has changed. -/
def WrapperStanding.outdated : WrapperStanding → WrapperStanding
  | .unsigned => .unsigned
  | .signed _ | .stale => .stale

/-- What the signatures of a request are worth. -/
structure Standing where
  body : Bool
  wrapper : WrapperStanding

namespace Standing

/-- Nothing is signed. -/
def blank : Standing := ⟨false, .unsigned⟩

/-- The account after a call that succeeded. -/
def after (standing : Standing) : SigningCall → Standing
  | .nameSigner _ => { standing with wrapper := .unsigned }
  | .signBody _ _ => ⟨true, standing.wrapper.outdated⟩
  | .signWrapper _ key => { standing with wrapper := .signed key }

/-- The account after several calls that succeeded. -/
def afterAll (calls : List SigningCall) : Standing := calls.foldl after blank

/-- The state that the request reports. -/
def state (standing : Standing) : SigningState :=
  match standing.wrapper with
  | .unsigned => if standing.body then .innerSigned else .unsigned
  | .signed _ | .stale => .outerSigned

end Standing

/-- The signature in the wrapper is worth what the account says. -/
def WrapperHolds (r : Request) : WrapperStanding → Prop
  | .unsigned => r.outerSignatures = []
  | .signed key => ∃ signature, r.outerSignatures = [.primitive Layout.signature signature] ∧
      key.verify (Tlv.encodeAll r.enclosed) signature = .ok ()
  | .stale => ∃ signature, r.outerSignatures = [.primitive Layout.signature signature]

/-- The request is as the account says. -/
structure Holds (r : Request) (standing : Standing) : Prop where
  shape : r.shape = .authentication
  root : r.node.tag = Layout.authentication
  body : if standing.body then r.verifyInner = .ok () else r.part? .signature = none
  wrapper : r.WrapperHolds standing.wrapper

theorem WrapperHolds.few {r : Request} {wrapper : WrapperStanding} (h : r.WrapperHolds wrapper) :
    r.outerSignatures.length ≤ 1 := by
  cases wrapper with
  | unsigned => exact Nat.le_trans (Nat.le_of_eq (congrArg List.length h)) (Nat.zero_le 1)
  | signed key =>
    obtain ⟨signature, hone, -⟩ := h
    exact Nat.le_of_eq (congrArg List.length hone)
  | stale =>
    obtain ⟨signature, hone⟩ := h
    exact Nat.le_of_eq (congrArg List.length hone)

theorem WrapperHolds.outdated {r r' : Request} {wrapper : WrapperStanding}
    (h : r.WrapperHolds wrapper) (hkept : r'.outerSignatures = r.outerSignatures) :
    r'.WrapperHolds wrapper.outdated := by
  cases wrapper with
  | unsigned => exact hkept.trans h
  | signed key =>
    obtain ⟨signature, hone, -⟩ := h
    exact ⟨signature, hkept.trans hone⟩
  | stale =>
    obtain ⟨signature, hone⟩ := h
    exact ⟨signature, hkept.trans hone⟩

/-! ## One call -/

variable {service : KeyService σ} {s s' : σ} {r r' : Request} {standing : Standing}

/-- The account of the body is carried over by a call that spares what the check of the
inner signature looks at. -/
theorem Holds.body_of_eq (h : r.Holds standing)
    (hkey : r'.part? .publicKey = r.part? .publicKey)
    (hbody : r'.part? .certificateBody = r.part? .certificateBody)
    (hsignature : r'.part? .signature = r.part? .signature) :
    if standing.body then r'.verifyInner = .ok () else r'.part? .signature = none := by
  rw [verifyInner_congr hkey hbody hsignature, hsignature]
  exact h.body

theorem Holds.nameSigner (h : r.Holds standing) {reference : String}
    (hrun : r.setOuterAuthorityReference reference = (.ok (), r')) :
    r'.Holds (standing.after (.nameSigner reference)) := by
  obtain ⟨-, removed, staged, hremoved, hput⟩ := setOuterAuthorityReference_eq_ok.mp hrun
  have hstaged := editedAt_removePart hremoved
  have hnamed := editedAt_putPart rfl rfl hput
  have hspared {part : RequestPart} (hreference : RequestPart.outerCaReference.spares part = true)
      (hsignature : RequestPart.outerSignature.spares part = true) :
      r'.part? part = r.part? part := by
    rw [hnamed.part?_eq hreference, hstaged.part?_eq hsignature]
  refine ⟨?_, ?_, h.body_of_eq (hspared rfl rfl) (hspared rfl rfl) (hspared rfl rfl), ?_⟩
  · rw [hnamed.shape, hstaged.shape, h.shape]
  · rw [hnamed.node.tag_eq, hstaged.node.tag_eq, h.root]
  · have hkept : r'.outerSignatures = staged.outerSignatures :=
      hnamed.outerSignatures_eq (by decide)
    show r'.outerSignatures = []
    rw [hkept, outerSignatures, children_removePart_outerSignature h.wrapper.few hremoved]
    exact r.filter_enclosed.1

theorem Holds.signBody (h : r.Holds standing) {key : VerificationKey} {keyAlias : String}
    (hhonest : (SigningCall.signBody key keyAlias).Honest service s)
    (hrun : (r.signInner key keyAlias).run service s = ((.ok (), r'), s')) :
    r'.Holds (standing.after (.signBody key keyAlias)) := by
  obtain ⟨hvalid, hvouches⟩ := hhonest
  rcases run_signInner hrun with ⟨⟨e, he⟩, -⟩ | ⟨-, algorithm, body, signature, halgorithm, hanswer,
    hsigned⟩
  · cases he
  -- the service is asked under the identifier of the algorithm, which is that of the key
  have hid := SignatureAlgorithm.ofObjectId_eq_ok.mp halgorithm
  have hverified : r'.verifyInner = .ok () := by
    have hread : ObjectId.ofBytes key.id.content = .ok key.id := by
      rw [hid]
      exact SignatureAlgorithm.ofBytes_objectId algorithm
    rw [hsigned.verifyInner (VerificationKey.ofTlv_toTlv hvalid hread none) halgorithm]
    rw [← hid] at hanswer
    exact hvouches _ _ (congrArg Prod.fst hanswer)
  -- the edits lie inside the certificate, so an outer signature stays, good or not
  obtain ⟨staged, hstaged, hedited⟩ := hsigned.edits
  have hkept : r'.outerSignatures = r.outerSignatures :=
    (hedited.outerSignatures_eq (by decide)).trans (hstaged.outerSignatures_eq (by decide))
  refine ⟨?_, ?_, hverified, h.wrapper.outdated hkept⟩
  · rw [hedited.shape, hstaged.shape, h.shape]
  · rw [hedited.node.tag_eq, hstaged.node.tag_eq, h.root]

theorem Holds.signWrapper (h : r.Holds standing) {keyAlias : Option String} {key : VerificationKey}
    (hhonest : (SigningCall.signWrapper keyAlias key).Honest service s)
    (hrun : (r.signOuter keyAlias key.id).run service s = ((.ok (), r'), s')) :
    r'.Holds (standing.after (.signWrapper keyAlias key)) := by
  rcases run_signOuter hrun with ⟨⟨e, he⟩, -⟩ | ⟨-, signer, staged, signature, hsigner, -, hanswer,
    hsigned⟩
  · cases he
  obtain ⟨hdata, hone, henclosed⟩ := hsigned.of_few h.wrapper.few
  refine ⟨?_, ?_, h.body_of_eq (hsigned.part?_eq rfl) (hsigned.part?_eq rfl)
    (hsigned.part?_eq rfl), signature, hone, ?_⟩
  · rw [hsigned.edits.2.shape, hsigned.edits.1.shape, h.shape]
  · rw [hsigned.edits.2.node.tag_eq, hsigned.edits.1.node.tag_eq, h.root]
  · rw [henclosed, ← hdata]
    exact hhonest signer hsigner _ _ (congrArg Prod.fst hanswer)

/-- A call that fails leaves the request as it was. -/
theorem SigningCall.request_of_error {call : SigningCall} {e : Error}
    (h : (call.dialogue r).run service s = ((.error e, r'), s')) : r' = r := by
  cases call with
  | nameSigner reference => exact setOuterAuthorityReference_error (congrArg Prod.fst h)
  | signBody key keyAlias =>
    rcases run_signInner h with ⟨-, hsame⟩ | ⟨hok, -⟩
    · exact hsame
    · cases hok
  | signWrapper keyAlias key =>
    rcases run_signOuter h with ⟨-, hsame⟩ | ⟨hok, -⟩
    · exact hsame
    · cases hok

/-- What one call preserves. -/
theorem holds_step {run : SigningRun σ} (h : run.request.Holds (.afterAll run.done))
    {call : SigningCall} (hhonest : call.Honest service run.state) :
    (run.step service call).request.Holds (.afterAll (run.step service call).done) := by
  rw [SigningRun.step]
  have hdone : Standing.afterAll (run.done ++ [call]) = (Standing.afterAll run.done).after call := by
    rw [Standing.afterAll, List.foldl_append]
    rfl
  split
  · next r s hrun =>
    dsimp only
    rw [hdone]
    cases call with
    | nameSigner reference => exact h.nameSigner (congrArg Prod.fst hrun)
    | signBody key keyAlias => exact h.signBody hhonest hrun
    | signWrapper keyAlias key => exact h.signWrapper hhonest hrun
  · next e r s hrun =>
    dsimp only
    rw [SigningCall.request_of_error hrun]
    exact h

/-! ## Whole runs -/

theorem holds_perform {calls : List SigningCall} {run : SigningRun σ}
    (h : run.request.Holds (.afterAll run.done)) (hhonest : Honest service calls run) :
    (perform service calls run).request.Holds (.afterAll (perform service calls run).done) := by
  induction calls generalizing run with
  | nil => exact h
  | cons call calls ih => exact ih (holds_step h hhonest.1) hhonest.2

theorem Holds.verifyInner_iff (h : r.Holds standing) :
    r.verifyInner = .ok () ↔ standing.body = true := by
  have hbody := h.body
  constructor
  · intro hverified
    -- the check wants an inner signature, and an unsigned body has none
    by_contra hunsigned
    rw [if_neg hunsigned] at hbody
    have hsome := (part?_of_verifyInner hverified).2.2
    rw [hbody] at hsome
    cases hsome
  · intro hsigned
    rwa [if_pos hsigned] at hbody

theorem Holds.isSome_signature (h : r.Holds standing) :
    (r.part? .signature).isSome = standing.body := by
  cases hbody : standing.body with
  | true => exact (part?_of_verifyInner (h.verifyInner_iff.mpr hbody)).2.2
  | false =>
    have hnone := h.body
    rw [hbody] at hnone
    exact congrArg Option.isSome hnone

theorem Holds.state_eq (h : r.Holds standing) : r.state = standing.state := by
  have hwrapper := h.wrapper
  rw [Request.state, part?_outerSignature h.root, h.isSome_signature, Standing.state]
  cases hstanding : standing.wrapper with
  | unsigned =>
    rw [hstanding] at hwrapper
    have hnone : r.outerSignatures = [] := hwrapper
    rw [hnone]
    rfl
  | signed key =>
    rw [hstanding] at hwrapper
    obtain ⟨signature, hone, -⟩ := hwrapper
    rw [hone]
    rfl
  | stale =>
    rw [hstanding] at hwrapper
    obtain ⟨signature, hone⟩ := hwrapper
    rw [hone]
    rfl

theorem Holds.verifyOuter (h : r.Holds standing) {key : VerificationKey}
    (hkey : standing.wrapper = .signed key) : r.verifyOuter key = .ok () := by
  have hwrapper := h.wrapper
  rw [hkey] at hwrapper
  obtain ⟨signature, hone, hverified⟩ := hwrapper
  rw [verifyOuter_eq h.shape h.root hone, hverified]

theorem holds_blank (hshape : r.shape = .authentication) (hroot : r.node.tag = Layout.authentication)
    (hstate : r.state = .unsigned) : r.Holds .blank := by
  rw [Request.state] at hstate
  split at hstate
  · cases hstate
  next houter =>
  split at hstate
  · cases hstate
  next hinner =>
  refine ⟨hshape, hroot, Option.not_isSome_iff_eq_none.mp hinner, ?_⟩
  rw [part?_outerSignature hroot] at houter
  exact List.head?_eq_none_iff.mp (Option.not_isSome_iff_eq_none.mp houter)

/-! ## A signer on the small curve -/

/-- A service that signs on the small curve, with the nonces of its state one after the
other. -/
def smallSigner : KeyService (List Bytes) where
  answer
    | .sign _ _ data, nonces =>
      ((Ecdsa.signFrom Domain.small 1 (Ecdsa.messageScalar Domain.small .sha1 data)
        (fun nonces => (nonces.headD [], nonces.tail)) 1 nonces).mapError .crypto, nonces.tail)
    | .generateKeyPair _, nonces => (.error (.unsupported "generate"), nonces)
    | .containsKey _, nonces => (.error (.unsupported "contains"), nonces)
    | .publicKey _, nonces => (.error (.unsupported "public key"), nonces)
    | .importPrivateKey _ _ _, nonces => (.error (.unsupported "import"), nonces)
    | .deleteKey _, nonces => (.error (.unsupported "delete"), nonces)

theorem vouches_smallSigner (nonces : List Bytes) (keyAlias : String) :
    Vouches smallSigner nonces keyAlias .small := by
  intro data signature hanswer
  have hpoint : (1 : Nat) • Domain.base Domain.obtained_small.sound
      = Domain.element Domain.obtained_small.sound Domain.small.generator
        Domain.obtained_small.sound.contains_generator := one_nsmul _
  have hsigns := Ecdsa.signs_signFrom Domain.obtained_small.sound .sha1
    Domain.obtained_small.sound.contains_generator hpoint data
    (fun nonces : List Bytes => (nonces.headD [], nonces.tail)) 1 nonces
  change (Ecdsa.signFrom Domain.small 1 (Ecdsa.messageScalar Domain.small .sha1 data)
    (fun nonces => (nonces.headD [], nonces.tail)) 1 nonces).mapError KeyServiceError.crypto = _
    at hanswer
  cases hsigned : Ecdsa.signFrom Domain.small 1 (Ecdsa.messageScalar Domain.small .sha1 data)
      (fun nonces : List Bytes => (nonces.headD [], nonces.tail)) 1 nonces with
  | error e =>
    rw [hsigned] at hanswer
    cases hanswer
  | ok made =>
    rw [hsigned] at hanswer hsigns
    cases hanswer
    exact hsigns.2.2.2

/-- A request with an empty body. -/
def emptyRequest : Request :=
  ⟨wrap (.constructed Layout.cvCertificate [.constructed Layout.certificateBody []]),
    .authentication⟩

/-- The calls that sign a request in full, the body first. -/
def bodyThenWrapper : List SigningCall :=
  [.nameSigner "A", .signBody .small "A", .signWrapper (some "A") .small]

/-- Such a run at its start, with three nonces, the last of which differs from the
others. -/
def freshRun : SigningRun (List Bytes) := ⟨[], emptyRequest, [[8], [8], [16]]⟩

theorem honest_smallSigner {calls : List SigningCall}
    (h : ∀ call ∈ calls, call = .nameSigner "A" ∨ call = .signBody .small "A" ∨
      call = .signWrapper (some "A") .small) (run : SigningRun (List Bytes)) :
    Honest smallSigner calls run := by
  induction calls generalizing run with
  | nil => trivial
  | cons call calls ih =>
    refine ⟨?_, ih (fun call hmem => h call (.tail _ hmem)) _⟩
    rcases h call (.head _) with rfl | rfl | rfl
    · trivial
    · exact ⟨VerificationKey.valid_small, vouches_smallSigner _ _⟩
    · exact fun signer _ => vouches_smallSigner _ _

/-- Over any run of calls on a wrapped request without signatures, some of which may
fail, the state of the request is as the calls that succeeded tell: the inner signature
verifies exactly if the body has been signed, and the outer one verifies with the key of
the last signature of the wrapper if the body has not been signed since. -/
theorem standing_perform (service : KeyService σ) {r : Request} (s : σ) {calls : List SigningCall}
    (hshape : r.shape = .authentication) (hroot : r.node.tag = Layout.authentication)
    (hstate : r.state = .unsigned) (hhonest : Honest service calls ⟨[], r, s⟩) :
    let run := perform service calls ⟨[], r, s⟩
    let standing := Standing.afterAll run.done
    run.request.state = standing.state ∧
      (run.request.verifyInner = .ok () ↔ standing.body = true) ∧
      ∀ key, standing.wrapper = .signed key → run.request.verifyOuter key = .ok () := by
  have hblank : r.Holds (.afterAll []) := holds_blank hshape hroot hstate
  have h := holds_perform hblank hhonest
  exact ⟨h.state_eq, h.verifyInner_iff, fun key hkey => h.verifyOuter hkey⟩

theorem standing_perform_bodyThenWrapper :
    let run := perform smallSigner bodyThenWrapper freshRun
    run.request.state = .outerSigned ∧ run.request.verifyInner = .ok () ∧
      run.request.verifyOuter .small = .ok () := by
  have hhonest : Honest smallSigner bodyThenWrapper ⟨[], emptyRequest, freshRun.state⟩ :=
    honest_smallSigner (by decide) freshRun
  have hdone : (perform smallSigner bodyThenWrapper ⟨[], emptyRequest, freshRun.state⟩).done
      = bodyThenWrapper := by decide +kernel
  obtain ⟨hstate, hinner, houter⟩ :=
    standing_perform smallSigner freshRun.state rfl rfl (by decide) hhonest
  rw [hdone] at hstate hinner houter
  exact ⟨hstate, hinner.mpr rfl, houter .small rfl⟩

/-- The body is signed once more behind the wrapper: every signature that is made
verifies under the one key in use, the request counts as signed in full, and the
signature of the wrapper does not verify. -/
theorem stale_outer_signature :
    let calls := bodyThenWrapper ++ [.signBody .small "A"]
    let run := perform smallSigner calls freshRun
    (freshRun.request.shape = .authentication ∧ freshRun.request.state = .unsigned ∧
      Honest smallSigner calls freshRun) ∧
    run.done = calls ∧ run.request.state = .outerSigned ∧
      run.request.verifyOuter .small = .error .invalidSignature := by
  refine ⟨⟨rfl, by decide, honest_smallSigner (by decide) freshRun⟩, ?_⟩
  decide +kernel

end Request
end CardAccess

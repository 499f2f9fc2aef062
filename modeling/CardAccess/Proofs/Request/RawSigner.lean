import CardAccess.Proofs.KeyService.Store
import CardAccess.Proofs.Request.Generation
import CardAccess.Proofs.Request.Wrapping

/-!
# Signing the wrapper with a raw key

A raw private key that is given with a request signer, or with the certificate to renew, signs
the wrapper in memory.  The template has no outer signatures, so the one that is made is the one
that is checked; and the record of the caller's key service ends with the signature of the body,
before which it has only been asked for the new key.
-/

namespace CardAccess
namespace Generation

open KeyService (Procedure Call Provides)

variable {input : GenerationInput}

/-- The raw key that the wrapper is signed with: that of the request signer, or else that of the
certificate to renew. -/
def rawKey (input : GenerationInput) : Option PrivateKey :=
  match input.signerAlias, input.old with
  | some _, _ => input.signerKey
  | none, some _ => input.oldKey
  | none, none => none

theorem SignsWrapper.rawKey_eq {signer : String} {key : Option PrivateKey} {id : ObjectId}
    (h : SignsWrapper input signer key id) : rawKey input = key := by
  rw [rawKey.eq_def]
  cases h with
  | requestSigner h => rw [h]
  | holder hnone hold => rw [hnone, hold]

theorem isWrapped_of_rawKey {key : PrivateKey} (h : rawKey input = some key) :
    isWrapped input = true := by
  rw [rawKey.eq_def] at h
  rw [isWrapped]
  split at h
  · next hsigner => rw [hsigner]; rfl
  · next hold => rw [hold]; exact Bool.or_true _
  · cases h

/-! ## Outer signatures of the template -/

/-- A certificate in a wrapper of its own has no signature beside it, and no stage of the
preparation puts one there. -/
theorem outerSignatures_prepare (htag : input.root.node.tag = Layout.cvCertificate)
    {old : Option String} {prepared : Request} {reference rootReference : String}
    (h : prepare input old = .ok (prepared, reference, rootReference)) :
    prepared.outerSignatures = [] := by
  obtain ⟨-, template, named, extended, hclean, hset, hextended, hdescribed⟩ := prepare_stages h
  have htemplate : template.outerSignatures = [] := by
    rw [observe_cleanRequest hclean Request.outerSignatures]
    · show [input.root.node].filter (fun c => c.tag == Layout.signature) = []
      rw [Tlv.filter_cons_ne (by rw [htag]; decide)]
      rfl
    · intro removed hmem r r' hedited
      refine hedited.outerSignatures_eq ?_
      simp only [clearedParts, List.mem_cons, List.not_mem_nil, or_false] at hmem
      rcases hmem with rfl | rfl | rfl | rfl | rfl <;> decide
  rw [(editedAt_bindDescription hdescribed).outerSignatures_eq (by decide),
    (editedAt_carryExtensions hextended).outerSignatures_eq (by decide),
    (Request.editedAt_setValue (by decide) hset).outerSignatures_eq (by decide), htemplate]

/-! ## The raw signer -/

/-- A wrapper signed in memory is signed with the raw key, and the signature is that of the
elements that it is checked against. -/
theorem verifyOuter_of_signWrapper {σ : Type} {service : KeyService σ} {s s' : σ} {r r' : Request}
    {signer : String} {key : PrivateKey} {id : ObjectId} [Fact key.domain.p.Prime]
    [Fact key.domain.order.Prime] (hdomain : key.domain.Sound)
    (hfew : r.outerSignatures.length ≤ 2)
    (h : Procedure.Yields service s (signWrapper r signer (some key) id) r' s') :
    s' = s ∧ ∃ publicKey, key.publicKey = .ok publicKey ∧
      r'.verifyOuter (publicKey.withId id) = .ok () := by
  obtain ⟨named, hnamed, ⟨hnone, -⟩ | ⟨raw, store, keys, hraw, hstore, hrun, hsame⟩⟩ :=
    signWrapper_runs h
  · cases hnone
  cases hraw
  refine ⟨hsame, ?_⟩
  obtain ⟨publicKey, hpublic, hput⟩ := KeyStore.importKey_eq_ok.mp hstore
  obtain ⟨-, rfl⟩ := KeyStore.put_eq_ok.mp hput
  rcases Request.run_signOuter hrun with ⟨⟨e, he⟩, -⟩ | ⟨-, _, staged, signature, hsigner, -,
    hanswer, hwrapper⟩
  · cases he
  cases hsigner
  have hsigned : (KeyStore.empty.insert signer ⟨key, publicKey, none, none⟩).sign signer id
      staged.outerSignedData = .ok signature := congrArg Prod.fst hanswer
  obtain ⟨algorithm, stored, halgorithm, hstored, hsignature⟩ := KeyStore.sign_eq_ok.mp hsigned
  rw [KeyStore.find?_insert, if_pos rfl] at hstored
  cases hstored
  refine ⟨publicKey, hpublic, ?_⟩
  rw [(Request.signedAnew_of_wrapperSigned hnamed hwrapper).verifyOuter_of_few hfew,
    VerificationKey.verify, PublicKey.withId, VerificationKey.algorithm, bind_of_ok halgorithm]
  exact PrivateKey.verify_of_sign hdomain hpublic hsignature

/-- Whatever the key service does: if the wrapper is to be signed with a raw key, then the outer
signature of the request that is generated verifies with its public key, under the identifier
that belongs to the signer.  All that the key service is asked for is the key of the new
certificate and, in the end, one signature of the body with that. -/
theorem verifyOuter_of_generate {σ : Type} (service : KeyService σ) (s : σ) {bytes : Bytes}
    (hroot : Certificate.ofBytes bytes = .ok input.root) {key : PrivateKey}
    (hraw : rawKey input = some key) (hdomain : key.domain.Obtained) [Fact key.domain.p.Prime]
    [Fact key.domain.order.Prime] {data : GeneratedRequest}
    (h : ((generate input).run.run service s).1 = .ok data) :
    (∃ signer id publicKey, SignsWrapper input signer (some key) id ∧
        key.publicKey = .ok publicKey ∧
        data.request.verifyOuter (publicKey.withId id) = .ok ()) ∧
      ∃ reference algorithm body provided, IsReference input reference ∧
        data.request.part? .certificateBody = some body ∧
        (generate input).run.calls service s
          = provided ++ [.sign reference (SignatureAlgorithm.objectId algorithm) body.encode] ∧
        ∀ call ∈ provided, Provides reference call := by
  obtain ⟨-, htag⟩ := wellFormed_of_ofBytes hroot
  have hyields : Procedure.Yields service s (generate input) data
      ((generate input).run.run service s).2 := Prod.ext h rfl
  -- with the calls recorded, the last state tells them
  obtain ⟨old, prepared, reference, rootReference, provisioned, signed, ⟨s₁, record₁⟩,
    ⟨s₂, record₂⟩, hold, hprepare, hprovided, hsigned, -, hfinish⟩ :=
    generate_stages (Procedure.yields_recorded hyields)
  have hrecord₁ : record₁ = (KeyService.provide input.root (some rootReference) reference
      (disposition input)).run.calls service s := by
    have hrun := hprovided
    rw [Procedure.Yields, KeyService.Dialogue.run_recorded] at hrun
    exact (congrArg (fun result => result.2.2) hrun).symm
  obtain ⟨hrun, -⟩ := signBody_runs hsigned
  rcases Request.run_signInner hrun with ⟨⟨e, he⟩, -⟩ | ⟨-, algorithm, body, signature, -, hanswer,
    hbody⟩
  · cases he
  have hrecord₂ : record₂ = record₁ ++ [.sign reference algorithm.objectId body.encode] :=
    (congrArg (fun result => result.2.2) hanswer).symm
  have hunsigned : signed.outerSignatures.length ≤ 2 := by
    obtain ⟨staged, hstaged, hedited⟩ := hbody.edits
    rw [hedited.outerSignatures_eq (by decide), hstaged.outerSignatures_eq (by decide),
      outerSignatures_prepare htag hprepare]
    exact Nat.zero_le 2
  rcases finish_cases hold hfinish with ⟨-, signer, given, id, hsigner, hwrapped⟩ | ⟨hbare, -⟩
  · cases hsigner.rawKey_eq.symm.trans hraw
    obtain ⟨hstate, publicKey, hpublic, hverified⟩ :=
      verifyOuter_of_signWrapper hdomain.sound hunsigned hwrapped
    refine ⟨⟨signer, id, publicKey, hsigner, hpublic, hverified⟩, reference, algorithm, body,
      record₁, isReference_of_newReference hold (prepare_stages hprepare).1, ?_, ?_, ?_⟩
    · rw [(signWrapper_yields hwrapped).part?_eq _ rfl rfl, hbody.body]
    · rw [← hrecord₂]
      exact congrArg Prod.snd hstate
    · rw [hrecord₁]
      exact KeyService.asks_provide.of_mem_calls
  · rw [isWrapped_of_rawKey hraw] at hbare
    cases hbare

/-- The renewal of a certificate by the holder of its raw private key. -/
def rawRenewal : GenerationInput := { smallRenewal with oldKey := some ⟨Domain.small, [5]⟩ }

theorem verifyOuter_of_generate_renewal : ∃ data publicKey,
    ((generate rawRenewal).run.run (fixedService [3, 2]) ()).1 = .ok data ∧
      PrivateKey.publicKey ⟨Domain.small, [5]⟩ = .ok publicKey ∧
      data.request.verifyOuter (publicKey.withId VerificationKey.small.id) = .ok () := by
  have hroot : Certificate.ofBytes smallCertificate.encode = .ok rawRenewal.root := by
    decide +kernel
  have hok : ((generate rawRenewal).run.run (fixedService [3, 2]) ()).1.toOption.any
      fun _ => true := by
    decide +kernel
  obtain ⟨data, h, -⟩ := exists_ok_of_any hok
  obtain ⟨⟨signer, id, publicKey, hsigner, hpublic, hverified⟩, -⟩ :=
    verifyOuter_of_generate (fixedService [3, 2]) () hroot rfl Domain.obtained_small h
  refine ⟨data, publicKey, h, hpublic, ?_⟩
  have hid : smallCertificate.publicKeyId = .ok VerificationKey.small.id := by decide +kernel
  cases hsigner with
  | holder hnone hold hread hidentifier =>
    cases hold
    cases hid.symm.trans hidentifier
    exact hverified

end Generation
end CardAccess

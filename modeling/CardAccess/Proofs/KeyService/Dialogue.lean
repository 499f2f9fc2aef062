import CardAccess.KeyService.Dialogue
import CardAccess.Proofs.Tlv.Cursor

/-!
# Dialogues that end well

A dialogue in two parts is held by holding one after the other.  `Yields` says that
a procedure succeeds, with what, and which state it leaves the service in; each way
of putting procedures together has one lemma that says when the whole yields.
-/

namespace CardAccess

theorem atStage_eq_ok {α : Type} {stage : Stage} {result : Except Error α} {a : α} :
    atStage stage result = .ok a ↔ result = .ok a :=
  mapError_eq_ok

/-- A test on what comes out of a success can be run. -/
theorem exists_ok_of_any {ε α : Type} {result : Except ε α} {p : α → Bool}
    (h : result.toOption.any p = true) : ∃ a, result = .ok a ∧ p a = true := by
  cases result with
  | error e => cases h
  | ok a => exact ⟨a, rfl, h⟩

namespace KeyService

variable {σ α β : Type} {service : KeyService σ}

theorem Dialogue.run_bind (x : Dialogue α) (f : α → Dialogue β) (s : σ) :
    (x.bind f).run service s = (f (x.run service s).1).run service (x.run service s).2 := by
  induction x generalizing s with
  | done value => rfl
  | ask call next ih => exact ih (service.answer call s).1 (service.answer call s).2

namespace Procedure

/-- Held with a service in the state `s`, the procedure gives `a` and leaves the
service in the state `s'`. -/
def Yields (service : KeyService σ) (s : σ) (procedure : Procedure α) (a : α) (s' : σ) : Prop :=
  procedure.run.run service s = (.ok a, s')

variable {s s' : σ}

theorem run_bind (x : Procedure α) (f : α → Procedure β) (s : σ) :
    (x >>= f).run.run service s
      = (ExceptT.bindCont f (x.run.run service s).1).run service (x.run.run service s).2 :=
  Dialogue.run_bind x.run (ExceptT.bindCont f) s

theorem yields_bind {x : Procedure α} {f : α → Procedure β} {b : β} :
    Yields service s (x >>= f) b s' ↔
      ∃ a s₁, Yields service s x a s₁ ∧ Yields service s₁ (f a) b s' := by
  rw [Yields, run_bind]
  cases hx : x.run.run service s with
  | mk result s₁ =>
    cases result with
    | error e =>
      constructor
      · intro h
        cases h
      · rintro ⟨a, s₂, h, -⟩
        rw [Yields, hx] at h
        cases h
    | ok a =>
      constructor
      · exact fun h => ⟨a, s₁, hx, h⟩
      · rintro ⟨a', s₂, h, h'⟩
        rw [Yields, hx] at h
        cases h
        exact h'

/-- A call gives what the service answers. -/
theorem run_call (c : Call) (wrap : KeyServiceError → Error) (s : σ) :
    (call c wrap).run.run service s
      = ((service.answer c s).1.mapError wrap, (service.answer c s).2) := by
  rw [call, run_bind]
  cases hanswer : service.answer c s with
  | mk reply after =>
    have hlifted : (ExceptT.lift (Dialogue.call c) : Procedure (Reply c)).run.run service s
        = (.ok reply, after) := by
      show (Except.ok (service.answer c s).1, (service.answer c s).2) = _
      rw [hanswer]
    rw [hlifted]
    cases reply <;> rfl

theorem yields_call {c : Call} {wrap : KeyServiceError → Error} {a : c.Answer} :
    Yields service s (call c wrap) a s' ↔ service.answer c s = (.ok a, s') := by
  rw [Yields, run_call, Prod.mk.injEq, mapError_eq_ok, ← Prod.mk.injEq]

theorem yields_ofExcept {result : Except Error α} {a : α} :
    Yields service s (ofExcept result) a s' ↔ result = .ok a ∧ s' = s := by
  constructor
  · intro h
    cases h
    exact ⟨rfl, rfl⟩
  · rintro ⟨rfl, rfl⟩
    rfl

theorem yields_pure {a b : α} : Yields service s (pure a) b s' ↔ a = b ∧ s' = s := by
  have hpure : (pure a : Procedure α) = ofExcept (.ok a) := rfl
  rw [hpure, yields_ofExcept, Except.ok.injEq]

theorem not_yields_throw {e : Error} {a : α} :
    ¬ Yields service s (throw e : Procedure α) a s' := by
  intro h
  cases h

/-- A dialogue whose outcome is only looked at in the end. -/
theorem yields_mk_bind_done {x : Dialogue α} {f : α → Except Error β} {b : β} :
    Yields service s (ExceptT.mk (x.bind fun outcome => .done (f outcome))) b s' ↔
      ∃ outcome, x.run service s = (outcome, s') ∧ f outcome = .ok b := by
  have hrun : (ExceptT.mk (x.bind fun outcome => .done (f outcome))).run.run service s
      = (f (x.run service s).1, (x.run service s).2) :=
    Dialogue.run_bind x _ s
  rw [Yields, hrun]
  constructor
  · intro h
    have hstate : (x.run service s).2 = s' := congrArg Prod.snd h
    exact ⟨(x.run service s).1, by rw [← hstate], congrArg Prod.fst h⟩
  · rintro ⟨outcome, hx, hf⟩
    rw [hx, hf]

/-- Reporting failures as those of a stage makes no difference to a success. -/
theorem yields_at {stage : Stage} {x : Procedure α} {a : α} :
    Yields service s (Procedure.at stage x) a s' ↔ Yields service s x a s' := by
  rw [Procedure.at, yields_mk_bind_done, Yields]
  constructor
  · rintro ⟨outcome, hx, ha⟩
    rw [hx, atStage_eq_ok.mp ha]
  · intro h
    exact ⟨.ok a, h, rfl⟩

end Procedure
end KeyService
end CardAccess

/-
`IoC.setupSingletonProvider` and `getGlobalWebControllerDispatcher`: what the service
makes once.

Both keep the promise of what they make in a variable, the one through
`System.createInstanceIfNil`, the other by a test of its own, and neither looks at how
the promise ends. So no two callers make a second instance, and a creation that failed
is kept as well: its error is what every later call gets.

The Key Vault client, the Cosmos client, the clients of the blobs and the queues and
that of Application Insights are made by such providers. The `n`-th run of the
factory, or of `createWebDispatcher`, ends as `outcome n`.
-/
import WebInsights.Effect.Memo

set_option autoImplicit false

namespace WebInsights.Common

open Effect

variable {ε α : Type}

/-! ## The code up to the `await` -/

/-- `System.createInstanceIfNil`. -/
def System.createInstanceIfNil {m : Type → Type} [Monad m] {T : Type} (inst : Option T)
    (factory : m T) : m T :=
  match inst with
  | none => factory
  | some inst => pure inst

/-- The provider that `IoC.setupSingletonProvider` binds. -/
def IoC.setupSingletonProvider : StateM (Memo ε α) ℕ := do
  let singletonInstancePromise ← System.createInstanceIfNil (← get).promise Memo.start
  modify fun s => { s with promise := some singletonInstancePromise }
  pure singletonInstancePromise

def getGlobalWebControllerDispatcher : StateM (Memo ε α) ℕ := do
  match (← get).promise with
  | none =>
    let createWebDispatcher ← Memo.start
    modify fun s => { s with promise := some createWebDispatcher }
    pure createWebDispatcher
  | some globalWebControllerDispatcher => pure globalWebControllerDispatcher

/-- What the service makes once. -/
inductive Initialiser where
  | singletonProvider
  | globalWebControllerDispatcher
  deriving DecidableEq

def Initialiser.body : Initialiser → StateM (Memo ε α) ℕ
  | .singletonProvider => IoC.setupSingletonProvider
  | .globalWebControllerDispatcher => getGlobalWebControllerDispatcher

/-- Both keep the promise of the first run. -/
theorem Initialiser.body_eq (initialiser : Initialiser) :
    (initialiser.body : StateM (Memo ε α) ℕ) = Memo.memoise := by
  funext s
  obtain ⟨promise, started, settled, outcome⟩ := s
  cases initialiser with
  | singletonProvider => cases promise <;> rfl
  | globalWebControllerDispatcher => cases promise <;> rfl

/-! ## Callers in any order -/

/-- **A singleton, but one that does not recover**: for any number of callers, in every order of
their steps and however the creations end, the initialiser makes one instance at a time, none
after one that was made, and gives everybody the same; and it starts over after a creation
that failed exactly as long as none has failed. -/
theorem initialiser_recovers_iff (initialiser : Initialiser) {ι : Type} [DecidableEq ι]
    (outcome : ℕ → Except ε α) {p : Memo.Callers ι ε α}
    (hrun : Pool.Runs Memo.handle Memo.Admitted (Memo.callers ι initialiser.body outcome) p) :
    Memo.Recovering initialiser.body p ↔ ∀ run e, ¬ Memo.Ended p.shared run (.error e) := by
  rw [initialiser.body_eq] at hrun ⊢
  exact (Memo.memoised_run hrun).recovering_iff

/-- Two callers of one provider, whose first run ends as `outcome 0`. -/
def sampleCalls (outcome : ℕ → Except String ℕ) (schedule : List (Bool ⊕ ℕ)) :
    Memo.Callers Bool String ℕ :=
  Memo.scheduled Initialiser.singletonProvider.body outcome schedule

/-- Both call before the instance is made, and are given the one that is. -/
theorem initialiser_recovers_iff_sample :
    Memo.Recovering Initialiser.singletonProvider.body
        (sampleCalls (fun _ => .ok 7) [.inl false, .inl true, .inr 0, .inl true, .inl false]) ∧
      ∀ b, ((sampleCalls (fun _ => .ok 7)
        [.inl false, .inl true, .inr 0, .inl true, .inl false]).threads (.inl b)).prog =
          .pure 7 := by
  constructor
  · refine (initialiser_recovers_iff .singletonProvider (fun _ => .ok 7)
      (Memo.runs_scheduled _ _ _)).mpr ?_
    rintro run e ⟨-, -, houtcome⟩
    have hok : (.ok 7 : Except String ℕ) = .error e := houtcome
    cases hok
  · rintro (_ | _)
    · rfl
    · rfl

/-- A first run that fails, before one that would succeed. -/
def failsOnce (run : ℕ) : Except String ℕ := if run = 0 then .error "no secret" else .ok 7

/-- The call after the creation that failed gets the same error, and starts no other
creation. -/
theorem singletonProvider_keeps_failure :
    Memo.Ended (sampleCalls failsOnce [.inl false, .inr 0, .inl false]).shared 0
        (.error "no secret") ∧
      ¬ Memo.Recovering Initialiser.singletonProvider.body
        (sampleCalls failsOnce [.inl false, .inr 0, .inl false]) ∧
      ((sampleCalls failsOnce [.inl false, .inr 0, .inl false, .inl true, .inr 1,
        .inl true]).threads (.inl true)).prog = .throw "no secret" ∧
      (sampleCalls failsOnce [.inl false, .inr 0, .inl false, .inl true, .inr 1,
        .inl true]).shared.started = 1 := by
  refine ⟨⟨by decide, rfl, rfl⟩, fun h => ?_, rfl, rfl⟩
  exact absurd (h.recovers 0 "no secret" rfl ⟨by decide, rfl, rfl⟩) (by decide)

end WebInsights.Common

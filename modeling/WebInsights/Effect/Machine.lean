/-
Machines that take events.

A machine has a partial step function: an event that cannot happen in a state has no step.
A list of events is a run of it if each can happen where it comes (`runs`). What the start
has and every step keeps holds after every run (`runs_invariant`), where a step may use the
events before it, and a measure that every step lowers bounds the runs (`length_runs_le`).
-/
import Mathlib.Data.List.Induction
import Mathlib.Tactic.Common

set_option autoImplicit false

namespace WebInsights.Effect.Machine

variable {σ Event : Type} (step : σ → Event → Option σ) (start : σ)

/-- The state after these events, if they can happen. -/
def runs (events : List Event) : Option σ := events.foldlM step start

variable {step start} {events : List Event} {s : σ}

theorem runs_append_singleton {event : Event} :
    runs step start (events ++ [event]) = some s ↔
      ∃ before, runs step start events = some before ∧ step before event = some s := by
  have hlast : ∀ before, [event].foldlM step before = step before event :=
    fun before => bind_pure _
  rw [runs, List.foldlM_append]
  simp only [hlast]
  exact Option.bind_eq_some_iff

theorem runs_append {later : List Event} :
    runs step start (events ++ later) = some s ↔
      ∃ between, runs step start events = some between ∧ runs step between later = some s := by
  rw [runs, List.foldlM_append]
  exact Option.bind_eq_some_iff

/-- **The invariant rule.** -/
theorem runs_invariant {I : List Event → σ → Prop} (hstart : I [] start)
    (hstep : ∀ past before event after, I past before → step before event = some after →
      I (past ++ [event]) after)
    (hruns : runs step start events = some s) : I events s := by
  induction events using List.reverseRecOn generalizing s with
  | nil =>
    obtain rfl := Option.some.inj hruns
    exact hstart
  | append_singleton past event ih =>
    obtain ⟨before, hbefore, hlast⟩ := runs_append_singleton.mp hruns
    exact hstep past before event s (ih hbefore) hlast

/-- **The rule for the length of runs.** -/
theorem length_runs_le {μ : σ → ℕ}
    (hstep : ∀ before event after, step before event = some after → μ after < μ before)
    (hruns : runs step start events = some s) : events.length + μ s ≤ μ start := by
  refine runs_invariant (I := fun events s => events.length + μ s ≤ μ start) ?_ ?_ hruns
  · simp
  · intro past before event after hle hlast
    have hlt := hstep before event after hlast
    rw [List.length_append, List.length_singleton]
    omega

end WebInsights.Effect.Machine

/-
Loops with a deadline.

A loop that tries something again and again, with a pause between two tries, looks at the
clock after a try that came to nothing, and gives up once a timeout has passed since the
start. It ends at the first try that is settled or late (`EndsAt`). A clock that advances
by the pause at every pause is late after finitely many of them (`Clock.late`), so there is
such a try, and a bound on the tries that comes before it (`Clock.exists_endsAt`).

Nothing here is about programs: which try is settled is the loop's own matter.
-/
import Mathlib.Algebra.Order.Floor.Semiring
import Mathlib.Data.Rat.Floor
import Mathlib.Tactic.Linarith
import Mathlib.Tactic.Positivity

set_option autoImplicit false

namespace WebInsights.Effect

/-- What a clock shows at the start of a loop and after each of its tries, where `pause`
passes between two of them. -/
structure Clock (pause : ℚ) where
  start : ℚ
  time : ℕ → ℚ
  start_le : start ≤ time 0
  advances : ∀ k, time k + pause ≤ time (k + 1)

/-- A loop with these settled and late tries ends at the try `k`. -/
structure EndsAt (settled late : ℕ → Prop) (k : ℕ) : Prop where
  ends : settled k ∨ late k
  goes : ∀ j < k, ¬ settled j ∧ ¬ late j

theorem EndsAt.unique {settled late : ℕ → Prop} {k k' : ℕ} (h : EndsAt settled late k)
    (h' : EndsAt settled late k') : k' = k := by
  rcases lt_trichotomy k' k with hlt | heq | hlt
  · obtain ⟨hsettled, hlate⟩ := h.goes k' hlt
    exact absurd h'.ends (not_or.mpr ⟨hsettled, hlate⟩)
  · exact heq
  · obtain ⟨hsettled, hlate⟩ := h'.goes k hlt
    exact absurd h.ends (not_or.mpr ⟨hsettled, hlate⟩)

namespace Clock

variable {pause : ℚ} (clock : Clock pause) (timeout : ℚ)

/-- The try `k` ends after the deadline. -/
def Late (k : ℕ) : Prop := timeout < clock.time k - clock.start

theorem start_add_le (k : ℕ) : clock.start + k * pause ≤ clock.time k := by
  induction k with
  | zero =>
    have hstart := clock.start_le
    simpa using hstart
  | succ k ih =>
    have hpause := clock.advances k
    push_cast
    linarith

/-- As many pauses as fit into the timeout, and one more, are enough to be late. -/
theorem late {timeout : ℚ} (hpause : 0 < pause) : clock.Late timeout (⌊timeout / pause⌋₊ + 1) := by
  have hfloor : timeout / pause < (⌊timeout / pause⌋₊ + 1 : ℕ) := by
    push_cast
    exact Nat.lt_floor_add_one (timeout / pause)
  have hpauses : timeout < (⌊timeout / pause⌋₊ + 1 : ℕ) * pause := (div_lt_iff₀ hpause).mp hfloor
  have hle := clock.start_add_le (⌊timeout / pause⌋₊ + 1)
  unfold Late
  linarith

/-- **A loop with a deadline ends**, at the latest after the tries that fit into the timeout
and two more. -/
theorem exists_endsAt (settled : ℕ → Prop) (hpause : 0 < pause) :
    ∃ k ≤ ⌊timeout / pause⌋₊ + 1, EndsAt settled (clock.Late timeout) k := by
  classical
  have hends : ∃ k, settled k ∨ clock.Late timeout k := ⟨_, Or.inr (clock.late hpause)⟩
  refine ⟨Nat.find hends, Nat.find_min' hends (Or.inr (clock.late hpause)), Nat.find_spec hends,
    fun j hj => ?_⟩
  exact not_or.mp (Nat.find_min hends hj)

end Clock

end WebInsights.Effect

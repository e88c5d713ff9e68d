import Mathlib.Tactic

/-!
# Actions behind a countdown

A countdown loses one at every tick, and an action waits until it has run out; doing it starts the
countdown again. `Paced` is what such a program keeps, and how it bounds the actions by the ticks.
-/

namespace Lcom
namespace Lib

/-- After `ticks` ticks `done` actions have been done, and `left` is left of the countdown, which was
    `first` in the beginning and at least `rest` after each action. -/
structure Paced (first rest done ticks left : Nat) : Prop where
  budget : first + done * rest ≤ ticks + left
  last : done ≠ 0 → first + (done - 1) * rest ≤ ticks

namespace Paced

variable {first rest done ticks left : Nat}

theorem start (first rest : Nat) : Paced first rest 0 0 first := ⟨by omega, fun h => absurd rfl h⟩

theorem tick (h : Paced first rest done ticks left) : Paced first rest done (ticks + 1) (left - 1) :=
  ⟨by have hbudget := h.budget; omega, fun hdone => (h.last hdone).trans (Nat.le_succ ticks)⟩

/-- An action, when nothing is left of the countdown. -/
theorem act {again : Nat} (h : Paced first rest done ticks 0) (hagain : rest ≤ again) :
    Paced first rest (done + 1) ticks again := by
  have hbudget := h.budget
  refine ⟨?_, fun _ => ?_⟩
  · rw [Nat.succ_mul]
    omega
  · rw [Nat.add_sub_cancel]
    omega

end Paced

end Lib
end Lcom

import Lcom.Lib.Interaction
import Lcom.Lib.Run

/-!
# Programs under a monitor

A monitor watches the exchanges of a program. It is in some state, an exchange that it allows takes
it to the next one, and an exchange that it does not allow has no next state.

`Prog.Within step post m p` says that `p`, started while the monitor is in `m`, is never stopped by
it, whatever the answers are, and that `post` holds of the monitor and the result when `p` returns. It
is the weakest precondition of the program in terms of the monitor, and has a rule for each way in
which programs are put together; `Within.runs` is what it says of a finished trace.
-/

namespace Lcom
namespace Lib
namespace Prog

variable {Q R α β M : Type}

/-- The monitor allows every exchange of the program, and `post` holds at its end. -/
def Within (step : M → Q × R → Option M) (post : M → α → Prop) : M → Prog Q R α → Prop
  | m, ret a => post m a
  | m, ask q k => ∀ r, ∃ m', step m (q, r) = some m' ∧ (k r).Within step post m'

section
variable {step : M → Q × R → Option M} {post : M → α → Prop} {m : M}

/-- The trace of a program that stays within its monitor is a run of the monitor. -/
theorem Within.runs [DecidableEq Q] {p : Prog Q R α} {tr : List (Q × R)} {a : α}
    (hp : p.Within step post m) (h : p.Runs tr a) : ∃ m', run step m tr = some m' ∧ post m' a := by
  induction p generalizing m tr with
  | ret b =>
    obtain ⟨rfl, rfl⟩ := runs_ret.mp h
    exact ⟨m, rfl, hp⟩
  | ask q k ih =>
    obtain ⟨r, tr, rfl, hk⟩ := runs_ask.mp h
    obtain ⟨m₁, hstep, hrest⟩ := hp r
    obtain ⟨m', hrun, hpost⟩ := ih r hrest hk
    exact ⟨m', run_cons_eq_some.mpr ⟨m₁, hstep, hrun⟩, hpost⟩

theorem Within.mono {post' : M → α → Prop} {p : Prog Q R α} (hp : p.Within step post m)
    (himp : ∀ m a, post m a → post' m a) : p.Within step post' m := by
  induction p generalizing m with
  | ret a => exact himp m a hp
  | ask q k ih =>
    intro r
    obtain ⟨m', hstep, hrest⟩ := hp r
    exact ⟨m', hstep, ih r hrest⟩

/-- What is known of every run may be used as well. -/
theorem Within.and_of_runs [DecidableEq Q] {p : Prog Q R α} {P : α → Prop}
    (hp : p.Within step post m) (h : ∀ tr a, p.Runs tr a → P a) :
    p.Within step (fun m a => post m a ∧ P a) m := by
  induction p generalizing m with
  | ret a => exact ⟨hp, h [] a (runs_ret.mpr ⟨rfl, rfl⟩)⟩
  | ask q k ih =>
    intro r
    obtain ⟨m', hstep, hrest⟩ := hp r
    refine ⟨m', hstep, ih r hrest fun tr a hr => ?_⟩
    exact h ((q, r) :: tr) a (runs_ask.mpr ⟨r, tr, rfl, hr⟩)

/-- The bind rule: what holds between the two programs is what the second starts from. -/
theorem Within.bind {mid : M → β → Prop} {p : Prog Q R β} {f : β → Prog Q R α}
    (hp : p.Within step mid m) (hf : ∀ m' b, mid m' b → (f b).Within step post m') :
    (p >>= f).Within step post m := by
  induction p generalizing m with
  | ret b => exact hf m b hp
  | ask q k ih =>
    intro r
    obtain ⟨m', hstep, hrest⟩ := hp r
    exact ⟨m', hstep, ih r hrest⟩

/-- A program whose questions all keep something about the monitor. -/
theorem Asks.keeps {P : Q → Prop} {I : M → Prop} {p : Prog Q R α} (hp : p.Asks P) (hm : I m)
    (hstep : ∀ m q r, P q → I m → ∃ m', step m (q, r) = some m' ∧ I m') :
    p.Within step (fun m' _ => I m') m := by
  induction p generalizing m with
  | ret a => exact hm
  | ask q k ih =>
    intro r
    obtain ⟨m', hnext, hm'⟩ := hstep m q r hp.1 hm
    exact ⟨m', hnext, ih r (hp.2 r) hm'⟩

/-- A program whose questions leave the monitor where it is. -/
theorem Asks.within {P : Q → Prop} {p : Prog Q R α} (hp : p.Asks P)
    (hstep : ∀ q r, P q → step m (q, r) = some m) : p.Within step (fun m' _ => m' = m) m := by
  refine hp.keeps rfl fun m' q r hq hm' => ⟨m, ?_, rfl⟩
  rw [hm']
  exact hstep q r hq

/-- A program stays within a monitor of the larger program that it is a part of. -/
theorem Within.translate {Q' R' : Type} {f : Q → Q'} {g : R' → R}
    {step' : M → Q' × R' → Option M} {p : Prog Q R α} (hp : p.Within step post m)
    (hstep : ∀ m q r, step' m (f q, r) = step m (q, g r)) :
    (p.translate f g).Within step' post m := by
  induction p generalizing m with
  | ret a => exact hp
  | ask q k ih =>
    intro r
    obtain ⟨m', hnext, hrest⟩ := hp (g r)
    exact ⟨m', (hstep m q r).trans hnext, ih (g r) hrest⟩

end

end Prog
end Lib
end Lcom

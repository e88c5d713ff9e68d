import Mathlib.Tactic

/-!
# Runs of a partial step function

A system that takes one event at a time: `step s e` is the state after the event, or `none` when
the event cannot happen in `s`. A run is the fold of `step` over the list of its events, so every
statement about a run is an induction on that list; the rules here are that induction, done once.
-/

namespace Lcom
namespace Lib

variable {σ ε : Type}

/-- The state after a list of events. -/
def run (step : σ → ε → Option σ) : σ → List ε → Option σ
  | s, [] => some s
  | s, e :: es => (step s e).bind fun s' => run step s' es

variable {step : σ → ε → Option σ}

@[simp] theorem run_nil (s : σ) : run step s [] = some s := rfl

theorem run_cons_eq_some {s s' : σ} {e : ε} {es : List ε} :
    run step s (e :: es) = some s' ↔ ∃ s₁, step s e = some s₁ ∧ run step s₁ es = some s' := by
  simp [run, Option.bind_eq_some_iff]

theorem run_append (s : σ) (es es' : List ε) :
    run step s (es ++ es') = (run step s es).bind fun s' => run step s' es' := by
  induction es generalizing s with
  | nil => rfl
  | cons e es ih => simp only [List.cons_append, run, ih, Option.bind_assoc]

theorem run_append_eq_some {s s' : σ} {es es' : List ε} :
    run step s (es ++ es') = some s' ↔ ∃ s₁, run step s es = some s₁ ∧ run step s₁ es' = some s' := by
  rw [run_append, Option.bind_eq_some_iff]

/-- **The invariant rule.** What holds at the start and survives every step holds at the end of
    every run. -/
theorem run_invariant (Inv : σ → Prop)
    (hstep : ∀ s e s', Inv s → step s e = some s' → Inv s')
    {s s' : σ} {es : List ε} (hs : Inv s) (hr : run step s es = some s') : Inv s' := by
  induction es generalizing s with
  | nil =>
    cases hr
    exact hs
  | cons e es ih =>
    obtain ⟨s₁, h₁, hr₁⟩ := run_cons_eq_some.mp hr
    exact ih (hstep s e s₁ hs h₁) hr₁

/-- **The rule with a history.** The invariant may speak of the events that have led to the state. -/
theorem run_history (Inv : List ε → σ → Prop)
    (hstep : ∀ es e s s', Inv es s → step s e = some s' → Inv (es ++ [e]) s')
    {s s' : σ} {es : List ε} (hs : Inv [] s) (hr : run step s es = some s') : Inv es s' := by
  suffices hrest : ∀ past, Inv past s → Inv (past ++ es) s' from hrest [] hs
  clear hs
  intro past hpast
  induction es generalizing s past with
  | nil =>
    cases hr
    rwa [List.append_nil]
  | cons e es ih =>
    obtain ⟨s₁, h₁, hr₁⟩ := run_cons_eq_some.mp hr
    have hrest := ih hr₁ (past ++ [e]) (hstep past e s s₁ hpast h₁)
    rwa [List.append_assoc] at hrest

/-- **The rule for two runs.** Where one step shows only what its state shows, a run shows only what
    its first state shows. -/
theorem run_map_eq {τ : Type} (view : σ → τ)
    (hstep : ∀ s s' e, view s = view s' → (step s e).map view = (step s' e).map view)
    {s s' : σ} (h : view s = view s') (es : List ε) :
    (run step s es).map view = (run step s' es).map view := by
  induction es generalizing s s' with
  | nil => exact congrArg some h
  | cons e es ih =>
    have he := hstep s s' e h
    unfold run
    cases h₁ : step s e with
    | none =>
      rw [h₁, Option.map_none] at he
      rw [Option.map_eq_none_iff.mp he.symm]
    | some s₁ =>
      rw [h₁, Option.map_some] at he
      obtain ⟨s₂, h₂, heq⟩ := Option.map_eq_some_iff.mp he.symm
      rw [h₂, Option.bind_some, Option.bind_some]
      exact ih heq.symm

/-- Every step of a run finds its state and its event in `P`. -/
def EveryStep (step : σ → ε → Option σ) (P : σ → ε → Prop) (s : σ) (es : List ε) : Prop :=
  ∀ pre e post s₁, es = pre ++ e :: post → run step s pre = some s₁ → P s₁ e

theorem everyStep_nil {P : σ → ε → Prop} {s : σ} : EveryStep step P s [] := by
  intro pre e post s₁ h
  simp at h

theorem everyStep_cons {P : σ → ε → Prop} {s s₁ : σ} {e : ε} {es : List ε}
    (hs : step s e = some s₁) :
    EveryStep step P s (e :: es) ↔ P s e ∧ EveryStep step P s₁ es := by
  constructor
  · intro h
    refine ⟨h [] e es s rfl rfl, fun pre e' post s₂ hes hrun => ?_⟩
    exact h (e :: pre) e' post s₂ (by rw [hes]; rfl) (run_cons_eq_some.mpr ⟨s₁, hs, hrun⟩)
  · rintro ⟨hP, h⟩ pre e' post s₂ hes hrun
    cases pre with
    | nil =>
      obtain ⟨rfl, -⟩ := List.cons.inj hes
      cases hrun
      exact hP
    | cons e'' pre =>
      obtain ⟨rfl, htail⟩ := List.cons.inj hes
      obtain ⟨s₁', hs', hrun'⟩ := run_cons_eq_some.mp hrun
      rw [hs, Option.some.injEq] at hs'
      subst hs'
      exact h pre e' post s₂ htail hrun'

theorem EveryStep.left {P : σ → ε → Prop} {s : σ} {es es' : List ε}
    (h : EveryStep step P s (es ++ es')) : EveryStep step P s es := by
  intro pre e post s₁ hes hrun
  exact h pre e (post ++ es') s₁ (by rw [hes]; simp) hrun

theorem EveryStep.right {P : σ → ε → Prop} {s s₁ : σ} {es es' : List ε}
    (h : EveryStep step P s (es ++ es')) (hrun : run step s es = some s₁) :
    EveryStep step P s₁ es' := by
  intro pre e post s₂ hes hrun₂
  refine h (es ++ pre) e post s₂ (by rw [hes]; simp) ?_
  exact run_append_eq_some.mpr ⟨s₁, hrun, hrun₂⟩

/-- The invariant rule for a run whose steps all meet a condition. -/
theorem EveryStep.invariant {P : σ → ε → Prop} (Inv : σ → Prop)
    (hstep : ∀ s e s', Inv s → P s e → step s e = some s' → Inv s')
    {s s' : σ} {es : List ε} (hP : EveryStep step P s es) (hs : Inv s)
    (hr : run step s es = some s') : Inv s' := by
  induction es generalizing s with
  | nil =>
    cases hr
    exact hs
  | cons e es ih =>
    obtain ⟨s₁, h₁, hr₁⟩ := run_cons_eq_some.mp hr
    obtain ⟨he, hes⟩ := (everyStep_cons h₁).mp hP
    exact ih hes (hstep s e s₁ hs he h₁) hr₁

theorem forall₂_append_right {α β : Type} {R : α → β → Prop} {l : List α} {l₁ l₂ : List β}
    (h : List.Forall₂ R l (l₁ ++ l₂)) :
    ∃ k₁ k₂, l = k₁ ++ k₂ ∧ List.Forall₂ R k₁ l₁ ∧ List.Forall₂ R k₂ l₂ :=
  ⟨l.take l₁.length, l.drop l₁.length, (List.take_append_drop _ _).symm,
    List.forall₂_take_append _ _ _ h, List.forall₂_drop_append _ _ _ h⟩

end Lib
end Lcom

import Lcom.Lib.Interaction
import Lcom.Lib.Run

/-!
# Programs in an environment

An environment answers the questions of a program: it is in some state, an answer that it may give
takes it to the next one, and an answer that it never gives has no next state. `Prog.Under step post m p`
says that `post` holds of the environment and the result when `p` returns, if the environment is in `m`
when it starts and gives only such answers. Where a monitor is what a program is held to, an
environment is what it may rely on.

An object whose calls are such programs refines an abstract one when every call is a step of the
abstract object, and then so is every sequence of calls (`Prog.under_each`).
-/

namespace Lcom
namespace Lib

/-! ## Machines whose steps are a relation -/

section
variable {σ ε : Type}

/-- The machine can go through these events in turn. -/
def Follows (next : σ → ε → σ → Prop) : σ → List ε → σ → Prop
  | s, [], s' => s = s'
  | s, e :: es, s' => ∃ s₁, next s e s₁ ∧ Follows next s₁ es s'

variable {next : σ → ε → σ → Prop}

theorem follows_append {s s' : σ} {es es' : List ε} :
    Follows next s (es ++ es') s' ↔ ∃ s₁, Follows next s es s₁ ∧ Follows next s₁ es' s' := by
  induction es generalizing s with
  | nil =>
    constructor
    · intro h
      exact ⟨s, rfl, h⟩
    · rintro ⟨s₁, rfl, h⟩
      exact h
  | cons e es ih =>
    constructor
    · rintro ⟨s₁, hnext, h⟩
      obtain ⟨s₂, hes, hes'⟩ := ih.mp h
      exact ⟨s₂, ⟨s₁, hnext, hes⟩, hes'⟩
    · rintro ⟨s₂, ⟨s₁, hnext, hes⟩, hes'⟩
      exact ⟨s₁, hnext, ih.mpr ⟨s₂, hes, hes'⟩⟩

/-- What every step on one of these events keeps. -/
theorem Follows.invariant {Inv : σ → Prop} {s s' : σ} {es : List ε} (h : Follows next s es s')
    (hstep : ∀ s e s', e ∈ es → next s e s' → Inv s → Inv s') (hs : Inv s) : Inv s' := by
  induction es generalizing s with
  | nil =>
    obtain rfl := h
    exact hs
  | cons e es ih =>
    obtain ⟨s₁, hnext, hrest⟩ := h
    refine ih hrest (fun s e s' he => hstep s e s' (List.mem_cons_of_mem _ he)) ?_
    exact hstep s e s₁ List.mem_cons_self hnext hs

end

namespace Prog

variable {Q R α β M : Type}

/-! ## Environments -/

/-- Against every answer the environment may give, `post` holds at the end of the program. -/
def Under (step : M → Q × R → Option M) (post : M → α → Prop) : M → Prog Q R α → Prop
  | m, ret a => post m a
  | m, ask q k => ∀ r m', step m (q, r) = some m' → (k r).Under step post m'

section
variable {step : M → Q × R → Option M} {post : M → α → Prop} {m m' : M}

/-- What it says of a trace whose answers are the environment's. -/
theorem Under.runs [DecidableEq Q] {p : Prog Q R α} {tr : List (Q × R)} {a : α}
    (hp : p.Under step post m) (h : p.Runs tr a) (hrun : run step m tr = some m') : post m' a := by
  induction p generalizing m tr with
  | ret b =>
    obtain ⟨rfl, rfl⟩ := runs_ret.mp h
    cases hrun
    exact hp
  | ask q k ih =>
    obtain ⟨r, tr, rfl, hk⟩ := runs_ask.mp h
    obtain ⟨m₁, hstep, hrest⟩ := run_cons_eq_some.mp hrun
    exact ih r (hp r m₁ hstep) hk hrest

/-- The bind rule. -/
theorem Under.bind {mid : M → β → Prop} {p : Prog Q R β} {f : β → Prog Q R α}
    (hp : p.Under step mid m) (hf : ∀ m' b, mid m' b → (f b).Under step post m') :
    (p >>= f).Under step post m := by
  induction p generalizing m with
  | ret b => exact hf m b hp
  | ask q k ih =>
    intro r m' hstep
    exact ih r (hp r m' hstep)

/-! ## Refinement -/

/-- The calls in turn, each with its result. -/
def each {C O : Type} (perform : C → Prog Q R O) : List C → Prog Q R (List (C × O))
  | [] => pure []
  | c :: cs => do
    let o ← perform c
    let os ← each perform cs
    pure ((c, o) :: os)

/-- **The refinement rule.** Where each call is a step of the abstract object, the calls of a sequence
    are a run of it. -/
theorem under_each {C O σ : Type} {perform : C → Prog Q R O} {abs : M → σ → Prop}
    {next : σ → C × O → σ → Prop} (calls : List C)
    (hcall : ∀ c ∈ calls, ∀ m s, abs m s →
      (perform c).Under step (fun m' o => ∃ s', next s (c, o) s' ∧ abs m' s') m)
    {s : σ} (h : abs m s) :
    (each perform calls).Under step (fun m' done => done.map Prod.fst = calls ∧
      ∃ s', Follows next s done s' ∧ abs m' s') m := by
  induction calls generalizing m s with
  | nil => exact ⟨rfl, s, rfl, h⟩
  | cons c cs ih =>
    refine (hcall c List.mem_cons_self m s h).bind fun m₁ o hstep => ?_
    obtain ⟨s₁, hnext, habs⟩ := hstep
    refine (ih (fun c hc => hcall c (List.mem_cons_of_mem _ hc)) habs).bind fun m₂ done hdone => ?_
    obtain ⟨hcalls, s₂, hfollows, habs'⟩ := hdone
    exact ⟨congrArg (List.cons c) hcalls, s₂, ⟨s₁, hnext, hfollows⟩, habs'⟩

end

end Prog
end Lib
end Lcom

import Mathlib.Tactic

/-!
# Interaction programs

A program that talks to an environment it does not control: it asks a question in `Q`, the
environment answers in `R`, and the program goes on with the answer. Nothing is assumed about
the answers, so a statement about *every trace* of a program is a statement about every
environment, an adversarial or a broken one included.

`Prog.Runs p tr a` says that `p`, answered as the trace `tr` records, ends with `a`. It is a
computable check (`Prog.exec` follows the trace), so a concrete run is closed by `rfl`, and its
three inversion rules (`runs_ret`, `runs_ask`, `runs_bind`) are all a proof about a
program needs.

The second half is the one temporal property a polling program is judged by: *which question may
directly follow which exchange*. `Prog.Obeys` states it by recursion on the program, where a loop
is an induction; `TraceObeys` states it of a finished trace.
-/

namespace Lcom
namespace Lib

/-- A finite program over questions `Q` and answers `R`. -/
inductive Prog (Q R α : Type) : Type where
  | ret (a : α) : Prog Q R α
  | ask (q : Q) (k : R → Prog Q R α) : Prog Q R α

namespace Prog

variable {Q R α β : Type}

/-- Sequencing: the second program starts where the first returned. -/
protected def bind : Prog Q R α → (α → Prog Q R β) → Prog Q R β
  | ret a, f => f a
  | ask q k, f => ask q fun r => (k r).bind f

instance : Monad (Prog Q R) where
  pure := ret
  bind := Prog.bind

/-- Ask one question and return its answer. -/
def query (q : Q) : Prog Q R R := ask q ret

@[simp] theorem pure_eq (a : α) : (pure a : Prog Q R α) = ret a := rfl

@[simp] theorem ret_bind (a : α) (f : α → Prog Q R β) : (ret a >>= f) = f a := rfl

@[simp] theorem ask_bind (q : Q) (k : R → Prog Q R α) (f : α → Prog Q R β) :
    (ask q k >>= f) = ask q fun r => k r >>= f := rfl

@[simp] theorem query_bind (q : Q) (f : R → Prog Q R β) : (query q >>= f) = ask q f := rfl

theorem bind_assoc {γ : Type} (p : Prog Q R α) (f : α → Prog Q R β) (g : β → Prog Q R γ) :
    p >>= f >>= g = p >>= fun a => f a >>= g := by
  induction p with
  | ret a => rfl
  | ask q k ih => exact congrArg (ask q) (funext ih)

/-! ## Following a trace -/

section Exec

variable [DecidableEq Q]

/-- Follow a recorded trace: `none` when the program asks something else than the trace records,
    or when the two do not end together. -/
def exec : Prog Q R α → List (Q × R) → Option α
  | ret a, [] => some a
  | ret _, _ :: _ => none
  | ask _ _, [] => none
  | ask q k, e :: tr => if e.1 = q then (k e.2).exec tr else none

/-- `p`, answered as `tr` records, returns `a`. -/
def Runs (p : Prog Q R α) (tr : List (Q × R)) (a : α) : Prop := p.exec tr = some a

instance [DecidableEq α] (p : Prog Q R α) (tr : List (Q × R)) (a : α) : Decidable (p.Runs tr a) :=
  inferInstanceAs (Decidable (_ = _))

/-- A trace that can be followed, and what the program comes to. -/
theorem runs_getD {p : Prog Q R α} {tr : List (Q × R)} (h : (p.exec tr).isSome = true) (a : α) :
    p.Runs tr ((p.exec tr).getD a) := by
  obtain ⟨b, hb⟩ := Option.isSome_iff_exists.mp h
  unfold Runs
  rw [hb, Option.getD_some]

@[simp] theorem runs_ret {a b : α} {tr : List (Q × R)} :
    (ret a : Prog Q R α).Runs tr b ↔ tr = [] ∧ a = b := by
  cases tr <;> simp [Runs, exec]

theorem runs_ret_prod {a a' : α} {b b' : β} {tr : List (Q × R)} :
    (ret (a, b) : Prog Q R (α × β)).Runs tr (a', b') ↔ tr = [] ∧ a = a' ∧ b = b' := by
  rw [runs_ret, Prod.mk.injEq]

@[simp] theorem runs_ask {q : Q} {k : R → Prog Q R α} {tr : List (Q × R)} {a : α} :
    (ask q k).Runs tr a ↔ ∃ r tr', tr = (q, r) :: tr' ∧ (k r).Runs tr' a := by
  cases tr with
  | nil => simp [Runs, exec]
  | cons e tr =>
    obtain ⟨q', r⟩ := e
    simp only [Runs, exec, List.cons.injEq, Prod.mk.injEq]
    constructor
    · intro h
      split at h
      · rename_i hq
        exact ⟨r, tr, ⟨⟨hq, rfl⟩, rfl⟩, h⟩
      · exact absurd h (by simp)
    · intro hex
      rcases hex with ⟨r', tr', ⟨⟨rfl, rfl⟩, rfl⟩, h⟩
      simpa using h

theorem runs_bind {p : Prog Q R α} {f : α → Prog Q R β} {tr : List (Q × R)} {b : β} :
    (p >>= f).Runs tr b ↔ ∃ tr₁ a tr₂, tr = tr₁ ++ tr₂ ∧ p.Runs tr₁ a ∧ (f a).Runs tr₂ b := by
  induction p generalizing tr with
  | ret a =>
    constructor
    · intro h
      exact ⟨[], a, tr, rfl, by simp, h⟩
    · intro hex
      rcases hex with ⟨tr₁, a', tr₂, rfl, h₁, h₂⟩
      obtain ⟨rfl, rfl⟩ := runs_ret.mp h₁
      exact h₂
  | ask q k ih =>
    simp only [ask_bind, runs_ask, ih]
    constructor
    · intro hex
      rcases hex with ⟨r, _, rfl, tr₁, a, tr₂, rfl, h₁, h₂⟩
      exact ⟨(q, r) :: tr₁, a, tr₂, rfl, ⟨r, tr₁, rfl, h₁⟩, h₂⟩
    · intro hex
      rcases hex with ⟨_, a, tr₂, rfl, ⟨r, tr₁, rfl, h₁⟩, h₂⟩
      exact ⟨r, _, rfl, tr₁, a, tr₂, rfl, h₁, h₂⟩

theorem runs_bind_ret {p : Prog Q R α} {f : α → β} {tr : List (Q × R)} {b : β} :
    (p >>= fun a => ret (f a)).Runs tr b ↔ ∃ a, p.Runs tr a ∧ b = f a := by
  rw [runs_bind]
  constructor
  · intro h
    rcases h with ⟨tr₁, a, tr₂, rfl, hp, hret⟩
    obtain ⟨rfl, rfl⟩ := runs_ret.mp hret
    exact ⟨a, by simpa using hp, rfl⟩
  · intro h
    rcases h with ⟨a, hp, rfl⟩
    exact ⟨tr, a, [], by simp, hp, by simp⟩

/-- Two continuations that agree on every result the first program can have. -/
theorem bind_congr_of_runs {p : Prog Q R α} {f g : α → Prog Q R β}
    (h : ∀ tr a, p.Runs tr a → f a = g a) : p >>= f = p >>= g := by
  induction p with
  | ret a => exact h [] a (runs_ret.mpr ⟨rfl, rfl⟩)
  | ask q k ih =>
    refine congrArg (ask q) (funext fun r => ih r fun tr a hr => ?_)
    exact h ((q, r) :: tr) a (runs_ask.mpr ⟨r, tr, rfl, hr⟩)

/-- The answers determine the result. -/
theorem Runs.unique {p : Prog Q R α} {tr : List (Q × R)} {a b : α} (ha : p.Runs tr a)
    (hb : p.Runs tr b) : a = b := by
  unfold Runs at ha hb
  rw [ha] at hb
  exact Option.some.inj hb

/-- A program stops as soon as it has returned: of two of its runs that start alike, neither is
    longer. -/
theorem Runs.append_unique {p : Prog Q R α} {tr₁ tr₂ u₁ u₂ : List (Q × R)} {a₁ a₂ : α}
    (h₁ : p.Runs tr₁ a₁) (h₂ : p.Runs tr₂ a₂) (heq : tr₁ ++ u₁ = tr₂ ++ u₂) :
    tr₁ = tr₂ ∧ a₁ = a₂ ∧ u₁ = u₂ := by
  induction p generalizing tr₁ tr₂ with
  | ret a =>
    obtain ⟨rfl, rfl⟩ := runs_ret.mp h₁
    obtain ⟨rfl, rfl⟩ := runs_ret.mp h₂
    exact ⟨rfl, rfl, heq⟩
  | ask q k ih =>
    obtain ⟨r₁, t₁, rfl, hk₁⟩ := runs_ask.mp h₁
    obtain ⟨r₂, t₂, rfl, hk₂⟩ := runs_ask.mp h₂
    simp only [List.cons_append, List.cons.injEq, Prod.mk.injEq, true_and] at heq
    obtain ⟨rfl, heq⟩ := heq
    obtain ⟨rfl, rfl, rfl⟩ := ih _ hk₁ hk₂ heq
    exact ⟨rfl, rfl, rfl⟩

end Exec

/-! ## Which question may follow which exchange -/

/-- Every question the program asks is allowed by the exchange directly before it, whatever the
    answers are; `prev` is the exchange before the program starts, if there is one. -/
def Obeys (allow : Option (Q × R) → Q → Prop) : Option (Q × R) → Prog Q R α → Prop
  | _, ret _ => True
  | prev, ask q k => allow prev q ∧ ∀ r, (k r).Obeys allow (some (q, r))

/-- The same, of a recorded trace. -/
def TraceObeys (allow : Option (Q × R) → Q → Prop) : Option (Q × R) → List (Q × R) → Prop
  | _, [] => True
  | prev, e :: tr => allow prev e.1 ∧ TraceObeys allow (some e) tr

theorem Obeys.traceObeys [DecidableEq Q] {allow : Option (Q × R) → Q → Prop} {p : Prog Q R α}
    {prev : Option (Q × R)} {tr : List (Q × R)} {a : α} (hp : p.Obeys allow prev)
    (hr : p.Runs tr a) : TraceObeys allow prev tr := by
  induction p generalizing prev tr with
  | ret b =>
    obtain ⟨rfl, -⟩ := runs_ret.mp hr
    trivial
  | ask q k ih =>
    obtain ⟨r, tr, rfl, hk⟩ := runs_ask.mp hr
    exact ⟨hp.1, ih r (hp.2 r) hk⟩

/-- The bind rule. The second program may not lean on what the first asked last: it has to obey
    from every previous exchange. -/
theorem Obeys.bind {allow : Option (Q × R) → Q → Prop} {p : Prog Q R α} {f : α → Prog Q R β}
    {prev : Option (Q × R)} (hp : p.Obeys allow prev) (hf : ∀ a prev', (f a).Obeys allow prev') :
    (p >>= f).Obeys allow prev := by
  induction p generalizing prev with
  | ret a => exact hf a prev
  | ask q k ih => exact ⟨hp.1, fun r => ih r (hp.2 r)⟩

theorem traceObeys_append {allow : Option (Q × R) → Q → Prop} {prev : Option (Q × R)}
    {tr₁ tr₂ : List (Q × R)} :
    TraceObeys allow prev (tr₁ ++ tr₂) ↔
      TraceObeys allow prev tr₁ ∧ TraceObeys allow (tr₁.getLast?.or prev) tr₂ := by
  induction tr₁ generalizing prev with
  | nil => simp [TraceObeys]
  | cons e tr₁ ih =>
    simp only [List.cons_append, TraceObeys, ih, and_assoc]
    have hlast : (e :: tr₁).getLast?.or prev = tr₁.getLast?.or (some e) := by
      cases hl : tr₁.getLast? <;> simp [List.getLast?_cons, hl]
    rw [hlast]

/-- What obeying means of one question of a trace: it is allowed by the exchange before it. -/
theorem TraceObeys.allowed {allow : Option (Q × R) → Q → Prop} {prev : Option (Q × R)}
    {pre post : List (Q × R)} {e : Q × R} (h : TraceObeys allow prev (pre ++ e :: post)) :
    allow (pre.getLast?.or prev) e.1 :=
  (traceObeys_append.mp h).2.1

/-! ## Which questions a program asks -/

/-- Every question the program asks satisfies `P`, whatever the answers are. -/
def Asks (P : Q → Prop) : Prog Q R α → Prop
  | ret _ => True
  | ask q k => P q ∧ ∀ r, (k r).Asks P

theorem Asks.bind {P : Q → Prop} {p : Prog Q R α} {f : α → Prog Q R β} (hp : p.Asks P)
    (hf : ∀ a, (f a).Asks P) : (p >>= f).Asks P := by
  induction p with
  | ret a => exact hf a
  | ask q k ih => exact ⟨hp.1, fun r => ih r (hp.2 r)⟩

theorem Asks.query {P : Q → Prop} {q : Q} (h : P q) : (query q : Prog Q R R).Asks P :=
  ⟨h, fun _ => trivial⟩

theorem Asks.trace [DecidableEq Q] {P : Q → Prop} {p : Prog Q R α} {tr : List (Q × R)} {a : α}
    (hp : p.Asks P) (hr : p.Runs tr a) : ∀ e ∈ tr, P e.1 := by
  induction p generalizing tr with
  | ret b =>
    obtain ⟨rfl, -⟩ := runs_ret.mp hr
    exact fun e he => absurd he List.not_mem_nil
  | ask q k ih =>
    obtain ⟨r, tr, rfl, hk⟩ := runs_ask.mp hr
    exact List.forall_mem_cons.mpr ⟨hp.1, ih r (hp.2 r) hk⟩

/-! ## A program as part of a larger one -/

/-- The program with its questions asked as questions of another kind, whose answers contain the
    ones it expects. -/
def translate {Q' R' : Type} (f : Q → Q') (g : R' → R) : Prog Q R α → Prog Q' R' α
  | ret a => ret a
  | ask q k => ask (f q) fun r => (k (g r)).translate f g

theorem asks_translate {Q' R' : Type} {P : Q' → Prop} {f : Q → Q'} {g : R' → R}
    (h : ∀ q, P (f q)) (p : Prog Q R α) : (p.translate f g).Asks P := by
  induction p with
  | ret a => trivial
  | ask q k ih => exact ⟨h q, fun r => ih (g r)⟩

/-- A run inside the larger program is a run of the program itself. -/
theorem Runs.of_translate {Q' R' : Type} [DecidableEq Q] [DecidableEq Q'] {f : Q → Q'} {g : R' → R}
    {p : Prog Q R α} {tr : List (Q' × R')} {a : α} (h : (p.translate f g).Runs tr a) :
    ∃ tr', p.Runs tr' a := by
  induction p generalizing tr with
  | ret b => exact ⟨[], runs_ret.mpr ⟨rfl, (runs_ret.mp h).2⟩⟩
  | ask q k ih =>
    obtain ⟨r, tr, -, hk⟩ := runs_ask.mp h
    obtain ⟨tr', hk'⟩ := ih (g r) hk
    exact ⟨(q, g r) :: tr', runs_ask.mpr ⟨g r, tr', rfl, hk'⟩⟩

/-! ## A call that is given up when it fails -/

section Check

variable [DecidableEq Q]

/-- `if (p) return bad;`, and what comes after it. -/
theorem runs_check {p : Prog Q R Int} {bad : β} {rest : Prog Q R β} {tr : List (Q × R)} {b : β} :
    (p >>= fun r => if r ≠ 0 then ret bad else rest).Runs tr b ↔
      (∃ r, r ≠ 0 ∧ p.Runs tr r ∧ b = bad) ∨
        ∃ tr₁ tr₂, tr = tr₁ ++ tr₂ ∧ p.Runs tr₁ 0 ∧ rest.Runs tr₂ b := by
  rw [runs_bind]
  constructor
  · intro h
    rcases h with ⟨tr₁, r, tr₂, rfl, hp, hrest⟩
    by_cases hr : r = 0
    · subst hr
      exact .inr ⟨tr₁, tr₂, rfl, hp, hrest⟩
    · rw [if_pos hr] at hrest
      obtain ⟨rfl, rfl⟩ := runs_ret.mp hrest
      exact .inl ⟨r, hr, by rwa [List.append_nil], rfl⟩
  · intro h
    rcases h with ⟨r, hr, hp, rfl⟩ | ⟨tr₁, tr₂, rfl, hp, hrest⟩
    · exact ⟨tr, r, [], (List.append_nil _).symm, hp, by rw [if_pos hr]; exact runs_ret.mpr ⟨rfl, rfl⟩⟩
    · exact ⟨tr₁, 0, tr₂, rfl, hp, hrest⟩

end Check

theorem Asks.check {P : Q → Prop} {p : Prog Q R Int} {bad : β} {rest : Prog Q R β} (hp : p.Asks P)
    (hrest : rest.Asks P) : (p >>= fun r => if r ≠ 0 then ret bad else rest).Asks P := by
  refine hp.bind fun r => ?_
  by_cases hr : r = 0
  · rw [if_neg (not_not.mpr hr)]
    exact hrest
  · rw [if_pos hr]
    trivial

end Prog

end Lib
end Lcom

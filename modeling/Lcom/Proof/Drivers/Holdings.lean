import Lcom.Lab5.Move
import Lcom.Lib.Monitor
import Lcom.Proof.Drivers.System

/-!
# What a program holds of the machine

Interrupt policies and the graphics mode are taken and given back. `Holdings.step` is the order a
program has to keep with them: it sets no policy twice, removes none it does not hold, changes the mode
from text to graphics and back, and waits for messages while it holds exactly what its loop needs — a
policy too few and the loop may wait for ever, one too many and its interrupts are lost.

The programs are put together from a few calls. Each has its rule here, for a monitor that follows the
trace (`Lib/Monitor.lean`).
-/

namespace Lcom

open Lib

/-- The policies that are set, and whether the screen is in a graphics mode. -/
structure Holdings where
  policies : Finset Hook
  graphics : Bool
  deriving DecidableEq

namespace Holdings

def nothing : Holdings := ⟨∅, false⟩

/-- What is held after an exchange, if the program may ask for it; `needs` is for its loop. -/
def step (needs h : Holdings) : SysEvent → Option Holdings
  | (.irqSetPolicy _ _ hook, r) =>
    if hook ∈ h.policies then none
    else some (if r.failed then h else { h with policies := insert hook h.policies })
  | (.irqRmPolicy hook, r) =>
    if hook ∈ h.policies then
      some (if r.failed then h else { h with policies := h.policies.erase hook })
    else none
  | (.int86 _ _ _, r) =>
    if h.graphics then none else some (if r.failed then h else { h with graphics := true })
  | (.vgExit, r) =>
    if h.graphics then some (if r.failed then h else { h with graphics := false }) else none
  | (.driverReceive, _) => if h = needs then some h else none
  | _ => some h

theorem step_wait (needs : Holdings) (r : SysReply) :
    step needs needs (.driverReceive, r) = some needs := by
  unfold step
  exact if_pos rfl

/-- What is held at the end: nothing when the program returns 0, and what the loop needs while it is
    still waiting. A program that gives up returns with one of `left`. -/
def Leaves (h needs : Holdings) (left : List Holdings) : Lab5.Ending → Prop
  | .returned r => if r = 0 then h = nothing else h ∈ left
  | .running => h = needs
  | _ => True

theorem leaves_one {h needs : Holdings} {left : List Holdings} (hmem : h ∈ left) :
    h.Leaves needs left (.returned 1) := by
  change if (1 : Int) = 0 then h = nothing else h ∈ left
  rw [if_neg one_ne_zero]
  exact hmem

end Holdings

/-- Every run of a program keeps the order, and ends with what it should; `ending` is how a result
    ends it. -/
def KeepsHoldings {α : Type} (needs : Holdings) (left : List Holdings) (ending : α → Lab5.Ending)
    (p : Sys α) : Prop :=
  ∀ tr a, p.Runs tr a → ∃ h, run (Holdings.step needs) .nothing tr = some h ∧
    h.Leaves needs left (ending a)

/-- How a program ends that has a code once it has returned. -/
def endingOf : Option Int → Lab5.Ending
  | none => .running
  | some r => .returned r

theorem keepsHoldings_of_within {α : Type} {needs : Holdings} {left : List Holdings}
    {ending : α → Lab5.Ending} {p : Sys α}
    (h : p.Within (Holdings.step needs) (fun h a => h.Leaves needs left (ending a)) .nothing) :
    KeepsHoldings needs left ending p := fun _ _ hrun => h.runs hrun

/-! ## Calls -/

section
variable {α : Type} {needs h : Holdings} {post : Holdings → α → Prop}

/-- A call that takes or gives back something when it succeeds. -/
theorem within_call {call : SysCall} {h' : Holdings} {bad : α} {rest : Sys α}
    (hstep : ∀ r, Holdings.step needs h (call, r) = some (if r.failed then h else h'))
    (hbad : post h bad) (hrest : rest.Within (Holdings.step needs) post h') :
    (sysCode call >>= fun r => if r ≠ 0 then Prog.ret bad else rest).Within
      (Holdings.step needs) post h := by
  have hcode : (sysCode call).Within (Holdings.step needs)
      (fun m r => r ≠ 0 ∧ m = h ∨ r = 0 ∧ m = h') h := by
    intro r
    refine ⟨_, hstep r, ?_⟩
    change Prog.Within _ _ _ (if r.failed then Prog.ret 1 else Prog.ret 0)
    split
    · exact .inl ⟨one_ne_zero, rfl⟩
    · exact .inr ⟨rfl, rfl⟩
  refine hcode.bind fun m r hm => ?_
  rcases hm with ⟨hr, rfl⟩ | ⟨rfl, rfl⟩
  · rw [if_pos hr]
    exact hbad
  · rw [if_neg (not_not.mpr rfl)]
    exact hrest

theorem within_subscribe (h' : Holdings) {irq : UInt8} {exclusive : Bool} {hook : Hook} {bad : α}
    {rest : Sys α} (hfree : hook ∉ h.policies)
    (hnext : { h with policies := insert hook h.policies } = h') (hbad : post h bad)
    (hrest : rest.Within (Holdings.step needs) post h') :
    (sysCode (.irqSetPolicy irq exclusive hook) >>= fun r =>
      if r ≠ 0 then Prog.ret bad else rest).Within (Holdings.step needs) post h := by
  subst hnext
  exact within_call (fun _ => if_neg hfree) hbad hrest

theorem within_unsubscribe (h' : Holdings) {hook : Hook} {bad : α} {rest : Sys α}
    (hheld : hook ∈ h.policies) (hnext : { h with policies := h.policies.erase hook } = h')
    (hbad : post h bad) (hrest : rest.Within (Holdings.step needs) post h') :
    (sysCode (.irqRmPolicy hook) >>= fun r => if r ≠ 0 then Prog.ret bad else rest).Within
      (Holdings.step needs) post h := by
  subst hnext
  exact within_call (fun _ => if_pos hheld) hbad hrest

theorem within_gpuSetMode {mode : UInt16} {bad : α} {rest : Sys α} {policies : Finset Hook}
    (hbad : post ⟨policies, false⟩ bad)
    (hrest : rest.Within (Holdings.step needs) post ⟨policies, true⟩) :
    (gpuSetMode mode >>= fun r => if r ≠ 0 then Prog.ret bad else rest).Within
      (Holdings.step needs) post ⟨policies, false⟩ := by
  have hstep : ∀ r, Holdings.step needs ⟨policies, false⟩ (.int86 0x10 0x4F02 (0x4000 ||| mode), r) =
      some (if r.failed then ⟨policies, false⟩ else ⟨policies, true⟩) :=
    fun r => rfl
  exact within_call hstep hbad hrest

theorem within_vgExit {bad : α} {rest : Sys α} {policies : Finset Hook}
    (hbad : post ⟨policies, true⟩ bad)
    (hrest : rest.Within (Holdings.step needs) post ⟨policies, false⟩) :
    (vgExit >>= fun r => if r ≠ 0 then Prog.ret bad else rest).Within (Holdings.step needs) post
      ⟨policies, true⟩ := by
  have hstep : ∀ r, Holdings.step needs ⟨policies, true⟩ (.vgExit, r) =
      some (if r.failed then ⟨policies, true⟩ else ⟨policies, false⟩) := fun r => rfl
  exact within_call hstep hbad hrest

/-- A program that only touches ports takes and gives back nothing. -/
theorem within_driver (p : Driver α) :
    (Driver.sys p).Within (Holdings.step needs) (fun h' _ => h' = h) h := by
  refine Prog.Asks.within (asks_driver (P := fun call => ∃ op, call = .port op)
    (fun op => ⟨op, rfl⟩) p) fun q r hq => ?_
  obtain ⟨op, rfl⟩ := hq
  rfl

/-- Nor does one that gives up when such a program fails. -/
theorem within_driver_check {p : Driver Int} {bad : α} {rest : Sys α} (hbad : post h bad)
    (hrest : rest.Within (Holdings.step needs) post h) :
    (Driver.sys p >>= fun r => if r ≠ 0 then Prog.ret bad else rest).Within
      (Holdings.step needs) post h := by
  refine (within_driver p).bind fun h' r hsame => ?_
  subst hsame
  split
  · exact hbad
  · exact hrest

/-- A loop over messages leaves everything as it is, provided that nothing else is held. -/
theorem within_receiveLoop {σ : Type} {looping : σ → Bool} {iterate : σ → SysReply → Driver σ}
    (fuel : Nat) (s : σ) :
    (receiveLoop looping iterate fuel s).Within (Holdings.step needs) (fun h' _ => h' = needs)
      needs := by
  induction fuel generalizing s with
  | zero => exact rfl
  | succ fuel ih =>
    unfold receiveLoop
    split
    · intro r
      refine ⟨needs, Holdings.step_wait needs r, ?_⟩
      refine (within_driver _).bind fun h' s' hsame => ?_
      subst hsame
      exact ih s'
    · exact rfl

/-- The loop, and what comes after it. -/
theorem within_receiveLoop_bind {σ : Type} {looping : σ → Bool} {iterate : σ → SysReply → Driver σ}
    {after : Bool × σ → Sys α} {fuel : Nat} {s : σ}
    (hafter : ∀ o, (after o).Within (Holdings.step needs) post needs) :
    (receiveLoop looping iterate fuel s >>= after).Within (Holdings.step needs) post needs := by
  refine (within_receiveLoop fuel s).bind fun h' o hsame => ?_
  subst hsame
  exact hafter o

end

end Lcom

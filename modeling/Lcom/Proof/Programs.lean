import Lcom.Lab2.TimerTest
import Lcom.Lab3.KbdTest
import Lcom.Lab3.TimedScan
import Lcom.Lab4.PacketTest
import Lcom.Lab5.Still
import Lcom.Proof.Drivers.Holdings
import Lcom.Proof.Game.Shutdown
import Lcom.Proof.Lab5.Controller

/-!
# What the programs hold

Every program that takes interrupt policies or the graphics mode, followed through its calls
(`Proof/Drivers/Holdings.lean`). None of them undoes anything on its way out of a failure: what a
program that returns 1 may leave behind is what it held between two of its calls.
-/

namespace Lcom

open Lib Holdings

/-! ## Lab 2, lab 3 and lab 4 -/

theorem keeps_timerTestInt (time : UInt8) (counter : UInt32) (fuel : Nat) :
    KeepsHoldings ⟨{.timer}, false⟩ [nothing, ⟨{.timer}, false⟩] (fun o => endingOf o.1)
      (timerTestInt time counter fuel) := by
  refine keepsHoldings_of_within ?_
  unfold timerTestInt
  refine within_subscribe ⟨{.timer}, false⟩ (by decide) (by decide) (leaves_one (by decide))
    (within_receiveLoop_bind fun o => ?_)
  dsimp only
  split
  · exact rfl
  · exact within_unsubscribe nothing (by decide) (by decide) (leaves_one (by decide)) rfl

theorem keeps_kbdTestScan (kbd : KbdGlobals) (fuel : Nat) :
    KeepsHoldings ⟨{.keyboard}, false⟩ [nothing, ⟨{.keyboard}, false⟩] (fun o => endingOf o.1)
      (kbdTestScan kbd fuel) := by
  refine keepsHoldings_of_within ?_
  unfold kbdTestScan
  refine within_subscribe ⟨{.keyboard}, false⟩ (by decide) (by decide) (leaves_one (by decide))
    (within_receiveLoop_bind fun o => ?_)
  dsimp only
  split
  · exact rfl
  · exact within_unsubscribe nothing (by decide) (by decide) (leaves_one (by decide)) rfl

theorem keeps_mouseTestPacket (driver : MouseDriver) (packet : Packet) (aknl aknl' : UInt8)
    (cnt : UInt32) (fuel : Nat) :
    KeepsHoldings ⟨{.mouse}, false⟩ [nothing, ⟨{.mouse}, false⟩] (fun o => endingOf o.1)
      (mouseTestPacket driver packet aknl aknl' cnt fuel) := by
  refine keepsHoldings_of_within ?_
  unfold mouseTestPacket
  refine within_driver_check (leaves_one (by decide)) ?_
  refine within_subscribe ⟨{.mouse}, false⟩ (by decide) (by decide) (leaves_one (by decide))
    (within_receiveLoop_bind fun o => ?_)
  dsimp only
  split
  · exact rfl
  · refine within_unsubscribe nothing (by decide) (by decide) (leaves_one (by decide)) ?_
    exact within_driver_check (leaves_one (by decide)) rfl

/-- The loop of the timed scan, which is one over messages as well. -/
theorem within_timedScanLoop {needs : Holdings} (n : UInt8) (timer_freq : UInt16) (fuel : Nat)
    (s : TimedScan) :
    (timedScanLoop n timer_freq fuel s).Within (Holdings.step needs) (fun h' _ => h' = needs)
      needs := by
  induction fuel generalizing s with
  | zero =>
    unfold timedScanLoop
    split
    · exact rfl
    · exact rfl
  | succ fuel ih =>
    unfold timedScanLoop
    split
    · intro r
      refine ⟨needs, Holdings.step_wait needs r, ?_⟩
      refine (within_driver _).bind fun h' s' hsame => ?_
      subst hsame
      exact ih s'
    · exact rfl

theorem keeps_kbdTestTimedScan (n : UInt8) (timer_freq : UInt16) (kbd : KbdGlobals)
    (counter : UInt32) (fuel : Nat) :
    KeepsHoldings ⟨{.timer, .keyboard}, false⟩
      [nothing, ⟨{.keyboard}, false⟩, ⟨{.timer, .keyboard}, false⟩, ⟨{.timer}, false⟩]
      (fun o => endingOf (o.map Prod.fst)) (kbdTestTimedScan n timer_freq kbd counter fuel) := by
  refine keepsHoldings_of_within ?_
  unfold kbdTestTimedScan
  refine within_subscribe ⟨{.keyboard}, false⟩ (by decide) (by decide) (leaves_one (by decide)) ?_
  refine within_subscribe ⟨{.timer, .keyboard}, false⟩ (by decide) (by decide)
    (leaves_one (by decide)) ?_
  refine (within_timedScanLoop n timer_freq fuel _).bind fun h o hsame => ?_
  subst hsame
  cases o with
  | none => exact rfl
  | some s =>
    refine within_unsubscribe ⟨{.timer}, false⟩ (by decide) (by decide) (leaves_one (by decide)) ?_
    exact within_unsubscribe nothing (by decide) (by decide) (leaves_one (by decide)) rfl

/-! ## Lab 5 -/

namespace Lab5

/-- The mapping of the video memory is not something a program gives back. -/
theorem within_panel {needs h : Holdings} (heap vram : Nat → UInt8) (mode : UInt16) (d : Panel) :
    (d.gpuInitMemIndexation heap vram mode).Within (Holdings.step needs) (fun h' _ => h' = h) h := by
  intro r
  refine ⟨h, rfl, ?_⟩
  change Prog.Within _ _ _ (if r.failed then _ else _)
  split
  · rfl
  · exact within_call (fun _ => by rw [ite_self]; rfl) rfl
      (within_call (fun _ => by rw [ite_self]; rfl) rfl
        (within_call (fun _ => by rw [ite_self]; rfl) rfl rfl))

/-- What the two loops of moving images need, and what they may leave behind when they give up. -/
def moverNeeds : Holdings := ⟨{.timer, .keyboard}, true⟩

def moverLeft : List Holdings :=
  [nothing, ⟨{.keyboard}, false⟩, ⟨{.timer, .keyboard}, false⟩, moverNeeds, ⟨{.timer}, false⟩]

/-- A body leaves its loop to return 1, or because it has faulted. -/
def Mover.GivesUp (s : Mover) : Prop :=
  ∀ ending, s.left = some ending → ending = .returned 1 ∨ ∃ f, ending = .faulted f

section
variable {s s' : Mover}

theorem Mover.givesUp_of_left (h : s.GivesUp) (hleft : s'.left = s.left) : s'.GivesUp := by
  intro ending hending
  exact h ending (hleft.symm.trans hending)

theorem Mover.givesUp_returned (h : s.left = some (.returned 1)) : s.GivesUp := by
  intro ending hending
  rw [h] at hending
  exact .inl (Option.some.inj hending).symm

theorem Mover.givesUp_orFault {o : Except Fault Mover} (h : ∀ s', o = .ok s' → s'.GivesUp) :
    (s.orFault o).GivesUp := by
  cases o with
  | ok s' => exact h s' rfl
  | error f =>
    intro ending hending
    exact .inr ⟨f, (Option.some.inj hending).symm⟩

theorem Mover.givesUp_showFrame (h : s.GivesUp) (hshow : s.showFrame = .ok s') : s'.GivesUp := by
  obtain ⟨panel, -, hret⟩ := bind_eq_ok.mp hshow
  cases hret
  exact givesUp_of_left h rfl

theorem Mover.givesUp_stepFrame {img : XpmImage} (h : s.GivesUp)
    (hstep : s.stepFrame img = .ok s') : s'.GivesUp := by
  obtain ⟨⟨r, panel⟩, -, hdraw⟩ := bind_eq_ok.mp hstep
  dsimp only at hdraw
  split at hdraw
  · cases hdraw
    exact givesUp_returned rfl
  · obtain ⟨⟨r', panel'⟩, -, hshow⟩ := bind_eq_ok.mp hdraw
    dsimp only at hshow
    split at hshow
    · cases hshow
      exact givesUp_returned rfl
    · refine givesUp_showFrame ?_ hshow
      exact givesUp_of_left h rfl

theorem Mover.givesUp_timerBranch {img : XpmImage} {clocks_per_frame : UInt16} (h : s.GivesUp)
    (hstep : s.timerBranch img clocks_per_frame = .ok s') : s'.GivesUp := by
  obtain ⟨due, -, hframe⟩ := bind_eq_ok.mp hstep
  split at hframe
  · refine givesUp_stepFrame ?_ hframe
    exact givesUp_of_left h rfl
  · cases hframe
    exact givesUp_of_left h rfl

theorem Controller.givesUp_timerBranch {img : XpmImage} {clocks_per_frame : UInt16} (h : s.GivesUp)
    (hstep : Controller.timerBranch img clocks_per_frame s = .ok s') : s'.GivesUp := by
  obtain ⟨due, -, hframe⟩ := bind_eq_ok.mp hstep
  split at hframe
  · obtain ⟨⟨r, panel⟩, -, hdraw⟩ := bind_eq_ok.mp hframe
    obtain ⟨⟨r', panel'⟩, -, hshow⟩ := bind_eq_ok.mp hdraw
    dsimp only at hshow
    split at hshow
    · cases hshow
      exact Mover.givesUp_returned rfl
    · refine Mover.givesUp_showFrame ?_ hshow
      exact Mover.givesUp_of_left h rfl
  · cases hframe
    exact Mover.givesUp_of_left h rfl

end

/-- The three calls at the end, in the order of the source. -/
theorem within_finish {s : Mover} (h : s.GivesUp) :
    s.finish.Within (Holdings.step moverNeeds)
      (fun h ending => h.Leaves moverNeeds moverLeft ending) moverNeeds := by
  unfold Mover.finish
  split
  · next ending hleft =>
    rcases h ending hleft with rfl | ⟨f, rfl⟩
    · exact @leaves_one moverNeeds moverNeeds moverLeft (by decide)
    · trivial
  · refine within_vgExit (leaves_one (by decide)) ?_
    refine within_unsubscribe ⟨{.timer}, false⟩ (by decide) (by decide) (leaves_one (by decide)) ?_
    exact within_unsubscribe nothing (by decide) (by decide) (leaves_one (by decide)) rfl

section
variable {σ : Type} {looping : σ → Bool} {iterate : σ → SysReply → Driver σ}

/-- From `gpu_init_mem_indexation` on, with the mode set before. -/
theorem within_moverLoop (toMover : σ → Mover) (start : Panel → σ) (heap vram : Nat → UInt8)
    (panel : Panel) (fuel : Nat) (hstart : ∀ panel, (toMover (start panel)).GivesUp)
    (hstep : ∀ s e s', (toMover s).GivesUp → receiveStep looping iterate s e = some s' →
      (toMover s').GivesUp) :
    (panel.gpuInitMemIndexation heap vram 0x105 >>= fun made =>
      match made with
      | none => Prog.ret (.panicked, start panel)
      | some (r, panel) =>
        if r ≠ 0 then Prog.ret (.returned 1, start panel)
        else receiveLoop looping iterate fuel (start panel) >>= fun o =>
          if !o.1 then Prog.ret (.running, o.2)
          else (toMover o.2).finish >>= fun ending => Prog.ret (ending, o.2)).Within
      (Holdings.step moverNeeds) (fun h (o : Ending × σ) => h.Leaves moverNeeds moverLeft o.1)
      moverNeeds := by
  refine (within_panel heap vram 0x105 panel).bind fun h made hsame => ?_
  subst hsame
  cases made with
  | none => trivial
  | some made =>
    obtain ⟨r, panel'⟩ := made
    dsimp only
    split
    · exact @leaves_one moverNeeds moverNeeds moverLeft (by decide)
    · have hgivesUp : ∀ tr o, (receiveLoop looping iterate fuel (start panel')).Runs tr o →
          (toMover o.2).GivesUp := by
        intro tr o hrun
        obtain ⟨-, hsteps, -⟩ := @receiveLoop_run _ _ _ _ _ _ _ [] _ hrun rfl rfl
        exact run_invariant (fun s => (toMover s).GivesUp) hstep (hstart panel') hsteps
      refine ((within_receiveLoop fuel _).and_of_runs hgivesUp).bind fun h o hloop => ?_
      obtain ⟨rfl, hleft⟩ := hloop
      split
      · exact rfl
      · exact (within_finish hleft).bind fun h ending hends => hends

end

theorem keeps_videoTestMove (hz : UInt32) (img : XpmImage) (heap vram : Nat → UInt8)
    (xi yi : UInt16) (fr_rate : UInt8) (kbd : KbdGlobals) (counter : UInt32) (fuel : Nat) :
    KeepsHoldings moverNeeds moverLeft Prod.fst
      (videoTestMove hz img heap vram xi yi fr_rate kbd counter fuel) := by
  refine keepsHoldings_of_within ?_
  unfold videoTestMove
  refine within_subscribe ⟨{.keyboard}, false⟩ (by decide) (by decide) (leaves_one (by decide)) ?_
  refine within_subscribe ⟨{.timer, .keyboard}, false⟩ (by decide) (by decide)
    (leaves_one (by decide)) ?_
  dsimp only
  split
  · trivial
  · refine within_gpuSetMode (leaves_one (by decide)) ?_
    refine within_moverLoop id (fun panel => { Mover.start kbd counter xi yi with panel }) heap vram
      _ fuel (fun panel ending hending => by cases hending) fun s e s' hs hstep => ?_
    obtain ⟨kbd', rfl⟩ := Mover.step_cases hstep
    split
    · refine Mover.givesUp_orFault fun s' hbranch => Mover.givesUp_timerBranch ?_ hbranch
      exact Mover.givesUp_of_left hs rfl
    · exact Mover.givesUp_of_left hs rfl

theorem keeps_videoTestController (hz : UInt32) (penguin : XpmImage) (heap vram : Nat → UInt8)
    (kbd : KbdGlobals) (counter : UInt32) (fuel : Nat) :
    KeepsHoldings moverNeeds moverLeft Prod.fst
      (videoTestController hz penguin heap vram kbd counter fuel) := by
  refine keepsHoldings_of_within ?_
  unfold videoTestController
  refine within_subscribe ⟨{.keyboard}, false⟩ (by decide) (by decide) (leaves_one (by decide)) ?_
  refine within_subscribe ⟨{.timer, .keyboard}, false⟩ (by decide) (by decide)
    (leaves_one (by decide)) ?_
  refine within_gpuSetMode (leaves_one (by decide)) ?_
  refine within_moverLoop Controller.toMover
    (fun panel => { Controller.start (1 * hz.toUInt16.toNat) (Mover.start kbd counter 100 100) with panel })
    heap vram _ fuel (fun panel ending hending => by cases hending) fun c e c' hc hstep => ?_
  rcases Controller.step_cases hstep with ⟨rfl, -, -⟩ | ⟨c₁, ⟨-, hkeyed⟩, rfl⟩
  · exact hc
  · obtain ⟨x, y, hmove⟩ := @Controller.toMover_move (1 * hz.toUInt16.toNat) c
    obtain ⟨kbd', hkbd⟩ := hkeyed.toMover
    have hgivesUp : c₁.toMover.GivesUp := by
      rw [hkbd, hmove]
      exact Mover.givesUp_of_left hc rfl
    split
    · exact Mover.givesUp_orFault fun s' hbranch => Controller.givesUp_timerBranch hgivesUp hbranch
    · exact hgivesUp

/-- What the programs that draw once need while they wait, and what they may leave behind. -/
def stillNeeds : Holdings := ⟨{.keyboard}, true⟩

def stillLeft : List Holdings := [nothing, ⟨∅, true⟩, stillNeeds]

/-- The wait gives back the policy it has taken. -/
theorem within_auxWaitEsc (kbd : KbdGlobals) (fuel : Nat) :
    (auxWaitEsc kbd fuel).Within (Holdings.step stillNeeds)
      (fun h o => match o.1 with
        | none => h = stillNeeds
        | some r => if r = 0 then h = ⟨∅, true⟩ else h ∈ stillLeft) ⟨∅, true⟩ := by
  unfold auxWaitEsc
  have hgraphics : (⟨∅, true⟩ : Holdings) ∈ stillLeft := by decide
  have hneeds : stillNeeds ∈ stillLeft := by decide
  refine within_subscribe stillNeeds (by decide) (by decide) hgraphics
    (within_receiveLoop_bind fun o => ?_)
  dsimp only
  split
  · exact rfl
  · exact within_unsubscribe ⟨∅, true⟩ (by decide) (by decide) hneeds rfl

theorem keeps_showStill (heap vram : Nat → UInt8) (mode : UInt16)
    (draw : Panel → Except Fault (Int × Panel)) (kbd : KbdGlobals) (fuel : Nat) :
    KeepsHoldings stillNeeds stillLeft Prod.fst (showStill heap vram mode draw kbd fuel) := by
  refine keepsHoldings_of_within ?_
  have hone : ∀ h panel, h ∈ stillLeft →
      (Prog.ret (.returned 1, panel) : Sys (Ending × Panel)).Within (Holdings.step stillNeeds)
        (fun h o => h.Leaves stillNeeds stillLeft o.1) h :=
    fun h panel hmem => @leaves_one h stillNeeds stillLeft hmem
  unfold showStill
  refine (within_panel heap vram mode _).bind fun h made hsame => ?_
  subst hsame
  cases made with
  | none => trivial
  | some made =>
    obtain ⟨r, panel⟩ := made
    dsimp only
    split
    · exact hone nothing panel (by decide)
    refine within_gpuSetMode (leaves_one (by decide)) ?_
    cases draw panel with
    | error f => trivial
    | ok drawn =>
      obtain ⟨r', panel'⟩ := drawn
      dsimp only
      split
      · exact hone ⟨∅, true⟩ panel' (by decide)
      refine (within_auxWaitEsc kbd fuel).bind fun h o hwait => ?_
      obtain ⟨code, kbd'⟩ := o
      cases code with
      | none => exact hwait
      | some r =>
        dsimp only at hwait ⊢
        by_cases hr : r = 0
        · rw [if_pos hr] at hwait
          rw [if_neg (not_not.mpr hr), hwait]
          exact within_vgExit (leaves_one (by decide)) rfl
        · rw [if_neg hr] at hwait
          rw [if_pos hr]
          exact hone h panel' hwait

theorem keeps_videoTestInit (mode : UInt16) :
    KeepsHoldings nothing [nothing, ⟨∅, true⟩] Ending.returned (videoTestInit mode) := by
  refine keepsHoldings_of_within ?_
  unfold videoTestInit
  refine within_gpuSetMode (leaves_one (by decide)) ?_
  exact within_vgExit (leaves_one (by decide)) rfl

end Lab5

open Lab5 in
/-- **The lab programs take what they need, wait with it, and return 0 only when all of it has been
    given back.** -/
theorem labs_keep_holdings :
    (∀ time counter fuel, KeepsHoldings ⟨{.timer}, false⟩ [nothing, ⟨{.timer}, false⟩]
        (fun o => endingOf o.1) (timerTestInt time counter fuel)) ∧
      (∀ kbd fuel, KeepsHoldings ⟨{.keyboard}, false⟩ [nothing, ⟨{.keyboard}, false⟩]
        (fun o => endingOf o.1) (kbdTestScan kbd fuel)) ∧
      (∀ n timer_freq kbd counter fuel, KeepsHoldings ⟨{.timer, .keyboard}, false⟩
        [nothing, ⟨{.keyboard}, false⟩, ⟨{.timer, .keyboard}, false⟩, ⟨{.timer}, false⟩]
        (fun o => endingOf (o.map Prod.fst)) (kbdTestTimedScan n timer_freq kbd counter fuel)) ∧
      (∀ driver packet aknl aknl' cnt fuel,
        KeepsHoldings ⟨{.mouse}, false⟩ [nothing, ⟨{.mouse}, false⟩] (fun o => endingOf o.1)
          (mouseTestPacket driver packet aknl aknl' cnt fuel)) ∧
      (∀ mode, KeepsHoldings nothing [nothing, ⟨∅, true⟩] Ending.returned (videoTestInit mode)) ∧
      (∀ heap vram mode x y width height color kbd fuel, KeepsHoldings stillNeeds stillLeft Prod.fst
        (videoTestRectangle heap vram mode x y width height color kbd fuel)) ∧
      (∀ c heap vram mode no_rectangles first step kbd fuel,
        KeepsHoldings stillNeeds stillLeft Prod.fst
          (videoTestPattern c heap vram mode no_rectangles first step kbd fuel)) ∧
      (∀ img heap vram x y kbd fuel, KeepsHoldings stillNeeds stillLeft Prod.fst
        (videoTestXpm img heap vram x y kbd fuel)) ∧
      (∀ hz img heap vram xi yi fr_rate kbd counter fuel,
        KeepsHoldings moverNeeds moverLeft Prod.fst
          (videoTestMove hz img heap vram xi yi fr_rate kbd counter fuel)) ∧
      ∀ hz penguin heap vram kbd counter fuel, KeepsHoldings moverNeeds moverLeft Prod.fst
        (videoTestController hz penguin heap vram kbd counter fuel) :=
  ⟨keeps_timerTestInt, keeps_kbdTestScan, keeps_kbdTestTimedScan, keeps_mouseTestPacket,
    keeps_videoTestInit, fun _ _ _ _ _ _ _ _ _ _ => keeps_showStill _ _ _ _ _ _,
    fun _ _ _ _ _ _ _ _ _ => keeps_showStill _ _ _ _ _ _,
    fun _ _ _ _ _ _ _ => keeps_showStill _ _ _ _ _ _, keeps_videoTestMove,
    keeps_videoTestController⟩

/-! ## The project -/

def projNeeds : Holdings := ⟨{.mouse, .timer, .keyboard}, true⟩

/-- What `proj_main_loop` may leave behind: `proj_init` and `proj_shutdown` may each stop half way. -/
def projLeft : List Holdings :=
  [nothing, ⟨{.keyboard}, false⟩, ⟨{.timer, .keyboard}, false⟩, ⟨{.mouse, .timer, .keyboard}, false⟩,
    projNeeds, ⟨{.mouse, .timer}, true⟩, ⟨{.mouse}, true⟩, ⟨∅, true⟩]

/-- How `proj_main_loop` ends. -/
def Outcome.ending : Outcome Int → Lab5.Ending
  | .done r => .returned r
  | .panicked => .panicked
  | .faulted f => .faulted f
  | .running _ => .running

/-- What is held after `proj_init`: all of it, or what was taken before the call that failed. -/
def AfterInit (h : Holdings) : Outcome (Int × World) → Prop
  | .done (r, _) => if r = 0 then h = projNeeds else h ∈ projLeft
  | .running _ => False
  | _ => True

theorem afterInit_one {h : Holdings} {w : World} (hmem : h ∈ projLeft) : AfterInit h (.done (1, w)) := by
  change if (1 : Int) = 0 then h = projNeeds else h ∈ projLeft
  rw [if_neg one_ne_zero]
  exact hmem

/-- The mapping of the video memory is not given back either. -/
theorem within_gpuInitMemIndexation {needs h : Holdings} (gpu_res_info : GpuResInfo) (mode : UInt16) :
    (gpuInitMemIndexation gpu_res_info mode).Within (Holdings.step needs) (fun h' _ => h' = h) h := by
  intro r
  refine ⟨h, rfl, ?_⟩
  change Prog.Within _ _ _ (if r.failed then _ else _)
  split
  · rfl
  · exact within_call (fun _ => by rw [ite_self]; rfl) rfl
      (within_call (fun _ => by rw [ite_self]; rfl) rfl
        (within_call (fun _ => by rw [ite_self]; rfl) rfl rfl))

theorem within_projInit (host : Host) (w : World) :
    (projInit host w).Within (Holdings.step projNeeds) AfterInit nothing := by
  unfold projInit
  refine within_subscribe ⟨{.keyboard}, false⟩ (by decide) (by decide) (afterInit_one (by decide)) ?_
  refine within_subscribe ⟨{.timer, .keyboard}, false⟩ (by decide) (by decide)
    (afterInit_one (by decide)) ?_
  refine within_subscribe ⟨{.mouse, .timer, .keyboard}, false⟩ (by decide) (by decide)
    (afterInit_one (by decide)) ?_
  refine within_driver_check (afterInit_one (by decide)) ?_
  refine within_driver_check (afterInit_one (by decide)) ?_
  refine within_driver_check (afterInit_one (by decide)) ?_
  refine within_gpuSetMode (afterInit_one (by decide)) ?_
  refine (within_gpuInitMemIndexation _ _).bind fun h made hsame => ?_
  subst hsame
  cases made with
  | none => trivial
  | some made =>
    dsimp only
    split
    · exact @afterInit_one projNeeds _ (by decide)
    · split
      · trivial
      · exact rfl

theorem within_mainLoop (host : Host) (fuel : Nat) (w : World) :
    (mainLoop host fuel w).Within (Holdings.step projNeeds) (fun h _ => h = projNeeds) projNeeds := by
  induction fuel generalizing w with
  | zero =>
    unfold mainLoop
    split
    · exact rfl
    · exact rfl
  | succ fuel ih =>
    unfold mainLoop
    split
    · exact rfl
    · intro r
      refine ⟨projNeeds, Holdings.step_wait projNeeds r, ?_⟩
      change Prog.Within _ _ _ (if r.failed then _ else _)
      split
      · exact ih _
      · split
        · have hports : (handleInterrupts host { w with messages := w.messages + 1 } r.msg).Within
              (Holdings.step projNeeds) (fun h _ => h = projNeeds) projNeeds := by
            refine Prog.Asks.within (asks_handleInterrupts (P := fun call => ∃ op, call = .port op)
              (fun op => ⟨op, rfl⟩) host _ _) fun q r hq => ?_
            obtain ⟨op, rfl⟩ := hq
            rfl
          refine hports.bind fun h o hsame => ?_
          subst hsame
          cases o with
          | error f => exact rfl
          | ok w => exact ih w
        · exact ih _

theorem within_projShutdown (host : Host) :
    (projShutdown host).Within (Holdings.step projNeeds)
      (fun h r => if r = 0 then h = nothing else h ∈ projLeft) projNeeds := by
  have hone : ∀ {h : Holdings}, h ∈ projLeft → if (1 : Int) = 0 then h = nothing else h ∈ projLeft :=
    fun hmem => by rwa [if_neg one_ne_zero]
  unfold projShutdown
  refine within_driver_check (hone (by decide)) ?_
  refine within_unsubscribe ⟨{.mouse, .timer}, true⟩ (by decide) (by decide) (hone (by decide)) ?_
  refine within_unsubscribe ⟨{.mouse}, true⟩ (by decide) (by decide) (hone (by decide)) ?_
  refine within_unsubscribe ⟨∅, true⟩ (by decide) (by decide) (hone (by decide)) ?_
  exact within_vgExit (hone (by decide)) rfl

/-- **`proj_main_loop` waits with everything it has taken**, and returns 0 only when all of it has been
    given back. -/
theorem projMainLoop_keeps_holdings (host : Host) (fuel : Nat) :
    KeepsHoldings projNeeds projLeft Outcome.ending (projMainLoop host fuel) := by
  refine keepsHoldings_of_within ?_
  unfold projMainLoop
  refine (within_projInit host World.startup).bind fun h o hinit => ?_
  cases o with
  | panicked => trivial
  | faulted f => trivial
  | running w => exact absurd hinit id
  | done made =>
    obtain ⟨r, w⟩ := made
    change if r = 0 then h = projNeeds else h ∈ projLeft at hinit
    dsimp only
    by_cases hr : r = 0
    · rw [if_pos hr] at hinit
      subst hinit
      rw [if_neg (not_not.mpr hr)]
      refine (within_mainLoop host fuel _).bind fun h o hsame => ?_
      subst hsame
      cases o with
      | panicked => trivial
      | faulted f => trivial
      | running w => exact rfl
      | done w' =>
        refine (within_projShutdown host).bind fun h r' hend => ?_
        by_cases hr' : r' = 0
        · rw [if_pos hr'] at hend
          rw [if_neg (not_not.mpr hr')]
          exact hend
        · rw [if_neg hr'] at hend
          rw [if_pos hr']
          exact @leaves_one h projNeeds projLeft hend
    · rw [if_neg hr] at hinit
      rw [if_pos hr]
      exact @leaves_one h projNeeds projLeft hinit

end Lcom

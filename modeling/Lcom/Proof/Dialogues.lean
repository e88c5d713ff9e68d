import Lcom.Lab3.KbdTest
import Lcom.Lab3.TimedScan
import Lcom.Lab4.PacketTest
import Lcom.Lab5.Still
import Lcom.Proof.Drivers.Dialogue
import Lcom.Proof.Game.Shutdown
import Lcom.Proof.Programs

/-!
# What the programs say to the controller

Every program that touches the ports of the keyboard controller, followed through its accesses
(`Proof/Drivers/Dialogue.lean`). The programs of the keyboard only listen, but for `kbd_test_poll`, which
has the interrupts of the keyboard turned on again; those of the mouse have it report and stop.
-/

namespace Lcom

open Lib Dialogue

/-! ## Lab 3 -/

/-- What a program that only listens comes to. -/
theorem keepsDialogue_of_idle {α : Type} {ending : α → Lab5.Ending} {p : Sys α}
    (h : Speaks false false (fun m _ => m.Idle false) p) : KeepsDialogue false ending p :=
  keepsDialogue_of_speaks fun m hm => (h m hm).mono fun _ _ h _ => h

theorem listens_readScancode (s : KbdTest) : Listens s.readScancode := by
  refine (listens_kbcIh _).bind fun kbd => ?_
  exact listens_pure _

theorem listens_kbdTest_iterate (s : KbdTest) (r : SysReply) : Listens (s.iterate r) := by
  unfold KbdTest.iterate
  split
  · exact listens_pure s
  · split
    · split
      · exact listens_readScancode s
      · exact listens_pure s
    · exact listens_pure s

theorem speaks_kbdTestScan (kbd : KbdGlobals) (fuel : Nat) :
    KeepsDialogue false (fun o => endingOf o.1) (kbdTestScan kbd fuel) := by
  refine keepsDialogue_of_idle ?_
  unfold kbdTestScan
  refine speaks_call ⟨by simp, by simp⟩ (fun m h => h) ?_
  refine (speaks_receiveLoop listens_kbdTest_iterate _ _).bind fun o => ?_
  dsimp only
  split
  · exact fun m h => h
  · exact speaks_call ⟨by simp, by simp⟩ (fun m h => h) fun m h => h

theorem listens_kbdPollLoop (fuel : Nat) (s : KbdTest) : Listens (kbdPollLoop fuel s) := by
  induction fuel generalizing s with
  | zero => exact listens_pure _
  | succ fuel ih =>
    refine (listens_readScancode s).bind fun s => ?_
    split
    · exact ih s
    · exact listens_pure _

theorem speaks_kbdTestPoll (command : UInt8) (kbd : KbdGlobals) (fuel : Nat) :
    KeepsDialogue false (fun o => endingOf o.1) (Driver.sys (kbdTestPoll command kbd fuel)) := by
  refine keepsDialogue_of_speaks fun m h => within_sys ?_
  unfold kbdTestPoll
  refine (listens_kbdPollLoop fuel _ _ m h).bind fun m o h => ?_
  dsimp only
  split
  · exact fun _ => h
  · refine (within_keyboardEnableInterrupts command h).bind fun m r hr => ?_
    split
    · exact fun hreturned => by cases hreturned
    · next hzero => exact fun _ => hr (not_not.mp hzero)

theorem listens_timedScan_iterate (n : UInt8) (timer_freq : UInt16) (s : TimedScan) (r : SysReply) :
    Listens (s.iterate n timer_freq r) := by
  have hbranch : Listens (s.keyboardBranch n) := (listens_kbcIh _).bind fun kbd => listens_pure _
  unfold TimedScan.iterate
  split
  · exact listens_pure s
  · split
    · unfold TimedScan.handleInterrupts
      refine Listens.bind ?_ fun o => ?_
      · split
        · exact hbranch
        · exact listens_pure _
      · dsimp only
        split
        · exact listens_pure _
        · exact listens_pure _
    · exact listens_pure s

theorem speaks_timedScanLoop (n : UInt8) (timer_freq : UInt16) (fuel : Nat) (s : TimedScan) :
    Speaks false false (fun m _ => m.Idle false) (timedScanLoop n timer_freq fuel s) := by
  induction fuel generalizing s with
  | zero =>
    unfold timedScanLoop
    split
    · exact fun m h => h
    · exact fun m h => h
  | succ fuel ih =>
    unfold timedScanLoop
    split
    · intro m h r
      refine ⟨{ m with status := none }, if_pos ⟨h.argument, h.due, h.reporting⟩, ?_⟩
      exact (speaks_listens (listens_timedScan_iterate n timer_freq s r)).bind ih _ (h.withStatus none)
    · exact fun m h => h

theorem speaks_kbdTestTimedScan (n : UInt8) (timer_freq : UInt16) (kbd : KbdGlobals)
    (counter : UInt32) (fuel : Nat) :
    KeepsDialogue false (fun o => endingOf (o.map Prod.fst))
      (kbdTestTimedScan n timer_freq kbd counter fuel) := by
  refine keepsDialogue_of_idle ?_
  unfold kbdTestTimedScan
  refine speaks_call ⟨by simp, by simp⟩ (fun m h => h) ?_
  refine speaks_call ⟨by simp, by simp⟩ (fun m h => h) ?_
  refine (speaks_timedScanLoop n timer_freq fuel _).bind fun o => ?_
  cases o with
  | none => exact fun m h => h
  | some s =>
    refine speaks_call ⟨by simp, by simp⟩ (fun m h => h) ?_
    exact speaks_call ⟨by simp, by simp⟩ (fun m h => h) fun m h => h

/-! ## Lab 4 -/

theorem listens_mouseIh (s : PacketTest) : Listens s.mouseIh :=
  (listens_mouseReadPacket s.driver).bind fun _ => listens_pure _

theorem listens_packetTest_iterate (s : PacketTest) (r : SysReply) : Listens (s.iterate r) := by
  unfold PacketTest.iterate
  split
  · exact listens_pure s
  · split
    · refine (listens_mouseIh s).bind fun s => ?_
      split
      · exact (listens_mouseIh s).bind fun s => listens_pure _
      · exact listens_pure s
    · exact listens_pure s

theorem speaks_mouseTestPacket (driver : MouseDriver) (packet : Packet) (aknl aknl' : UInt8)
    (cnt : UInt32) (fuel : Nat) :
    KeepsDialogue true (fun o => endingOf o.1)
      (mouseTestPacket driver packet aknl aknl' cnt fuel) := by
  refine keepsDialogue_of_speaks ?_
  have hfailed : ∀ m : Dialogue, endingOf (some 1) = .returned 0 → m.Idle false :=
    fun m h => by cases h
  unfold mouseTestPacket
  refine speaks_driver (fun m h => within_mouseWriteCommand _ aknl h) hfailed ?_
  refine speaks_call ⟨by simp, by simp⟩ (fun m _ => hfailed m) ?_
  refine (speaks_receiveLoop listens_packetTest_iterate _ _).bind fun o => ?_
  dsimp only
  split
  · exact fun m _ h => by cases h
  · refine speaks_call ⟨by simp, by simp⟩ (fun m _ => hfailed m) ?_
    exact speaks_driver (fun m h => within_mouseWriteCommand _ aknl' h) hfailed fun m h _ => h

/-! ## Lab 5 -/

namespace Lab5

theorem listens_waitEsc_iterate (kbd : KbdGlobals) (r : SysReply) : Listens (WaitEsc.iterate kbd r) := by
  unfold WaitEsc.iterate
  split
  · exact listens_pure kbd
  · split
    · split
      · exact listens_kbcIh kbd
      · exact listens_pure kbd
    · exact listens_pure kbd

theorem speaks_auxWaitEsc (kbd : KbdGlobals) (fuel : Nat) :
    Speaks false false (fun m _ => m.Idle false) (auxWaitEsc kbd fuel) := by
  unfold auxWaitEsc
  refine speaks_call ⟨by simp, by simp⟩ (fun m h => h) ?_
  refine (speaks_receiveLoop listens_waitEsc_iterate fuel kbd).bind fun o => ?_
  dsimp only
  split
  · exact fun m h => h
  · exact speaks_call ⟨by simp, by simp⟩ (fun m h => h) fun m h => h

theorem speaks_showStill (heap vram : Nat → UInt8) (mode : UInt16)
    (draw : Panel → Except Fault (Int × Panel)) (kbd : KbdGlobals) (fuel : Nat) :
    KeepsDialogue false Prod.fst (showStill heap vram mode draw kbd fuel) := by
  refine keepsDialogue_of_idle ?_
  unfold showStill
  refine (speaks_quiet (quiet_gpuInit heap vram mode _)).bind fun made => ?_
  cases made with
  | none => exact fun m h => h
  | some made =>
    dsimp only
    split
    · exact fun m h => h
    refine speaks_call ⟨by simp, by simp⟩ (fun m h => h) ?_
    cases draw made.2 with
    | error f => exact fun m h => h
    | ok drawn =>
      dsimp only
      split
      · exact fun m h => h
      refine (speaks_auxWaitEsc kbd fuel).bind fun o => ?_
      obtain ⟨code, kbd'⟩ := o
      cases code with
      | none => exact fun m h => h
      | some r =>
        dsimp only
        split
        · exact fun m h => h
        · exact speaks_call ⟨by simp, by simp⟩ (fun m h => h) fun m h => h

theorem speaks_videoTestInit (mode : UInt16) :
    KeepsDialogue false Ending.returned (videoTestInit mode) := by
  refine keepsDialogue_of_idle ?_
  unfold videoTestInit
  refine speaks_call ⟨by simp, by simp⟩ (fun m h => h) ?_
  exact speaks_call ⟨by simp, by simp⟩ (fun m h => h) fun m h => h

/-- From `gpu_init_mem_indexation` on. -/
theorem speaks_moverLoop {σ : Type} {looping : σ → Bool} {iterate : σ → SysReply → Driver σ}
    (toMover : σ → Mover) (start : Panel → σ) (heap vram : Nat → UInt8) (panel : Panel) (fuel : Nat)
    (hiterate : ∀ s r, Listens (iterate s r)) :
    Speaks false false (fun m _ => m.Idle false)
      (panel.gpuInitMemIndexation heap vram 0x105 >>= fun made =>
        match made with
        | none => Prog.ret (.panicked, start panel)
        | some (r, panel) =>
          if r ≠ 0 then Prog.ret (.returned 1, start panel)
          else receiveLoop looping iterate fuel (start panel) >>= fun o =>
            if !o.1 then Prog.ret (.running, o.2)
            else (toMover o.2).finish >>= fun ending => Prog.ret (ending, o.2)) := by
  refine (speaks_quiet (quiet_gpuInit heap vram 0x105 panel)).bind fun made => ?_
  cases made with
  | none => exact fun m h => h
  | some made =>
    dsimp only
    split
    · exact fun m h => h
    refine (speaks_receiveLoop hiterate fuel _).bind fun o => ?_
    split
    · exact fun m h => h
    · exact (speaks_quiet (quiet_finish _)).bind fun ending m h => h

theorem listens_mover_iterate (img : XpmImage) (clocks_per_frame : UInt16) (s : Mover) (r : SysReply) :
    Listens (s.iterate img clocks_per_frame r) := by
  unfold Mover.iterate
  split
  · exact listens_pure s
  · split
    · refine Listens.bind ?_ fun kbd => listens_pure _
      split
      · exact listens_kbcIh s.kbd
      · exact listens_pure s.kbd
    · exact listens_pure s

theorem speaks_videoTestMove (hz : UInt32) (img : XpmImage) (heap vram : Nat → UInt8)
    (xi yi : UInt16) (fr_rate : UInt8) (kbd : KbdGlobals) (counter : UInt32) (fuel : Nat) :
    KeepsDialogue false Prod.fst (videoTestMove hz img heap vram xi yi fr_rate kbd counter fuel) := by
  refine keepsDialogue_of_idle ?_
  unfold videoTestMove
  refine speaks_call ⟨by simp, by simp⟩ (fun m h => h) ?_
  refine speaks_call ⟨by simp, by simp⟩ (fun m h => h) ?_
  dsimp only
  split
  · exact fun m h => h
  · refine speaks_call ⟨by simp, by simp⟩ (fun m h => h) ?_
    exact speaks_moverLoop id (fun panel => { Mover.start kbd counter xi yi with panel }) heap vram
      _ fuel (listens_mover_iterate img _)

theorem listens_controller_iterate (img : XpmImage) (cooldown : Nat) (clocks_per_frame : UInt16)
    (c : Controller) (r : SysReply) : Listens (c.iterate img cooldown clocks_per_frame r) := by
  have hbranch : ∀ c : Controller, Listens c.keyboardBranch :=
    fun c => (listens_kbcIh c.kbd).bind fun kbd => listens_pure _
  unfold Controller.iterate
  split
  · exact listens_pure c
  · dsimp only
    split
    · refine Listens.bind ?_ fun c => listens_pure _
      split
      · exact hbranch _
      · exact listens_pure _
    · exact listens_pure _

theorem speaks_videoTestController (hz : UInt32) (penguin : XpmImage) (heap vram : Nat → UInt8)
    (kbd : KbdGlobals) (counter : UInt32) (fuel : Nat) :
    KeepsDialogue false Prod.fst (videoTestController hz penguin heap vram kbd counter fuel) := by
  refine keepsDialogue_of_idle ?_
  unfold videoTestController
  refine speaks_call ⟨by simp, by simp⟩ (fun m h => h) ?_
  refine speaks_call ⟨by simp, by simp⟩ (fun m h => h) ?_
  refine speaks_call ⟨by simp, by simp⟩ (fun m h => h) ?_
  exact speaks_moverLoop Controller.toMover
    (fun panel => { Controller.start (1 * hz.toUInt16.toNat) (Mover.start kbd counter 100 100) with panel })
    heap vram _ fuel (listens_controller_iterate penguin _ _)

end Lab5

open Lab5 in
/-- **The lab programs keep the protocol of the keyboard controller**, whatever the ports give back and
    whatever fails. The packet test waits for messages only while the mouse reports, and when a program
    returns 0 the mouse is silent and no command is left without its argument. -/
theorem labs_keep_dialogue :
    (∀ kbd fuel, KeepsDialogue false (fun o => endingOf o.1) (kbdTestScan kbd fuel)) ∧
      (∀ command kbd fuel, KeepsDialogue false (fun o => endingOf o.1)
        (Driver.sys (kbdTestPoll command kbd fuel))) ∧
      (∀ n timer_freq kbd counter fuel, KeepsDialogue false (fun o => endingOf (o.map Prod.fst))
        (kbdTestTimedScan n timer_freq kbd counter fuel)) ∧
      (∀ driver packet aknl aknl' cnt fuel, KeepsDialogue true (fun o => endingOf o.1)
        (mouseTestPacket driver packet aknl aknl' cnt fuel)) ∧
      (∀ mode, KeepsDialogue false Ending.returned (videoTestInit mode)) ∧
      (∀ heap vram mode x y width height color kbd fuel, KeepsDialogue false Prod.fst
        (videoTestRectangle heap vram mode x y width height color kbd fuel)) ∧
      (∀ c heap vram mode no_rectangles first step kbd fuel, KeepsDialogue false Prod.fst
        (videoTestPattern c heap vram mode no_rectangles first step kbd fuel)) ∧
      (∀ img heap vram x y kbd fuel, KeepsDialogue false Prod.fst
        (videoTestXpm img heap vram x y kbd fuel)) ∧
      (∀ hz img heap vram xi yi fr_rate kbd counter fuel, KeepsDialogue false Prod.fst
        (videoTestMove hz img heap vram xi yi fr_rate kbd counter fuel)) ∧
      ∀ hz penguin heap vram kbd counter fuel, KeepsDialogue false Prod.fst
        (videoTestController hz penguin heap vram kbd counter fuel) :=
  ⟨speaks_kbdTestScan, speaks_kbdTestPoll, speaks_kbdTestTimedScan, speaks_mouseTestPacket,
    speaks_videoTestInit, fun _ _ _ _ _ _ _ _ _ _ => speaks_showStill _ _ _ _ _ _,
    fun _ _ _ _ _ _ _ _ _ => speaks_showStill _ _ _ _ _ _,
    fun _ _ _ _ _ _ _ => speaks_showStill _ _ _ _ _ _, speaks_videoTestMove,
    speaks_videoTestController⟩

/-! ## The project -/

theorem listens_mouseInput_handle (input : MouseInput) (res : GpuResInfo) :
    Listens (input.handle res) := by
  refine (listens_mouseReadPacket input.driver).bind fun o => ?_
  dsimp only
  split
  · exact listens_pure _
  · exact listens_pure _

theorem listens_keyboard_handle (keyboard : Keyboard) (scancode : UInt8) :
    Listens (keyboard.handle scancode) :=
  (listens_keyboardReadScancode scancode).bind fun _ => listens_pure _

section
variable {needs reporting : Bool}

theorem speaks_handleInterrupts (host : Host) (w : World) (msg : Message) :
    Speaks needs reporting (fun m _ => m.Idle reporting) (handleInterrupts host w msg) := by
  refine @Speaks.bind reporting _ _ _ reporting _ _ _ ?_ fun w => ?_
  · split
    · exact (speaks_listens (listens_mouseInput_handle w.input w.gpu_res_info)).bind fun _ m h => h
    · exact fun m h => h
  · refine @Speaks.bind reporting _ _ _ reporting _ _ _ ?_ fun o m h => h
    split
    · exact (speaks_listens (listens_keyboard_handle _ _)).bind fun _ m h => h
    · exact fun m h => h

end

theorem quiet_gpuInitMemIndexation (gpu_res_info : GpuResInfo) (mode : UInt16) :
    (gpuInitMemIndexation gpu_res_info mode).Asks Quiet := by
  refine (Prog.Asks.query ⟨by simp, by simp⟩).bind fun reply => ?_
  split
  · trivial
  · refine (asks_sysCode ⟨by simp, by simp⟩).check ?_
    refine (asks_sysCode ⟨by simp, by simp⟩).check ?_
    exact (asks_sysCode ⟨by simp, by simp⟩).check trivial

/-- After `proj_init` the mouse reports. -/
theorem speaks_projInit (host : Host) (w : World) :
    Speaks true false
      (fun m o => match o with
        | .done (r, _) => r = 0 → m.Idle true
        | .running _ => False
        | _ => True) (projInit host w) := by
  have hbad : ∀ m : Dialogue, (1 : Int) = 0 → m.Idle true := fun _ h => absurd h one_ne_zero
  have hfirst : ∀ m : Dialogue, m.Idle false → (mouseWriteCommand 0xF3 (host.aknl 0)).Within port
      (fun m' r => r = 0 → m'.Idle false) m := fun m h => within_mouseWriteCommand 0xF3 _ h
  have hrate : ∀ m : Dialogue, m.Idle false → (mouseWriteCommand 40 (host.aknl 1)).Within port
      (fun m' r => r = 0 → m'.Idle false) m := fun m h => within_mouseWriteCommand 40 _ h
  unfold projInit
  refine speaks_call ⟨by simp, by simp⟩ (fun m _ => hbad m) ?_
  refine speaks_call ⟨by simp, by simp⟩ (fun m _ => hbad m) ?_
  refine speaks_call ⟨by simp, by simp⟩ (fun m _ => hbad m) ?_
  refine speaks_driver hfirst hbad ?_
  refine speaks_driver hrate hbad ?_
  refine speaks_driver (fun m h => within_mouseEnableData _ h) hbad ?_
  refine speaks_call ⟨by simp, by simp⟩ (fun m _ => hbad m) ?_
  refine (speaks_quiet (quiet_gpuInitMemIndexation _ _)).bind fun made => ?_
  cases made with
  | none => exact fun m h => trivial
  | some made =>
    dsimp only
    split
    · exact fun m _ => hbad m
    · split
      · exact fun m _ => trivial
      · exact fun m h _ => h

theorem speaks_mainLoop (host : Host) (fuel : Nat) (w : World) :
    Speaks true true (fun m _ => m.Idle true) (mainLoop host fuel w) := by
  induction fuel generalizing w with
  | zero =>
    unfold mainLoop
    split
    · exact fun m h => h
    · exact fun m h => h
  | succ fuel ih =>
    unfold mainLoop
    split
    · exact fun m h => h
    · intro m h r
      refine ⟨{ m with status := none }, if_pos ⟨h.argument, h.due, h.reporting⟩, ?_⟩
      have hidle := h.withStatus none
      change Prog.Within _ _ _ (if r.failed then _ else _)
      split
      · exact ih _ _ hidle
      · split
        · refine (speaks_handleInterrupts host _ r.msg).bind (fun o => ?_) _ hidle
          cases o with
          | error f => exact fun m h => h
          | ok w => exact ih w
        · exact ih _ _ hidle

theorem speaks_projShutdown (host : Host) :
    Speaks true true (fun m r => r = 0 → m.Idle false) (projShutdown host) := by
  have hbad : ∀ m : Dialogue, (1 : Int) = 0 → m.Idle false := fun _ h => absurd h one_ne_zero
  unfold projShutdown
  refine speaks_driver (fun m h => within_mouseDisableData _ h) hbad ?_
  refine speaks_call ⟨by simp, by simp⟩ (fun m _ => hbad m) ?_
  refine speaks_call ⟨by simp, by simp⟩ (fun m _ => hbad m) ?_
  refine speaks_call ⟨by simp, by simp⟩ (fun m _ => hbad m) ?_
  exact speaks_call ⟨by simp, by simp⟩ (fun m _ => hbad m) fun m h _ => h

/-- **`proj_main_loop` keeps the protocol of the keyboard controller** and waits for messages only while
    the mouse reports; when it returns 0 the mouse is silent again. -/
theorem projMainLoop_keeps_dialogue (host : Host) (fuel : Nat) :
    KeepsDialogue true Outcome.ending (projMainLoop host fuel) := by
  refine keepsDialogue_of_speaks fun m h => ?_
  unfold projMainLoop
  refine (speaks_projInit host World.startup m h).bind fun m o hinit => ?_
  cases o with
  | panicked => exact fun hreturned => by cases hreturned
  | faulted f => exact fun hreturned => by cases hreturned
  | running w => exact absurd hinit id
  | done made =>
    obtain ⟨r, w⟩ := made
    dsimp only at hinit ⊢
    split
    · exact fun hreturned => by cases hreturned
    · next hr =>
      refine (speaks_mainLoop host fuel _).bind (fun o => ?_) m (hinit (not_not.mp hr))
      cases o with
      | panicked => exact fun m h hreturned => by cases hreturned
      | faulted f => exact fun m h hreturned => by cases hreturned
      | running w => exact fun m h hreturned => by cases hreturned
      | done w =>
        refine fun m h => (speaks_projShutdown host m h).bind fun m r hend => ?_
        split
        · exact fun hreturned => by cases hreturned
        · next hzero => exact fun _ => hend (not_not.mp hzero)

end Lcom

import Lcom.Lab3.TimedScan
import Lcom.Proof.Drivers.Receive

/-!
# Lost ticks

A message can carry the keyboard's bit and the timer's. The loop looks at the keyboard first, and its
two `continue`s, for the first and for the second byte of a long scan code, leave the message before
the timer's turn. `kbdTestTimedScan_ticks_iff` says that these are the only ticks that get lost.
-/

namespace Lcom

open Lib

/-! ## A trace, message by message -/

/-- The messages of a trace. -/
def scanEvents : List SysEvent → List ScanEvent
  | [] => []
  | e :: tr =>
    if IsReceive e then
      ⟨e.2, (tr.takeWhile fun e => ¬ IsReceive e).filterMap portOf⟩ :: scanEvents tr
    else scanEvents tr

/-- How many of them carry the timer's bit. -/
def timerMessages (tr : List SysEvent) : Nat :=
  tr.countP fun e => IsReceive e ∧ e.2.carries .timer = true

theorem scanEvents_append {tr : List SysEvent} (h : ∀ e ∈ tr, ¬ IsReceive e) (rest : List SysEvent) :
    scanEvents (tr ++ rest) = scanEvents rest := by
  induction tr with
  | nil => rfl
  | cons e tr ih =>
    obtain ⟨he, htr⟩ := List.forall_mem_cons.mp h
    rw [List.cons_append, scanEvents, if_neg he]
    exact ih htr

theorem timerMessages_eq (tr : List SysEvent) :
    timerMessages tr = (scanEvents tr).countP fun e => e.received.carries .timer := by
  induction tr with
  | nil => rfl
  | cons e tr ih =>
    unfold timerMessages at ih ⊢
    rw [scanEvents, List.countP_cons, ih]
    by_cases he : IsReceive e
    · rw [if_pos he, List.countP_cons]
      simp [he]
    · rw [if_neg he, if_neg (by simp [he]), Nat.add_zero]

/-! ## One message -/

namespace TimedScan

/-- One round of the loop. -/
def step (n : UInt8) (timer_freq : UInt16) (s : TimedScan) (e : ScanEvent) : Option TimedScan :=
  if s.looping n then (s.iterate n timer_freq e.received).exec e.ports else none

/-- The keyboard delivers `code` in these port accesses. -/
def Delivered (s : TimedScan) (ports : List PortEvent) (code : UInt8) : Prop :=
  (kbcIh { s.kbd with kbd_ih_valid := false }).Runs ports ⟨code, true⟩

/-- The condition on a message with both bits: the code that comes with it is neither the first byte
    of a long scan code nor the second. -/
def Kept (s : TimedScan) (e : ScanEvent) : Prop :=
  e.received.carries .timer = true → e.received.carries .keyboard = true →
    ∀ code, s.Delivered e.ports code → code ≠ doubleByte ∧ s.byte0 ≠ doubleByte

/-- How `timer_int_handler` was called: not at all, or once. -/
def Unticked (s s' : TimedScan) : Prop := s'.handled = s.handled ∧ s'.counter = s.counter

def Ticked (s s' : TimedScan) : Prop := s'.handled = s.handled + 1 ∧ s'.counter = s.counter + 1

theorem unticked_storeScancode (n : UInt8) (s : TimedScan) : Unticked s (s.storeScancode n).2 := by
  unfold storeScancode
  dsimp only
  split
  · split
    · exact ⟨rfl, rfl⟩
    · split
      · exact ⟨rfl, rfl⟩
      · exact ⟨rfl, rfl⟩
  · exact ⟨rfl, rfl⟩

/-- When a `continue` is met. -/
theorem storeScancode_continues (n : UInt8) (s : TimedScan) :
    (s.storeScancode n).1 = true ↔
      s.kbd.kbd_ih_valid = true ∧ (s.kbd.scan_code = doubleByte ∨ s.byte0 = doubleByte) := by
  unfold storeScancode
  dsimp only
  by_cases hvalid : s.kbd.kbd_ih_valid = true
  · rw [if_pos hvalid]
    by_cases hcode : s.kbd.scan_code = doubleByte
    · rw [if_pos hcode]
      simp [hvalid, hcode]
    · rw [if_neg hcode]
      by_cases hbyte : s.byte0 = doubleByte
      · rw [if_pos hbyte]
        simp [hvalid, hbyte]
      · rw [if_neg hbyte]
        simp [hcode, hbyte]
  · rw [if_neg hvalid]
    simp [hvalid]

theorem ticked_timerBranch (timer_freq : UInt16) (s : TimedScan) :
    Ticked s (s.timerBranch timer_freq) := by
  unfold timerBranch timerIntHandler
  dsimp only
  split
  · exact ⟨rfl, rfl⟩
  · exact ⟨rfl, rfl⟩

/-- What a message does to the ticks. -/
inductive Stepped (s s' : TimedScan) (e : ScanEvent) : Prop where
  | quiet (carried : e.received.carries .timer = false) (ticks : Unticked s s')
  | ticked (carried : e.received.carries .timer = true) (kept : s.Kept e) (ticks : Ticked s s')
  | lost (carried : e.received.carries .timer = true) (lost : ¬ s.Kept e) (ticks : Unticked s s')

theorem Ticked.after {s s₁ s' : TimedScan} (h : Unticked s s₁) (h' : Ticked s₁ s') : Ticked s s' :=
  ⟨by rw [h'.1, h.1], by rw [h'.2, h.2]⟩

/-- The keyboard's branch, and when it meets a `continue`. -/
theorem runs_keyboardBranch {n : UInt8} {s s₁ : TimedScan} {ports : List PortEvent} {c : Bool}
    (h : (s.keyboardBranch n).Runs ports (c, s₁)) :
    Unticked s s₁ ∧ (c = true ↔
      ¬ ∀ code, s.Delivered ports code → code ≠ doubleByte ∧ s.byte0 ≠ doubleByte) := by
  obtain ⟨kbd, hkbd, heq⟩ := Prog.runs_bind_ret.mp h
  have hstored : s₁ = ({ s with elapsed := 0, kbd }.storeScancode n).2 := congrArg Prod.snd heq
  have hcontinued : c = ({ s with elapsed := 0, kbd }.storeScancode n).1 := congrArg Prod.fst heq
  refine ⟨?_, ?_⟩
  · rw [hstored]
    exact unticked_storeScancode n { s with elapsed := 0, kbd }
  · rw [hcontinued, storeScancode_continues]
    constructor
    · intro hmet hkept
      obtain ⟨hvalid, hcode⟩ := hmet
      have hdelivered : s.Delivered ports kbd.scan_code := by
        unfold Delivered
        rw [← hvalid]
        exact hkbd
      obtain ⟨hne, hne'⟩ := hkept _ hdelivered
      rcases hcode with hcode | hcode
      · exact hne hcode
      · exact hne' hcode
    · intro hlost
      by_contra hmet
      refine hlost fun code hdelivered => ?_
      obtain rfl : kbd = ⟨code, true⟩ := hkbd.unique hdelivered
      constructor
      · intro hcode
        exact hmet ⟨rfl, .inl hcode⟩
      · intro hbyte
        exact hmet ⟨rfl, .inr hbyte⟩

/-- The same for the whole first `if`, with the keyboard's bit or without it. -/
theorem runs_keyboardIf {n : UInt8} {s s₁ : TimedScan} {msg : Message} {ports : List PortEvent}
    {c : Bool}
    (h : Prog.Runs (if msg.raises .keyboard = true then s.keyboardBranch n else pure (false, s))
      ports (c, s₁)) :
    Unticked s s₁ ∧ (c = true ↔ msg.raises .keyboard = true ∧
      ¬ ∀ code, s.Delivered ports code → code ≠ doubleByte ∧ s.byte0 ≠ doubleByte) := by
  by_cases hkbd : msg.raises .keyboard = true
  · rw [if_pos hkbd] at h
    rw [and_iff_right hkbd]
    exact runs_keyboardBranch h
  · rw [if_neg hkbd] at h
    obtain ⟨-, rfl, rfl⟩ := Prog.runs_ret_prod.mp h
    exact ⟨⟨rfl, rfl⟩, iff_of_false (by simp) fun hboth => hkbd hboth.1⟩

/-- A notification from the hardware. -/
theorem runs_handleInterrupts {n : UInt8} {timer_freq : UInt16} {s s' : TimedScan} {e : ScanEvent}
    (hmsg : e.received.failed = false ∧ (e.received.msg.notify && e.received.msg.hardware) = true)
    (h : (s.handleInterrupts n timer_freq e.received.msg).Runs e.ports s') : Stepped s s' e := by
  have hcarries : ∀ hook, e.received.carries hook = e.received.msg.raises hook := by
    intro hook
    unfold SysReply.carries
    rw [hmsg.1, hmsg.2]
    rfl
  obtain ⟨ports, o, rest, hports, hbranch, hend⟩ := Prog.runs_bind.mp h
  obtain ⟨c, s₁⟩ := o
  have hfinish : rest = [] ∧ s' = if c = true then s₁ else
      if e.received.msg.raises .timer = true then s₁.timerBranch timer_freq else s₁ := by
    cases c with
    | true =>
      obtain ⟨hrest, hs'⟩ := Prog.runs_ret.mp hend
      exact ⟨hrest, hs'.symm⟩
    | false =>
      obtain ⟨hrest, hs'⟩ := Prog.runs_ret.mp hend
      exact ⟨hrest, hs'.symm⟩
  obtain ⟨rfl, rfl⟩ := hfinish
  rw [List.append_nil] at hports
  subst hports
  obtain ⟨hticks, hcontinued⟩ := runs_keyboardIf hbranch
  rw [← hcarries] at hcontinued
  cases htimer : e.received.carries .timer with
  | false =>
    refine .quiet htimer ?_
    rw [hcarries] at htimer
    have hnone : ¬ e.received.msg.raises .timer = true := by
      rw [htimer]
      simp
    rw [if_neg hnone, ite_self]
    exact hticks
  | true =>
    by_cases hc : c = true
    · rw [if_pos hc]
      refine .lost htimer (fun hkept => ?_) hticks
      obtain ⟨hkbd, hlost⟩ := hcontinued.mp hc
      exact hlost (hkept htimer hkbd)
    · rw [if_neg hc]
      refine .ticked htimer (fun _ hkbd => ?_) ?_
      · by_contra hlost
        exact hc (hcontinued.mpr ⟨hkbd, hlost⟩)
      · rw [if_pos (by rw [← hcarries]; exact htimer)]
        exact (ticked_timerBranch timer_freq s₁).after hticks

theorem step_cases {n : UInt8} {timer_freq : UInt16} {s s' : TimedScan} {e : ScanEvent}
    (h : step n timer_freq s e = some s') : Stepped s s' e := by
  unfold step at h
  split at h
  · have hrun : (s.iterate n timer_freq e.received).Runs e.ports s' := h
    unfold iterate at hrun
    split at hrun
    · -- nothing was received
      rename_i hfailed
      obtain ⟨-, rfl⟩ := Prog.runs_ret.mp hrun
      refine .quiet ?_ ⟨rfl, rfl⟩
      unfold SysReply.carries
      rw [hfailed]
      rfl
    · split at hrun
      · rename_i hfailed hmsg
        exact runs_handleInterrupts ⟨by simpa using hfailed, hmsg⟩ hrun
      · rename_i hmsg
        obtain ⟨-, rfl⟩ := Prog.runs_ret.mp hrun
        refine .quiet ?_ ⟨rfl, rfl⟩
        unfold SysReply.carries
        rw [Bool.eq_false_iff.mpr hmsg]
        simp
  · cases h

/-! ## The whole loop -/

/-- The calls of the handler never outnumber the messages, and they are as many exactly when every
    message met the condition. -/
theorem run_handled {n : UInt8} {timer_freq : UInt16} {s s' : TimedScan} {es : List ScanEvent}
    (h : run (step n timer_freq) s es = some s') :
    s'.handled ≤ s.handled + es.countP (fun e => e.received.carries .timer) ∧
      (s'.handled = s.handled + es.countP (fun e => e.received.carries .timer) ↔
        EveryStep (step n timer_freq) Kept s es) := by
  induction es generalizing s with
  | nil =>
    cases h
    exact ⟨le_refl _, iff_of_true rfl everyStep_nil⟩
  | cons e es ih =>
    obtain ⟨s₁, h₁, hrun⟩ := run_cons_eq_some.mp h
    obtain ⟨hle, hiff⟩ := ih hrun
    rw [everyStep_cons h₁, ← hiff, List.countP_cons]
    cases step_cases h₁ with
    | quiet carried ticks =>
      have hkept : s.Kept e := fun htimer => absurd htimer (by rw [carried]; simp)
      rw [ticks.1] at hle ⊢
      rw [if_neg (by rw [carried]; simp), Nat.add_zero]
      exact ⟨hle, (and_iff_right hkept).symm⟩
    | ticked carried kept ticks =>
      rw [ticks.1] at hle ⊢
      rw [if_pos carried, and_iff_right kept]
      omega
    | lost carried lost ticks =>
      -- a tick too few, and the rest of the run never makes up for it
      rw [ticks.1] at hle ⊢
      rw [if_pos carried]
      exact ⟨by omega, iff_of_false (by omega) fun hboth => lost hboth.1⟩

/-- The counter counts the calls, as far as its range goes. -/
theorem run_counter {n : UInt8} {timer_freq : UInt16} {s s' : TimedScan} {es : List ScanEvent}
    {counter : UInt32} (hs : s.counter = counter + UInt32.ofNat s.handled)
    (h : run (step n timer_freq) s es = some s') :
    s'.counter = counter + UInt32.ofNat s'.handled := by
  refine run_invariant (fun s => s.counter = counter + UInt32.ofNat s.handled) ?_ hs h
  intro s e s' hs hstep
  have hunticked : Unticked s s' → s'.counter = counter + UInt32.ofNat s'.handled := by
    intro hticks
    rw [hticks.1, hticks.2, hs]
  cases step_cases hstep with
  | quiet _ ticks => exact hunticked ticks
  | ticked _ _ ticks => rw [ticks.1, ticks.2, hs, UInt32.ofNat_add, UInt32.add_assoc]; rfl
  | lost _ _ ticks => exact hunticked ticks

end TimedScan

/-- An event that is neither a message nor a port access. -/
def Foreign (e : SysEvent) : Prop := portOf e = none ∧ ¬ IsReceive e

theorem scanEvents_foreign {rest : List SysEvent} (h : ∀ e ∈ rest, Foreign e) :
    scanEvents rest = [] ∧ (rest.takeWhile fun e => ¬ IsReceive e).filterMap portOf = [] := by
  constructor
  · have hnone := scanEvents_append (fun e he => (h e he).2) []
    rwa [List.append_nil] at hnone
  · exact List.filterMap_eq_nil_iff.mpr fun e he => (h e ((List.takeWhile_sublist _).subset he)).1

/-- A message, the port accesses that follow it, and the rest of the trace. -/
theorem scanEvents_message (r : SysReply) {ports tail : List SysEvent}
    (hports : ∀ e ∈ ports, ¬ IsReceive e)
    (htail : (tail.takeWhile fun e => ¬ IsReceive e).filterMap portOf = []) :
    scanEvents ((.driverReceive, r) :: (ports ++ tail)) =
      ⟨r, ports.filterMap portOf⟩ :: scanEvents tail := by
  have hcut : (ports ++ tail).takeWhile (fun e => ¬ IsReceive e) =
      ports ++ tail.takeWhile fun e => ¬ IsReceive e :=
    List.takeWhile_append_of_pos fun e he => decide_eq_true (hports e he)
  have hreceive : IsReceive (.driverReceive, r) := rfl
  rw [scanEvents, if_pos hreceive, hcut, List.filterMap_append, htail, List.append_nil,
    scanEvents_append hports]

/-- The trace of the loop is a run, message by message. -/
theorem timedScanLoop_run {n : UInt8} {timer_freq : UInt16} {fuel : Nat} {s s' : TimedScan}
    {tr rest : List SysEvent} (h : (timedScanLoop n timer_freq fuel s).Runs tr (some s'))
    (hrest : ∀ e ∈ rest, Foreign e) :
    run (TimedScan.step n timer_freq) s (scanEvents (tr ++ rest)) = some s' ∧
      ((tr ++ rest).takeWhile fun e => ¬ IsReceive e).filterMap portOf = [] := by
  obtain ⟨hnone, hhead⟩ := scanEvents_foreign hrest
  induction fuel generalizing s tr with
  | zero =>
    rw [timedScanLoop] at h
    split at h
    · exact absurd (Prog.runs_ret.mp h).2 (by simp)
    · obtain ⟨rfl, hs⟩ := Prog.runs_ret.mp h
      rw [List.nil_append, hnone]
      exact ⟨hs, hhead⟩
  | succ fuel ih =>
    rw [timedScanLoop] at h
    split at h
    · rename_i hlooping
      rw [Prog.query_bind, Prog.runs_ask] at h
      obtain ⟨r, tr, rfl, hbody⟩ := h
      obtain ⟨ports, s₁, tail, rfl, hround, hloop⟩ := Prog.runs_bind.mp hbody
      obtain ⟨hrun, htail⟩ := ih hloop
      have hstep : TimedScan.step n timer_freq s ⟨r, ports.filterMap portOf⟩ = some s₁ := by
        rw [TimedScan.step, if_pos hlooping]
        exact runs_driver hround
      rw [List.cons_append, List.append_assoc,
        scanEvents_message r (driver_ports hround) htail]
      exact ⟨run_cons_eq_some.mpr ⟨s₁, hstep, hrun⟩, by simp [IsReceive]⟩
    · obtain ⟨rfl, hs⟩ := Prog.runs_ret.mp h
      rw [List.nil_append, hnone]
      exact ⟨hs, hhead⟩

theorem foreign_irqSetPolicy (irq : UInt8) (exclusive : Bool) (hook : Hook) (r : SysReply) :
    Foreign (.irqSetPolicy irq exclusive hook, r) := ⟨rfl, by simp [IsReceive]⟩

theorem foreign_irqRmPolicy (hook : Hook) (r : SysReply) : Foreign (.irqRmPolicy hook, r) :=
  ⟨rfl, by simp [IsReceive]⟩

theorem scanEvents_cons_foreign {e : SysEvent} (he : Foreign e) (tr : List SysEvent) :
    scanEvents (e :: tr) = scanEvents tr := if_neg he.2

/-- The calls after the loop. -/
theorem runs_unsubscribe {s s' : TimedScan} {code : Int} {tr : List SysEvent}
    (h : (keyboardUnsubscribe >>= fun r => if r ≠ 0 then Prog.ret (some (1, s)) else
      timerUnsubscribe >>= fun r => if r ≠ 0 then Prog.ret (some (1, s)) else
        Prog.ret (some ((0 : Int), s))).Runs tr (some (code, s'))) :
    s = s' ∧ ∀ e ∈ tr, Foreign e := by
  rcases runs_call h with ⟨r, rfl, -, hs⟩ | ⟨r, tr, rfl, -, h⟩
  · cases hs
    exact ⟨rfl, List.forall_mem_singleton.mpr (foreign_irqRmPolicy _ _)⟩
  · rcases runs_call h with ⟨r', rfl, -, hs⟩ | ⟨r', tr, rfl, -, hret⟩
    · cases hs
      exact ⟨rfl, List.forall_mem_cons.mpr
        ⟨foreign_irqRmPolicy _ _, List.forall_mem_singleton.mpr (foreign_irqRmPolicy _ _)⟩⟩
    · obtain ⟨rfl, hs⟩ := Prog.runs_ret.mp hret
      cases hs
      exact ⟨rfl, List.forall_mem_cons.mpr
        ⟨foreign_irqRmPolicy _ _, List.forall_mem_singleton.mpr (foreign_irqRmPolicy _ _)⟩⟩

/-- So is the trace of the whole function, whose other calls are no messages. -/
theorem kbdTestTimedScan_run {n : UInt8} {timer_freq : UInt16} {kbd : KbdGlobals}
    {counter : UInt32} {fuel : Nat} {tr : List SysEvent} {code : Int} {s : TimedScan}
    (h : (kbdTestTimedScan n timer_freq kbd counter fuel).Runs tr (some (code, s))) :
    run (TimedScan.step n timer_freq) (TimedScan.start n kbd counter) (scanEvents tr) = some s := by
  unfold kbdTestTimedScan at h
  rcases runs_call h with ⟨r, rfl, -, hs⟩ | ⟨r, tr, rfl, -, h⟩
  · cases hs
    rfl
  · rw [scanEvents_cons_foreign (foreign_irqSetPolicy _ _ _ r)]
    rcases runs_call h with ⟨r', rfl, -, hs⟩ | ⟨r', tr, rfl, -, hbody⟩
    · cases hs
      rfl
    · rw [scanEvents_cons_foreign (foreign_irqSetPolicy _ _ _ r')]
      obtain ⟨loop, o, rest, rfl, hloop, hend⟩ := Prog.runs_bind.mp hbody
      cases o with
      | none => exact absurd (Prog.runs_ret.mp hend).2 (by simp)
      | some s₁ =>
        obtain ⟨rfl, hforeign⟩ := runs_unsubscribe hend
        exact (timedScanLoop_run hloop hforeign).1

/-- **A tick is lost exactly with a message whose scan code meets a `continue`.** -/
theorem kbdTestTimedScan_ticks_iff {n : UInt8} {timer_freq : UInt16} {kbd : KbdGlobals}
    {counter : UInt32} {fuel : Nat} {tr : List SysEvent} {code : Int} {s : TimedScan}
    (h : (kbdTestTimedScan n timer_freq kbd counter fuel).Runs tr (some (code, s))) :
    run (TimedScan.step n timer_freq) (TimedScan.start n kbd counter) (scanEvents tr) = some s ∧
      s.counter = counter + UInt32.ofNat s.handled ∧
      (s.handled = timerMessages tr ↔
        EveryStep (TimedScan.step n timer_freq) TimedScan.Kept (TimedScan.start n kbd counter)
          (scanEvents tr)) := by
  have hrun := kbdTestTimedScan_run h
  have hcounter : (TimedScan.start n kbd counter).counter =
      counter + UInt32.ofNat (TimedScan.start n kbd counter).handled := (UInt32.add_zero _).symm
  refine ⟨hrun, TimedScan.run_counter hcounter hrun, ?_⟩
  rw [timerMessages_eq, ← (TimedScan.run_handled hrun).2]
  have hstart : (TimedScan.start n kbd counter).handled = 0 := rfl
  rw [hstart, Nat.zero_add]

/-! ## A lost tick -/

/-- The port accesses of a `kbc_ih()` that finds `code`. -/
def scancodePorts (code : UInt8) : List SysEvent :=
  [granted (.port (.inb kbcRegStat)) 1, granted (.port (.inb kbcRegStat)) 1,
    granted (.port (.inb kbcRegOutBuf)) code.toUInt32]

/-- A scan that is ended with the escape key, after a message with both bits whose scan code is
    `code`. -/
def scanTrace (code : UInt8) : List SysEvent :=
  [granted (.irqSetPolicy kbcIrqKbd true .keyboard) 0,
    granted (.irqSetPolicy timer0Irq false .timer) 0, interrupt 3] ++ scancodePorts code ++
    [interrupt 2] ++ scancodePorts escBreakcode ++
    [granted (.irqRmPolicy .keyboard) 0, granted (.irqRmPolicy .timer) 0]

/-- With an ordinary key the tick is counted. -/
theorem kbdTestTimedScan_ticks_kept :
    ∃ s, (kbdTestTimedScan 10 60 ⟨0, false⟩ 0 5).Runs (scanTrace 0x1E) (some (0, s)) ∧
      (s.handled = timerMessages (scanTrace 0x1E) ↔
        EveryStep (TimedScan.step 10 60) TimedScan.Kept (TimedScan.start 10 ⟨0, false⟩ 0)
          (scanEvents (scanTrace 0x1E))) := by
  have hrun : (kbdTestTimedScan 10 60 ⟨0, false⟩ 0 5).Runs (scanTrace 0x1E)
      (some (0, ⟨⟨0x81, true⟩, 1, 10, 0, 0x81, 0, 1⟩)) := by decide +kernel
  exact ⟨_, hrun, (kbdTestTimedScan_ticks_iff hrun).2.2⟩

/-- With the first byte of a long scan code it is not. -/
theorem kbdTestTimedScan_lost :
    ¬ ∀ n timer_freq kbd counter fuel tr code s,
      (kbdTestTimedScan n timer_freq kbd counter fuel).Runs tr (some (code, s)) →
      s.handled = timerMessages tr := by
  intro h
  have hrun : (kbdTestTimedScan 10 60 ⟨0, false⟩ 0 5).Runs (scanTrace 0xE0)
      (some (0, ⟨⟨0x81, true⟩, 0, 10, 0, 0, 0x81, 0⟩)) := by decide +kernel
  exact absurd (h _ _ _ _ _ _ _ _ hrun) (by decide +kernel)

end Lcom

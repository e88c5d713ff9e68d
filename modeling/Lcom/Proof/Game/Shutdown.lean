import Lcom.Game.Proj
import Lcom.Proof.Drivers.System
import Lcom.Proof.Ui.Rows

/-!
# What the program gives back

`proj_init` takes three interrupt policies and the graphics mode, and leaves at the first call that
fails; `proj_shutdown` gives them back, and leaves at the first call that fails as well. Neither
undoes anything on its way out, and `proj_main_loop` does not call `proj_shutdown` when `proj_init`
failed. `shutdown_releases_iff` says which runs give everything back: the ones in which nothing was
ever taken, and the ones in which nothing failed before `vg_exit`.
-/

namespace Lcom

open Lib

/-- Every policy that was set is removed, or at least asked to be, and the text mode is restored if
    the graphics mode was set. -/
structure Released (tr : List SysEvent) : Prop where
  hooks : ∀ irq exclusive hook reply, (SysCall.irqSetPolicy irq exclusive hook, reply) ∈ tr →
    reply.failed = false → ∃ reply', (SysCall.irqRmPolicy hook, reply') ∈ tr
  screen : ∀ intno ax bx reply, (SysCall.int86 intno ax bx, reply) ∈ tr →
    reply.failed = false → ∃ reply', (SysCall.vgExit, reply') ∈ tr

/-- The first call of all failed. -/
def KeyboardRefused (tr : List SysEvent) : Prop :=
  ∃ reply rest, tr = (SysCall.irqSetPolicy kbcIrqKbd true .keyboard, reply) :: rest ∧
    reply.failed = true

/-- `proj_shutdown` gets past its first four calls. -/
def ShutdownGoesThrough (host : Host) (tr : List SysEvent) : Prop :=
  ∃ disable r₁ r₂ r₃ rest,
    tr = disable ++ (SysCall.irqRmPolicy .keyboard, r₁) :: (SysCall.irqRmPolicy .timer, r₂) ::
      (SysCall.irqRmPolicy .mouse, r₃) :: rest ∧
    (Driver.sys (mouseDisableData (host.aknl 3))).Runs disable 0 ∧
    r₁.failed = false ∧ r₂.failed = false ∧ r₃.failed = false

/-- `proj_init` succeeds, the loop ends, and `proj_shutdown` gets past its first four calls. -/
def GoesThrough (host : Host) (fuel : Nat) (tr : List SysEvent) : Prop :=
  ∃ init loop shutdown w w', tr = init ++ (loop ++ shutdown) ∧
    (projInit host World.startup).Runs init (.done (0, w)) ∧
    (mainLoop host fuel { w with skip_frame := false }).Runs loop (.done w') ∧
    ShutdownGoesThrough host shutdown

/-! ## Which calls release something -/

/-- The calls that give something back. -/
def SysCall.Releases : SysCall → Prop
  | .irqRmPolicy _ => True
  | .vgExit => True
  | _ => False

theorem asks_mouseHandle {P : SysCall → Prop} (h : ∀ op, P (.port op)) (w : World) :
    w.mouseHandle.Asks P := (asks_driver h _).bind fun _ => trivial

theorem asks_keyboardHandle {P : SysCall → Prop} (h : ∀ op, P (.port op)) (host : Host) (w : World) :
    (w.keyboardHandle host).Asks P := (asks_driver h _).bind fun _ => trivial

/-- A message is handled with port accesses and nothing else. -/
theorem asks_handleInterrupts {P : SysCall → Prop} (h : ∀ op, P (.port op)) (host : Host)
    (w : World) (msg : Message) : (handleInterrupts host w msg).Asks P := by
  refine Prog.Asks.bind ?_ fun w' => Prog.Asks.bind ?_ fun _ => trivial
  · split
    · exact asks_mouseHandle h w
    · trivial
  · split
    · exact asks_keyboardHandle h host _
    · trivial

theorem asks_mainLoop (host : Host) (fuel : Nat) (w : World) :
    (mainLoop host fuel w).Asks fun call => ¬ call.Releases := by
  induction fuel generalizing w with
  | zero =>
    rw [mainLoop]
    split
    · trivial
    · trivial
  | succ fuel ih =>
    rw [mainLoop]
    split
    · trivial
    · refine (Prog.Asks.query id).bind fun r => ?_
      dsimp only
      split
      · exact ih _
      · split
        · refine (asks_handleInterrupts (fun _ => id) host _ _).bind fun o => ?_
          cases o with
          | error f => trivial
          | ok w => exact ih w
        · exact ih _

theorem asks_gpuInitMemIndexation (gpu_res_info : GpuResInfo) (mode : UInt16) :
    (gpuInitMemIndexation gpu_res_info mode).Asks fun call => ¬ call.Releases := by
  refine (Prog.Asks.query id).bind fun reply => ?_
  split
  · trivial
  · exact (asks_sysCode id).check ((asks_sysCode id).check ((asks_sysCode id).check trivial))

theorem asks_projInitMemory (host : Host) (w : World) :
    (projInitMemory host w).Asks fun call => ¬ call.Releases := by
  refine (asks_gpuInitMemIndexation _ _).bind fun o => ?_
  cases o with
  | none => trivial
  | some made =>
    dsimp only
    split
    · trivial
    · split
      · trivial
      · trivial

/-- `proj_init` gives nothing back. -/
theorem asks_projInit (host : Host) (w : World) :
    (projInit host w).Asks fun call => ¬ call.Releases := by
  have hport : ∀ op, ¬ (SysCall.port op).Releases := fun _ => id
  exact (asks_sysCode id).check ((asks_sysCode id).check ((asks_sysCode id).check
    ((asks_driver hport _).check ((asks_driver hport _).check ((asks_driver hport _).check
      ((asks_sysCode id).check (asks_projInitMemory host w)))))))

/-! ## What `proj_init` takes -/

theorem projInit_first {host : Host} {w : World} {tr : List SysEvent} {o : Outcome (Int × World)}
    (h : (projInit host w).Runs tr o) :
    (∃ reply, tr = [(SysCall.irqSetPolicy kbcIrqKbd true .keyboard, reply)] ∧
        reply.failed = true ∧ o = .done (1, w)) ∨
      ∃ reply rest, tr = (SysCall.irqSetPolicy kbcIrqKbd true .keyboard, reply) :: rest ∧
        reply.failed = false := by
  rcases runs_call h with hrefused | ⟨reply, rest, htr, hok, -⟩
  · exact .inl hrefused
  · exact .inr ⟨reply, rest, htr, hok⟩

/-- The course of a `proj_init` that succeeds: all three policies are set, the mouse takes its
    commands, and the graphics mode is set. -/
theorem projInit_course {host : Host} {w w' : World} {tr : List SysEvent}
    (h : (projInit host w).Runs tr (.done (0, w'))) :
    ∃ r₁ r₂ r₃ r₄ commands memory,
      tr = (SysCall.irqSetPolicy kbcIrqKbd true .keyboard, r₁) ::
        (SysCall.irqSetPolicy timer0Irq false .timer, r₂) ::
        (SysCall.irqSetPolicy kbcIrqMouse true .mouse, r₃) ::
        (commands ++ (SysCall.int86 0x10 0x4F02 (0x4000 ||| graphicsMode), r₄) :: memory) ∧
      (r₁.failed = false ∧ r₂.failed = false ∧ r₃.failed = false ∧ r₄.failed = false) ∧
      (projInitMemory host w).Runs memory (.done (0, w')) := by
  -- no early return returns zero
  have hpast : ∀ {p : Sys Int} {rest : Sys (Outcome (Int × World))} {tr : List SysEvent},
      (p >>= fun r => if r ≠ 0 then Prog.ret (.done (1, w)) else rest).Runs tr (.done (0, w')) →
        ∃ tr₁ tr₂, tr = tr₁ ++ tr₂ ∧ p.Runs tr₁ 0 ∧ rest.Runs tr₂ (.done (0, w')) := by
    intro p rest tr h
    refine (Prog.runs_check.mp h).resolve_left ?_
    intro hex
    rcases hex with ⟨_, _, _, heq⟩
    cases heq
  obtain ⟨_, _, rfl, hkeyboard, h⟩ := hpast h
  obtain ⟨_, _, rfl, htimer, h⟩ := hpast h
  obtain ⟨_, _, rfl, hmouse, h⟩ := hpast h
  obtain ⟨rate, _, rfl, -, h⟩ := hpast h
  obtain ⟨forty, _, rfl, -, h⟩ := hpast h
  obtain ⟨enable, _, rfl, -, h⟩ := hpast h
  obtain ⟨_, memory, rfl, hmode, hmemory⟩ := hpast h
  obtain ⟨r₁, rfl, hr₁⟩ := runs_sysCode_zero.mp hkeyboard
  obtain ⟨r₂, rfl, hr₂⟩ := runs_sysCode_zero.mp htimer
  obtain ⟨r₃, rfl, hr₃⟩ := runs_sysCode_zero.mp hmouse
  obtain ⟨r₄, rfl, hr₄⟩ := runs_sysCode_zero.mp hmode
  exact ⟨r₁, r₂, r₃, r₄, rate ++ (forty ++ enable), memory, by simp, ⟨hr₁, hr₂, hr₃, hr₄⟩, hmemory⟩

/-- A `proj_init` that succeeds has everything: the three policies and the graphics mode. -/
theorem projInit_takes {host : Host} {w w' : World} {tr : List SysEvent}
    (h : (projInit host w).Runs tr (.done (0, w'))) :
    (∀ hook, ∃ irq exclusive reply,
        (SysCall.irqSetPolicy irq exclusive hook, reply) ∈ tr ∧ reply.failed = false) ∧
      ∃ intno ax bx reply, (SysCall.int86 intno ax bx, reply) ∈ tr ∧ reply.failed = false := by
  obtain ⟨r₁, r₂, r₃, r₄, commands, memory, rfl, ⟨hr₁, hr₂, hr₃, hr₄⟩, -⟩ := projInit_course h
  constructor
  · intro hook
    cases hook with
    | timer => exact ⟨timer0Irq, false, r₂, by simp, hr₂⟩
    | keyboard => exact ⟨kbcIrqKbd, true, r₁, by simp, hr₁⟩
    | mouse => exact ⟨kbcIrqMouse, true, r₃, by simp, hr₃⟩
  · exact ⟨0x10, 0x4F02, 0x4000 ||| graphicsMode, r₄, by simp, hr₄⟩

/-! ## What `proj_shutdown` gives back -/

/-- All four calls are made. -/
def ReleasesAll (tr : List SysEvent) : Prop :=
  (∀ hook, ∃ reply, (SysCall.irqRmPolicy hook, reply) ∈ tr) ∧
    ∃ reply, (SysCall.vgExit, reply) ∈ tr

/-- The first three of them succeed. -/
def RemovesPolicies (tr : List SysEvent) : Prop :=
  ∃ r₁ r₂ r₃ rest,
    tr = (SysCall.irqRmPolicy .keyboard, r₁) :: (SysCall.irqRmPolicy .timer, r₂) ::
      (SysCall.irqRmPolicy .mouse, r₃) :: rest ∧
    r₁.failed = false ∧ r₂.failed = false ∧ r₃.failed = false

theorem not_releasesAll_of_all {tr : List SysEvent} (h : ∀ e ∈ tr, ¬ e.1.Releases) :
    ¬ ReleasesAll tr := by
  intro hall
  obtain ⟨reply, hmem⟩ := hall.2
  exact h _ hmem trivial

theorem releasesAll_append {tr rest : List SysEvent} (h : ∀ e ∈ tr, ¬ e.1.Releases) :
    ReleasesAll (tr ++ rest) ↔ ReleasesAll rest := by
  have hmem : ∀ call reply, call.Releases → ((call, reply) ∈ tr ++ rest ↔ (call, reply) ∈ rest) := by
    intro call reply hcall
    rw [List.mem_append]
    exact or_iff_right fun hin => h _ hin hcall
  unfold ReleasesAll
  constructor
  · intro hall
    rcases hall with ⟨hhooks, reply, hexit⟩
    refine ⟨fun hook => ?_, reply, (hmem .vgExit reply trivial).mp hexit⟩
    obtain ⟨reply', hin⟩ := hhooks hook
    exact ⟨reply', (hmem (.irqRmPolicy hook) reply' trivial).mp hin⟩
  · intro hall
    rcases hall with ⟨hhooks, reply, hexit⟩
    refine ⟨fun hook => ?_, reply, (hmem .vgExit reply trivial).mpr hexit⟩
    obtain ⟨reply', hin⟩ := hhooks hook
    exact ⟨reply', (hmem (.irqRmPolicy hook) reply' trivial).mpr hin⟩

theorem asks_disable (host : Host) :
    (Driver.sys (mouseDisableData (host.aknl 3))).Asks fun call => ¬ call.Releases :=
  asks_driver (fun _ => id) _

theorem shutdownGoesThrough_append {host : Host} {disable rest : List SysEvent}
    (h : (Driver.sys (mouseDisableData (host.aknl 3))).Runs disable 0) :
    ShutdownGoesThrough host (disable ++ rest) ↔ RemovesPolicies rest := by
  constructor
  · intro hex
    rcases hex with ⟨disable', r₁, r₂, r₃, rest', heq, hrun, h₁, h₂, h₃⟩
    obtain ⟨-, -, rfl⟩ := h.append_unique hrun heq
    exact ⟨r₁, r₂, r₃, rest', rfl, h₁, h₂, h₃⟩
  · intro hex
    rcases hex with ⟨r₁, r₂, r₃, rest', rfl, h₁, h₂, h₃⟩
    exact ⟨disable, r₁, r₂, r₃, rest', rfl, h, h₁, h₂, h₃⟩

/-- **`proj_shutdown` gives everything back exactly when it gets past its first four calls.** -/
theorem projShutdown_releases_iff {host : Host} {tr : List SysEvent} {r : Int}
    (h : (projShutdown host).Runs tr r) : ReleasesAll tr ↔ ShutdownGoesThrough host tr := by
  rcases Prog.runs_check.mp h with ⟨r', hr', hdisable, -⟩ | ⟨disable, rest, rfl, hdisable, hkeyboard⟩
  · refine iff_of_false (not_releasesAll_of_all ((asks_disable host).trace hdisable)) ?_
    intro hex
    rcases hex with ⟨disable, r₁, r₂, r₃, rest, rfl, hrun, -⟩
    obtain ⟨-, hzero, -⟩ := hdisable.append_unique hrun (List.append_nil _)
    exact hr' hzero
  rw [releasesAll_append ((asks_disable host).trace hdisable), shutdownGoesThrough_append hdisable]
  -- each of the four calls that follow leaves one event
  rcases runs_call hkeyboard with ⟨reply, rfl, -, -⟩ | ⟨r₁, _, rfl, h₁, htimer⟩
  · refine iff_of_false (fun hall => ?_) (fun hall => ?_)
    · obtain ⟨_, hmem⟩ := hall.1 .timer
      simp at hmem
    · obtain ⟨_, _, _, _, heq, -⟩ := hall
      simp at heq
  rcases runs_call htimer with ⟨reply, rfl, -, -⟩ | ⟨r₂, _, rfl, h₂, hmouse⟩
  · refine iff_of_false (fun hall => ?_) (fun hall => ?_)
    · obtain ⟨_, hmem⟩ := hall.1 .mouse
      simp at hmem
    · obtain ⟨_, _, _, _, heq, -⟩ := hall
      simp at heq
  rcases runs_call hmouse with ⟨reply, rfl, hfailed, -⟩ | ⟨r₃, _, rfl, h₃, hleave⟩
  · refine iff_of_false (fun hall => ?_) (fun hall => ?_)
    · obtain ⟨_, hmem⟩ := hall.2
      simp at hmem
    · obtain ⟨_, _, _, _, heq, -, -, hok⟩ := hall
      simp only [List.cons.injEq, Prod.mk.injEq, true_and] at heq
      rw [← heq.2.2.1] at hok
      exact absurd (hok.symm.trans hfailed) Bool.false_ne_true
  obtain ⟨_, _, _, rfl, hexit, -⟩ := Prog.runs_bind.mp hleave
  obtain ⟨reply, rfl, -⟩ := runs_sysCode.mp hexit
  refine iff_of_true ⟨fun hook => ?_, reply, by simp⟩ ⟨r₁, r₂, r₃, _, rfl, h₁, h₂, h₃⟩
  cases hook with
  | timer => exact ⟨r₂, by simp⟩
  | keyboard => exact ⟨r₁, by simp⟩
  | mouse => exact ⟨r₃, by simp⟩

/-! ## `proj_main_loop` -/

/-- The ways to return: `proj_init` fails, or the loop ends and `proj_shutdown` is called. -/
theorem projMainLoop_cases {host : Host} {fuel : Nat} {tr : List SysEvent} {r : Int}
    (h : (projMainLoop host fuel).Runs tr (.done r)) :
    (∃ r' w, r' ≠ 0 ∧ (projInit host World.startup).Runs tr (.done (r', w))) ∨
      ∃ init loop shutdown w w' r', tr = init ++ (loop ++ shutdown) ∧
        (projInit host World.startup).Runs init (.done (0, w)) ∧
        (mainLoop host fuel { w with skip_frame := false }).Runs loop (.done w') ∧
        (projShutdown host).Runs shutdown r' := by
  obtain ⟨init, o, rest, rfl, hinit, h⟩ := Prog.runs_bind.mp h
  cases o with
  | panicked => cases (Prog.runs_ret.mp h).2
  | faulted f => cases (Prog.runs_ret.mp h).2
  | running w => cases (Prog.runs_ret.mp h).2
  | done made =>
    obtain ⟨r', w⟩ := made
    dsimp only at h
    by_cases hr' : r' = 0
    · subst hr'
      rw [if_neg (not_not.mpr rfl)] at h
      obtain ⟨loop, o, shutdown, rfl, hloop, h⟩ := Prog.runs_bind.mp h
      cases o with
      | panicked => cases (Prog.runs_ret.mp h).2
      | faulted f => cases (Prog.runs_ret.mp h).2
      | running w => cases (Prog.runs_ret.mp h).2
      | done w' =>
        obtain ⟨shutdown₁, r'', shutdown₂, rfl, hshutdown, h⟩ := Prog.runs_bind.mp h
        have hnil : shutdown₂ = [] := by
          split at h
          · exact (Prog.runs_ret.mp h).1
          · exact (Prog.runs_ret.mp h).1
        subst hnil
        exact .inr ⟨init, loop, shutdown₁, w, w', r'', by rw [List.append_nil], hinit, hloop,
          hshutdown⟩
    · rw [if_pos hr'] at h
      obtain ⟨rfl, -⟩ := Prog.runs_ret.mp h
      exact .inl ⟨r', w, hr', by rwa [List.append_nil]⟩

/-- After a `proj_init` that succeeded, everything is given back by `proj_shutdown` or not at all. -/
theorem released_iff_releasesAll {host : Host} {fuel : Nat} {init loop shutdown : List SysEvent}
    {w₀ w w' : World} {o : Outcome World}
    (hinit : (projInit host w₀).Runs init (.done (0, w)))
    (hloop : (mainLoop host fuel w').Runs loop o) :
    Released (init ++ (loop ++ shutdown)) ↔ ReleasesAll shutdown := by
  obtain ⟨hsets, intno, ax, bx, reply, hmode, hok⟩ := projInit_takes hinit
  rw [← releasesAll_append ((asks_mainLoop host fuel w').trace hloop),
    ← releasesAll_append ((asks_projInit host w₀).trace hinit)]
  constructor
  · intro h
    refine ⟨fun hook => ?_, h.screen intno ax bx reply (List.mem_append_left _ hmode) hok⟩
    obtain ⟨irq, exclusive, reply', hset, hok'⟩ := hsets hook
    exact h.hooks irq exclusive hook reply' (List.mem_append_left _ hset) hok'
  · intro h
    exact ⟨fun _ _ hook _ _ _ => h.1 hook, fun _ _ _ _ _ _ => h.2⟩

/-- **Everything is given back exactly when nothing was taken, or nothing failed before
    `vg_exit`.** Over every answer of the devices and the kernel and every sequence of messages:
    when `proj_main_loop` returns, the policies and the graphics mode that it took are given back if
    and only if its first call was refused, or `proj_init` succeeded and `proj_shutdown` got past
    `mouse_disable_data` and all three removals. -/
theorem shutdown_releases_iff (host : Host) (fuel : Nat) (tr : List SysEvent) (r : Int)
    (h : (projMainLoop host fuel).Runs tr (.done r)) :
    Released tr ↔ KeyboardRefused tr ∨ GoesThrough host fuel tr := by
  rcases projMainLoop_cases h with ⟨r', w, hr', hinit⟩ | hcourse
  · rcases projInit_first hinit with ⟨reply, rfl, hfailed, -⟩ | ⟨reply, rest, rfl, hok⟩
    · refine iff_of_true ⟨fun irq exclusive hook reply' hmem hok => ?_, fun _ _ _ _ hmem => ?_⟩
        (.inl ⟨reply, [], rfl, hfailed⟩)
      · simp only [List.mem_singleton, Prod.mk.injEq] at hmem
        rw [← hmem.2, hok] at hfailed
        exact absurd hfailed Bool.false_ne_true
      · simp at hmem
    · -- the keyboard's policy is set, and `proj_init` never removes one
      refine iff_of_false (fun hreleased => ?_) (fun hcond => ?_)
      · obtain ⟨reply', hmem⟩ := hreleased.hooks _ _ _ _ List.mem_cons_self hok
        exact (asks_projInit host World.startup).trace hinit _ hmem trivial
      · rcases hcond with ⟨reply', rest', heq, hfailed⟩ | hthrough
        · simp only [List.cons.injEq, Prod.mk.injEq, true_and] at heq
          rw [← heq.1, hok] at hfailed
          exact absurd hfailed Bool.false_ne_true
        · obtain ⟨init, loop, shutdown, w₁, w₂, heq, hinit', -⟩ := hthrough
          obtain ⟨-, hsame, -⟩ := hinit.append_unique hinit' ((List.append_nil _).trans heq)
          cases hsame
          exact hr' rfl
  · obtain ⟨init, loop, shutdown, w, w', r', rfl, hinit, hloop, hshutdown⟩ := hcourse
    rw [released_iff_releasesAll hinit hloop, projShutdown_releases_iff hshutdown]
    constructor
    · intro hthrough
      exact .inr ⟨init, loop, shutdown, w, w', rfl, hinit, hloop, hthrough⟩
    · intro hcond
      rcases hcond with ⟨reply, rest, heq, hfailed⟩ | hthrough
      · -- a `proj_init` whose first call is refused does not succeed
        exfalso
        rcases projInit_first hinit with ⟨_, _, _, hdone⟩ | ⟨reply', rest', rfl, hok⟩
        · cases hdone
        · simp only [List.cons_append, List.cons.injEq, Prod.mk.injEq, true_and] at heq
          rw [← heq.1, hok] at hfailed
          exact absurd hfailed Bool.false_ne_true
      · obtain ⟨init', loop', shutdown', w₁, w₂, heq, hinit', hloop', hthrough⟩ := hthrough
        obtain ⟨rfl, hsame, heq⟩ := hinit.append_unique hinit' heq
        cases hsame
        obtain ⟨rfl, -, rfl⟩ := hloop.append_unique hloop' heq
        exact hthrough

/-! ### A machine that answers -/

/-- Empty images, no leaderboard file, and memory that happens to be zero. -/
def emptyHost : Host where
  assets := noAssets
  leaderboard_file := none
  memory := staleMemory 0
  mouse_fresh := false
  aknl := fun _ => 0
  scancode := fun _ => 0

/-- A `proj_init` in which nothing fails. -/
def bootTrace : List SysEvent :=
  [granted (.irqSetPolicy 1 true .keyboard) 0, granted (.irqSetPolicy 0 false .timer) 0,
    granted (.irqSetPolicy 12 true .mouse) 0] ++
  (mouseCommand 0xF3 ++ (mouseCommand 40 ++ (mouseCommand 0xF4 ++
  [granted (.int86 0x10 0x4F02 0x4105) 0, granted (.vbeGetModeInfo 0x105) 0,
    granted (.privctlAddMem 0 786432) 0, granted (.vmMapPhys 0 786432) 0,
    granted (.malloc 786432) 0])))

/-- The escape key is pressed, in a message of its own. -/
def escapeTrace : List SysEvent :=
  [interrupt 2, granted (.port (.inb 0x64)) 1, granted (.port (.inb 0x64)) 1,
    granted (.port (.inb 0x60)) 1]

/-- A `proj_shutdown` in which nothing fails. -/
def shutdownTrace : List SysEvent :=
  mouseCommand 0xF5 ++ [granted (.irqRmPolicy .keyboard) 0, granted (.irqRmPolicy .timer) 0,
    granted (.irqRmPolicy .mouse) 0, granted .vgExit 0]

theorem shutdown_releases_escape :
    Released (bootTrace ++ (escapeTrace ++ shutdownTrace)) ↔
      KeyboardRefused (bootTrace ++ (escapeTrace ++ shutdownTrace)) ∨
        GoesThrough emptyHost 1 (bootTrace ++ (escapeTrace ++ shutdownTrace)) :=
  shutdown_releases_iff emptyHost 1 _ 0 rfl

/-- The timer's policy is refused: the program returns, and the keyboard is not given back. -/
theorem shutdown_forgets_keyboard :
    (projMainLoop emptyHost 1).Runs
        [granted (.irqSetPolicy 1 true .keyboard) 0, refused (.irqSetPolicy 0 false .timer)]
        (.done 1) ∧
      ¬ Released
        [granted (.irqSetPolicy 1 true .keyboard) 0, refused (.irqSetPolicy 0 false .timer)] := by
  refine ⟨rfl, fun h => ?_⟩
  obtain ⟨_, hmem⟩ := h.hooks _ _ _ _ List.mem_cons_self rfl
  simp [granted, refused] at hmem

end Lcom

import Lcom.Proof.Drivers.Receive
import Lcom.Proof.Game.Scene

/-!
# What is on the screen

Every second tick of the timer the program draws a frame into the back buffer, copies it to the video
memory and clears the back buffer. `Display.Shows` says of the memory, at any point between two
messages, that the last frame is on the screen as a whole and nothing is left of it in the back
buffer; only the first frame is drawn over whatever `malloc` found there.

Drawing does not fault, and the game does not depend on it: the loop with the screen is the loop
without it (`mainLoopOn_forget`).
-/

namespace Lcom

open Lib

/-! ## The buffers -/

namespace Display

/-- What is on the screen. -/
def screen (d : Display) : Picture := Gpu.view { d.gpu with backbuffer := d.video_mem }

/-- What the next frame is drawn over, when `n` frames have been drawn: the first one over the memory
    as `malloc` gave it. -/
def ground (W H : Nat) (d : Display) (n : Nat) : Picture :=
  if n = 0 then d.gpu.view else blackScreen W H

/-- The last frame is on the screen, as a whole, and nothing is left of it in the back buffer. -/
structure Shows (W H : Nat) (menus : MenuPtr → Menu) (img : XpmImage) (d d₀ : Display) : Prop where
  ready : d.gpu.Ready W H
  vram : d.video_mem.length = d.gpu.backbuffer.length
  back : d.gpu.view = d₀.ground W H d.frames.length
  untouched : d.frames = [] → d.screen = d₀.screen
  last : ∀ earlier w, d.frames = earlier ++ [w] →
    d.screen = (w.scene W H menus img).onto (d₀.ground W H earlier.length)

variable {W H : Nat} {menus : MenuPtr → Menu} {img : XpmImage} {d₀ d : Display}

theorem shows_self (hready : d.gpu.Ready W H) (hvram : d.video_mem.length = d.gpu.backbuffer.length)
    (hframes : d.frames = []) : d.Shows W H menus img d where
  ready := hready
  vram := hvram
  back := by
    rw [hframes]
    rfl
  untouched := fun _ => rfl
  last := fun earlier w h => by simp [hframes] at h

/-- The copy to the video memory, and the clearing after it. -/
theorem commit_clear (hready : d.gpu.Ready W H)
    (hvram : d.video_mem.length = d.gpu.backbuffer.length) :
    d.bufferCommit = .ok { d with video_mem := d.gpu.backbuffer } ∧
      d.bufferClear =
        .ok { d with gpu := { d.gpu with backbuffer := List.replicate d.gpu.backbuffer.length 0 } } := by
  constructor
  · unfold bufferCommit
    rw [hready.vramSize, memcpy_all hvram]
    rfl
  · unfold bufferClear
    rw [hready.vramSize, memset_all rfl]
    rfl

end Display

/-! ## One frame -/

section
variable {menus : MenuPtr → Menu} {img : XpmImage} {res : GpuResInfo} {w : World} {W H : Nat}
  {d₀ d : Display}

/-- **A frame** goes to the screen as a whole, and leaves the back buffer blank. -/
theorem World.Staged.drawFrameOn (himg : img.Loaded 58 42) (hW : W ≤ 32000) (hH : H ≤ 32000)
    (hres : res.x_res.toNat = W ∧ res.y_res.toNat = H) (h : w.Staged menus img res)
    (hd : d.Shows W H menus img d₀) :
    ∃ w' d', w.drawFrame = .ok w' ∧ w.drawFrameOn d = .ok (w', d') ∧ w'.Staged menus img res ∧
      w'.skip_frame = w.skip_frame ∧ d'.Shows W H menus img d₀ ∧ d'.frames = d.frames ++ [w] := by
  obtain ⟨w', g, hdraw, hdrawOn, hstaged, hskip, hg, hview⟩ := h.drawScene himg hW hH hres hd.ready
  have hvram : d.video_mem.length = g.backbuffer.length := by
    rw [hd.vram, hd.ready.length, hg.length]
  obtain ⟨hcommit, -⟩ := Display.commit_clear
    (d := { d with gpu := g, frames := d.frames ++ [w] }) hg hvram
  obtain ⟨-, hclear⟩ := Display.commit_clear
    (d := ⟨g, g.backbuffer, d.frames ++ [w]⟩) hg rfl
  refine ⟨w', ⟨{ g with backbuffer := List.replicate g.backbuffer.length 0 }, g.backbuffer,
    d.frames ++ [w]⟩, hdraw, ?_, hstaged, hskip, ?_, rfl⟩
  · rw [World.drawFrameOn, hdrawOn, ok_bind]
    dsimp only
    rw [hcommit, ok_bind, hclear]
    rfl
  · refine ⟨hg.with_backbuffer List.length_replicate, List.length_replicate.symm, ?_, ?_, ?_⟩
    · rw [hg.view_cleared, List.length_append]
      rfl
    · intro hnone
      simp at hnone
    · intro earlier w₁ hframes
      obtain ⟨hearlier, hw⟩ := List.append_inj' hframes rfl
      obtain rfl := List.singleton_inj.mp hw
      rw [← hearlier, ← hd.back]
      exact hview

/-! ## One message -/

/-- The program between two messages, when the timer has ticked `ticks` times. -/
structure Screened (menus : MenuPtr → Menu) (img : XpmImage) (res : GpuResInfo) (d₀ : Display)
    (ticks : Nat) (w : World) (d : Display) : Prop where
  staged : w.Staged menus img res
  shows : d.Shows res.x_res.toNat res.y_res.toNat menus img d₀
  pace : 2 * d.frames.length = ticks + if w.skip_frame then 1 else 0

/-- A world that differs in nothing the screen shows. -/
theorem World.Staged.of_same {w' : World} (h : w.Staged menus img res) (hgood : w'.Good)
    (hmode : w'.gpu_res_info = w.gpu_res_info) (hmenus : w'.menus = w.menus)
    (hcursor : w'.mouse.OnScreen img res) : w'.Staged menus img res :=
  ⟨hgood, hmode.trans h.mode, hmenus ▸ h.kept, hmenus ▸ h.drawable, hcursor⟩

theorem World.Staged.observe (h : w.Staged menus img res) : w.observe.Staged menus img res :=
  ⟨⟨h.good.valid, h.good.menus, h.good.mouse⟩, h.mode, h.kept, h.drawable, h.cursor⟩

theorem World.Staged.mouseHandle {w' : World} {tr : List SysEvent} (h : w.Staged menus img res)
    (hrun : w.mouseHandle.Runs tr w') : w'.Staged menus img res ∧ w'.skip_frame = w.skip_frame := by
  have hgood := (mouseHandle_follows h.good hrun).good
  obtain ⟨input, hinput, rfl⟩ := Prog.runs_bind_ret.mp hrun
  obtain ⟨tr', hinput⟩ := hinput.of_translate
  obtain ⟨r, byte, -, rfl⟩ := runs_mouseHandle.mp hinput
  refine ⟨h.of_same hgood rfl rfl ?_, rfl⟩
  change (MouseInput.apply _ _).mouse.OnScreen img res
  rw [MouseInput.apply, h.mode]
  split
  · exact h.cursor.update _
  · exact h.cursor

/-- The escape key changes the game state and nothing else. -/
theorem escapeQuits_same {w' : World} (h : w.escapeQuits = .ok w') :
    w'.gpu_res_info = w.gpu_res_info ∧ w'.menus = w.menus ∧ w'.mouse = w.mouse ∧
      w'.skip_frame = w.skip_frame := by
  rw [World.escapeQuits] at h
  split at h
  · rw [Keyboard.pressed_esc, ok_bind] at h
    cases h
    split
    · exact ⟨rfl, rfl, rfl, rfl⟩
    · exact ⟨rfl, rfl, rfl, rfl⟩
  · cases h
    exact ⟨rfl, rfl, rfl, rfl⟩

theorem World.Staged.keyboardHandle {host : Host} {tr : List SysEvent} {o : Except Fault World}
    (h : w.Staged menus img res) (hrun : (w.keyboardHandle host).Runs tr o) :
    ∃ w', o = .ok w' ∧ w'.Staged menus img res ∧ w'.skip_frame = w.skip_frame := by
  obtain ⟨w', rfl, hfollows⟩ := keyboardHandle_follows h.good hrun
  obtain ⟨ok, -, heq⟩ := Prog.runs_bind_ret.mp hrun
  obtain ⟨keyboard, -, hescape⟩ := bind_eq_ok.mp heq.symm
  obtain ⟨hmode, hmenus, hmouse, hskip⟩ := escapeQuits_same hescape
  have hcursor : w'.mouse.OnScreen img res := by
    rw [hmouse]
    exact h.cursor
  exact ⟨w', rfl, h.of_same hfollows.good hmode hmenus hcursor, hskip⟩

/-- **A tick** draws a frame, or skips one. -/
theorem Screened.timerTick {ticks : Nat} (himg : img.Loaded 58 42)
    (hsmall : res.x_res.toNat ≤ 32000 ∧ res.y_res.toNat ≤ 32000)
    (h : Screened menus img res d₀ ticks w d) :
    ∃ w' d', w.timerTick = .ok w' ∧ w.timerTickOn d = .ok (w', d') ∧
      Screened menus img res d₀ (ticks + 1) w' d' := by
  have hpace := h.pace
  rw [World.timerTick, World.timerTickOn]
  cases hskip : w.skip_frame with
  | true =>
    rw [hskip, if_pos rfl] at hpace
    refine ⟨{ w with skip_frame := false }, d, ?_, ?_, ?_, h.shows, ?_⟩
    · rw [if_pos rfl]
      change (Except.ok _ : Except Fault World) = _
      rw [hskip]
      rfl
    · rw [if_pos rfl]
      change (Except.ok _ : Except Fault (World × Display)) = _
      rw [hskip]
      rfl
    · exact h.staged.of_same ⟨h.staged.good.valid, h.staged.good.menus, h.staged.good.mouse⟩ rfl rfl
        h.staged.cursor
    · dsimp only
      rw [if_neg Bool.false_ne_true]
      omega
  | false =>
    rw [hskip, if_neg Bool.false_ne_true] at hpace
    obtain ⟨w', d', hdraw, hdrawOn, hstaged, hskip', hshows, hframes⟩ :=
      h.staged.drawFrameOn himg hsmall.1 hsmall.2 ⟨rfl, rfl⟩ h.shows
    rw [hskip] at hskip'
    refine ⟨{ w' with skip_frame := true }, d', ?_, ?_, ?_, hshows, ?_⟩
    · rw [if_neg Bool.false_ne_true, hdraw, ok_bind, hskip']
      rfl
    · rw [if_neg Bool.false_ne_true, hdrawOn, ok_bind]
      dsimp only
      rw [hskip']
      rfl
    · exact hstaged.of_same ⟨hstaged.good.valid, hstaged.good.menus, hstaged.good.mouse⟩ rfl rfl
        hstaged.cursor
    · rw [hframes, List.length_append, List.length_singleton, if_pos rfl]
      omega

end

section
variable {menus : MenuPtr → Menu} {img : XpmImage} {res : GpuResInfo} {d₀ : Display} {host : Host}
  (himg : img.Loaded 58 42) (hsmall : res.x_res.toNat ≤ 32000 ∧ res.y_res.toNat ≤ 32000)

include himg hsmall

/-- **One message**: the program with the screen and the one without do the same, and a tick among
    the interrupts is counted. -/
theorem handleInterruptsOn_forget {w : World} {d : Display} {ticks : Nat} (msg : Message)
    (h : Screened menus img res d₀ ticks w d) :
    (handleInterruptsOn host w d msg >>= fun o => Prog.ret (o.map Prod.fst)) =
        handleInterrupts host w msg ∧
      ∀ tr o, (handleInterruptsOn host w d msg).Runs tr o → ∃ w' d', o = .ok (w', d') ∧
        Screened menus img res d₀ (ticks + if msg.raises .timer then 1 else 0) w' d' := by
  -- the two handlers that ask, and then the one that draws
  have hmouse : ∀ tr w₁, (if msg.raises .mouse then w.mouseHandle else pure w).Runs tr w₁ →
      w₁.Staged menus img res ∧ w₁.skip_frame = w.skip_frame := by
    intro tr w₁ hrun
    split at hrun
    · exact h.staged.mouseHandle hrun
    · obtain ⟨-, rfl⟩ := Prog.runs_ret.mp hrun
      exact ⟨h.staged, rfl⟩
  have hkeyboard : ∀ w₁ : World, w₁.Staged menus img res → ∀ tr o,
      (if msg.raises .keyboard then w₁.keyboardHandle host else pure (.ok w₁)).Runs tr o →
        ∃ w₂, o = .ok w₂ ∧ w₂.Staged menus img res ∧ w₂.skip_frame = w₁.skip_frame := by
    intro w₁ hw₁ tr o hrun
    split at hrun
    · exact hw₁.keyboardHandle hrun
    · obtain ⟨-, rfl⟩ := Prog.runs_ret.mp hrun
      exact ⟨w₁, rfl, hw₁, rfl⟩
  have htimer : ∀ w₂ : World, w₂.Staged menus img res → w₂.skip_frame = w.skip_frame →
      ∃ w₃ d', (if msg.raises .timer then w₂.observe.timerTick else pure w₂.observe) = .ok w₃ ∧
        (if msg.raises .timer then w₂.observe.timerTickOn d else pure (w₂.observe, d)) =
          .ok (w₃, d') ∧
        Screened menus img res d₀ (ticks + if msg.raises .timer then 1 else 0) w₃ d' := by
    intro w₂ hw₂ hskip
    have hscreened : Screened menus img res d₀ ticks w₂.observe d :=
      ⟨hw₂.observe, h.shows, hskip ▸ h.pace⟩
    split
    · exact hscreened.timerTick himg hsmall
    · exact ⟨_, d, rfl, rfl, hscreened⟩
  constructor
  · unfold handleInterruptsOn handleInterrupts
    rw [Prog.bind_assoc]
    refine Prog.bind_congr_of_runs fun tr w₁ hrun₁ => ?_
    obtain ⟨hw₁, hskip₁⟩ := hmouse tr w₁ hrun₁
    rw [Prog.bind_assoc]
    refine Prog.bind_congr_of_runs fun tr' o hrun₂ => ?_
    obtain ⟨w₂, rfl, hw₂, hskip₂⟩ := hkeyboard _ hw₁.observe tr' o hrun₂
    obtain ⟨w₃, d', htick, htickOn, -⟩ := htimer w₂ hw₂ (hskip₂.trans hskip₁)
    rw [Prog.pure_eq, Prog.ret_bind, ok_bind, ok_bind]
    dsimp only
    rw [htick, htickOn]
    rfl
  · intro tr o hrun
    obtain ⟨tr₁, w₁, rest, rfl, hrun₁, hrun⟩ := Prog.runs_bind.mp hrun
    obtain ⟨hw₁, hskip₁⟩ := hmouse tr₁ w₁ hrun₁
    obtain ⟨o₂, hrun₂, rfl⟩ := Prog.runs_bind_ret.mp hrun
    obtain ⟨w₂, rfl, hw₂, hskip₂⟩ := hkeyboard _ hw₁.observe rest o₂ hrun₂
    obtain ⟨w₃, d', -, htickOn, hscreened⟩ := htimer w₂ hw₂ (hskip₂.trans hskip₁)
    refine ⟨w₃.observe, d', ?_, hscreened.staged.observe, hscreened.shows, hscreened.pace⟩
    rw [ok_bind]
    dsimp only
    rw [htickOn]
    rfl

/-! ## The loop -/

/-- **The loop with the screen is the loop without it**: it asks the same questions, and comes to the
    same. -/
theorem mainLoopOn_forget (fuel : Nat) {w : World} {d : Display} {ticks : Nat}
    (h : Screened menus img res d₀ ticks w d) :
    (mainLoopOn host fuel w d >>= fun r => Prog.ret r.1) = mainLoop host fuel w := by
  induction fuel generalizing w d ticks with
  | zero =>
    rw [mainLoopOn, mainLoop]
    split
    · rfl
    · rfl
  | succ fuel ih =>
    rw [mainLoopOn, mainLoop]
    split
    · rfl
    · rw [Prog.query_bind, Prog.query_bind, Prog.ask_bind]
      refine congrArg (Prog.ask _) (funext fun r => ?_)
      have hnext : Screened menus img res d₀ ticks { w with messages := w.messages + 1 } d :=
        ⟨h.staged.of_same ⟨h.staged.good.valid, h.staged.good.menus, h.staged.good.mouse⟩ rfl rfl
          h.staged.cursor, h.shows, h.pace⟩
      have hobserved : Screened menus img res d₀ ticks
          (World.observe { w with messages := w.messages + 1 }) d :=
        ⟨hnext.staged.observe, hnext.shows, hnext.pace⟩
      dsimp only
      split
      · exact ih hobserved
      · split
        · obtain ⟨hforget, hruns⟩ :=
            @handleInterruptsOn_forget _ _ _ _ host himg hsmall _ _ _ r.msg hnext
          rw [← hforget, Prog.bind_assoc, Prog.bind_assoc]
          refine Prog.bind_congr_of_runs fun tr o hrun => ?_
          obtain ⟨w', d', rfl, hscreened⟩ := hruns tr o hrun
          exact ih hscreened
        · exact ih hobserved

/-- A run of the loop: it does not fault, and every frame it drew went to the screen. -/
theorem mainLoopOn_screened (fuel : Nat) {w : World} {d d' : Display} {ticks : Nat}
    {tr : List SysEvent} {o : Outcome World} (h : Screened menus img res d₀ ticks w d)
    (hrun : (mainLoopOn host fuel w d).Runs tr (o, d')) :
    ∃ w', o.Ends w' ∧ Screened menus img res d₀ (ticks + tr.countP SysEvent.ticks) w' d' := by
  induction fuel generalizing w d ticks tr with
  | zero =>
    rw [mainLoopOn] at hrun
    split at hrun
    · next hquit =>
      obtain ⟨rfl, rfl, rfl⟩ := Prog.runs_ret_prod.mp hrun
      exact ⟨w, .inl ⟨rfl, hquit⟩, h⟩
    · next hquit =>
      obtain ⟨rfl, rfl, rfl⟩ := Prog.runs_ret_prod.mp hrun
      exact ⟨w, .inr ⟨rfl, hquit⟩, h⟩
  | succ fuel ih =>
    by_cases hquit : w.gamestate.state = .quit
    · rw [mainLoopOn, if_pos hquit] at hrun
      obtain ⟨rfl, rfl, rfl⟩ := Prog.runs_ret_prod.mp hrun
      exact ⟨w, .inl ⟨rfl, hquit⟩, h⟩
    · rw [mainLoopOn, if_neg hquit, Prog.query_bind] at hrun
      obtain ⟨r, rest, rfl, hrest⟩ := Prog.runs_ask.mp hrun
      dsimp only at hrest
      have hnext : Screened menus img res d₀ ticks { w with messages := w.messages + 1 } d :=
        ⟨h.staged.of_same ⟨h.staged.good.valid, h.staged.good.menus, h.staged.good.mouse⟩ rfl rfl
          h.staged.cursor, h.shows, h.pace⟩
      have hobserved : Screened menus img res d₀ ticks
          (World.observe { w with messages := w.messages + 1 }) d :=
        ⟨hnext.staged.observe, hnext.shows, hnext.pace⟩
      split at hrest
      · next hfailed =>
        rw [List.countP_cons_of_neg (by simp [SysEvent.ticks, hfailed])]
        exact ih hobserved hrest
      · next hfailed =>
        split at hrest
        · next hhardware =>
          obtain ⟨handled, o₁, rest, rfl, hhandle, hnext'⟩ := Prog.runs_bind.mp hrest
          obtain ⟨hforget, hruns⟩ :=
            @handleInterruptsOn_forget _ _ _ _ host himg hsmall _ _ _ r.msg hnext
          obtain ⟨w₁, d₁, rfl, hscreened⟩ := hruns handled o₁ hhandle
          -- the handlers ask for no message
          have hports := (asks_handleInterrupts (P := fun call => call ≠ .driverReceive)
            (fun _ => by simp) host _ r.msg).trace
            (hforget ▸ Prog.runs_bind_ret.mpr ⟨_, hhandle, rfl⟩)
          have hnone : handled.countP SysEvent.ticks = 0 := by
            rw [List.countP_eq_zero]
            intro e he
            simp [SysEvent.ticks, hports e he]
          obtain ⟨w', hends, hlast⟩ := ih hscreened hnext'
          refine ⟨w', hends, ?_⟩
          have hcount : ((SysCall.driverReceive, r) :: (handled ++ rest)).countP SysEvent.ticks =
              (if r.msg.raises .timer then 1 else 0) + rest.countP SysEvent.ticks := by
            rw [List.countP_cons, List.countP_append, hnone]
            rw [Bool.and_eq_true] at hhardware
            simp [SysEvent.ticks, hfailed, hhardware, Nat.add_comm]
          rw [hcount, ← Nat.add_assoc]
          exact hlast
        · next hother =>
          rw [List.countP_cons_of_neg]
          · exact ih hobserved hrest
          · rw [Bool.and_eq_true, not_and_or] at hother
            rcases hother with hother | hother <;> simp [SysEvent.ticks, hother]

end

/-! ## The start -/

/-- The call that asks for a mode is the first of `gpu_init_mem_indexation`, and no other one asks for
    another. -/
theorem gpuInitMemIndexation_mode {res res' : GpuResInfo} {mode : UInt16} {tr : List SysEvent}
    (h : (gpuInitMemIndexation res mode).Runs tr (some (0, res'))) :
    ∃ reply rest, tr = (SysCall.vbeGetModeInfo mode, reply) :: rest ∧
      (∀ e ∈ rest, ∀ mode', e.1 ≠ .vbeGetModeInfo mode') ∧
      res' = ⟨reply.mode_info.XResolution, reply.mode_info.YResolution⟩ := by
  rw [gpuInitMemIndexation, Prog.query_bind] at h
  obtain ⟨reply, tr', rfl, hrest⟩ := Prog.runs_ask.mp h
  refine ⟨reply, tr', rfl, ?_⟩
  split at hrest
  · cases (Prog.runs_ret.mp hrest).2
  · rcases runs_call hrest with ⟨_, -, -, heq⟩ | ⟨_, _, rfl, -, hrest⟩
    · cases heq
    rcases runs_call hrest with ⟨_, -, -, heq⟩ | ⟨_, _, rfl, -, hrest⟩
    · cases heq
    rcases runs_call hrest with ⟨_, -, -, heq⟩ | ⟨_, _, rfl, -, hrest⟩
    · cases heq
    obtain ⟨rfl, heq⟩ := Prog.runs_ret.mp hrest
    cases heq
    refine ⟨fun e he mode' => ?_, rfl⟩
    simp only [List.mem_cons, List.not_mem_nil, or_false] at he
    rcases he with rfl | rfl | rfl
    · simp
    · simp
    · simp

/-- The memory is set up last; before that no mode is asked for. -/
theorem projInit_memory {host : Host} {w w' : World} {tr : List SysEvent}
    (h : (projInit host w).Runs tr (.done (0, w'))) :
    ∃ before memory, tr = before ++ memory ∧ (∀ e ∈ before, ∀ mode, e.1 ≠ .vbeGetModeInfo mode) ∧
      (projInitMemory host w).Runs memory (.done (0, w')) := by
  have hpast : ∀ {p : Sys Int} {rest : Sys (Outcome (Int × World))} {tr : List SysEvent},
      p.Asks (fun call => ∀ mode, call ≠ .vbeGetModeInfo mode) →
      (p >>= fun r => if r ≠ 0 then Prog.ret (.done (1, w)) else rest).Runs tr (.done (0, w')) →
        ∃ tr₁ tr₂, tr = tr₁ ++ tr₂ ∧ (∀ e ∈ tr₁, ∀ mode, e.1 ≠ .vbeGetModeInfo mode) ∧
          rest.Runs tr₂ (.done (0, w')) := by
    intro p rest tr hasks h
    rcases Prog.runs_check.mp h with ⟨_, _, _, heq⟩ | ⟨tr₁, tr₂, htr, hrun, hrest⟩
    · cases heq
    · exact ⟨tr₁, tr₂, htr, hasks.trace hrun, hrest⟩
  have hports : ∀ {p : Driver Int}, (Driver.sys p).Asks fun call => ∀ mode, call ≠ .vbeGetModeInfo mode :=
    fun {p} => asks_driver (fun _ _ => by simp) p
  obtain ⟨keyboard, _, rfl, hkeyboard, h⟩ := hpast (asks_sysCode fun _ => by simp) h
  obtain ⟨timer, _, rfl, htimer, h⟩ := hpast (asks_sysCode fun _ => by simp) h
  obtain ⟨mouse, _, rfl, hmouse, h⟩ := hpast (asks_sysCode fun _ => by simp) h
  obtain ⟨rate, _, rfl, hrate, h⟩ := hpast hports h
  obtain ⟨forty, _, rfl, hforty, h⟩ := hpast hports h
  obtain ⟨enable, _, rfl, henable, h⟩ := hpast hports h
  obtain ⟨mode, memory, rfl, hmode, hmemory⟩ := hpast (asks_sysCode fun _ => by simp) h
  refine ⟨keyboard ++ (timer ++ (mouse ++ (rate ++ (forty ++ (enable ++ mode))))), memory, by simp,
    ?_, hmemory⟩
  simp only [List.forall_mem_append]
  exact ⟨hkeyboard, htimer, hmouse, hrate, hforty, henable, hmode⟩

/-- After a `proj_init` that succeeds there are two menus that can be drawn and a cursor, and the
    resolution is the one that was answered. -/
theorem projInit_staged {host : Host} (hassets : host.assets.Loaded) {w : World}
    {tr : List SysEvent} (h : (projInit host World.startup).Runs tr (.done (0, w))) :
    w.Staged w.menus host.assets.mouse w.gpu_res_info ∧
      ∀ mode reply, (SysCall.vbeGetModeInfo mode, reply) ∈ tr →
        w.gpu_res_info = ⟨reply.mode_info.XResolution, reply.mode_info.YResolution⟩ := by
  have hgood := (projInit_settled h).1.good
  obtain ⟨before, memory, rfl, hbefore, hrun⟩ := projInit_memory h
  obtain ⟨_, made, _, rfl, hmade, hrun⟩ := Prog.runs_bind.mp hrun
  cases made with
  | none => cases (Prog.runs_ret.mp hrun).2
  | some made =>
    obtain ⟨r, gpu_res_info⟩ := made
    dsimp only at hrun
    split at hrun
    · cases (Prog.runs_ret.mp hrun).2
    · next hzero =>
      obtain rfl := not_not.mp hzero
      split at hrun
      · cases (Prog.runs_ret.mp hrun).2
      · next menus gamestate hinit =>
        obtain ⟨rfl, heq⟩ := Prog.runs_ret.mp hrun
        cases heq
        refine ⟨⟨hgood, rfl, fun ptr => .refl _, Menu.init_drawable hassets hinit,
          Mouse.onScreen_init _ _ _⟩, fun mode reply hmem => ?_⟩
        obtain ⟨asked, rest, rfl, hrest, hres⟩ := gpuInitMemIndexation_mode hmade
        rw [List.append_nil, List.mem_append, List.mem_cons] at hmem
        rcases hmem with hin | heq | hin
        · exact absurd rfl (hbefore _ hin mode)
        · cases heq
          exact hres
        · exact absurd rfl (hrest _ hin mode)

/-- The screen after `proj_init`, in a mode with eight bits for a pixel. -/
theorem Display.ready_mapped {vmi_p : VbeModeInfo} {backbuffer : List UInt8} (video_mem : List UInt8)
    (hbits : vmi_p.BitsPerPixel = 8)
    (hback : backbuffer.length = vmi_p.YResolution.toNat * vmi_p.XResolution.toNat) :
    (Display.mapped vmi_p backbuffer video_mem).gpu.Ready vmi_p.XResolution.toNat
      vmi_p.YResolution.toNat := by
  have hone : (Display.mapped vmi_p backbuffer video_mem).gpu.bytes_per_pixel = 1 := by
    have hround : ((UInt8.toUInt32 8 + 7) / 8).toUInt8 = 1 := by decide
    unfold Display.mapped
    rw [hbits]
    exact hround
  have hbpp : (Display.mapped vmi_p backbuffer video_mem).gpu.bpp = 1 := by
    unfold Gpu.bpp
    rw [hone]
    rfl
  refine ⟨rfl, rfl, hbpp, ?_⟩
  unfold Gpu.Sized
  rw [hbpp, Nat.mul_one]
  exact hback

section
variable {host : Host} {boot : List SysEvent} {w : World} {reply : SysReply}
  {backbuffer video_mem : List UInt8}

/-- The loop starts with everything in place. -/
theorem projInit_screened (hassets : host.assets.Loaded)
    (hboot : (projInit host World.startup).Runs boot (.done (0, w)))
    (hasked : (SysCall.vbeGetModeInfo graphicsMode, reply) ∈ boot)
    (hbits : reply.mode_info.BitsPerPixel = 8)
    (hback : backbuffer.length =
      reply.mode_info.YResolution.toNat * reply.mode_info.XResolution.toNat)
    (hvideo : video_mem.length = backbuffer.length) :
    Screened w.menus host.assets.mouse
      ⟨reply.mode_info.XResolution, reply.mode_info.YResolution⟩
      (Display.mapped reply.mode_info backbuffer video_mem) 0 { w with skip_frame := false }
      (Display.mapped reply.mode_info backbuffer video_mem) := by
  obtain ⟨hstaged, hmode⟩ := projInit_staged hassets hboot
  rw [hmode graphicsMode reply hasked] at hstaged
  refine ⟨⟨⟨hstaged.good.valid, hstaged.good.menus, hstaged.good.mouse⟩, hstaged.mode, hstaged.kept,
    hstaged.drawable, hstaged.cursor⟩, ?_, rfl⟩
  exact Display.shows_self (Display.ready_mapped video_mem hbits hback) hvideo rfl

end

/-- **The screen shows the game.** After any `proj_init` that succeeds in a mode with eight bits for a
    pixel, whatever messages arrive: drawing never faults; every second tick is a frame; the last
    frame is on the screen as a whole — the menu of its game state with the cursor over it, on black,
    or, when it is the first frame, on what `malloc` found in the back buffer — and before the first
    frame the video memory is as it was. -/
theorem screen_shows_scene (host : Host) (fuel : Nat) (boot tr : List SysEvent) (w : World)
    (reply : SysReply) (backbuffer video_mem : List UInt8) (o : Outcome World) (d : Display)
    (hassets : host.assets.Loaded)
    (hboot : (projInit host World.startup).Runs boot (.done (0, w)))
    (hasked : (SysCall.vbeGetModeInfo graphicsMode, reply) ∈ boot)
    (hbits : reply.mode_info.BitsPerPixel = 8)
    (hsmall : reply.mode_info.XResolution.toNat ≤ 32000 ∧ reply.mode_info.YResolution.toNat ≤ 32000)
    (hback : backbuffer.length =
      reply.mode_info.YResolution.toNat * reply.mode_info.XResolution.toNat)
    (hvideo : video_mem.length = backbuffer.length)
    (hloop : (mainLoopOn host fuel { w with skip_frame := false }
      (Display.mapped reply.mode_info backbuffer video_mem)).Runs tr (o, d)) :
    (∃ w', o.Ends w') ∧ d.frames.length = (tr.countP SysEvent.ticks + 1) / 2 ∧
      d.Shows reply.mode_info.XResolution.toNat reply.mode_info.YResolution.toNat w.menus
        host.assets.mouse (Display.mapped reply.mode_info backbuffer video_mem) := by
  obtain ⟨w', hends, hscreened⟩ := mainLoopOn_screened hassets.mouse hsmall fuel
    (projInit_screened hassets hboot hasked hbits hback hvideo) hloop
  refine ⟨⟨w', hends⟩, ?_, hscreened.shows⟩
  have hpace := hscreened.pace
  split at hpace
  · omega
  · omega

/-- **The game does not depend on the screen.** The program that draws asks the same questions and
    comes to the same as the one whose drawing is left out. -/
theorem drawing_changes_nothing (host : Host) (fuel : Nat) (boot : List SysEvent) (w : World)
    (reply : SysReply) (backbuffer video_mem : List UInt8)
    (hassets : host.assets.Loaded)
    (hboot : (projInit host World.startup).Runs boot (.done (0, w)))
    (hasked : (SysCall.vbeGetModeInfo graphicsMode, reply) ∈ boot)
    (hbits : reply.mode_info.BitsPerPixel = 8)
    (hsmall : reply.mode_info.XResolution.toNat ≤ 32000 ∧ reply.mode_info.YResolution.toNat ≤ 32000)
    (hback : backbuffer.length =
      reply.mode_info.YResolution.toNat * reply.mode_info.XResolution.toNat)
    (hvideo : video_mem.length = backbuffer.length) (tr : List SysEvent) (o : Outcome World) :
    (mainLoop host fuel { w with skip_frame := false }).Runs tr o ↔
      ∃ d, (mainLoopOn host fuel { w with skip_frame := false }
        (Display.mapped reply.mode_info backbuffer video_mem)).Runs tr (o, d) := by
  rw [← mainLoopOn_forget hassets.mouse hsmall fuel
    (projInit_screened hassets hboot hasked hbits hback hvideo), Prog.runs_bind_ret]
  constructor
  · intro h
    obtain ⟨⟨o', d⟩, hrun, rfl⟩ := h
    exact ⟨d, hrun⟩
  · intro h
    obtain ⟨d, hrun⟩ := h
    exact ⟨(o, d), hrun, rfl⟩

/-! ### A machine that draws -/

/-- An image of one colour. -/
@[irreducible] def plainImage (width height : Nat) : XpmImage :=
  ⟨.indexed, UInt16.ofNat width, UInt16.ofNat height, List.replicate (height * width) 5⟩

theorem loaded_plainImage {width height : Nat} (hw : width < 65536) (hh : height < 65536) :
    (plainImage width height).Loaded width height := by
  unfold plainImage
  exact .inr ⟨Nat.mod_eq_of_lt hw, Nat.mod_eq_of_lt hh, List.length_replicate.ge⟩

def plainHost : Host := { emptyHost with
  assets :=
    { logo := plainImage 540 108
      play_button := plainImage 402 97
      leaderboard_button := plainImage 402 97
      quit_button := plainImage 402 97
      trophy := plainImage 300 300
      alphabet_sprites := plainImage 44 3486
      mouse := plainImage 58 42 } }

theorem loaded_plainHost : plainHost.assets.Loaded where
  logo := loaded_plainImage (by decide) (by decide)
  play_button := loaded_plainImage (by decide) (by decide)
  leaderboard_button := loaded_plainImage (by decide) (by decide)
  quit_button := loaded_plainImage (by decide) (by decide)
  trophy := loaded_plainImage (by decide) (by decide)
  alphabet_sprites := loaded_plainImage (by decide) (by decide)
  mouse := loaded_plainImage (by decide) (by decide)

/-- The world after `bootTrace`. -/
def plainBooted : World :=
  match (projInit plainHost World.startup).exec bootTrace with
  | some (.done made) => made.2
  | _ => World.startup

/-- The answer to the question for the mode. -/
def modeReply : SysReply := (granted (.vbeGetModeInfo graphicsMode) 0).2

/-- The screen before the first message: a back buffer of sevens, and a screen of ones. -/
def plainDisplay : Display :=
  Display.mapped modeReply.mode_info (List.replicate 786432 7) (List.replicate 786432 1)

/-- What the loop comes to when the timer ticks in its first message. -/
def ticked : Outcome World :=
  ((mainLoop plainHost 1 { plainBooted with skip_frame := false }).exec [interrupt 1]).getD .panicked

theorem runs_ticked :
    (mainLoop plainHost 1 { plainBooted with skip_frame := false }).Runs [interrupt 1] ticked :=
  Prog.runs_getD (by decide +kernel) _

theorem screened_plainDisplay :
    Screened plainBooted.menus plainHost.assets.mouse ⟨1024, 768⟩ plainDisplay 0
      { plainBooted with skip_frame := false } plainDisplay :=
  @projInit_screened plainHost bootTrace plainBooted modeReply _ _ loaded_plainHost rfl (by decide)
    rfl List.length_replicate (by rw [List.length_replicate, List.length_replicate])

theorem exists_ticked :
    ∃ d, (mainLoopOn plainHost 1 { plainBooted with skip_frame := false } plainDisplay).Runs
      [interrupt 1] (ticked, d) := by
  have hrun := runs_ticked
  rw [← mainLoopOn_forget (loaded_plainHost.mouse) ⟨by decide, by decide⟩ 1 screened_plainDisplay,
    Prog.runs_bind_ret] at hrun
  obtain ⟨⟨o, d⟩, hrun, heq⟩ := hrun
  exact ⟨d, heq ▸ hrun⟩

/-- The first frame lies over the sevens. -/
theorem screen_shows_scene_tick :
    ∃ (d : Display) (w : World), d.frames = [w] ∧ d.screen =
      (w.scene 1024 768 plainBooted.menus plainHost.assets.mouse).onto plainDisplay.gpu.view := by
  obtain ⟨d, hrun⟩ := exists_ticked
  obtain ⟨-, hframes, hshows⟩ := screen_shows_scene plainHost 1 bootTrace [interrupt 1] plainBooted
    modeReply (List.replicate 786432 7) (List.replicate 786432 1) ticked d loaded_plainHost rfl
    (by decide) rfl ⟨by decide, by decide⟩ List.length_replicate
    (by rw [List.length_replicate, List.length_replicate]) hrun
  obtain ⟨w, hw⟩ := List.length_eq_one_iff.mp hframes
  exact ⟨d, w, hw, hshows.last [] w hw⟩

theorem drawing_changes_nothing_tick :
    ∃ d, (mainLoopOn plainHost 1 { plainBooted with skip_frame := false } plainDisplay).Runs
      [interrupt 1] (ticked, d) :=
  (drawing_changes_nothing plainHost 1 bootTrace plainBooted modeReply (List.replicate 786432 7)
    (List.replicate 786432 1) loaded_plainHost rfl (by decide) rfl ⟨by decide, by decide⟩
    List.length_replicate (by rw [List.length_replicate, List.length_replicate]) [interrupt 1]
    ticked).mp runs_ticked

end Lcom

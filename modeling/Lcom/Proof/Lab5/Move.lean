import Mathlib.Data.Nat.Factorization.Basic
import Lcom.Proof.Drivers.Receive
import Lcom.Proof.Lab5.Panel

/-!
# The image on its way

`video_test_move` never looks at its goal: whatever messages arrive, the image is at `(xi + n, yi + n)`
after `n` frames, a frame comes with every tick whose number the ticks of a frame divide, and the last
one is on the screen. What both loops keep is `Mover.Timed`; `videoTestMove_reaches` takes the program
apart around its loop.
-/

namespace Lcom
namespace Lab5

open Lib

/-! ## Frames and ticks -/

/-- How many of the first `n` ticks are to show a frame. -/
def dueFrames (counter : UInt32) (clocks_per_frame : UInt16) (n : Nat) : Nat :=
  ((Finset.range n).filter fun t =>
    (counter + UInt32.ofNat (t + 1)) % clocks_per_frame.toUInt32 = 0).card

theorem dueFrames_succ (counter : UInt32) (clocks_per_frame : UInt16) (n : Nat) :
    dueFrames counter clocks_per_frame (n + 1) = dueFrames counter clocks_per_frame n +
      if (counter + UInt32.ofNat (n + 1)) % clocks_per_frame.toUInt32 = 0 then 1 else 0 := by
  unfold dueFrames
  rw [Finset.range_add_one, Finset.filter_insert]
  split
  · rw [Finset.card_insert_of_notMem (by simp)]
  · rfl

/-! ## What both loops keep -/

namespace Mover

/-- The loop goes on, and has counted and shown what the messages brought. -/
structure Timed (W H : Nat) (img : XpmImage) (clocks_per_frame : UInt16) (s s₀ : Mover)
    (es : List ScanEvent) : Prop where
  going : s.left = none
  counter : s.counter = s₀.counter + UInt32.ofNat (ticks es)
  shows : s.panel.Shows W H img s₀.panel s.frames
  pace : s.frames.length = dueFrames s₀.counter clocks_per_frame (ticks es)

variable {W H : Nat} {img : XpmImage} {clocks_per_frame : UInt16} {s s' s₀ : Mover}
  {es : List ScanEvent} {e : ScanEvent}

theorem Timed.start (h : s.panel.Ready W H) (hleft : s.left = none) (hframes : s.frames = []) :
    s.Timed W H img clocks_per_frame s [] where
  going := hleft
  counter := (UInt32.add_zero _).symm
  shows := by
    rw [hframes]
    exact Panel.shows_start h
  pace := by
    rw [hframes]
    rfl

/-- Whether a frame is due after a tick. -/
theorem Timed.frameDue (h : s.Timed W H img clocks_per_frame s₀ es) (hclocks : clocks_per_frame ≠ 0) :
    s.timerIntHandler.counter = s₀.counter + UInt32.ofNat (ticks es + 1) ∧
      s.timerIntHandler.frameDue clocks_per_frame = .ok (decide
        ((s₀.counter + UInt32.ofNat (ticks es + 1)) % clocks_per_frame.toUInt32 = 0)) := by
  have hcounter : s.timerIntHandler.counter = s₀.counter + UInt32.ofNat (ticks es + 1) := by
    unfold timerIntHandler
    rw [h.counter, UInt32.ofNat_add, UInt32.add_assoc]
    rfl
  refine ⟨hcounter, ?_⟩
  unfold Mover.frameDue
  rw [if_neg hclocks, hcounter]
  rfl

/-- The keys and the place of the image make no difference. -/
theorem Timed.moved (h : s.Timed W H img clocks_per_frame s₀ es) (kbd : KbdGlobals) (x y : UInt16) :
    Timed W H img clocks_per_frame { s with kbd, x, y } s₀ es :=
  ⟨h.going, h.counter, h.shows, h.pace⟩

/-- A message without a tick. -/
theorem Timed.quiet (h : s.Timed W H img clocks_per_frame s₀ es)
    (he : e.received.carries .timer = false) : s.Timed W H img clocks_per_frame s₀ (es ++ [e]) := by
  have hticks : ticks (es ++ [e]) = ticks es := by
    rw [ticks_append, he]
    rfl
  refine ⟨h.going, ?_, h.shows, ?_⟩
  · rw [hticks]
    exact h.counter
  · rw [hticks]
    exact h.pace

/-- A tick without a frame. -/
theorem Timed.tick (h : s.Timed W H img clocks_per_frame s₀ es)
    (he : e.received.carries .timer = true) (hclocks : clocks_per_frame ≠ 0)
    (hdue : ¬ (s₀.counter + UInt32.ofNat (ticks es + 1)) % clocks_per_frame.toUInt32 = 0) :
    s.timerIntHandler.Timed W H img clocks_per_frame s₀ (es ++ [e]) := by
  have hticks : ticks (es ++ [e]) = ticks es + 1 := by
    rw [ticks_append, he]
    rfl
  refine ⟨h.going, ?_, h.shows, ?_⟩
  · rw [hticks]
    exact (h.frameDue hclocks).1
  · rw [hticks, dueFrames_succ, if_neg hdue]
    exact h.pace

/-- A tick with a frame, of an image that has been moved or not. -/
theorem Timed.frame {x y : UInt16} (h : s.Timed W H img clocks_per_frame s₀ es)
    (he : e.received.carries .timer = true) (hclocks : clocks_per_frame ≠ 0)
    (hdue : (s₀.counter + UInt32.ofNat (ticks es + 1)) % clocks_per_frame.toUInt32 = 0)
    (hframed : Framed W H img s₀.panel { s.timerIntHandler with x, y } s') :
    s'.Timed W H img clocks_per_frame s₀ (es ++ [e]) := by
  have hticks : ticks (es ++ [e]) = ticks es + 1 := by
    rw [ticks_append, he]
    rfl
  refine ⟨hframed.left.trans h.going, ?_, hframed.shows, ?_⟩
  · rw [hticks, hframed.counter]
    exact (h.frameDue hclocks).1
  · rw [hticks, dueFrames_succ, if_pos hdue, hframed.frames, List.length_append]
    exact congrArg (· + 1) h.pace

/-! ## The loop of `video_test_move` -/

/-- The image has gone down the diagonal, a pixel with each frame. -/
structure OnPath (s s₀ : Mover) : Prop where
  place : s.x = s₀.x + UInt16.ofNat s.frames.length ∧ s.y = s₀.y + UInt16.ofNat s.frames.length
  path : s.frames = (List.range s.frames.length).map fun n =>
    (s₀.x + UInt16.ofNat (n + 1), s₀.y + UInt16.ofNat (n + 1))

/-- One frame more. -/
theorem OnPath.frame {t : Mover} {d₀ : Panel} (h : s.OnPath s₀) (hframed : Framed W H img d₀ t s')
    (hframes : t.frames = s.frames) (hx : t.x = s.x + 1) (hy : t.y = s.y + 1) : s'.OnPath s₀ := by
  have hlength : s'.frames.length = s.frames.length + 1 := by
    rw [hframed.frames, List.length_append, hframes]
    rfl
  have hplace : s'.x = s₀.x + UInt16.ofNat (s.frames.length + 1) ∧
      s'.y = s₀.y + UInt16.ofNat (s.frames.length + 1) := by
    rw [hframed.place.1, hframed.place.2, hx, hy, h.place.1, h.place.2, UInt16.ofNat_add,
      UInt16.add_assoc, UInt16.add_assoc]
    exact ⟨rfl, rfl⟩
  refine ⟨by rw [hlength]; exact hplace, ?_⟩
  have hpath := h.path
  rw [hlength, List.range_succ, List.map_append, ← hpath, hframed.frames, hframes,
    ← hframed.place.1, ← hframed.place.2, hplace.1, hplace.2]
  rfl

/-- What a message does: the keyboard's handler has its turn, and then the timer's. -/
theorem step_cases (h : receiveStep looping (iterate img clocks_per_frame) s e = some s') :
    ∃ kbd, s' = if e.received.carries .timer then
      orFault { s with kbd } (timerBranch img clocks_per_frame { s with kbd }) else { s with kbd } := by
  unfold receiveStep at h
  split at h
  · have hrun : (s.iterate img clocks_per_frame e.received).Runs e.ports s' := h
    unfold iterate at hrun
    split at hrun
    · next hfailed =>
      obtain ⟨-, rfl⟩ := Prog.runs_ret.mp hrun
      exact ⟨s.kbd, by simp [SysReply.carries, hfailed]⟩
    · next hfailed =>
      split at hrun
      · next hmsg =>
        obtain ⟨kbd, -, rfl⟩ := Prog.runs_bind_ret.mp hrun
        exact ⟨kbd, by simp [SysReply.carries, hfailed, hmsg]⟩
      · next hmsg =>
        obtain ⟨-, rfl⟩ := Prog.runs_ret.mp hrun
        exact ⟨s.kbd, by simp [SysReply.carries, hmsg]⟩
  · cases h

/-- **One message** of the loop. -/
theorem Timed.step (himg : Complete img) (hclocks : clocks_per_frame ≠ 0)
    {t₀ : Mover} (h : s.Timed W H img clocks_per_frame s₀ es ∧ s.OnPath t₀)
    (hstep : receiveStep looping (iterate img clocks_per_frame) s e = some s') :
    s'.Timed W H img clocks_per_frame s₀ (es ++ [e]) ∧ s'.OnPath t₀ := by
  obtain ⟨htimed, hpath⟩ := h
  obtain ⟨kbd, rfl⟩ := step_cases hstep
  split
  · next he =>
    have htimed' := htimed.moved kbd s.x s.y
    obtain ⟨-, hdue⟩ := htimed'.frameDue hclocks
    unfold timerBranch
    dsimp only
    rw [hdue, ok_bind]
    by_cases hframe : (s₀.counter + UInt32.ofNat (ticks es + 1)) % clocks_per_frame.toUInt32 = 0
    · obtain ⟨s', hdraw, hframed⟩ := @stepFrame_framed W H img s₀.panel
        (timerIntHandler { s with kbd }) himg htimed.shows.ready
      rw [decide_eq_true hframe, if_pos rfl, hdraw]
      exact ⟨htimed'.frame he hclocks hframe hframed, hpath.frame hframed rfl rfl rfl⟩
    · rw [decide_eq_false hframe, if_neg Bool.false_ne_true]
      exact ⟨htimed'.tick he hclocks hframe, ⟨hpath.place, hpath.path⟩⟩
  · next he =>
    exact ⟨(htimed.moved kbd s.x s.y).quiet (by simpa using he), ⟨hpath.place, hpath.path⟩⟩

end Mover

/-! ## Around the loop -/

section
variable {heap vram : Nat → UInt8} {mode : UInt16} {d : Panel}

theorem Panel.ready_mapped {vmi_p : VbeModeInfo} (hbits : vmi_p.BitsPerPixel = 8) :
    (Panel.mapped heap vram vmi_p).Ready vmi_p.XResolution.toNat vmi_p.YResolution.toNat := by
  have hx := vmi_p.XResolution.toNat_lt
  have hy := vmi_p.YResolution.toNat_lt
  have hmax : vmi_p.XResolution.toNat * vmi_p.YResolution.toNat ≤ 65535 * 65535 :=
    Nat.mul_le_mul (Nat.le_of_lt_succ hx) (Nat.le_of_lt_succ hy)
  have hround : UInt8.ofNat ((vmi_p.BitsPerPixel.toNat + 7) / 8) = 1 := by
    rw [hbits]
    rfl
  have hsize : (vmi_p.XResolution.toUInt32 * vmi_p.YResolution.toUInt32 *
      UInt8.toUInt32 1).toNat = vmi_p.YResolution.toNat * vmi_p.XResolution.toNat := by
    rw [UInt32.toNat_mul, UInt32.toNat_mul, UInt16.toNat_toUInt32, UInt16.toNat_toUInt32]
    change _ * 1 % 2 ^ 32 = _
    rw [Nat.mul_one, Nat.mod_mod, Nat.mod_eq_of_lt (by omega), Nat.mul_comm]
  have hone : (Panel.mapped heap vram vmi_p).gpu.toProject.bpp = 1 := by
    change (UInt8.ofNat ((vmi_p.BitsPerPixel.toNat + 7) / 8)).toNat = 1
    rw [hround]
    rfl
  refine ⟨⟨rfl, rfl, hone, ?_⟩, ?_⟩
  · unfold Gpu.Sized
    rw [hone, Nat.mul_one]
    change (Panel.block _ _).length = vmi_p.YResolution.toNat * vmi_p.XResolution.toNat
    unfold Panel.block
    rw [List.length_map, List.length_range, hround, hsize]
  · change (Panel.block _ _).length = (Panel.block _ _).length
    unfold Panel.block
    rw [List.length_map, List.length_map]

theorem quiet_gpuInit (heap vram : Nat → UInt8) (mode : UInt16) (d : Panel) :
    (d.gpuInitMemIndexation heap vram mode).Asks Quiet := by
  refine (Prog.Asks.query ⟨by simp, by simp⟩).bind fun r => ?_
  split
  · trivial
  · refine (asks_sysCode ⟨by simp, by simp⟩).check ?_
    refine (asks_sysCode ⟨by simp, by simp⟩).check ?_
    exact (asks_sysCode ⟨by simp, by simp⟩).check trivial

/-- A mode that could be set up is the one the answer describes. -/
theorem runs_gpuInit {tr : List SysEvent} {d' : Panel}
    (h : (d.gpuInitMemIndexation heap vram mode).Runs tr (some (0, d'))) :
    ∃ reply, (SysCall.vbeGetModeInfo mode, reply) ∈ tr ∧ d' = .mapped heap vram reply.mode_info := by
  rw [Panel.gpuInitMemIndexation, Prog.query_bind] at h
  obtain ⟨reply, tr', rfl, hrest⟩ := Prog.runs_ask.mp h
  refine ⟨reply, List.mem_cons_self, ?_⟩
  split at hrest
  · cases (Prog.runs_ret.mp hrest).2
  · rcases runs_call hrest with ⟨_, -, -, heq⟩ | ⟨_, _, rfl, -, hrest⟩
    · cases heq
    rcases runs_call hrest with ⟨_, -, -, heq⟩ | ⟨_, _, rfl, -, hrest⟩
    · cases heq
    rcases runs_call hrest with ⟨_, -, -, heq⟩ | ⟨_, _, rfl, -, hrest⟩
    · cases heq
    cases (Prog.runs_ret.mp hrest).2
    rfl

theorem quiet_finish (s : Mover) : s.finish.Asks Quiet := by
  unfold Mover.finish
  split
  · trivial
  · refine (asks_sysCode ⟨by simp, by simp⟩).check ?_
    refine (asks_sysCode ⟨by simp, by simp⟩).check ?_
    exact (asks_sysCode ⟨by simp, by simp⟩).check trivial

/-- When nothing has made the body leave the loop, the program returns. -/
theorem runs_finish {s : Mover} {tr : List SysEvent} {ending : Ending} (h : s.finish.Runs tr ending)
    (hleft : s.left = none) : ∃ r, ending = .returned r := by
  unfold Mover.finish at h
  rw [hleft] at h
  rcases runs_call h with ⟨_, -, -, rfl⟩ | ⟨_, _, -, -, h⟩
  · exact ⟨1, rfl⟩
  rcases runs_call h with ⟨_, -, -, rfl⟩ | ⟨_, _, -, -, h⟩
  · exact ⟨1, rfl⟩
  rcases runs_call h with ⟨_, -, -, rfl⟩ | ⟨_, _, -, -, h⟩
  · exact ⟨1, rfl⟩
  exact ⟨0, (Prog.runs_ret.mp h).2.symm⟩

end

section
variable {σ : Type} {looping : σ → Bool} {iterate : σ → SysReply → Driver σ} {toMover : σ → Mover}

/-- How a program that may get to its loop comes to `s`: either it gives up before it, and no message
    has been received, or the messages are a run of the loop, from the memory that was mapped. -/
inductive Reaches (looping : σ → Bool) (iterate : σ → SysReply → Driver σ) (toMover : σ → Mover)
    (heap vram : Nat → UInt8) (start : Panel → σ) (tr : List SysEvent) (ending : Ending) (s : σ) :
    Prop where
  | early (panel : Panel) (state : s = start panel) (quiet : ∀ e ∈ tr, Quiet e.1)
      (ends : ending = .panicked ∨ ending = .returned 1)
  | loop (reply : SysReply) (asked : (SysCall.vbeGetModeInfo 0x105, reply) ∈ tr)
      (messages : run (receiveStep looping iterate) (start (.mapped heap vram reply.mode_info))
        (messages tr) = some s)
      (ports : (Lcom.messages tr).flatMap ScanEvent.ports = tr.filterMap portOf)
      (ends : ending = .running ∨ ∃ rest, (toMover s).finish.Runs rest ending)

/-- A call before the loop, of which only the code is looked at. -/
theorem Reaches.call {heap vram : Nat → UInt8} (start : Panel → σ) (panel : Panel) (call : SysCall)
    (hcall : Quiet call) {rest : Sys (Ending × σ)} {tr : List SysEvent} {ending : Ending} {s : σ}
    (h : (sysCode call >>= fun r => if r ≠ 0 then Prog.ret (.returned 1, start panel) else rest).Runs
      tr (ending, s))
    (hrest : ∀ tr', rest.Runs tr' (ending, s) →
      Reaches looping iterate toMover heap vram start tr' ending s) :
    Reaches looping iterate toMover heap vram start tr ending s := by
  rcases runs_call h with ⟨reply, rfl, -, heq⟩ | ⟨reply, tr', rfl, -, hrun⟩
  · obtain ⟨rfl, rfl⟩ := Prod.mk.inj heq
    exact .early panel rfl (List.forall_mem_singleton.mpr hcall) (.inr rfl)
  · have hquiet : ∀ e ∈ [(call, reply)], Quiet e.1 := List.forall_mem_singleton.mpr hcall
    cases hrest tr' hrun with
    | early panel state quiet ends =>
      exact .early panel state (List.forall_mem_cons.mpr ⟨hcall, quiet⟩) ends
    | loop reply' asked hmessages ports ends =>
      obtain ⟨hsame, hsame'⟩ := messages_quiet hquiet tr'
      refine .loop reply' (List.mem_cons_of_mem _ asked) ?_ ?_ ends
      · exact hsame.symm ▸ hmessages
      · exact hsame.symm ▸ hsame'.symm ▸ ports

/-- From `gpu_init_mem_indexation` on. -/
theorem Reaches.memory {heap vram : Nat → UInt8} {start : Panel → σ} {panel : Panel} {fuel : Nat}
    {tr : List SysEvent} {ending : Ending} {s : σ}
    (h : (panel.gpuInitMemIndexation heap vram 0x105 >>= fun made =>
      match made with
      | none => Prog.ret (.panicked, start panel)
      | some (r, panel) =>
        if r ≠ 0 then Prog.ret (.returned 1, start panel)
        else receiveLoop looping iterate fuel (start panel) >>= fun o =>
          if !o.1 then Prog.ret (.running, o.2)
          else (toMover o.2).finish >>= fun ending => Prog.ret (ending, o.2)).Runs tr (ending, s)) :
    Reaches looping iterate toMover heap vram start tr ending s := by
  obtain ⟨init, made, tail, rfl, hinit, hrest⟩ := Prog.runs_bind.mp h
  have hquiet := (quiet_gpuInit heap vram 0x105 panel).trace hinit
  cases made with
  | none =>
    obtain ⟨rfl, heq⟩ := Prog.runs_ret.mp hrest
    obtain ⟨rfl, rfl⟩ := Prod.mk.inj heq
    exact .early panel rfl (by rwa [List.append_nil]) (.inl rfl)
  | some made =>
    obtain ⟨r, panel'⟩ := made
    dsimp only at hrest
    split at hrest
    · obtain ⟨rfl, heq⟩ := Prog.runs_ret.mp hrest
      obtain ⟨rfl, rfl⟩ := Prod.mk.inj heq
      exact .early panel' rfl (by rwa [List.append_nil]) (.inr rfl)
    · next hzero =>
      obtain rfl := not_not.mp hzero
      obtain ⟨reply, hasked, rfl⟩ := runs_gpuInit hinit
      obtain ⟨hsame, hsame'⟩ := messages_quiet hquiet tail
      have hafter : ∀ o : Bool × σ, Prog.Asks Quiet (if !o.1 then Prog.ret (.running, o.2)
          else (toMover o.2).finish >>= fun ending => Prog.ret (ending, o.2) : Sys (Ending × σ)) := by
        intro o
        split
        · trivial
        · exact (quiet_finish _).bind fun _ => trivial
      obtain ⟨s', loop, rest, -, hrun, hports, hend⟩ := receiveLoop_bind_run hafter hrest
      have hends : s' = s ∧ (ending = .running ∨ ∃ rest, (toMover s).finish.Runs rest ending) := by
        dsimp only at hend
        split at hend
        · obtain ⟨-, heq⟩ := Prog.runs_ret.mp hend
          obtain ⟨rfl, rfl⟩ := Prod.mk.inj heq
          exact ⟨rfl, .inl rfl⟩
        · obtain ⟨e, hfinish, heq⟩ := Prog.runs_bind_ret.mp hend
          obtain ⟨rfl, rfl⟩ := Prod.mk.inj heq
          exact ⟨rfl, .inr ⟨_, hfinish⟩⟩
      obtain ⟨rfl, hends⟩ := hends
      refine .loop reply (List.mem_append_left _ hasked) ?_ ?_ hends
      · rw [hsame]
        exact hrun
      · rw [hsame, hsame']
        exact hports

end

/-- Every tick that is due for a frame has had one, and the last frame is on the screen, on black. -/
structure Mover.Displays (img : XpmImage) (clocks_per_frame : UInt16) (s : Mover) (n : Nat) : Prop where
  pace : s.frames.length = dueFrames 0 clocks_per_frame n
  last : ∀ earlier x y, s.frames = earlier ++ [(x, y)] →
    s.panel.screen = (imageLayer s.panel.gpu.x_res.toNat s.panel.gpu.y_res.toNat img x y).onto
      (blackScreen s.panel.gpu.x_res.toNat s.panel.gpu.y_res.toNat)

section
variable {σ : Type} {looping : σ → Bool} {iterate : σ → SysReply → Driver σ} {toMover : σ → Mover}
  {heap vram : Nat → UInt8} {start : Panel → σ} {tr : List SysEvent} {ending : Ending} {s : σ}
  {img : XpmImage} {clocks_per_frame : UInt16} {I : List ScanEvent → σ → Prop}

/-- What the two programs show, in a mode with eight bits for a pixel, when their loops keep what
    `Timed` says. They may keep more. -/
theorem Reaches.displays (h : Reaches looping iterate toMover heap vram start tr ending s)
    (hbits : ∀ reply, (SysCall.vbeGetModeInfo 0x105, reply) ∈ tr → reply.mode_info.BitsPerPixel = 8)
    (hstart : ∀ panel, toMover (start panel) =
      { Mover.start (toMover (start panel)).kbd 0 (toMover (start panel)).x
        (toMover (start panel)).y with panel })
    (hkept : ∀ panel, I [] (start panel))
    (hstep : ∀ W H s₀ es e s s', (toMover s).Timed W H img clocks_per_frame s₀ es ∧ I es s →
      receiveStep looping iterate s e = some s' →
        (toMover s').Timed W H img clocks_per_frame s₀ (es ++ [e]) ∧ I (es ++ [e]) s') :
    (∀ f, ending ≠ .faulted f) ∧
      (toMover s).Displays img clocks_per_frame (tr.countP SysEvent.ticks) ∧ I (messages tr) s := by
  rw [countP_ticks]
  cases h with
  | early panel state quiet ends =>
    subst state
    have hframes : (toMover (start panel)).frames = [] := by
      rw [hstart]
      rfl
    rw [(messages_of_quiet quiet).1]
    refine ⟨fun f hf => ?_, ⟨?_, fun earlier x y hlast => ?_⟩, hkept panel⟩
    · rcases ends with rfl | rfl <;> cases hf
    · rw [hframes]
      rfl
    · rw [hframes] at hlast
      simp at hlast
  | loop reply asked hmessages ports ends =>
    have hready := @Panel.ready_mapped heap vram reply.mode_info (hbits reply asked)
    let s₀ := toMover (start (.mapped heap vram reply.mode_info))
    have hs₀ : s₀.panel = .mapped heap vram reply.mode_info ∧ s₀.left = none ∧ s₀.frames = [] ∧
        s₀.counter = 0 := by
      unfold s₀
      rw [hstart]
      exact ⟨rfl, rfl, rfl, rfl⟩
    obtain ⟨hpanel, hleft, hnone, hzero⟩ := hs₀
    rw [← hpanel] at hready
    obtain ⟨htimed, hI⟩ := run_history
      (fun es s => (toMover s).Timed _ _ img clocks_per_frame s₀ es ∧ I es s)
      (fun es e s s' hs hs' => hstep _ _ s₀ es e s s' hs hs')
      ⟨Mover.Timed.start hready hleft hnone, hkept _⟩ hmessages
    refine ⟨fun f hf => ?_, ⟨?_, fun earlier x y hframes => ?_⟩, hI⟩
    · rcases ends with rfl | ⟨rest, hfinish⟩
      · cases hf
      · obtain ⟨r, hr⟩ := runs_finish hfinish htimed.going
        rw [hr] at hf
        cases hf
    · rw [htimed.pace, hzero]
    · have hlast := htimed.shows.last earlier x y hframes
      have hwidth : (toMover s).panel.gpu.x_res.toNat = _ := htimed.shows.ready.gpu.width
      have hheight : (toMover s).panel.gpu.y_res.toNat = _ := htimed.shows.ready.gpu.height
      rw [hwidth, hheight]
      exact hlast

end

theorem videoTestMove_reaches {hz : UInt32} {img : XpmImage} {heap vram : Nat → UInt8}
    {xi yi : UInt16} {fr_rate : UInt8} {kbd : KbdGlobals} {counter : UInt32} {fuel : Nat}
    {tr : List SysEvent} {ending : Ending} {s : Mover} (hrate : fr_rate ≠ 0)
    (h : (videoTestMove hz img heap vram xi yi fr_rate kbd counter fuel).Runs tr (ending, s)) :
    Reaches Mover.looping (Mover.iterate img (hz.toUInt16 / fr_rate.toUInt16)) id heap vram
      (fun panel => { Mover.start kbd counter xi yi with panel }) tr ending s := by
  unfold videoTestMove at h
  let start := fun panel => { Mover.start kbd counter xi yi with panel }
  refine Reaches.call start .startup (.irqSetPolicy _ _ _) ⟨by simp, by simp⟩ h fun tr h => ?_
  refine Reaches.call start .startup (.irqSetPolicy _ _ _) ⟨by simp, by simp⟩ h fun tr h => ?_
  rw [if_neg hrate] at h
  refine Reaches.call start .startup (.int86 _ _ _) ⟨by simp, by simp⟩ h fun tr h => ?_
  exact Reaches.memory h

/-- **The image goes down the diagonal.** Whatever messages arrive, and whichever calls fail: no fault
    happens; a frame comes with every tick that is due for one; with the `n`-th the image is at
    `(xi + n, yi + n)`, however far it was to go; and it is what the screen shows, on black. -/
theorem video_test_move_path (hz : UInt32) (img : XpmImage) (heap vram : Nat → UInt8)
    (xi yi : UInt16) (fr_rate : UInt8) (kbd : KbdGlobals) (fuel : Nat) (tr : List SysEvent)
    (ending : Ending) (s : Mover) (himg : Complete img)
    (hrate : 0 < fr_rate.toNat ∧ fr_rate.toNat ≤ hz.toUInt16.toNat)
    (hbits : ∀ reply, (SysCall.vbeGetModeInfo 0x105, reply) ∈ tr → reply.mode_info.BitsPerPixel = 8)
    (h : (videoTestMove hz img heap vram xi yi fr_rate kbd 0 fuel).Runs tr (ending, s)) :
    (∀ f, ending ≠ .faulted f) ∧ s.OnPath (.start kbd 0 xi yi) ∧
      s.Displays img (hz.toUInt16 / fr_rate.toUInt16) (tr.countP SysEvent.ticks) := by
  have hne : fr_rate ≠ 0 := by
    rintro rfl
    exact absurd hrate.1 (by decide)
  have hclocks : hz.toUInt16 / fr_rate.toUInt16 ≠ 0 := by
    intro hzero
    have hdiv := congrArg UInt16.toNat hzero
    rw [UInt16.toNat_div, UInt8.toNat_toUInt16, UInt16.toNat_zero] at hdiv
    exact absurd hdiv (Nat.div_pos hrate.2 hrate.1).ne'
  have hstart : ∀ panel, Mover.OnPath { Mover.start kbd 0 xi yi with panel } (.start kbd 0 xi yi) :=
    fun panel => ⟨⟨(UInt16.add_zero xi).symm, (UInt16.add_zero yi).symm⟩, rfl⟩
  obtain ⟨hfaults, hdisplays, hpath⟩ := (videoTestMove_reaches hne h).displays
    (I := fun _ s => s.OnPath (.start kbd 0 xi yi)) hbits (fun panel => rfl) hstart
    fun W H s₀ es e s s' hs hstep => Mover.Timed.step himg hclocks hs hstep
  exact ⟨hfaults, hpath, hdisplays⟩

/-- The calls of a program that gets to its loop, on a screen of four by three pixels. -/
def smallMode : List SysEvent :=
  [granted (.irqSetPolicy kbcIrqKbd true .keyboard) 0, granted (.irqSetPolicy timer0Irq false .timer) 0,
    granted (.int86 0x10 0x4F02 0x4105) 0,
    (.vbeGetModeInfo 0x105, ⟨false, 0, ⟨4, 3, 8, 0⟩, ⟨false, false, 0⟩⟩),
    granted (.privctlAddMem 0 12) 0, granted (.vmMapPhys 0 12) 0, granted (.malloc 12) 0]

/-- A dot that has gone one pixel. -/
theorem video_test_move_path_dot :
    ∃ (s : Mover), s.frames = [(1, 1)] ∧ s.panel.screen =
      (imageLayer s.panel.gpu.x_res.toNat s.panel.gpu.y_res.toNat ⟨.indexed, 1, 1, [9]⟩ 1 1).onto
        (blackScreen s.panel.gpu.x_res.toNat s.panel.gpu.y_res.toNat) := by
  let program := videoTestMove 60 ⟨.indexed, 1, 1, [9]⟩ (fun _ => 3) (fun _ => 5) 0 0 60 ⟨0, false⟩ 0 1
  obtain ⟨⟨ending, s⟩, hrun⟩ : ∃ o, program.Runs (smallMode ++ [interrupt 1]) o :=
    ⟨_, Prog.runs_getD (by decide +kernel) (.running, .start ⟨0, false⟩ 0 0 0)⟩
  obtain ⟨-, hpath, hpace, hlast⟩ := video_test_move_path 60 ⟨.indexed, 1, 1, [9]⟩ (fun _ => 3)
    (fun _ => 5) 0 0 60 ⟨0, false⟩ 1 (smallMode ++ [interrupt 1]) ending s (by decide) (by decide)
    (by simp [smallMode, granted, interrupt]) hrun
  have hone : s.frames.length = 1 := hpace
  have hframes : s.frames = [(1, 1)] := by
    have hall := hpath.path
    rw [hone] at hall
    exact hall
  exact ⟨s, hframes, hlast [] 1 1 hframes⟩

end Lab5
end Lcom

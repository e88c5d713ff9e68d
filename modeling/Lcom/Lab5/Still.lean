import Lcom.Lab5.Move
import Lcom.Lab5.Pattern

/-!
# What stands still — `lab5/lab5.c`

`video_test_rectangle`, `video_test_pattern` and `video_test_xpm` draw something and wait for the escape
key; they differ in what they draw, and in whether they show it. The statics of colour, which
`gpu_init_mem_indexation` takes from the mode as well, are a parameter.
-/

namespace Lcom
namespace Lab5

open Lib

/-! ## `aux_wait_esc` -/

namespace WaitEsc

/-- The condition of the `while`. -/
def looping (kbd : KbdGlobals) : Bool := kbd.scan_code != escBreakcode

/-- Its body, with what `driver_receive` gave back. -/
def iterate (kbd : KbdGlobals) (r : SysReply) : Driver KbdGlobals :=
  if r.failed then pure kbd
  else if r.msg.notify && r.msg.hardware then
    if r.msg.raises .keyboard then kbcIh kbd else pure kbd
  else pure kbd

end WaitEsc

/-- `aux_wait_esc()`: the code once it has returned, and the keyboard's globals. -/
def auxWaitEsc (kbd : KbdGlobals) (fuel : Nat) : Sys (Option Int × KbdGlobals) := do
  if (← keyboardSubscribe) ≠ 0 then pure (some 1, kbd)
  else do
    let (ended, kbd) ← receiveLoop WaitEsc.looping WaitEsc.iterate fuel kbd
    if !ended then pure (none, kbd)
    else if (← keyboardUnsubscribe) ≠ 0 then pure (some 1, kbd)
    else pure (some 0, kbd)

/-! ## The programs -/

namespace Panel

/-- `vg_draw_rectangle(x, y, width, height, color)`. -/
def drawRectangle (x y width height : UInt16) (color : UInt32) (d : Panel) :
    Except Fault (Int × Panel) := do
  let (r, gpu) ← d.gpu.vgDrawRectangle x y width height color
  pure (r, { d with gpu })

/-- `aux_draw_pattern(no_rectangles, first, step)`. -/
def drawPattern (c : Colors) (no_rectangles : UInt8) (first : UInt32) (step : UInt8) (d : Panel) :
    Except Fault (Int × Panel) := do
  let (r, gpu) ← auxDrawPattern c no_rectangles first step d.gpu
  pure (r, { d with gpu })

end Panel

/-- What the three have in common: the mode, a drawing that may give up, and the wait. -/
def showStill (heap vram : Nat → UInt8) (mode : UInt16) (draw : Panel → Except Fault (Int × Panel))
    (kbd : KbdGlobals) (fuel : Nat) : Sys (Ending × Panel) := do
  match ← Panel.startup.gpuInitMemIndexation heap vram mode with
  | none => pure (.panicked, .startup)
  | some (r, panel) =>
    if r ≠ 0 then pure (.returned 1, panel)
    else if (← gpuSetMode mode) ≠ 0 then pure (.returned 1, panel)
    else
      match draw panel with
      | .error f => pure (.faulted f, panel)
      | .ok (r, panel) =>
        if r ≠ 0 then pure (.returned 1, panel)
        else do
          let (code, _) ← auxWaitEsc kbd fuel
          match code with
          | none => pure (.running, panel)
          | some r =>
            if r ≠ 0 then pure (.returned 1, panel)
            else if (← vgExit) ≠ 0 then pure (.returned 1, panel)
            else pure (.returned 0, panel)

/-- `video_test_init(mode, delay)`; it sleeps between the two calls. -/
def videoTestInit (mode : UInt16) : Sys Int := do
  if (← gpuSetMode mode) ≠ 0 then pure 1
  else if (← vgExit) ≠ 0 then pure 1
  else pure 0

/-- `video_test_rectangle(mode, x, y, width, height, color)`. Nothing is copied to the video memory. -/
def videoTestRectangle (heap vram : Nat → UInt8) (mode x y width height : UInt16) (color : UInt32)
    (kbd : KbdGlobals) (fuel : Nat) : Sys (Ending × Panel) :=
  showStill heap vram mode (fun d => d.drawRectangle x y width height color) kbd fuel

/-- `video_test_pattern(mode, no_rectangles, first, step)`. -/
def videoTestPattern (c : Colors) (heap vram : Nat → UInt8) (mode : UInt16) (no_rectangles : UInt8)
    (first : UInt32) (step : UInt8) (kbd : KbdGlobals) (fuel : Nat) : Sys (Ending × Panel) :=
  showStill heap vram mode
    (fun d => do
      let (r, d) ← d.drawPattern c no_rectangles first step
      if r ≠ 0 then pure (1, d) else pure (0, ← d.vgCommit)) kbd fuel

/-- `video_test_xpm(xpm, x, y)`. The code of `aux_draw_xpm` is not looked at. -/
def videoTestXpm (img : XpmImage) (heap vram : Nat → UInt8) (x y : UInt16) (kbd : KbdGlobals)
    (fuel : Nat) : Sys (Ending × Panel) :=
  showStill heap vram 0x105
    (fun d => do
      let (_, d) ← d.drawXpm img x y
      pure (0, ← d.vgCommit)) kbd fuel

end Lab5
end Lcom

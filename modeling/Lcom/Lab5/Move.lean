import Lcom.Drivers.Keyboard
import Lcom.Drivers.System
import Lcom.Lab5.Gpu

/-!
# Moving an image — `lab5/lab5.c`

`video_test_move` carries an image down the diagonal, a pixel with every frame; what it is told of the
goal and of the speed it does not look at. `video_test_controller` moves one with the keys. Both run
over the timer and the keyboard of the project: their `extern` `counter`, which no file defines, is
taken to be the `timer_counter` that `timer_int_handler` advances. The ticks per second that `sys_hz`
reports are a parameter, and so is the image that `xpm_load` gives: it is loaded anew for each frame,
and every load is taken to succeed and to give the same.

The loops take a fuel, and a body that leaves its loop says so in `left`. Two history variables, which
no function reads, keep the place of each frame and the steps of the controller.
-/

namespace Lcom
namespace Lab5

open Lib

/-- How a program ends, if it does. -/
inductive Ending where
  | returned (r : Int)
  | panicked
  | faulted (f : Fault)
  | running
  deriving DecidableEq, Repr

/-! ## The memory drawn to -/

/-- The statics of the driver, and the video memory they point to. -/
structure Panel where
  gpu : Gpu
  video_mem : List UInt8
  deriving DecidableEq, Repr

namespace Panel

/-- The statics before `gpu_init_mem_indexation`. -/
def startup : Panel := ⟨⟨0, 0, 0, []⟩, []⟩

/-- `count` bytes of what some memory holds. -/
def block (memory : Nat → UInt8) (count : UInt32) : List UInt8 := (List.range count.toNat).map memory

/-- The statics that drawing uses, for a mode; `heap` and `vram` are what `malloc` and `vm_map_phys`
    find in their blocks. -/
def mapped (heap vram : Nat → UInt8) (vmi_p : VbeModeInfo) : Panel :=
  let x_res := vmi_p.XResolution
  let y_res := vmi_p.YResolution
  let bytes_per_pixel := UInt8.ofNat ((vmi_p.BitsPerPixel.toNat + 7) / 8)
  let vram_size := x_res.toUInt32 * y_res.toUInt32 * bytes_per_pixel.toUInt32
  ⟨⟨x_res, y_res, bytes_per_pixel, block heap vram_size⟩, block vram vram_size⟩

/-- `gpu_init_mem_indexation(mode)`: the code and the statics, or nothing when it panics. The statics
    of colour are left out (`ModeInfo.colors`). -/
def gpuInitMemIndexation (heap vram : Nat → UInt8) (mode : UInt16) (d : Panel) :
    Sys (Option (Int × Panel)) := do
  let r ← Prog.query (.vbeGetModeInfo mode)
  if r.failed then pure (some (1, d))
  else do
    let vmi_p := r.mode_info
    let d := mapped heap vram vmi_p
    let vram_size := d.gpu.vramSize
    if (← sysCode (.privctlAddMem vmi_p.PhysBasePtr (vmi_p.PhysBasePtr + vram_size))) ≠ 0 then
      pure none
    else if (← sysCode (.vmMapPhys vmi_p.PhysBasePtr vram_size)) ≠ 0 then pure none
    else if (← sysCode (.malloc vram_size)) ≠ 0 then pure none
    else pure (some (0, d))

/-- `aux_clear()`. -/
def clear (d : Panel) : Except Fault (Int × Panel) := do
  let (r, gpu) ← d.gpu.auxClear
  pure (r, { d with gpu })

/-- `aux_draw_xpm(xpm, x, y)`. -/
def drawXpm (img : XpmImage) (x y : UInt16) (d : Panel) : Except Fault (Int × Panel) := do
  let (r, gpu) ← d.gpu.auxDrawXpm img x y
  pure (r, { d with gpu })

/-- `aux_vg_commit()`. -/
def vgCommit (d : Panel) : Except Fault Panel := do
  let video_mem ← memcpy d.video_mem 0 d.gpu.backbuffer 0 d.gpu.vramSize.toNat
  pure { d with video_mem }

end Panel

/-! ## What the two loops share -/

/-- The globals, the place of the image, and the memory. -/
structure Mover where
  kbd : KbdGlobals
  counter : UInt32
  x : UInt16
  y : UInt16
  panel : Panel
  left : Option Ending
  frames : List (UInt16 × UInt16)
  deriving DecidableEq, Repr

namespace Mover

def start (kbd : KbdGlobals) (counter : UInt32) (x y : UInt16) : Mover where
  kbd := kbd
  counter := counter
  x := x
  y := y
  panel := .startup
  left := none
  frames := []

/-- The condition of the `while`, in a loop that has not been left. -/
def looping (s : Mover) : Bool := s.left.isNone && s.kbd.scan_code != escBreakcode

/-- `timer_int_handler()`, which counts in `timer_counter`. -/
def timerIntHandler (s : Mover) : Mover := { s with counter := s.counter + 1 }

/-- `counter % clocks_per_frame == 0`. -/
def frameDue (clocks_per_frame : UInt16) (s : Mover) : Except Fault Bool :=
  if clocks_per_frame = 0 then .error .outOfBounds
  else .ok (s.counter % clocks_per_frame.toUInt32 == 0)

/-- The image has been drawn: `aux_vg_commit()`. -/
def showFrame (s : Mover) : Except Fault Mover := do
  let panel ← s.panel.vgCommit
  pure { s with panel, frames := s.frames ++ [(s.x, s.y)] }

/-- A body that may have faulted. -/
def orFault (s : Mover) : Except Fault Mover → Mover
  | .ok s' => s'
  | .error f => { s with left := some (.faulted f) }

/-- `if (vg_exit()) return 1;`, and the two subscriptions given back. -/
def finish (s : Mover) : Sys Ending := do
  match s.left with
  | some ending => pure ending
  | none =>
    if (← vgExit) ≠ 0 then pure (.returned 1)
    else if (← keyboardUnsubscribe) ≠ 0 then pure (.returned 1)
    else if (← timerUnsubscribe) ≠ 0 then pure (.returned 1)
    else pure (.returned 0)

end Mover

/-! ## `video_test_move` -/

namespace Mover

/-- The body of `if (counter % clocks_per_frame == 0)`. -/
def stepFrame (img : XpmImage) (s : Mover) : Except Fault Mover := do
  let s := { s with x := s.x + 1, y := s.y + 1 }
  let (r, panel) ← s.panel.clear
  if r ≠ 0 then pure { s with panel, left := some (.returned 1) }
  else do
    let (r, panel) ← panel.drawXpm img s.x s.y
    if r ≠ 0 then pure { s with panel, left := some (.returned 1) }
    else showFrame { s with panel }

/-- The body of the `if` on the timer's bit. -/
def timerBranch (img : XpmImage) (clocks_per_frame : UInt16) (s : Mover) : Except Fault Mover := do
  let s := s.timerIntHandler
  if ← s.frameDue clocks_per_frame then s.stepFrame img else pure s

/-- `case HARDWARE`. -/
def handleInterrupts (img : XpmImage) (clocks_per_frame : UInt16) (s : Mover) (msg : Message) :
    Driver Mover := do
  let kbd ← (if msg.raises .keyboard then kbcIh s.kbd else pure s.kbd)
  let s := { s with kbd }
  pure (if msg.raises .timer then s.orFault (s.timerBranch img clocks_per_frame) else s)

/-- The body of the `while`. -/
def iterate (img : XpmImage) (clocks_per_frame : UInt16) (s : Mover) (r : SysReply) : Driver Mover :=
  if r.failed then pure s
  else if r.msg.notify && r.msg.hardware then s.handleInterrupts img clocks_per_frame r.msg
  else pure s

end Mover

/-- `video_test_move(xpm, xi, yi, xf, yf, speed, fr_rate)`: how it ends, and the variables. -/
def videoTestMove (hz : UInt32) (img : XpmImage) (heap vram : Nat → UInt8) (xi yi : UInt16)
    (fr_rate : UInt8) (kbd : KbdGlobals) (counter : UInt32) (fuel : Nat) : Sys (Ending × Mover) := do
  let s := Mover.start kbd counter xi yi
  if (← keyboardSubscribe) ≠ 0 then pure (.returned 1, s)
  else if (← timerSubscribe) ≠ 0 then pure (.returned 1, s)
  else
    let frequency := hz.toUInt16
    if fr_rate = 0 then pure (.faulted .outOfBounds, s)
    else
      let clocks_per_frame := frequency / fr_rate.toUInt16
      if (← gpuSetMode 0x105) ≠ 0 then pure (.returned 1, s)
      else
        match ← s.panel.gpuInitMemIndexation heap vram 0x105 with
        | none => pure (.panicked, s)
        | some (r, panel) =>
          if r ≠ 0 then pure (.returned 1, { s with panel })
          else do
            let (ended, s) ← receiveLoop Mover.looping (Mover.iterate img clocks_per_frame) fuel
              { s with panel }
            if !ended then pure (.running, s) else pure (← s.finish, s)

/-! ## `video_test_controller` -/

/-- `enum moveState`. -/
inductive MoveState where
  | running
  | walking
  deriving DecidableEq, Repr

def MoveState.toNat : MoveState → Nat
  | .running => 10
  | .walking => 1

/-- `enum keyState`. -/
inductive KeyState where
  | pressed
  | notPressed
  deriving DecidableEq, Repr

/-- The locals of the controller on top of what it shares. -/
structure Controller extends Mover where
  elapsed : Nat
  move_state : MoveState
  w_key_state : KeyState
  a_key_state : KeyState
  s_key_state : KeyState
  d_key_state : KeyState
  steps : List (Int × Int)
  deriving DecidableEq, Repr

namespace Controller

def start (cooldown : Nat) (s : Mover) : Controller where
  toMover := s
  elapsed := cooldown
  move_state := .walking
  w_key_state := .notPressed
  a_key_state := .notPressed
  s_key_state := .notPressed
  d_key_state := .notPressed
  steps := []

/-- One of the four `if`s on the state of a key: a key that is pressed moves the image, and starts the
    cooldown again. -/
def moveIf (cooldown : Nat) (key : KeyState) (x y : UInt16) (c : Controller) : Controller :=
  if key = .pressed then { c with x, y, elapsed := cooldown / c.move_state.toNat } else c

/-- The four of them, one after the other. -/
def moveByKeys (cooldown : Nat) (c : Controller) : Controller :=
  let c := c.moveIf cooldown c.w_key_state c.x (c.y - 10)
  let c := c.moveIf cooldown c.a_key_state (c.x - 10) c.y
  let c := c.moveIf cooldown c.s_key_state c.x (c.y + 10)
  c.moveIf cooldown c.d_key_state (c.x + 10) c.y

/-- By how much the keys move the image, for the record. -/
def stepOf (c : Controller) : Int × Int :=
  let amount : KeyState → Int := fun key => if key = .pressed then 10 else 0
  (amount c.d_key_state - amount c.a_key_state, amount c.s_key_state - amount c.w_key_state)

/-- Whether a key is pressed. -/
def anyKey (c : Controller) : Bool :=
  c.w_key_state = .pressed || c.a_key_state = .pressed || c.s_key_state = .pressed ||
    c.d_key_state = .pressed

/-- `if (!elapsed)`. -/
def move (cooldown : Nat) (c : Controller) : Controller :=
  if c.elapsed = 0 then
    { c.moveByKeys cooldown with steps := if c.anyKey then c.steps ++ [c.stepOf] else c.steps }
  else c

/-- Two of the `if`s on `scan_code`, for one key. -/
def keyAfter (scan_code makecode breakcode : UInt8) (key : KeyState) : KeyState :=
  let key := if scan_code = makecode then .pressed else key
  if scan_code = breakcode then .notPressed else key

/-- The body of `if (kbd_ih_valid)`. -/
def handleScancode (c : Controller) : Controller :=
  let code := c.kbd.scan_code
  let move_state := if code = shiftMakecode then .running else c.move_state
  { c with
    move_state := if code = shiftBreakcode then .walking else move_state
    w_key_state := keyAfter code wMakecode wBreakcode c.w_key_state
    a_key_state := keyAfter code aMakecode aBreakcode c.a_key_state
    s_key_state := keyAfter code sMakecode sBreakcode c.s_key_state
    d_key_state := keyAfter code dMakecode dBreakcode c.d_key_state }

/-- The body of the `if` on the keyboard's bit. -/
def keyboardBranch (c : Controller) : Driver Controller := do
  let kbd ← kbcIh c.kbd
  let c := { c with kbd }
  pure (if c.kbd.kbd_ih_valid then c.handleScancode else c)

/-- The body of `if (counter % clocks_per_frame == 0)`. The code of `aux_clear` is not looked at. -/
def drawFrame (img : XpmImage) (s : Mover) : Except Fault Mover := do
  let (_, panel) ← s.panel.clear
  let (r, panel) ← panel.drawXpm img s.x s.y
  if r ≠ 0 then pure { s with panel, left := some (.returned 1) }
  else Mover.showFrame { s with panel }

/-- The body of the `if` on the timer's bit, but for `if (elapsed) elapsed--;`. -/
def timerBranch (img : XpmImage) (clocks_per_frame : UInt16) (s : Mover) : Except Fault Mover := do
  let s := s.timerIntHandler
  if ← s.frameDue clocks_per_frame then drawFrame img s else pure s

/-- `case HARDWARE`. -/
def handleInterrupts (img : XpmImage) (clocks_per_frame : UInt16) (c : Controller) (msg : Message) :
    Driver Controller := do
  let c ← (if msg.raises .keyboard then c.keyboardBranch else pure c)
  pure (if msg.raises .timer then
    { c with
      toMover := c.toMover.orFault (timerBranch img clocks_per_frame c.toMover)
      elapsed := if c.elapsed ≠ 0 then c.elapsed - 1 else c.elapsed }
  else c)

/-- The body of the `while`. -/
def iterate (img : XpmImage) (cooldown : Nat) (clocks_per_frame : UInt16) (c : Controller)
    (r : SysReply) : Driver Controller :=
  if r.failed then pure c
  else
    let c := c.move cooldown
    if r.msg.notify && r.msg.hardware then c.handleInterrupts img clocks_per_frame r.msg else pure c

end Controller

/-- `video_test_controller()`: how it ends, and the variables. -/
def videoTestController (hz : UInt32) (penguin : XpmImage) (heap vram : Nat → UInt8)
    (kbd : KbdGlobals) (counter : UInt32) (fuel : Nat) : Sys (Ending × Controller) := do
  let frequency := hz.toUInt16
  let cooldown := 1 * frequency.toNat
  let s := Mover.start kbd counter 100 100
  let c := Controller.start cooldown s
  if (← keyboardSubscribe) ≠ 0 then pure (.returned 1, c)
  else if (← timerSubscribe) ≠ 0 then pure (.returned 1, c)
  else if (← gpuSetMode 0x105) ≠ 0 then pure (.returned 1, c)
  else
    match ← s.panel.gpuInitMemIndexation heap vram 0x105 with
    | none => pure (.panicked, c)
    | some (r, panel) =>
      if r ≠ 0 then pure (.returned 1, { c with panel })
      else do
        let clocks_per_frame := frequency / 30
        let (ended, c) ← receiveLoop (fun c => c.looping)
          (Controller.iterate penguin cooldown clocks_per_frame) fuel { c with panel }
        if !ended then pure (.running, c) else pure (← c.toMover.finish, c)

end Lab5
end Lcom

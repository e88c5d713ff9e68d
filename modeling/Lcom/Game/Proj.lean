import Lcom.Drivers.System
import Lcom.Input.Keyboard
import Lcom.Input.Mouse
import Lcom.Ui.Menu

/-!
# The program — `proj.c`

`World` is the static storage `proj_main_loop` works on, and `Host` what the program finds in its
surroundings: the images, the leaderboard file, and whatever fresh and uninitialised memory holds.
The kernel calls are questions (`Sys`). What the blits put into the back buffer is the graphics
driver's business and is left out, as are `gpu_buffer_commit` and `gpu_buffer_clear`.

`while` takes a fuel: a loop that is still going when it is used up is `running`, which is no way
to return. Three history variables, which no function reads, record the course of the loop:
`clicked` (as in `Ui`), the number of messages asked for, and the `moments` — the game state after
`proj_init`, after each of the three handlers of a message, and after a message with none.
-/

namespace Lcom

open Lib

structure Host where
  assets : Assets
  leaderboard_file : Option Text
  /-- The uninitialised locals of `Gamestate_init`. -/
  memory : InitMemory
  /-- The flag in the cursor's fresh sprite. -/
  mouse_fresh : Bool
  /-- The uninitialised `aknl` of the `n`-th mouse command. -/
  aknl : Nat → UInt8
  /-- The uninitialised `scancode` of `Keyboard_handle`, at the `n`-th message. -/
  scancode : Nat → UInt8

/-- The game state at some point of the run: what was clicked until then, and in which message. -/
structure Moment where
  gamestate : GamestateManager
  clicked : List UiElement
  messages : Nat

structure World where
  gpu_res_info : GpuResInfo
  driver : MouseDriver
  mouse_packet : Packet
  mouse : Mouse
  keyboard : Keyboard
  gamestate : GamestateManager
  menus : MenuPtr → Menu
  skip_frame : Bool
  clicked : List UiElement
  messages : Nat
  moments : List Moment

namespace World

/-- The storage the program starts with. The two menu pointers are NULL until `Gamestate_init` sets
    them; empty menus stand for them. -/
def startup : World where
  gpu_res_info := ⟨0, 0⟩
  driver := MouseDriver.startup
  mouse_packet := MouseDriver.zeroPacket
  mouse := Mouse.zeroed
  keyboard := Keyboard.startup
  gamestate := GamestateManager.startup
  menus := fun _ => ⟨[]⟩
  skip_frame := false
  clicked := []
  messages := 0
  moments := []

/-- What `Mouse_handle` works on. -/
def input (w : World) : MouseInput := ⟨w.driver, w.mouse_packet, w.mouse⟩

def setInput (w : World) (input : MouseInput) : World :=
  { w with driver := input.driver, mouse_packet := input.mouse_packet, mouse := input.mouse }

/-- What `Mouse_draw` works on. -/
def ui (w : World) : Ui := ⟨w.mouse, w.gamestate, w.menus, w.clicked⟩

def setUi (w : World) (ui : Ui) : World :=
  { w with mouse := ui.mouse, gamestate := ui.gamestate, menus := ui.menus, clicked := ui.clicked }

def now (w : World) : Moment := ⟨w.gamestate, w.clicked, w.messages⟩

/-- Keep the present game state in the record. -/
def observe (w : World) : World := { w with moments := w.moments ++ [w.now] }

end World

/-- What a part of the program comes to: a `panic` does not return. -/
inductive Outcome (α : Type) where
  | done (a : α)
  | panicked
  | faulted (f : Fault)
  | running (w : World)

/-! ## `proj_init` and `proj_shutdown` -/

/-- `GRAPHICS_MODE`. -/
def graphicsMode : UInt16 := 0x105

/-- `proj_init` from `gpu_init_mem_indexation` on. -/
def projInitMemory (host : Host) (w : World) : Sys (Outcome (Int × World)) := do
  match ← gpuInitMemIndexation w.gpu_res_info graphicsMode with
  | none => pure .panicked
  | some (r, gpu_res_info) =>
    let w := { w with gpu_res_info }
    if r ≠ 0 then pure (.done (1, w))
    else
      let mouse := w.mouse.init host.assets.mouse host.mouse_fresh
      let keyboard := w.keyboard.init
      match (w.gamestate.init host.assets host.memory host.leaderboard_file).result with
      | .error f => pure (.faulted f)
      | .ok (menus, gamestate) =>
        pure (.done (0, { w with mouse, keyboard, menus, gamestate }.observe))

/-- `proj_init`: the code and the storage. -/
def projInit (host : Host) (w : World) : Sys (Outcome (Int × World)) := do
  if (← keyboardSubscribe) ≠ 0 then pure (.done (1, w))
  else if (← timerSubscribe) ≠ 0 then pure (.done (1, w))
  else if (← mouseSubscribe) ≠ 0 then pure (.done (1, w))
  else if (← Driver.sys (mouseWriteCommand 0xF3 (host.aknl 0))) ≠ 0 then pure (.done (1, w))
  else if (← Driver.sys (mouseWriteCommand 40 (host.aknl 1))) ≠ 0 then pure (.done (1, w))
  else if (← Driver.sys (mouseEnableData (host.aknl 2))) ≠ 0 then pure (.done (1, w))
  else if (← gpuSetMode graphicsMode) ≠ 0 then pure (.done (1, w))
  else projInitMemory host w

/-- `proj_shutdown`. -/
def projShutdown (host : Host) : Sys Int := do
  if (← Driver.sys (mouseDisableData (host.aknl 3))) ≠ 0 then pure 1
  else if (← keyboardUnsubscribe) ≠ 0 then pure 1
  else if (← timerUnsubscribe) ≠ 0 then pure 1
  else if (← mouseUnsubscribe) ≠ 0 then pure 1
  else if (← vgExit) ≠ 0 then pure 1
  else pure 0

/-! ## The handlers -/

namespace World

/-- `Mouse_handle()`. -/
def mouseHandle (w : World) : Sys World := do
  let input ← Driver.sys (w.input.handle w.gpu_res_info)
  pure (w.setInput input)

/-- The `if` after `Keyboard_handle()`. -/
def escapeQuits (w : World) : Except Fault World :=
  if w.gamestate.inMenu then do
    let pressed ← w.keyboard.pressed .esc
    pure (if pressed then { w with gamestate := w.gamestate.quit } else w)
  else pure w

/-- `Keyboard_handle()` and the check of the escape key. -/
def keyboardHandle (host : Host) (w : World) : Sys (Except Fault World) := do
  let keyboard ← Driver.sys (w.keyboard.handle (host.scancode w.messages))
  pure (keyboard >>= fun keyboard => { w with keyboard }.escapeQuits)

/-- `Menu_draw(Gamestate_get_current_menu())`, which goes through the pointer it is handed. -/
def drawMenu (w : World) : Except Fault World :=
  match w.gamestate.getCurrentMenu with
  | none => .error .nullDereference
  | some ptr => do
    let (menu, _) ← (w.menus ptr).draw
    pure { w with menus := Function.update w.menus ptr menu }

/-- `Mouse_draw()`. -/
def drawMouse (w : World) : Except Fault World := do
  let (ui, _) ← w.ui.draw
  pure (w.setUi ui)

/-- The body of `if (!skip_frame)`. -/
def drawFrame (w : World) : Except Fault World := do
  let w ← (if w.gamestate.inMenu then w.drawMenu else pure w)
  w.drawMouse

/-- The body of the `if` on the timer's bit. -/
def timerTick (w : World) : Except Fault World := do
  let w ← (if w.skip_frame then pure w else w.drawFrame)
  pure { w with skip_frame := !w.skip_frame }

end World

/-! ## The main loop -/

/-- `case HARDWARE`: the handlers of the bits that are set, in the order of the source. -/
def handleInterrupts (host : Host) (w : World) (msg : Message) : Sys (Except Fault World) := do
  let w ← (if msg.raises .mouse then w.mouseHandle else pure w)
  let w := w.observe
  let o ← (if msg.raises .keyboard then w.keyboardHandle host else pure (.ok w))
  pure do
    let w ← o
    let w := w.observe
    let w ← (if msg.raises .timer then w.timerTick else pure w)
    pure w.observe

/-- The `while` of `proj_main_loop`. -/
def mainLoop (host : Host) : Nat → World → Sys (Outcome World)
  | 0, w => if w.gamestate.state = .quit then pure (.done w) else pure (.running w)
  | fuel + 1, w =>
    if w.gamestate.state = .quit then pure (.done w)
    else do
      let r ← Prog.query .driverReceive
      let w := { w with messages := w.messages + 1 }
      if r.failed then mainLoop host fuel w.observe
      else if r.msg.notify && r.msg.hardware then
        match ← handleInterrupts host w r.msg with
        | .error f => pure (.faulted f)
        | .ok w => mainLoop host fuel w
      else mainLoop host fuel w.observe

/-- `proj_main_loop`. -/
def projMainLoop (host : Host) (fuel : Nat) : Sys (Outcome Int) := do
  match ← projInit host World.startup with
  | .panicked => pure .panicked
  | .faulted f => pure (.faulted f)
  | .running w => pure (.running w)
  | .done (r, w) =>
    if r ≠ 0 then pure (.done 1)
    else
      match ← mainLoop host fuel { w with skip_frame := false } with
      | .panicked => pure .panicked
      | .faulted f => pure (.faulted f)
      | .running w => pure (.running w)
      | .done _ =>
        if (← projShutdown host) ≠ 0 then pure (.done 1) else pure (.done 0)

end Lcom

import Lcom.Game.Proj

/-!
# The program with its screen — `proj.c`, the buffers of `drivers/gpu.c`

The same loop as in `Game/Proj.lean`, this time with the memory it draws to: the menus and the cursor
go to the back buffer, which is copied to the video memory and cleared after each frame. `Display` is
that memory with the statics of the driver. `frames`, which no function reads, keeps the world each
frame was drawn from.
-/

namespace Lcom

open Lib

/-! ## The two buffers -/

structure Display where
  gpu : Gpu
  video_mem : List UInt8
  frames : List World

namespace Display

/-- What `gpu_init_mem_indexation` leaves behind for a mode, on top of what `malloc` and `vm_map_phys`
    find in the two blocks. -/
def mapped (vmi_p : VbeModeInfo) (backbuffer video_mem : List UInt8) : Display where
  gpu :=
    { gpu_res_info := ⟨vmi_p.XResolution, vmi_p.YResolution⟩
      bytes_per_pixel := ((vmi_p.BitsPerPixel.toUInt32 + 7) / 8).toUInt8
      backbuffer }
  video_mem
  frames := []

/-- `gpu_buffer_commit`. -/
def bufferCommit (d : Display) : Except Fault Display := do
  let video_mem ← memcpy d.video_mem 0 d.gpu.backbuffer 0 d.gpu.vramSize.toNat
  pure { d with video_mem }

/-- `gpu_buffer_clear`. -/
def bufferClear (d : Display) : Except Fault Display := do
  let backbuffer ← memset d.gpu.backbuffer 0 d.gpu.vramSize.toNat
  pure { d with gpu := { d.gpu with backbuffer } }

end Display

/-! ## Drawing -/

/-- The `while` of `Menu_draw`, with the blits made. -/
def Menu.drawElementsOn : List UiElement → Gpu → Except Fault (List UiElement × Gpu)
  | [], g => pure ([], g)
  | element :: next, g => do
    let (element, g) ← element.draw g
    let (next, g) ← drawElementsOn next g
    pure (element :: next, g)

/-- `Menu_draw(menu)`. -/
def Menu.drawOn (menu : Menu) (g : Gpu) : Except Fault (Menu × Gpu) := do
  let (element, g) ← drawElementsOn menu.element g
  pure ({ element }, g)

/-- The second `if` of `Mouse_draw`. -/
def Ui.drawCursorOn (u : Ui) (g : Gpu) : Except Fault (Ui × Gpu) :=
  if u.mouse.hidden then .ok (u, g)
  else do
    let position :=
      if u.mouse.sprite.current_frame = mouseClick then
        ⟨u.mouse.position.x - 9, u.mouse.position.y⟩
      else u.mouse.position
    let (sprite, g) ← u.mouse.sprite.drawOn position g
    pure ({ u with mouse := { u.mouse with sprite } }, g)

/-- `Mouse_draw`. -/
def Ui.drawOn (u : Ui) (g : Gpu) : Except Fault (Ui × Gpu) := do
  let u ← u.hover
  u.drawCursorOn g

namespace World

/-- `Menu_draw(Gamestate_get_current_menu())`. -/
def drawMenuOn (w : World) (g : Gpu) : Except Fault (World × Gpu) :=
  match w.gamestate.getCurrentMenu with
  | none => .error .nullDereference
  | some ptr => do
    let (menu, g) ← (w.menus ptr).drawOn g
    pure ({ w with menus := Function.update w.menus ptr menu }, g)

/-- `Mouse_draw()`. -/
def drawMouseOn (w : World) (g : Gpu) : Except Fault (World × Gpu) := do
  let (ui, g) ← w.ui.drawOn g
  pure (w.setUi ui, g)

/-- The two calls that draw in the body of `if (!skip_frame)`. -/
def drawSceneOn (w : World) (g : Gpu) : Except Fault (World × Gpu) := do
  let (w, g) ← (if w.gamestate.inMenu then w.drawMenuOn g else pure (w, g))
  w.drawMouseOn g

/-- The body of `if (!skip_frame)`. -/
def drawFrameOn (w : World) (d : Display) : Except Fault (World × Display) := do
  let (w', gpu) ← w.drawSceneOn d.gpu
  let d ← { d with gpu, frames := d.frames ++ [w] }.bufferCommit
  let d ← d.bufferClear
  pure (w', d)

/-- The body of the `if` on the timer's bit. -/
def timerTickOn (w : World) (d : Display) : Except Fault (World × Display) := do
  let (w, d) ← (if w.skip_frame then pure (w, d) else w.drawFrameOn d)
  pure ({ w with skip_frame := !w.skip_frame }, d)

end World

/-! ## The main loop -/

/-- `case HARDWARE`. -/
def handleInterruptsOn (host : Host) (w : World) (d : Display) (msg : Message) :
    Sys (Except Fault (World × Display)) := do
  let w ← (if msg.raises .mouse then w.mouseHandle else pure w)
  let w := w.observe
  let o ← (if msg.raises .keyboard then w.keyboardHandle host else pure (.ok w))
  pure do
    let w ← o
    let w := w.observe
    let (w, d) ← (if msg.raises .timer then w.timerTickOn d else pure (w, d))
    pure (w.observe, d)

/-- The `while` of `proj_main_loop`: what it comes to, and the screen it leaves. -/
def mainLoopOn (host : Host) : Nat → World → Display → Sys (Outcome World × Display)
  | 0, w, d => if w.gamestate.state = .quit then pure (.done w, d) else pure (.running w, d)
  | fuel + 1, w, d =>
    if w.gamestate.state = .quit then pure (.done w, d)
    else do
      let r ← Prog.query .driverReceive
      let w := { w with messages := w.messages + 1 }
      if r.failed then mainLoopOn host fuel w.observe d
      else if r.msg.notify && r.msg.hardware then
        match ← handleInterruptsOn host w d r.msg with
        | .error f => pure (.faulted f, d)
        | .ok (w, d) => mainLoopOn host fuel w d
      else mainLoopOn host fuel w.observe d

end Lcom

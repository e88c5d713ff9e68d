import Lcom.Drivers.Mouse
import Lcom.Ui.Element

/-!
# The mouse manager — `input/mouse_manager.c`

`Mouse` is the file's `static struct Mouse`; `MouseInput` adds what `Mouse_handle` shares with the
driver, and `Ui` what `Mouse_draw` shares with the menus. Two history variables, which no
function reads, record what the statements about these functions count: `applied`, the packets
the mouse state was updated from, and `clicked`, the elements whose `on_click` was invoked.
-/

namespace Lcom

open Lib

/-- `bool buttons[3]`, indexed by `MOUSE_LB`, `MOUSE_MB`, `MOUSE_RB`. -/
structure Buttons where
  lb : Bool
  mb : Bool
  rb : Bool
  deriving DecidableEq, Repr

/-- `enum MOUSE_STATE`, as the sprite frame it selects. -/
def mouseClick : UInt32 := 0
def mouseNormal : UInt32 := 1

/-- `static struct Mouse mouse`. -/
structure Mouse where
  position : Vec2
  sprite : Sprite
  hidden : Bool
  buttons : Buttons
  prev_buttons : Buttons
  applied : List Packet
  deriving DecidableEq, Repr

namespace Mouse

/-- The frames of the cursor image: the pointing hand and the arrow. -/
def cursorOffsets : List Vec2 := [⟨0, 0⟩, ⟨34, 0⟩]
def cursorSizes : List Vec2 := [⟨34, 42⟩, ⟨24, 38⟩]

/-- The static storage the program starts with. The sprite pointer is NULL until `Mouse_init`
    sets it; an empty sprite stands for it. -/
def zeroed : Mouse where
  position := ⟨0, 0⟩
  sprite := ⟨none, [], [], 0, 0, 0, 0, false⟩
  hidden := false
  buttons := ⟨false, false, false⟩
  prev_buttons := ⟨false, false, false⟩
  applied := []

/-- `Mouse_init`, with the image loaded from `mouse_xpm` and the fresh block's content of the
    field `Sprite_init` skips (overwritten here). Each `memset` clears `sizeof(bool)` bytes, that
    is the first button. -/
def init (m : Mouse) (img : XpmImage) (garbage : Bool) : Mouse :=
  { m with
    position := ⟨0, 0⟩
    hidden := false
    buttons := { m.buttons with lb := false }
    prev_buttons := { m.prev_buttons with lb := false }
    sprite := { Sprite.create img cursorOffsets cursorSizes 2 0 garbage with
      current_frame := mouseNormal
      transparent := true } }

/-- One coordinate moved by a delta and kept in `0 .. res - 1`, as the two statements after each
    `+=` do. -/
def clampTo (res : UInt16) (v : Int) : Int :=
  let v := if v > 0 then v else 0
  if v < res.toNat then v else res.toNat - 1

/-- The body of `Mouse_handle`'s `if (mouse_packet_ready())`, on the packet it fetched. -/
def update (m : Mouse) (res : GpuResInfo) (p : Packet) : Mouse :=
  { m with
    position :=
      { x := clampTo res.x_res (m.position.x + p.delta_x.toInt)
        y := clampTo res.y_res (m.position.y - p.delta_y.toInt) }
    prev_buttons := m.buttons
    buttons := ⟨p.lb, p.mb, p.rb⟩
    applied := m.applied ++ [p] }

/-- `Mouse_state(state)`. -/
def setState (m : Mouse) (state : UInt32) : Mouse :=
  { m with sprite := { m.sprite with current_frame := state } }

/-- The click test: the left button is down and was not down in the packet before. -/
def lbEdge (m : Mouse) : Bool :=
  m.buttons.lb && m.prev_buttons.lb != m.buttons.lb

end Mouse

/-- What `Mouse_handle` reads and writes. -/
structure MouseInput where
  driver : MouseDriver
  mouse_packet : Packet
  mouse : Mouse
  deriving DecidableEq, Repr

/-- `Mouse_handle`. The code of `mouse_read_packet` is dropped. -/
def MouseInput.handle (w : MouseInput) (res : GpuResInfo) : Driver MouseInput := do
  let (_, driver) ← mouseReadPacket w.driver
  if driver.packet_ready then
    let (_, driver, mouse_packet) := mouseGetPacket driver w.mouse_packet
    pure { driver, mouse_packet, mouse := w.mouse.update res mouse_packet }
  else pure { w with driver }

/-- What `Mouse_draw` reads and writes; the menus the two menu pointers point to do not change
    after `Gamestate_init`. -/
structure Ui where
  mouse : Mouse
  gamestate : GamestateManager
  menus : MenuPtr → Menu
  clicked : List UiElement

namespace Ui

/-- The `while (node != NULL)` of `Mouse_draw`: the first clickable element under the cursor ends
    the walk. -/
def walk (u : Ui) : List UiElement → Ui
  | [] => u
  | element :: next =>
    match element.aabb.contains u.mouse.position, element.on_click with
    | true, some on_click =>
      let u :=
        if u.mouse.lbEdge then
          { u with gamestate := on_click u.gamestate, clicked := u.clicked ++ [element] }
        else u
      { u with mouse := u.mouse.setState mouseClick }
    | _, _ => u.walk next

/-- The hit test of `Mouse_draw`, its first `if`. -/
def hover (u : Ui) : Except Fault Ui :=
  if u.gamestate.inMenu then
    match u.gamestate.getCurrentMenu with
    | none => .error .nullDereference
    | some menu =>
      .ok ({ u with mouse := u.mouse.setState mouseNormal }.walk (u.menus menu).element)
  else .ok u

/-- The second `if` of `Mouse_draw`: the tip of the pointing hand is nine pixels in. -/
def drawCursor (u : Ui) : Except Fault (Ui × Option DrawCall) :=
  if u.mouse.hidden then .ok (u, none)
  else do
    let position :=
      if u.mouse.sprite.current_frame = mouseClick then
        ⟨u.mouse.position.x - 9, u.mouse.position.y⟩
      else u.mouse.position
    let (sprite, call) ← u.mouse.sprite.draw position
    pure ({ u with mouse := { u.mouse with sprite } }, call)

/-- `Mouse_draw`. -/
def draw (u : Ui) : Except Fault (Ui × Option DrawCall) := do
  let u ← u.hover
  u.drawCursor

end Ui

end Lcom

import Lcom.Game.Gamestate
import Lcom.Ui.Sprite

/-!
# UI elements and menus — `aabb/aabb.c`, `ui/ui_element.h`, `ui/menu.h`
-/

namespace Lcom

open Lib

/-- `aabb`. -/
structure Aabb where
  position : Vec2
  size : Vec2
  deriving DecidableEq, Repr

/-- `AABB_contains(aabb, point)`. -/
def Aabb.contains (aabb : Aabb) (point : Vec2) : Bool :=
  if point.x < aabb.position.x ∨ point.x > aabb.position.x + aabb.size.x then false
  else if point.y < aabb.position.y ∨ point.y > aabb.position.y + aabb.size.y then false
  else true

/-- `AABB_overlaps(first, second)`. -/
def Aabb.overlaps (first second : Aabb) : Bool :=
  if first.position.x + first.size.x < second.position.x ∨
      second.position.x + second.size.x < first.position.x then false
  else if first.position.y + first.size.y < second.position.y ∨
      second.position.y + second.size.y < first.position.y then false
  else true

/-- A `void (*)()` of a menu: what calling it does to the game state, the only variable the
    program's click handlers write. -/
abbrev FunctionPointer := GamestateManager → GamestateManager

/-- `spoof`, the handler of the Play button. -/
def spoof : FunctionPointer := id

/-- `ui_element`; `on_click` may be NULL. -/
structure UiElement where
  aabb : Aabb
  sprite : Sprite
  on_click : Option FunctionPointer

/-- `ui_element_draw(element)`, with the blit that `Sprite_draw` asks the graphics driver for. -/
def UiElement.draw (element : UiElement) (g : Gpu) : Except Fault (UiElement × Gpu) := do
  let (sprite, call) ← element.sprite.draw element.aabb.position
  match call with
  | none => pure ({ element with sprite }, g)
  | some call => do
    let g ← call.run g
    pure ({ element with sprite }, g)

/-- `Menu`: the data sequence of its linked list of elements. -/
structure Menu where
  element : List UiElement

end Lcom

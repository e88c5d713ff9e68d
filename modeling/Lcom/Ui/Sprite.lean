import Lcom.Drivers.Gpu

/-!
# Sprites — `sprite/sprite.c`

Drawing a sprite does two things: it asks the graphics driver for one blit, and it advances the
animation counters. The blit is returned as a `DrawCall`; what it does to the back buffer is the
graphics driver's business.
-/

namespace Lcom

open Lib

/-- A call of `gpu_draw_transparent_xpm` or `gpu_draw_xpm`, with its arguments. -/
structure DrawCall where
  transparent : Bool
  xpm : XpmImage
  position : Vec2
  offset : Vec2
  size : Vec2
  deriving DecidableEq, Repr

/-- The call, made. -/
def DrawCall.run (call : DrawCall) (g : Gpu) : Except Fault Gpu :=
  if call.transparent then g.drawTransparentXpm call.xpm call.position call.offset call.size
  else g.drawXpm call.xpm call.position call.offset call.size

/-- `Sprite`; `img` is a pointer, hence an option. -/
structure Sprite where
  img : Option XpmImage
  offsets : List Vec2
  sizes : List Vec2
  framesc : UInt32
  delay : UInt32
  current_frame : UInt32
  current_delay : UInt32
  transparent : Bool
  deriving DecidableEq, Repr

namespace Sprite

/-- `Sprite_create`, with the image `xpm_load` produces and the content of the fresh `malloc`
    block where the initialiser does not write: `Sprite_init` leaves `transparent` alone. -/
def create (img : XpmImage) (offsets sizes : List Vec2) (framesc delay : UInt32)
    (transparent : Bool) : Sprite where
  img := some img
  offsets := offsets
  sizes := sizes
  framesc := framesc
  current_frame := 0
  current_delay := 0
  delay := delay
  transparent := transparent

/-- The counters after a blit. -/
def advance (s : Sprite) : Sprite :=
  if s.delay = 0 then s
  else if s.current_delay = s.delay then
    { s with current_delay := 0, current_frame := (s.current_frame + 1) % s.framesc }
  else { s with current_delay := s.current_delay + 1 }

/-- `a[i]` for an array behind a pointer. -/
def frameOf (vs : List Vec2) (i : UInt32) : Except Fault Vec2 :=
  match vs[i.toNat]? with
  | some v => .ok v
  | none => .error .outOfBounds

/-- `Sprite_draw(sprite, position)`. -/
def draw (s : Sprite) (position : Vec2) : Except Fault (Sprite × Option DrawCall) :=
  match s.img with
  | none => .ok (s, none)
  | some img =>
    if img.type = .invalid then .ok ({ s with img := none }, none)
    else do
      let offset ← frameOf s.offsets s.current_frame
      let size ← frameOf s.sizes s.current_frame
      pure (s.advance, some ⟨s.transparent, img, position, offset, size⟩)

/-- A sequence of calls of `Sprite_draw`, with the blits they ask for. -/
def drawAll (s : Sprite) : List Vec2 → Except Fault (Sprite × List DrawCall)
  | [] => .ok (s, [])
  | position :: rest => do
    let (s, call) ← s.draw position
    let (s, calls) ← s.drawAll rest
    pure (s, call.toList ++ calls)

/-- `Sprite_draw(sprite, position)` with the blit it asks for made on the back buffer. -/
def drawOn (s : Sprite) (position : Vec2) (g : Gpu) : Except Fault (Sprite × Gpu) := do
  let (s, call) ← s.draw position
  match call with
  | none => pure (s, g)
  | some call => do
    let g ← call.run g
    pure (s, g)

/-- A sequence of such calls, each on the back buffer it finds, and what they make of them. -/
def pictures (s : Sprite) : List (Vec2 × Gpu) → Except Fault (List Gpu)
  | [] => .ok []
  | (position, g) :: rest => do
    let (s, g) ← s.drawOn position g
    let gs ← s.pictures rest
    pure (g :: gs)

end Sprite

end Lcom

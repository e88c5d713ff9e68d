import Lcom.Lib.Bytes
import Lcom.Lib.Loop

/-!
# The graphics driver — `vec2/vec2.h`, `lcom/xpm.h`, `drivers/gpu.c`

Drawing goes to the back buffer, a block of bytes; a pixel takes `bytes_per_pixel` of them. Every
copy is bound-checked. Offsets into a block are integers: the arithmetic of the C code on them only
leaves the range of an `int` for a block that a 32-bit address space has no room for. The `malloc`
of a row buffer is taken to succeed.
-/

namespace Lcom

open Lib

/-- `vec2`. The coordinates are C `int`s; every value the input path stores is on the screen. -/
structure Vec2 where
  x : Int
  y : Int
  deriving DecidableEq, Repr

/-- `enum xpm_image_type`. -/
inductive XpmType where
  | indexed
  | xpm1555
  | xpm565
  | xpm888
  | xpm8888
  | gray1555
  | gray565
  | gray888
  | gray8888
  | invalid
  deriving DecidableEq, Repr

/-- `xpm_image_t`. -/
structure XpmImage where
  type : XpmType
  width : UInt16
  height : UInt16
  bytes : List UInt8
  deriving DecidableEq, Repr

/-- `struct GPU_RES_INFO`. -/
structure GpuResInfo where
  x_res : UInt16
  y_res : UInt16
  deriving DecidableEq, Repr

/-- The statics of the driver that drawing uses. -/
structure Gpu where
  gpu_res_info : GpuResInfo
  bytes_per_pixel : UInt8
  backbuffer : List UInt8
  deriving DecidableEq, Repr

/-- `INDEX_MODE`, the value of `color_mode` for a palette. -/
def indexMode : UInt8 := 0

/-- The bytes of a `uint32_t`, as they lie in memory. -/
def colorBytes (n : UInt32) : List UInt8 :=
  [n.toUInt8, (n >>> 8).toUInt8, (n >>> 16).toUInt8, (n >>> 24).toUInt8]

namespace Gpu

/-- `vram_size`, as `gpu_init_mem_indexation` computes it. The back buffer gets as many bytes. -/
def vramSize (g : Gpu) : UInt32 :=
  g.gpu_res_info.x_res.toUInt32 * g.gpu_res_info.y_res.toUInt32 * g.bytes_per_pixel.toUInt32

/-- `gpu_draw_pixel`. -/
def drawPixel (g : Gpu) (x y : UInt16) (color : UInt32) : Except Fault Gpu :=
  if x ≥ g.gpu_res_info.x_res ∨ y ≥ g.gpu_res_info.y_res then .ok g
  else do
    let location := UInt32.ofNat
      ((y.toNat * g.gpu_res_info.x_res.toNat + x.toNat) * g.bytes_per_pixel.toNat)
    let backbuffer ←
      memcpy g.backbuffer location.toNat (colorBytes color) 0 g.bytes_per_pixel.toNat
    pure { g with backbuffer }

/-- `gpu_draw_line`. To the left of the screen the pointer to the bytes moves on by one byte for
    each pixel that is cut off. -/
def drawLine (g : Gpu) (position : Vec2) (bytes : List UInt8) (pixelsc : Int) : Except Fault Gpu :=
  if position.x > g.gpu_res_info.x_res.toNat then .ok g
  else if position.x + pixelsc < 0 then .ok g
  else if position.y < 0 ∨ position.y ≥ g.gpu_res_info.y_res.toNat then .ok g
  else do
    let start := max position.x 0
    let stop := min (g.gpu_res_info.x_res.toNat - 1 : Int) (position.x + pixelsc - 1)
    let count := stop - start + 1
    let location := (position.y * g.gpu_res_info.x_res.toNat + start) * g.bytes_per_pixel.toNat
    let skipped := if position.x < 0 then -position.x else 0
    let backbuffer ←
      memcpy g.backbuffer location bytes skipped (count * g.bytes_per_pixel.toNat)
    pure { g with backbuffer }

/-- The body of the loop of `gpu_draw_rect`. An array without an element cannot be declared. -/
def drawRectLine (position size : Vec2) (color : UInt8) (y : Int) (g : Gpu) : Except Fault Gpu :=
  if size.x ≤ 0 then .error .outOfBounds
  else
    let bytes := List.replicate size.x.toNat color
    g.drawLine ⟨position.x, y⟩ bytes size.x

/-- `gpu_draw_rect`, which does nothing yet in a mode with direct colours. -/
def drawRect (g : Gpu) (color_mode : UInt8) (position size : Vec2) (color : UInt8) :
    Except Fault Gpu :=
  if color_mode = indexMode then
    forRange position.y (position.y + size.y - 1) (drawRectLine position size color) g
  else .ok g

/-- The body of the two loops of `gpu_draw_transparent_xpm`. -/
def drawTransparentPixel (xpm : XpmImage) (position offset : Vec2) (y x : Int) (g : Gpu) :
    Except Fault Gpu := do
  let byte ← loadByte xpm.bytes ((y + offset.y) * xpm.width.toNat + (x + offset.x))
  if byte ≠ 99 then
    g.drawPixel (UInt16.ofInt (position.x + x)) (UInt16.ofInt (position.y + y)) byte.toUInt32
  else pure g

/-- Its inner loop. -/
def drawTransparentRow (xpm : XpmImage) (position offset size : Vec2) (y : Int) (g : Gpu) :
    Except Fault Gpu :=
  forRange 0 (size.x - 1) (drawTransparentPixel xpm position offset y) g

/-- `gpu_draw_transparent_xpm`. -/
def drawTransparentXpm (g : Gpu) (xpm : XpmImage) (position offset size : Vec2) :
    Except Fault Gpu :=
  forRange 0 (size.y - 1) (drawTransparentRow xpm position offset size) g

/-- The body of the loop of `gpu_draw_xpm`: a row of the image is copied and drawn. -/
def drawXpmRow (xpm : XpmImage) (position offset size : Vec2) (y : Int) (g : Gpu) :
    Except Fault Gpu := do
  let bytes ← slice xpm.bytes ((y * xpm.width.toNat + offset.x) * g.bytes_per_pixel.toNat)
    (size.x * g.bytes_per_pixel.toNat)
  g.drawLine ⟨position.x, position.y + y - offset.y⟩ bytes size.x

/-- `gpu_draw_xpm`. -/
def drawXpm (g : Gpu) (xpm : XpmImage) (position offset size : Vec2) : Except Fault Gpu :=
  forRange offset.y (offset.y + size.y - 1) (drawXpmRow xpm position offset size) g

end Gpu

end Lcom

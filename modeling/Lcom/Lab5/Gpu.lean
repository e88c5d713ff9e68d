import Lcom.Drivers.Gpu

/-!
# The graphics driver of lab 5 — `lab5/gpu.c`

The driver the project's one grew out of. It keeps the resolution in two statics of its own, and it
fills a rectangle pixel by pixel.
-/

namespace Lcom
namespace Lab5

open Lib

/-- The statics of the driver that drawing uses. -/
structure Gpu where
  x_res : UInt16
  y_res : UInt16
  bytes_per_pixel : UInt8
  backbuffer : List UInt8
  deriving DecidableEq, Repr

namespace Gpu

/-- `gpu_draw_pixel`: the code and the driver. -/
def drawPixel (x y : UInt16) (color : UInt32) (g : Gpu) : Except Fault (Int × Gpu) :=
  if x ≥ g.x_res ∨ y ≥ g.y_res then .ok (0, g)
  else do
    let location := UInt32.ofNat
      ((y.toNat * g.x_res.toNat + x.toNat) * g.bytes_per_pixel.toNat)
    let backbuffer ←
      memcpy g.backbuffer location.toNat (colorBytes color) 0 g.bytes_per_pixel.toNat
    pure (0, { g with backbuffer })

/-- `vg_draw_hline`. The sum `x + n` is an `int`; the parameter it is passed to is not. -/
def vgDrawHline (x y len : UInt16) (color : UInt32) (g : Gpu) : Except Fault (Int × Gpu) :=
  forRangeCheck 0 (len.toNat - 1) (fun n => drawPixel (UInt16.ofInt (x.toNat + n)) y color) g

/-- `vg_draw_rectangle`. -/
def vgDrawRectangle (x y width height : UInt16) (color : UInt32) (g : Gpu) :
    Except Fault (Int × Gpu) :=
  forRangeCheck 0 (height.toNat - 1)
    (fun n => vgDrawHline x (UInt16.ofInt (y.toNat + n)) width color) g

/-- The body of the two loops of `aux_draw_xpm`; the state is how far `colors` has moved on, and the
    driver. -/
def drawXpmPixel (colors : List UInt8) (x y : UInt16) (iy ix : Int) (s : Nat × Gpu) :
    Except Fault (Int × (Nat × Gpu)) := do
  let color ← loadByte colors s.1
  let (r, g) ← s.2.drawPixel (UInt16.ofInt (x.toNat + ix)) (UInt16.ofInt (y.toNat + iy))
    color.toUInt32
  if r ≠ 0 then pure (1, (s.1, g)) else pure (0, (s.1 + 1, g))

/-- `aux_draw_xpm`, with the image that `xpm_load` gave for its `xpm_map_t`. -/
def auxDrawXpm (img : XpmImage) (x y : UInt16) (g : Gpu) : Except Fault (Int × Gpu) := do
  let (r, s) ← forRangeCheck 0 (img.height.toNat - 1)
    (fun iy => forRangeCheck 0 (img.width.toNat - 1) (drawXpmPixel img.bytes x y iy)) (0, g)
  pure (r, s.2)

/-- `aux_clear`. -/
def auxClear (g : Gpu) : Except Fault (Int × Gpu) := g.vgDrawRectangle 0 0 g.x_res g.y_res 0

/-- `vram_size`. -/
def vramSize (g : Gpu) : UInt32 := g.x_res.toUInt32 * g.y_res.toUInt32 * g.bytes_per_pixel.toUInt32

end Gpu

end Lab5
end Lcom

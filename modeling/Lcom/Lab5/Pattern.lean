import Lcom.Lab5.Gpu

/-!
# The test pattern of lab 5 — `lab5/gpu.c`

`aux_draw_pattern` fills the screen with a square of tiles. What it knows of the colours are the
statics `gpu_init_mem_indexation` takes from the mode the BIOS reports.
-/

namespace Lcom
namespace Lab5

open Lib

/-- What `vbe_get_mode_info` tells of a mode, as far as the driver reads it. -/
structure ModeInfo where
  XResolution : UInt16
  YResolution : UInt16
  BitsPerPixel : UInt8
  MemoryModel : UInt8
  RedMaskSize : UInt8
  RedFieldPosition : UInt8
  GreenMaskSize : UInt8
  GreenFieldPosition : UInt8
  BlueMaskSize : UInt8
  BlueFieldPosition : UInt8
  deriving DecidableEq, Repr

/-- `DIRECT_MODE`, the value of `color_mode` for components. -/
def directMode : UInt8 := 1

/-- The statics of the driver that say how a colour is made. -/
structure Colors where
  bits_per_pixel : UInt8
  red_mask_size : UInt8
  green_mask_size : UInt8
  blue_mask_size : UInt8
  red_mask_location : UInt8
  green_mask_location : UInt8
  blue_mask_location : UInt8
  color_mode : UInt8
  deriving DecidableEq, Repr

namespace ModeInfo

/-- `bytes_per_pixel`, for the mode. -/
def bytesPerPixel (vmi_p : ModeInfo) : UInt8 := UInt8.ofNat ((vmi_p.BitsPerPixel.toNat + 7) / 8)

/-- `vram_size`, for the mode: the back buffer gets as many bytes. -/
def vramSize (vmi_p : ModeInfo) : UInt32 :=
  vmi_p.XResolution.toUInt32 * vmi_p.YResolution.toUInt32 * vmi_p.bytesPerPixel.toUInt32

/-- The statics of colour after `gpu_init_mem_indexation`. -/
def colors (vmi_p : ModeInfo) : Colors where
  bits_per_pixel := vmi_p.BitsPerPixel
  red_mask_size := vmi_p.RedMaskSize
  green_mask_size := vmi_p.GreenMaskSize
  blue_mask_size := vmi_p.BlueMaskSize
  red_mask_location := vmi_p.RedFieldPosition
  green_mask_location := vmi_p.GreenFieldPosition
  blue_mask_location := vmi_p.BlueFieldPosition
  color_mode := if vmi_p.MemoryModel = 0x06 then directMode else indexMode

/-- The statics that drawing uses after `gpu_init_mem_indexation`, with what the block that `malloc`
    gave holds. -/
def gpu (vmi_p : ModeInfo) (backbuffer : List UInt8) : Gpu where
  x_res := vmi_p.XResolution
  y_res := vmi_p.YResolution
  bytes_per_pixel := vmi_p.bytesPerPixel
  backbuffer := backbuffer

end ModeInfo

/-- `v << k`, of 32 bits. A shift by the width or more is undefined. -/
def shl (v : UInt32) (k : UInt8) : Except Fault UInt32 :=
  if k < 32 then .ok (v <<< k.toUInt32) else .error .outOfBounds

/-- The colour of a tile in `INDEX_MODE`. -/
def indexColor (c : Colors) (no_rectangles : UInt8) (first : UInt32) (step : UInt8) (nx ny : Nat) :
    Except Fault UInt32 := do
  let count ← shl 1 c.bits_per_pixel
  pure ((first + UInt32.ofNat ((ny * no_rectangles.toNat + nx) * step.toNat)) % count)

/-- One of `red`, `green` and `blue`, for a tile that is `k` steps away from the first one. -/
def directComponent (mask_location mask_size : UInt8) (first : UInt32) (step : UInt8) (k : Nat) :
    Except Fault UInt32 := do
  let mask ← shl mask_location.toUInt32 mask_size
  let count ← shl 1 mask_size
  pure (((first &&& (mask - 1)) + UInt32.ofNat (k * step.toNat)) % count)

/-- The colour of a tile in `DIRECT_MODE`. -/
def directColor (c : Colors) (first : UInt32) (step : UInt8) (nx ny : Nat) :
    Except Fault UInt32 := do
  let red ← directComponent c.red_mask_location c.red_mask_size first step nx
  let green ← directComponent c.green_mask_location c.green_mask_size first step ny
  let blue ← directComponent c.blue_mask_location c.blue_mask_size first step (nx + ny)
  let red ← shl red c.red_mask_location
  let green ← shl green c.green_mask_location
  let blue ← shl blue c.blue_mask_location
  pure (red ||| green ||| blue)

/-- One tile, in column `nx` and row `ny`. The products are `int`s and are cut to `uint16_t`. -/
def drawTile (c : Colors) (no_rectangles : UInt8) (first : UInt32) (step size_x size_y : UInt8)
    (nx ny : Nat) (g : Gpu) : Except Fault (Int × Gpu) :=
  let y := UInt16.ofNat (ny * size_y.toNat)
  let x := UInt16.ofNat (nx * size_x.toNat)
  if c.color_mode = indexMode then do
    let color ← indexColor c no_rectangles first step nx ny
    g.vgDrawRectangle x y size_x.toUInt16 size_y.toUInt16 color
  else if c.color_mode = directMode then do
    let color ← directColor c first step nx ny
    g.vgDrawRectangle x y size_x.toUInt16 size_y.toUInt16 color
  else pure (0, g)

/-- `aux_draw_pattern`. The tile is as large as the quotients, which are cut to `uint8_t`. -/
def auxDrawPattern (c : Colors) (no_rectangles : UInt8) (first : UInt32) (step : UInt8) (g : Gpu) :
    Except Fault (Int × Gpu) :=
  if no_rectangles = 0 then .error .outOfBounds
  else
    let size_x := UInt8.ofNat (g.x_res.toNat / no_rectangles.toNat)
    let size_y := UInt8.ofNat (g.y_res.toNat / no_rectangles.toNat)
    forRangeCheck 0 (no_rectangles.toNat - 1)
      (fun ny => forRangeCheck 0 (no_rectangles.toNat - 1)
        (fun nx => drawTile c no_rectangles first step size_x size_y nx.toNat ny.toNat)) g

end Lab5
end Lcom

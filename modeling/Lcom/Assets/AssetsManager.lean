import Lcom.Drivers.Gpu
import Lcom.Player.Player

/-!
# The assets manager — `assets/assets_manager.c`

An image is drawn by walking through its pixels with a running pointer, and what the player sees by
drawing the asset of every cell. `gpu_draw_pixel` returns 0 on each of its paths.
-/

namespace Lcom

open Lib

/-- `struct BLOCK` and `struct PLAYER`: an image, and the pixels `xpm_load` returned for it. -/
structure Asset where
  img : XpmImage
  colors : List UInt8
  deriving DecidableEq, Repr

/-- The statics of the module. -/
structure AssetsManager where
  block : Asset
  player_sprite : Asset
  deriving DecidableEq, Repr

namespace AssetsManager

/-- The body of the two loops of `assets_manager_draw_img`; the state is how far `colors` has moved
    on, and the driver. -/
def drawImgPixel (posx posy : UInt16) (colors : List UInt8) (iy ix : Int) (s : Nat × Gpu) :
    Except Fault (Int × (Nat × Gpu)) := do
  let color ← loadByte colors s.1
  let g ← s.2.drawPixel (UInt16.ofInt (posx.toNat + ix)) (UInt16.ofInt (posy.toNat + iy))
    color.toUInt32
  pure (0, (s.1 + 1, g))

/-- `assets_manager_draw_img(img, posx, posy, colors)`. The bounds of both loops are those of
    `block.img`. -/
def drawImg (manager : AssetsManager) (_img : XpmImage) (posx posy : UInt16) (colors : List UInt8)
    (g : Gpu) : Except Fault (Int × (Nat × Gpu)) :=
  forRangeCheck 0 (manager.block.img.height.toNat - 1)
    (fun iy => forRangeCheck 0 (manager.block.img.width.toNat - 1)
      (drawImgPixel posx posy colors iy)) (0, g)

/-- `assets_manager_draw_asset(asset, posx, posy)`. The case of `'p'` falls through to the default
    one. -/
def drawAsset (manager : AssetsManager) (asset : UInt8) (posx posy : UInt16) (g : Gpu) :
    Except Fault (Int × Gpu) :=
  if asset = 35 then do
    let (r, s) ← manager.drawImg manager.block.img posx posy manager.block.colors g
    if r ≠ 0 then pure (1, s.2) else pure (0, s.2)
  else if asset = 112 then do
    let (r, s) ← manager.drawImg manager.player_sprite.img posx posy manager.player_sprite.colors g
    if r ≠ 0 then pure (1, s.2) else pure (0, s.2)
  else pure (0, g)

/-- The body of the inner loop of `assets_manager_draw_player_vis`, with a record of the cells. -/
def drawVisCell (manager : AssetsManager) (visible_objects : Table) (yi : UInt8) (xi : Int)
    (s : List (Nat × Int) × Gpu) : Except Fault (Int × (List (Nat × Int) × Gpu)) := do
  let asset ← visible_objects.load yi.toNat xi
  let (r, g) ← manager.drawAsset asset (UInt16.ofInt (xi * 64)) (UInt16.ofInt (yi.toNat * 64)) s.2
  pure (if r ≠ 0 then 1 else 0, (s.1 ++ [(yi.toNat, xi)], g))

/-- Its outer loop, `for (...; yi >= 0; yi--)`, with `fuel` rounds at most: `none` when they do not
    suffice. The index is a `uint8_t`. -/
def drawVisRows (manager : AssetsManager) (visible_objects : Table) :
    Nat → UInt8 → List (Nat × Int) × Gpu → Except Fault (Option (Int × (List (Nat × Int) × Gpu)))
  | 0, _, _ => .ok none
  | fuel + 1, yi, s =>
    if yi ≥ 0 then do
      let (r, s) ← forRangeCheck 0 (Player.visXsize.toNat - 1)
        (manager.drawVisCell visible_objects yi) s
      if r ≠ 0 then pure (some (1, s)) else drawVisRows manager visible_objects fuel (yi - 1) s
    else pure (some (0, s))

/-- `assets_manager_draw_player_vis`, with the cells it visits. -/
def drawPlayerVis (manager : AssetsManager) (player : Player) (fuel : Nat) (g : Gpu) :
    Except Fault (Option (Int × (List (Nat × Int) × Gpu))) :=
  manager.drawVisRows player.visible_objects fuel (Player.visYsize - 1) ([], g)

end AssetsManager

end Lcom

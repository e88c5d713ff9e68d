import Lcom.Lib.Loop
import Lcom.Screen.Screen

/-!
# What the player sees — `player/player.c`

A window of fixed size around the player, filled from the grid. The module declares the grid's sizes
and its rows as `extern`; they are passed as the grid here.
-/

namespace Lcom

open Lib

/-- The globals of `player.c` that are not constants. -/
structure Player where
  player_posx : UInt8
  player_posy : UInt8
  visible_objects : Table
  deriving DecidableEq, Repr

namespace Player

/-- `MAX_XSIZE`, the width of the array `visible_objects`. -/
def maxXsize : Nat := 18

/-- `MAX_YSIZE`, its height. -/
def maxYsize : Nat := 14

def visXsize : UInt8 := 18
def visYsize : UInt8 := 14
def midx : Int := visXsize.toNat / 2
def midy : Int := visYsize.toNat / 2
def minx : Int := 0 - midx
def miny : Int := 0 - midy
def maxx : Int := 0 + midx
def maxy : Int := 0 + midy

@[simp] theorem visXsize_toNat : visXsize.toNat = 18 := rfl
@[simp] theorem visYsize_toNat : visYsize.toNat = 14 := rfl
@[simp] theorem minx_eq : minx = -9 := rfl
@[simp] theorem miny_eq : miny = -7 := rfl
@[simp] theorem maxx_eq : maxx = 9 := rfl
@[simp] theorem maxy_eq : maxy = 7 := rfl

/-- Static storage. -/
def startup : Player where
  player_posx := 0
  player_posy := 0
  visible_objects := List.replicate maxYsize (List.replicate maxXsize 0)

/-- `player_reset_visible`. -/
def resetVisible (player : Player) : Except Fault Player := do
  let visible_objects ← forRange 0 (visYsize.toNat - 1) (fun yi objects =>
    forRange 0 (visXsize.toNat - 1) (fun xi objects => objects.store yi xi 32) objects)
    player.visible_objects
  pure { player with visible_objects }

/-- A round of the inner `for` of `player_set_visible`. The test is made on `player_posy`. -/
def setVisibleCell (player : Player) (grid : GridInfo) (yi xi : Int) (objects : Table) :
    Except Fault Table :=
  if player.player_posy.toNat + xi < 0 ∨ player.player_posy.toNat + xi ≥ grid.x_size.toNat then
    pure objects
  else do
    let c ← Screen.loadGrid grid (player.player_posy.toNat + yi) (player.player_posx.toNat + xi)
    objects.store (yi + maxy) (xi + maxx) c

/-- A round of the outer one. -/
def setVisibleRow (player : Player) (grid : GridInfo) (yi : Int) (objects : Table) :
    Except Fault Table :=
  if player.player_posy.toNat + yi < 0 ∨ player.player_posy.toNat + yi ≥ grid.y_size.toNat then
    pure objects
  else forRange minx (maxx - 1) (player.setVisibleCell grid yi) objects

/-- `player_set_visible`. -/
def setVisible (player : Player) (grid : GridInfo) : Except Fault Player := do
  let player ← player.resetVisible
  let visible_objects ←
    forRange miny (maxy - 1) (player.setVisibleRow grid) player.visible_objects
  pure { player with visible_objects }

/-- `player_init(x, y)`: the code, which is 1 in either case, and the player. -/
def init (x y : UInt8) (grid : GridInfo) (player : Player) : Except Fault (Int × Player) :=
  if x > grid.x_size ∨ y > grid.y_size then .ok (1, player)
  else do
    let player ← setVisible { player with player_posx := x, player_posy := y } grid
    let visible_objects ← player.visible_objects.store midy midx 112
    pure (1, { player with visible_objects })

end Player

end Lcom

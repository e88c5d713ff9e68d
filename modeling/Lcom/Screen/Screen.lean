import Lcom.Drivers.Gpu
import Lcom.Grid.Grid
import Lcom.Lib.Table

/-!
# The screen window — `screen/screen.c`

The window is a table of squares that `screen_update` fills from the grid, around a centre. The
centre is a pair of `double`s in the source; all the code makes of it is the `(int)` conversion,
and that is what stands here.
-/

namespace Lcom

open Lib

/-- `GRID_SQUARE_SIZE`. -/
def gridSquareSize : Nat := 64

/-- `screen_info` and the statics of `screen.c` that the updates use. `objects` is NULL, here
    without a row, until `screen_init`. -/
structure Screen where
  x_size : UInt8
  y_size : UInt8
  objects : Table
  pos_x : Int
  pos_y : Int
  min_x : Int
  min_y : Int
  max_x : Int
  max_y : Int
  deriving DecidableEq, Repr

/-- How many squares it takes to cover a line of so many pixels, as the byte it is stored in. -/
def screenSize (res : UInt16) : UInt8 := UInt8.ofNat (res.toNat / gridSquareSize + 1)

/-- `screen_init(x, y)`. Call 0 of `malloc` is the table of rows, call `i + 1` is row `i`. -/
def screenInit (res : GpuResInfo) (x y : Int) (granted : Nat → Bool) : Except Fault Screen := do
  let x_size := screenSize res.x_res
  let y_size := screenSize res.y_res
  if granted 0 || y_size == 0 then
    let objects ← mallocRows x_size granted y_size.toNat 0
    let mid_x : Int := x_size.toNat / 2
    let mid_y : Int := y_size.toNat / 2
    pure { x_size, y_size, objects, pos_x := x, pos_y := y, min_x := 0 - mid_x, min_y := 0 - mid_y
           max_x := 0 + mid_x, max_y := 0 + mid_y }
  else .error .nullDereference

namespace Screen

/-- `screen_cleanup`. -/
def cleanup (screen : Screen) : Except Fault Screen := do
  let objects ← forRange 0 (screen.y_size.toNat - 1) (fun y objects =>
    forRange 0 (screen.x_size.toNat - 1) (fun x objects => objects.store y x 32) objects)
    screen.objects
  pure { screen with objects }

/-- `grid_info_->objects[y][x]`. -/
def loadGrid (grid : GridInfo) (y x : Int) : Except Fault UInt8 :=
  match grid.objects with
  | none => .error .nullDereference
  | some rows => Table.load rows y x

/-- The first column, or row, of the grid in the window. -/
def first (pos min : Int) : Int := if pos + min < 0 then 0 else pos + min

/-- The last one. -/
def last (pos max : Int) (size : UInt8) : Int :=
  if pos + max ≥ size.toNat then size.toNat - 1 else pos + max

def i_min_x (screen : Screen) : Int := first screen.pos_x screen.min_x
def i_min_y (screen : Screen) : Int := first screen.pos_y screen.min_y
def i_max_x (screen : Screen) (grid : GridInfo) : Int := last screen.pos_x screen.max_x grid.x_size
def i_max_y (screen : Screen) (grid : GridInfo) : Int := last screen.pos_y screen.max_y grid.y_size

/-- The inner `for` of `screen_update`. -/
def updateRow (screen : Screen) (grid : GridInfo) (y : Int) (objects : Table) :
    Except Fault Table :=
  forRange screen.i_min_x (screen.i_max_x grid) (fun x objects => do
    let c ← loadGrid grid y x
    objects.store (y - screen.i_min_y) (x - screen.i_min_x) c) objects

/-- `screen_update`. -/
def update (screen : Screen) (grid : GridInfo) : Except Fault Screen := do
  let objects ←
    forRange screen.i_min_y (screen.i_max_y grid) (screen.updateRow grid) screen.objects
  pure { screen with objects }

end Screen

end Lcom

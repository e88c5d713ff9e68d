import Lcom.Lib.Lines
import Lcom.Lib.Memory
import Lcom.Lib.Run

/-!
# The level grid — `grid/grid.c`

A level file is a header, `"%hhu %hhu"`, and then the rows of the level, read through a buffer of
100 bytes. The three allocations of a load can each fail, so a load also takes which calls of
`malloc` are granted. What `grid_init` stores into a row is recorded: a store outside the row is
undefined behaviour in C, and here it leaves the rows alone and stays in the record.

The path that `grid_init` builds from the level's name is left out: the file is its bytes, or
nothing when it cannot be opened.
-/

namespace Lcom

open Lib

/-- `GRID_INFO`. The rows are the blocks of memory `objects` points to. -/
structure GridInfo where
  x_size : UInt8
  y_size : UInt8
  objects : Option (List (List UInt8))
  deriving DecidableEq, Repr

namespace GridInfo

/-- Static storage: the sizes are zero and `objects` is NULL. -/
def startup : GridInfo := { x_size := 0, y_size := 0, objects := none }

end GridInfo

/-- The store `grid_info.objects[y][i] = c`. -/
structure GridStore where
  y : Nat
  i : Nat
  c : UInt8
  deriving DecidableEq, Repr

/-! ## The header -/

/-- `%hhu`: the conversion is that of `strtoumax`, cut down to a byte. -/
def scanByte (s : Text) : Option (UInt8 × Text) :=
  match scanInt s with
  | none => none
  | some (n, s) => some (if 2 ^ 64 ≤ n.natAbs then 255 else UInt8.ofInt n, s)

/-- `sscanf(line, "%hhu %hhu", &grid_info.x_size, &grid_info.y_size)`: the number of conversions,
    and what they store, also when only the first succeeds. The end of the line before the first
    counts as no conversion. -/
def scanDimensions (grid : GridInfo) (line : Text) : Nat × GridInfo :=
  match scanByte line with
  | none => (0, grid)
  | some (x_size, line) =>
    match scanByte line with
    | none => (1, { grid with x_size })
    | some (y_size, _) => (2, { grid with x_size, y_size })

/-! ## The rows -/

/-- The `for` that allocates and blanks the rows, with `todo` rounds left from row `i` on. Only a
    `memset` of no bytes can do with a null pointer. -/
def mallocRows (x_size : UInt8) (granted : Nat → Bool) :
    Nat → Nat → Except Fault (List (List UInt8))
  | 0, _ => pure []
  | todo + 1, i =>
    if granted (i + 1) || x_size == 0 then do
      let rows ← mallocRows x_size granted todo (i + 1)
      pure (List.replicate x_size.toNat 32 :: rows)
    else .error .nullDereference

/-- The rows, and the stores made into them so far. -/
structure GridReading where
  rows : List (List UInt8)
  stores : List GridStore

namespace GridReading

/-- `grid_info.objects[y][i] = c`. -/
def storeCell (reading : GridReading) (y i : Nat) (c : UInt8) : GridReading :=
  { rows := reading.rows.modify y (·.set i c), stores := reading.stores ++ [⟨y, i, c⟩] }

/-- The `for` over the characters of a line, from index `i` on. -/
def readLine (y : Nat) : Nat → Text → GridReading → GridReading
  | _, [], reading => reading
  | i, c :: line, reading => readLine y (i + 1) line (reading.storeCell y i c)

/-- The `while` that reads the rows, with `todo` rows left from row `y` on. -/
def readRows : Nat → Nat → Text → GridReading → GridReading
  | 0, _, _, reading => reading
  | todo + 1, y, file, reading =>
    match fgets 99 file with
    | none => reading
    | some (line, file) =>
      readRows todo (y + 1) file (reading.readLine y 0 (cString (line ++ [0])))

end GridReading

/-- What a call of `grid_init` comes to: its code, the grid it leaves, the stores into rows. -/
structure GridLoad where
  code : Nat
  grid : GridInfo
  stores : List GridStore
  deriving DecidableEq, Repr

/-- `grid_init`, once the sizes are set. Call 0 of `malloc` is the table of rows, call `i + 1` is
    row `i`. -/
def loadRows (grid : GridInfo) (file : Text) (granted : Nat → Bool) : Except Fault GridLoad :=
  if granted 0 then do
    let rows ← mallocRows grid.x_size granted grid.y_size.toNat 0
    let reading := GridReading.readRows grid.y_size.toNat 0 file { rows, stores := [] }
    pure { code := 0, grid := { grid with objects := some reading.rows }, stores := reading.stores }
  else if grid.y_size = 0 then
    .ok { code := 0, grid := { grid with objects := none }, stores := [] }
  else .error .nullDereference

/-- `grid_init`. -/
def gridInit (grid : GridInfo) (file : Option Text) (granted : Nat → Bool) :
    Except Fault GridLoad :=
  match file with
  | none => .ok { code := 1, grid, stores := [] }
  | some file =>
    match fgets 99 file with
    | none => .ok { code := 1, grid, stores := [] }
    | some (line, file) =>
      let scanned := scanDimensions grid (cString (line ++ [0]))
      if scanned.1 ≠ 2 then .ok { code := 1, grid := scanned.2, stores := [] }
      else loadRows scanned.2 file granted

/-- `grid_cleanup`: every row pointer that is freed is read from the table of rows. -/
def gridCleanup (grid : GridInfo) : Except Fault GridInfo :=
  match grid.objects with
  | none => .ok grid
  | some rows =>
    if grid.y_size.toNat ≤ rows.length then .ok { grid with objects := none }
    else .error .outOfBounds

/-! ## Runs -/

inductive GridCall where
  | init (file : Option Text) (granted : Nat → Bool)
  | cleanup

/-- A call that faults does not return. -/
def gridStep (grid : GridInfo) (call : GridCall) : Option GridInfo :=
  match call with
  | .init file granted => (gridInit grid file granted).toOption.map (·.grid)
  | .cleanup => (gridCleanup grid).toOption

end Lcom

import Lcom.Leaderboard.Leaderboard
import Lcom.Ui.Element

/-!
# The two menus — `ui/menu.c`, `sprites/alphabet/alphabet_sprites_cord.h`

The images are what `xpm_load` makes of the assets; `Sprite_init` leaves the `transparent` flag of a
fresh block as it finds it, and `fresh k` is what it finds in the sprite of element `k` of a menu.
Allocations of elements, sprites and list nodes are taken to succeed.

The loop of `Menu_create_leaderboard` also keeps a record of the indices it reads `entries` at.
-/

namespace Lcom

open Lib

/-- The images of the assets. -/
structure Assets where
  logo : XpmImage
  play_button : XpmImage
  leaderboard_button : XpmImage
  quit_button : XpmImage
  trophy : XpmImage
  alphabet_sprites : XpmImage
  mouse : XpmImage
  deriving DecidableEq, Repr

/-- Images with nothing in them. -/
def noImage : XpmImage := ⟨.indexed, 0, 0, []⟩

def noAssets : Assets := ⟨noImage, noImage, noImage, noImage, noImage, noImage, noImage⟩

/-- `CharSprite`. -/
structure CharSprite where
  x : Int
  y : Int
  width : Int
  height : Int
  deriving DecidableEq, Repr

/-- `CHAR_HEIGHT` and `CHAR_WIDTH`. -/
def charHeight : Int := 83
def charWidth : Int := 44

/-- The `index` of `calculate_char_coord`: where a character stands in the alphabet. -/
def charIndex (c : UInt8) : Option Nat :=
  if c = 44 then some 0
  else if c = 45 then some 1
  else if c = 46 then some 2
  else if c = 47 then some 3
  else if c ≥ 48 ∧ c ≤ 57 then some (4 + (c.toNat - 48))
  else if c = 58 then some 14
  else if c ≥ 65 ∧ c ≤ 90 then some (15 + (c.toNat - 65))
  else if c = 124 then some 41
  else none

/-- `calculate_char_coord(c)`. -/
def calculateCharCoord (c : UInt8) : CharSprite :=
  match charIndex c with
  | none => { x := 0, y := 0, width := 0, height := 0 }
  | some index => { x := 0, y := index * charHeight, width := charWidth, height := charHeight }

namespace Menu

/-- `Node_append(&menu->element, element)`. -/
def append (menu : Menu) (element : UiElement) : Menu :=
  { element := menu.element ++ [element] }

/-- An element over one image, with a single frame. -/
def singleFrame (aabb : Aabb) (img : XpmImage) (offset size : Vec2) (on_click : Option FunctionPointer)
    (transparent : Bool) : UiElement :=
  { aabb, sprite := Sprite.create img [offset] [size] 1 0 transparent, on_click }

/-- `Menu_create_ui_from_string(menu, str, start_x, start_y)`, from some character on. -/
def createUiFromString (assets : Assets) (fresh : Nat → Bool) :
    Text → Int → Int → Menu → Menu
  | [], _, _, menu => menu
  | c :: str, x_offset, start_y, menu =>
    let coord := calculateCharCoord c
    let character := singleFrame ⟨⟨x_offset, start_y⟩, ⟨60, 80⟩⟩ assets.alphabet_sprites
      ⟨coord.x, coord.y⟩ ⟨coord.width, coord.height⟩ none (fresh menu.element.length)
    createUiFromString assets fresh str (x_offset + coord.width) start_y (menu.append character)

/-- `Menu_create_main_menu`. -/
def createMainMenu (assets : Assets) (fresh : Nat → Bool) : Menu where
  element :=
    [ singleFrame ⟨⟨242, 80⟩, ⟨540, 108⟩⟩ assets.logo ⟨0, 0⟩ ⟨540, 108⟩ none (fresh 0),
      singleFrame ⟨⟨311, 340⟩, ⟨402, 97⟩⟩ assets.play_button ⟨0, 0⟩ ⟨402, 97⟩ (some spoof) (fresh 1),
      singleFrame ⟨⟨311, 480⟩, ⟨402, 97⟩⟩ assets.leaderboard_button ⟨0, 0⟩ ⟨402, 97⟩
        (some GamestateManager.leaderboard) (fresh 2),
      singleFrame ⟨⟨311, 620⟩, ⟨402, 97⟩⟩ assets.quit_button ⟨0, 0⟩ ⟨402, 97⟩
        (some GamestateManager.quit) (fresh 3) ]

/-! ## `Menu_create_leaderboard` -/

/-- `%0<width>d` of a number that is not negative. -/
def printPadded (width n : Nat) : Text :=
  List.replicate (width - (printNat n).length) 48 ++ printNat n

/-- `"%02d:%02d:%02d"`, with the fields of a date. -/
def printTime (rdt : RtcDateTime) : Text :=
  printPadded 2 rdt.rtc_hours.toNat ++ [58] ++ printPadded 2 rdt.rtc_minutes.toNat ++ [58] ++
    printPadded 2 rdt.rtc_seconds.toNat

/-- The first `snprintf` of a row, `"%d.%s|%02d:%02d:%02d"` into a buffer of 15 bytes. -/
def firstLine (i : Nat) (name : Text) (rdt : RtcDateTime) : Text :=
  (printNat (i + 1) ++ [46] ++ name ++ [124] ++ printTime rdt).take 14

/-- The second one, `"%02d/%02d/%04d, %02d:%02d:%02d"` into a buffer of 21 bytes. -/
def secondLine (dt : RtcDateTime) : Text :=
  (printPadded 2 dt.rtc_day.toNat ++ [47] ++ printPadded 2 dt.rtc_month.toNat ++ [47] ++
    printPadded 4 dt.rtc_year.toNat ++ [44, 32] ++ printTime dt).take 20

/-- The body of the `for`: a row of the menu, and the local `rdt` that the rows share. -/
def createRow (assets : Assets) (fresh : Nat → Bool) (i : Nat) (entry : LeaderboardEntry)
    (rdt : RtcDateTime) (menu : Menu) : Except Fault (RtcDateTime × Menu) := do
  let y_position : Int := 240 + i * 170
  let rdt ← unixToRtcDateTime entry.time_entry rdt
  let name ← loadString entry.name.toList
  let menu := createUiFromString assets fresh (firstLine i name rdt) 30 y_position menu
  let menu := createUiFromString assets fresh (secondLine entry.dt_of_entry) 118 (y_position + 80) menu
  pure (rdt, menu)

/-- What building a menu comes to: the indices read, and the menu or the fault. -/
structure Build (α : Type) where
  accessed : List Nat
  result : Except Fault α

/-- The `for` over the entries, with `todo` rounds left from index `i` on. -/
def createRows (assets : Assets) (fresh : Nat → Bool) (leaderboard : Leaderboard) :
    Nat → Nat → RtcDateTime → Menu → List Nat → Build Menu
  | 0, _, _, menu, accessed => { accessed, result := .ok menu }
  | todo + 1, i, rdt, menu, accessed =>
    match load leaderboard.entries i >>= fun entry => createRow assets fresh i entry rdt menu with
    | .error f => { accessed := accessed ++ [i], result := .error f }
    | .ok row => createRows assets fresh leaderboard todo (i + 1) row.1 row.2 (accessed ++ [i])

/-- The two elements above the rows. -/
def leaderboardHead (assets : Assets) (fresh : Nat → Bool) : Menu where
  element :=
    [ singleFrame ⟨⟨102, -20⟩, ⟨800, 150⟩⟩ assets.trophy ⟨0, 0⟩ ⟨300, 300⟩ none (fresh 0),
      singleFrame ⟨⟨415, 70⟩, ⟨402, 97⟩⟩ assets.leaderboard_button ⟨0, 0⟩ ⟨402, 97⟩
        (some GamestateManager.leaderboard) (fresh 1) ]

/-- `Menu_create_leaderboard(leaderboard)`; `rdt` is what the uninitialised local holds. -/
def createLeaderboard (assets : Assets) (fresh : Nat → Bool) (leaderboard : Leaderboard)
    (rdt : RtcDateTime) : Build Menu :=
  createRows assets fresh leaderboard leaderboard.entry_count.toNat 0 rdt
    (leaderboardHead assets fresh) []

/-! ## `Menu_draw` -/

/-- The `while` of `Menu_draw`: the elements with their sprites drawn, and the calls made. -/
def drawElements : List UiElement → Except Fault (List UiElement × List DrawCall)
  | [] => pure ([], [])
  | element :: next => do
    let (sprite, call) ← element.sprite.draw element.aabb.position
    let (next, calls) ← drawElements next
    pure ({ element with sprite } :: next, call.toList ++ calls)

/-- `Menu_draw(menu)`. -/
def draw (menu : Menu) : Except Fault (Menu × List DrawCall) := do
  let (element, calls) ← drawElements menu.element
  pure ({ element }, calls)

end Menu

/-! ## `Gamestate_init` -/

/-- What the uninitialised memory of one call of `Gamestate_init` holds. -/
structure InitMemory where
  main_fresh : Nat → Bool
  leaderboard_fresh : Nat → Bool
  theLeaderboard : Leaderboard
  rdt : RtcDateTime

/-- `Gamestate_init`: the menus the two globals point to afterwards, and the game state. The code of
    `Leaderboard_read_file` is dropped. -/
def GamestateManager.init (g : GamestateManager) (assets : Assets) (memory : InitMemory)
    (file : Option Text) : Menu.Build ((MenuPtr → Menu) × GamestateManager) :=
  let main_menu := Menu.createMainMenu assets memory.main_fresh
  match memory.theLeaderboard.readFile file with
  | .error f => { accessed := [], result := .error f }
  | .ok read =>
    let build := Menu.createLeaderboard assets memory.leaderboard_fresh read.2 memory.rdt
    { accessed := build.accessed
      result := build.result.map fun leaderboard_menu =>
        (fun ptr => match ptr with
          | .main_menu => main_menu
          | .leaderboard_menu => leaderboard_menu, g.mainMenu) }

end Lcom

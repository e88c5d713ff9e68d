import Mathlib.Tactic

/-!
# The game state — `gamestate/gamestate_manager.c`
-/

namespace Lcom

/-- `enum GAMESTATE`. -/
inductive GameState where
  | main
  | level
  | leaderboard
  | quit
  deriving DecidableEq, Repr

/-- The two menus there are pointers to: the globals `main_menu` and `leaderboard_menu`. -/
inductive MenuPtr where
  | main_menu
  | leaderboard_menu
  deriving DecidableEq, Repr

/-- `struct Gamestate_Manager`. -/
structure GamestateManager where
  state : GameState
  level : Int
  current_menu : Option MenuPtr
  deriving DecidableEq, Repr

namespace GamestateManager

/-- The static initialiser: `current_menu` is left out of it, hence NULL. -/
def startup : GamestateManager := ⟨.main, 0, none⟩

/-- `Gamestate_change(state)`. -/
def change (g : GamestateManager) (state : GameState) : GamestateManager :=
  match state with
  | .main => { g with state, current_menu := some .main_menu }
  | .leaderboard => { g with state, current_menu := some .leaderboard_menu }
  | _ => { g with state }

/-- `Gamestate_get_current_menu`. -/
def getCurrentMenu (g : GamestateManager) : Option MenuPtr :=
  if g.state = .main then g.current_menu
  else if g.state = .leaderboard then g.current_menu
  else none

/-- `Gamestate_main_menu`. -/
def mainMenu (g : GamestateManager) : GamestateManager := g.change .main

/-- `Gamestate_leaderboard`. -/
def leaderboard (g : GamestateManager) : GamestateManager := g.change .leaderboard

/-- `Gamestate_quit`. -/
def quit (g : GamestateManager) : GamestateManager := g.change .quit

/-- The test `state == GS_MAIN || state == GS_LEADERBOARD`. -/
def inMenu (g : GamestateManager) : Bool :=
  g.state == .main || g.state == .leaderboard

end GamestateManager

end Lcom

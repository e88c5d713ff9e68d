import Lcom.Proof.Game.States

/-!
# How the game moves on

The game state changes in two places: the escape key quits, and a click calls the handler of the
element under the cursor. `Moment.Moves` lists what can happen between two moments on record, with the
handlers each menu has; `gamestate_moves` is that every run moves so, from the main menu through the
leaderboard to the end and never back, and that a game that is over was ended by the escape key, which
is still down, or by the last click, on the Quit button.
-/

namespace Lcom

open Lib

/-- How far the game has come. -/
def GameState.phase : GameState → Nat
  | .main => 0
  | .level => 0
  | .leaderboard => 1
  | .quit => 2

/-- The handlers of the main menu's buttons. -/
def OfMainMenu (on_click : FunctionPointer) : Prop :=
  on_click = spoof ∨ on_click = GamestateManager.leaderboard ∨ on_click = GamestateManager.quit

/-- The handler of the leaderboard's button. -/
def OfLeaderboardMenu (on_click : FunctionPointer) : Prop :=
  on_click = GamestateManager.leaderboard

/-- What can happen between two moments. -/
inductive Moment.Moves (a b : Moment) : Prop where
  | stays (gamestate : b.gamestate = a.gamestate) (clicked : b.clicked = a.clicked)
  | escapes (playing : a.gamestate.inMenu = true) (gamestate : b.gamestate = a.gamestate.quit)
      (clicked : b.clicked = a.clicked)
  | clicks (element : UiElement) (on_click : FunctionPointer)
      (handler : element.on_click = some on_click)
      (menu : a.gamestate.state = .main ∧ OfMainMenu on_click ∨
        a.gamestate.state = .leaderboard ∧ OfLeaderboardMenu on_click)
      (gamestate : b.gamestate = on_click a.gamestate)
      (clicked : b.clicked = a.clicked ++ [element])

/-- The game was ended by the escape key or by the last click, on the Quit button. -/
def World.EndedBy (w : World) : Prop :=
  w.keyboard.pressed .esc = .ok true ∨
    ∃ earlier element, w.clicked = earlier ++ [element] ∧
      element.on_click = some GamestateManager.quit

theorem phase_le_quit (state : GameState) : state.phase ≤ GameState.quit.phase := by
  cases state <;> decide

/-- No move goes back. -/
theorem Moment.Moves.phase_le {a b : Moment} (h : a.Moves b) :
    a.gamestate.state.phase ≤ b.gamestate.state.phase := by
  cases h with
  | stays hgamestate _ => rw [hgamestate]
  | escapes _ hgamestate _ =>
    rw [hgamestate]
    exact phase_le_quit _
  | clicks element on_click _ hmenu hgamestate _ =>
    rw [hgamestate]
    rcases hmenu with ⟨hmain, -⟩ | ⟨hleaderboard, rfl⟩
    · rw [hmain]
      exact Nat.zero_le _
    · rw [hleaderboard]
      exact le_refl _

/-! ## The buttons of a menu -/

namespace Menu

/-- Every handler of the menu is among `P`. -/
def Handlers (P : FunctionPointer → Prop) (menu : Menu) : Prop :=
  ∀ element ∈ menu.element, ∀ on_click, element.on_click = some on_click → P on_click

variable {P : FunctionPointer → Prop} {menu : Menu}

theorem Handlers.append {element : UiElement} (h : menu.Handlers P)
    (he : ∀ on_click, element.on_click = some on_click → P on_click) :
    (menu.append element).Handlers P := by
  intro e hmem
  rcases List.mem_append.mp hmem with hold | hnew
  · exact h e hold
  · rw [List.mem_singleton] at hnew
    exact hnew ▸ he

theorem Handlers.createUiFromString (h : menu.Handlers P) (assets : Assets) (fresh : Nat → Bool)
    (str : Text) (x y : Int) : (createUiFromString assets fresh str x y menu).Handlers P := by
  induction str generalizing x menu with
  | nil => exact h
  | cons c str ih => exact ih (h.append fun _ hnone => by cases hnone) _

theorem Handlers.createRows (h : menu.Handlers P) (assets : Assets) (fresh : Nat → Bool)
    (lb : Leaderboard) (todo i : Nat) (rdt : RtcDateTime) (acc : List Nat) {menu' : Menu}
    (hrows : (createRows assets fresh lb todo i rdt menu acc).result = .ok menu') :
    menu'.Handlers P := by
  induction todo generalizing i rdt menu acc with
  | zero =>
    cases hrows
    exact h
  | succ todo ih =>
    rw [Menu.createRows] at hrows
    split at hrows
    · cases hrows
    · next row hrow =>
      obtain ⟨entry, -, hrow⟩ := bind_eq_ok.mp hrow
      obtain ⟨_, -, hrow⟩ := bind_eq_ok.mp hrow
      obtain ⟨_, -, hrow⟩ := bind_eq_ok.mp hrow
      cases hrow
      exact ih ((h.createUiFromString assets fresh _ _ _).createUiFromString assets fresh _ _ _) _ _ _
        hrows

theorem handlers_drawElements {elements drawn : List UiElement} {calls : List DrawCall}
    (h : ∀ element ∈ elements, ∀ on_click, element.on_click = some on_click → P on_click)
    (hdraw : drawElements elements = .ok (drawn, calls)) :
    ∀ element ∈ drawn, ∀ on_click, element.on_click = some on_click → P on_click := by
  induction elements generalizing drawn calls with
  | nil =>
    cases hdraw
    exact h
  | cons element next ih =>
    obtain ⟨hfirst, hnext⟩ := List.forall_mem_cons.mp h
    obtain ⟨⟨sprite, call⟩, -, hrest⟩ := bind_eq_ok.mp hdraw
    obtain ⟨⟨next', calls'⟩, hnext', heq⟩ := bind_eq_ok.mp hrest
    cases heq
    exact List.forall_mem_cons.mpr ⟨hfirst, ih hnext hnext'⟩

/-- Drawing leaves the handlers alone. -/
theorem Handlers.draw (h : menu.Handlers P) {menu' : Menu} {calls : List DrawCall}
    (hdraw : menu.draw = .ok (menu', calls)) : menu'.Handlers P := by
  obtain ⟨⟨drawn, calls'⟩, hdrawn, heq⟩ := bind_eq_ok.mp hdraw
  cases heq
  exact handlers_drawElements h hdrawn

end Menu

/-- The handlers that the elements of each menu have. -/
structure World.Buttons (w : World) : Prop where
  main_menu : (w.menus .main_menu).Handlers OfMainMenu
  leaderboard_menu : (w.menus .leaderboard_menu).Handlers OfLeaderboardMenu

theorem init_handlers {g g' : GamestateManager} {assets : Assets} {memory : InitMemory}
    {file : Option Text} {menus : MenuPtr → Menu}
    (h : (g.init assets memory file).result = .ok (menus, g')) :
    (menus .main_menu).Handlers OfMainMenu ∧
      (menus .leaderboard_menu).Handlers OfLeaderboardMenu := by
  rw [GamestateManager.init] at h
  split at h
  · cases h
  · obtain ⟨menu, hmenu, heq⟩ := ok_of_map h
    cases heq
    constructor
    · intro element hmem on_click hclick
      simp only [Menu.createMainMenu, List.mem_cons, List.not_mem_nil, or_false] at hmem
      rcases hmem with rfl | rfl | rfl | rfl
      · cases hclick
      · exact .inl (Option.some.inj hclick).symm
      · exact .inr (.inl (Option.some.inj hclick).symm)
      · exact .inr (.inr (Option.some.inj hclick).symm)
    · refine Menu.Handlers.createRows (fun element hmem on_click hclick => ?_) _ _ _ _ _ _ _ hmenu
      simp only [Menu.leaderboardHead, List.mem_cons, List.not_mem_nil, or_false] at hmem
      rcases hmem with rfl | rfl
      · cases hclick
      · exact (Option.some.inj hclick).symm

/-! ## The handlers -/

theorem Ui.walk_menus (u : Ui) (elements : List UiElement) :
    (u.walk elements).menus = u.menus := by
  induction elements with
  | nil => rfl
  | cons element next ih =>
    rw [Ui.walk]
    split
    · dsimp only
      split
      · rfl
      · rfl
    · exact ih

/-- What the walk over a menu does to the game: nothing, or what one of its elements says. -/
theorem Ui.walk_moves (u : Ui) (elements : List UiElement) :
    ((u.walk elements).gamestate = u.gamestate ∧ (u.walk elements).clicked = u.clicked) ∨
      ∃ element ∈ elements, ∃ on_click, element.on_click = some on_click ∧
        (u.walk elements).gamestate = on_click u.gamestate ∧
        (u.walk elements).clicked = u.clicked ++ [element] := by
  induction elements with
  | nil => exact .inl ⟨rfl, rfl⟩
  | cons element next ih =>
    rw [Ui.walk]
    split
    · next on_click _ hclick =>
      dsimp only
      split
      · exact .inr ⟨element, List.mem_cons_self, on_click, hclick, rfl, rfl⟩
      · exact .inl ⟨rfl, rfl⟩
    · rcases ih with hstays | ⟨e, he, hclicks⟩
      · exact .inl hstays
      · exact .inr ⟨e, List.mem_cons_of_mem _ he, hclicks⟩

/-- A handler that does not look at the keyboard: it makes one move, which is a click if it is one. -/
structure MovesTo (w w' : World) : Prop where
  moves : w.now.Moves w'.now
  quiet : w'.clicked = w.clicked → w'.gamestate = w.gamestate
  buttons : w'.Buttons
  keyboard : w'.keyboard = w.keyboard

theorem World.Buttons.stays {w : World} (h : w.Buttons) : MovesTo w w :=
  ⟨.stays rfl rfl, fun _ => rfl, h, rfl⟩

/-- Such a handler ends the game with a click on the Quit button, or finds it ended. -/
theorem MovesTo.endedBy {w w' : World} (h : MovesTo w w')
    (hbefore : w.gamestate.state = .quit → w.EndedBy) (hquit : w'.gamestate.state = .quit) :
    w'.EndedBy := by
  have hstays : w'.gamestate = w.gamestate → w'.clicked = w.clicked → w'.EndedBy := by
    intro hgamestate hclicked
    unfold World.EndedBy
    rw [h.keyboard, hclicked]
    exact hbefore (hgamestate ▸ hquit)
  cases h.moves with
  | stays hgamestate hclicked => exact hstays hgamestate hclicked
  | escapes _ _ hclicked => exact hstays (h.quiet hclicked) hclicked
  | clicks element on_click hhandler hof hgamestate hclicked =>
    refine .inr ⟨w.clicked, element, hclicked, ?_⟩
    have hstate : (on_click w.gamestate).state = .quit := hgamestate ▸ hquit
    rcases hof with ⟨hmain, rfl | rfl | rfl⟩ | ⟨_, rfl⟩
    · exact absurd (hmain.symm.trans hstate) (by simp)
    · cases hstate
    · exact hhandler
    · cases hstate

theorem mouseHandle_moves {w w' : World} {tr : List SysEvent} (h : w.Buttons)
    (hrun : w.mouseHandle.Runs tr w') : MovesTo w w' := by
  obtain ⟨input, -, rfl⟩ := Prog.runs_bind_ret.mp hrun
  exact ⟨.stays rfl rfl, fun _ => rfl, ⟨h.main_menu, h.leaderboard_menu⟩, rfl⟩

/-- The keyboard's handler ends the game exactly when it leaves the escape key down. -/
theorem keyboardHandle_moves {host : Host} {w w' : World} {tr : List SysEvent} (h : w.Buttons)
    (hrun : (w.keyboardHandle host).Runs tr (.ok w')) :
    w.now.Moves w'.now ∧ w'.Buttons ∧
      (w.gamestate.state ≠ .quit → w'.gamestate.state = .quit → w'.EndedBy) := by
  obtain ⟨ok, -, heq⟩ := Prog.runs_bind_ret.mp hrun
  obtain ⟨keyboard, -, hescape⟩ := bind_eq_ok.mp heq.symm
  rw [World.escapeQuits] at hescape
  split at hescape
  · next hin =>
    obtain ⟨pressed, hpressed, heq⟩ := bind_eq_ok.mp hescape
    cases heq
    cases pressed with
    | true =>
      exact ⟨.escapes hin rfl rfl, ⟨h.main_menu, h.leaderboard_menu⟩, fun _ _ => .inl hpressed⟩
    | false =>
      exact ⟨.stays rfl rfl, ⟨h.main_menu, h.leaderboard_menu⟩, fun hne heq => absurd heq hne⟩
  · cases hescape
    exact ⟨.stays rfl rfl, ⟨h.main_menu, h.leaderboard_menu⟩, fun hne heq => absurd heq hne⟩

theorem drawMenu_moves {w w' : World} (h : w.Buttons) (hdraw : w.drawMenu = .ok w') :
    MovesTo w w' := by
  rw [World.drawMenu] at hdraw
  split at hdraw
  · cases hdraw
  · next ptr _ =>
    obtain ⟨⟨menu, calls⟩, hmenu, heq⟩ := bind_eq_ok.mp hdraw
    cases heq
    refine ⟨.stays rfl rfl, fun _ => rfl, ?_, rfl⟩
    cases ptr with
    | main_menu =>
      refine ⟨?_, ?_⟩
      · dsimp only
        rw [Function.update_self]
        exact h.main_menu.draw hmenu
      · dsimp only
        rw [Function.update_of_ne (by simp)]
        exact h.leaderboard_menu
    | leaderboard_menu =>
      refine ⟨?_, ?_⟩
      · dsimp only
        rw [Function.update_of_ne (by simp)]
        exact h.main_menu
      · dsimp only
        rw [Function.update_self]
        exact h.leaderboard_menu.draw hmenu

/-- Drawing the cursor clicks what is under it. -/
theorem drawMouse_moves {w w' : World} (h : w.Buttons) (hvalid : w.gamestate.Valid)
    (hdraw : w.drawMouse = .ok w') : MovesTo w w' := by
  obtain ⟨⟨ui, call⟩, hui, heq⟩ := bind_eq_ok.mp hdraw
  cases heq
  obtain ⟨u, hhover, hcursor⟩ := bind_eq_ok.mp hui
  -- the cursor's sprite is all that the second half changes
  have hsame : ui.gamestate = u.gamestate ∧ ui.clicked = u.clicked ∧ ui.menus = u.menus := by
    rw [Ui.drawCursor] at hcursor
    split at hcursor
    · cases hcursor
      exact ⟨rfl, rfl, rfl⟩
    · obtain ⟨_, -, heq⟩ := bind_eq_ok.mp hcursor
      cases heq
      exact ⟨rfl, rfl, rfl⟩
  obtain ⟨hgamestate, hclicked, hmenus⟩ := hsame
  rw [Ui.hover] at hhover
  split at hhover
  · next hin =>
    obtain ⟨ptr, hptr⟩ := hvalid.currentMenu hin
    have hcurrent : w.ui.gamestate.getCurrentMenu = some ptr := hptr
    rw [hcurrent] at hhover
    cases hhover
    have hwalk := Ui.walk_moves { w.ui with mouse := w.ui.mouse.setState mouseNormal }
      (w.ui.menus ptr).element
    have hkept : ui.menus = w.menus := hmenus.trans (Ui.walk_menus _ _)
    refine ⟨?_, fun hnone => ?_, ⟨?_, ?_⟩, rfl⟩
    · rcases hwalk with ⟨hstate, hclicks⟩ | ⟨element, hmem, on_click, hclick, hstate, hclicks⟩
      · exact .stays (hgamestate.trans hstate) (hclicked.trans hclicks)
      · refine .clicks element on_click hclick ?_ (hgamestate.trans hstate) (hclicked.trans hclicks)
        rcases hvalid with ⟨hmain, hmenu⟩ | ⟨hleaderboard, hmenu⟩ | hquit
        · rw [GamestateManager.getCurrentMenu, if_pos hmain, hmenu] at hptr
          cases hptr
          exact .inl ⟨hmain, h.main_menu element hmem on_click hclick⟩
        · rw [GamestateManager.getCurrentMenu, if_neg (by rw [hleaderboard]; decide),
            if_pos hleaderboard, hmenu] at hptr
          cases hptr
          exact .inr ⟨hleaderboard, h.leaderboard_menu element hmem on_click hclick⟩
        · exact absurd hquit (GamestateManager.Valid.inMenu_iff (.inr (.inr hquit)) |>.mp hin)
    · rcases hwalk with ⟨hstate, -⟩ | ⟨element, -, on_click, -, -, hclicks⟩
      · exact hgamestate.trans hstate
      · -- a click is on record
        have hlonger : w.clicked ++ [element] = w.clicked := (hclicked.trans hclicks).symm.trans hnone
        simp at hlonger
    · change (ui.menus .main_menu).Handlers _
      rw [hkept]
      exact h.main_menu
    · change (ui.menus .leaderboard_menu).Handlers _
      rw [hkept]
      exact h.leaderboard_menu
  · cases hhover
    refine ⟨.stays hgamestate hclicked, fun _ => hgamestate, ⟨?_, ?_⟩, rfl⟩
    · change (ui.menus .main_menu).Handlers _
      rw [hmenus]
      exact h.main_menu
    · change (ui.menus .leaderboard_menu).Handlers _
      rw [hmenus]
      exact h.leaderboard_menu

/-- A tick clicks at most once. -/
theorem timerTick_moves {w w' : World} (h : w.Buttons) (hvalid : w.gamestate.Valid)
    (htick : w.timerTick = .ok w') : MovesTo w w' := by
  rw [World.timerTick] at htick
  obtain ⟨w₁, hframe, heq⟩ := bind_eq_ok.mp htick
  cases heq
  have hframe' : MovesTo w w₁ := by
    split at hframe
    · cases hframe
      exact h.stays
    · rw [World.drawFrame] at hframe
      obtain ⟨w₂, hmenu, hmouse⟩ := bind_eq_ok.mp hframe
      split at hmenu
      · next hin =>
        have hmenu' := drawMenu_moves h hmenu
        -- the menu is drawn in the game state it belongs to
        have hsame : w₂.gamestate = w.gamestate ∧ w₂.clicked = w.clicked := by
          rw [World.drawMenu] at hmenu
          split at hmenu
          · cases hmenu
          · obtain ⟨_, -, heq⟩ := bind_eq_ok.mp hmenu
            cases heq
            exact ⟨rfl, rfl⟩
        have hmouse' := drawMouse_moves hmenu'.buttons (hsame.1 ▸ hvalid) hmouse
        refine ⟨?_, fun hnone => ?_, hmouse'.buttons, hmouse'.keyboard.trans hmenu'.keyboard⟩
        swap
        · exact (hmouse'.quiet (hnone.trans hsame.2.symm)).trans hsame.1
        cases hmouse'.moves with
        | stays hgamestate hclicked =>
          exact .stays (hgamestate.trans hsame.1) (hclicked.trans hsame.2)
        | escapes hplaying hgamestate hclicked =>
          change w₂.gamestate.inMenu = true at hplaying
          change w₁.gamestate = w₂.gamestate.quit at hgamestate
          rw [hsame.1] at hplaying hgamestate
          exact .escapes hplaying hgamestate (hclicked.trans hsame.2)
        | clicks element on_click hhandler hof hgamestate hclicked =>
          change w₂.gamestate.state = .main ∧ _ ∨ w₂.gamestate.state = .leaderboard ∧ _ at hof
          change w₁.gamestate = on_click w₂.gamestate at hgamestate
          change w₁.clicked = w₂.clicked ++ [element] at hclicked
          rw [hsame.1] at hof hgamestate
          rw [hsame.2] at hclicked
          exact .clicks element on_click hhandler hof hgamestate hclicked
      · cases hmenu
        exact drawMouse_moves h hvalid hmouse
  exact ⟨hframe'.moves, hframe'.quiet, ⟨hframe'.buttons.main_menu, hframe'.buttons.leaderboard_menu⟩,
    hframe'.keyboard⟩

/-! ## The course of a run -/

/-- The record is a sequence of moves that has come to the present state. -/
structure World.OnCourse (w : World) : Prop where
  chain : w.moments.IsChain Moment.Moves
  last : ∃ m, w.moments.getLast? = some m ∧ m.gamestate = w.gamestate ∧ m.clicked = w.clicked
  buttons : w.Buttons
  ended : w.gamestate.state = .quit → w.EndedBy

theorem Moment.Moves.of_same {a a' b : Moment} (h : a.Moves b) (hgamestate : a'.gamestate = a.gamestate)
    (hclicked : a'.clicked = a.clicked) : a'.Moves b := by
  cases h with
  | stays hstate hclicks => exact .stays (hstate.trans hgamestate.symm) (hclicks.trans hclicked.symm)
  | escapes hplaying hstate hclicks =>
    exact .escapes (hgamestate ▸ hplaying) (hgamestate ▸ hstate) (hclicks.trans hclicked.symm)
  | clicks element on_click hhandler hof hstate hclicks =>
    exact .clicks element on_click hhandler (hgamestate ▸ hof) (hgamestate ▸ hstate)
      (hclicked ▸ hclicks)

theorem World.OnCourse.observe {w w' : World} (h : w.OnCourse) (hmoves : w.now.Moves w'.now)
    (hmoments : w'.moments = w.moments) (hbuttons : w'.Buttons)
    (hended : w'.gamestate.state = .quit → w'.EndedBy) : w'.observe.OnCourse := by
  obtain ⟨m, hlast, hgamestate, hclicked⟩ := h.last
  refine ⟨?_, ⟨w'.now, List.getLast?_concat, rfl, rfl⟩,
    ⟨hbuttons.main_menu, hbuttons.leaderboard_menu⟩, hended⟩
  change (w'.moments ++ [w'.now]).IsChain Moment.Moves
  rw [hmoments]
  refine List.isChain_append.mpr ⟨h.chain, List.isChain_singleton _, fun a ha b hb => ?_⟩
  rw [hlast, Option.mem_some_iff] at ha
  rw [List.head?_cons, Option.mem_some_iff] at hb
  subst ha hb
  exact hmoves.of_same hgamestate hclicked

/-- **One message** goes on with the record, and ends the game as the record says. -/
theorem handleInterrupts_onCourse {host : Host} {w w' : World} {msg : Message} {tr : List SysEvent}
    (hgood : w.Good) (hcourse : w.OnCourse) (hplaying : w.gamestate.state ≠ .quit)
    (hrun : (handleInterrupts host w msg).Runs tr (.ok w')) : w'.OnCourse := by
  obtain ⟨tr₁, w₁, rest, rfl, hmouse, hrun⟩ := Prog.runs_bind.mp hrun
  obtain ⟨o₂, hkeyboard, heq⟩ := Prog.runs_bind_ret.mp hrun
  obtain ⟨w₂, rfl, htimer⟩ := bind_eq_ok.mp heq.symm
  obtain ⟨w₃, htick, heq⟩ := bind_eq_ok.mp htimer
  cases heq
  obtain ⟨hfollows₁, hmoves₁, hsame₁⟩ :
      Follows w w₁ ∧ MovesTo w w₁ ∧ w₁.gamestate = w.gamestate := by
    split at hmouse
    · have hmoves := mouseHandle_moves hcourse.buttons hmouse
      obtain ⟨_, -, rfl⟩ := Prog.runs_bind_ret.mp hmouse
      exact ⟨mouseHandle_follows hgood hmouse, hmoves, rfl⟩
    · obtain ⟨-, rfl⟩ := Prog.runs_ret.mp hmouse
      exact ⟨hgood.refl, hcourse.buttons.stays, rfl⟩
  have hcourse₁ : w₁.observe.OnCourse := hcourse.observe hmoves₁.moves hfollows₁.moments
    hmoves₁.buttons (hmoves₁.endedBy hcourse.ended)
  have hgood₁ : w₁.observe.Good :=
    ⟨hfollows₁.good.valid, hfollows₁.good.menus, hfollows₁.good.mouse⟩
  have hcourse₂ : w₂.observe.OnCourse ∧ w₂.observe.Good := by
    split at hkeyboard
    · obtain ⟨w₂', heq, hfollows₂⟩ := keyboardHandle_follows hgood₁ hkeyboard
      cases heq
      obtain ⟨hmoves, hbuttons, hended⟩ := keyboardHandle_moves hcourse₁.buttons hkeyboard
      exact ⟨hcourse₁.observe hmoves hfollows₂.moments hbuttons (hended (hsame₁ ▸ hplaying)),
        hfollows₂.good.valid, hfollows₂.good.menus, hfollows₂.good.mouse⟩
    · obtain ⟨-, heq⟩ := Prog.runs_ret.mp hkeyboard
      cases heq
      exact ⟨hcourse₁.observe hcourse₁.buttons.stays.moves rfl hcourse₁.buttons hcourse₁.ended,
        hgood₁.valid, hgood₁.menus, hgood₁.mouse⟩
  have hfollows₃ : Follows w₂.observe w₃ ∧ MovesTo w₂.observe w₃ := by
    split at htick
    · obtain ⟨w₃', heq, hfollows⟩ := timerTick_follows hcourse₂.2
      rw [heq] at htick
      cases htick
      exact ⟨hfollows, timerTick_moves hcourse₂.1.buttons hcourse₂.2.valid heq⟩
    · cases htick
      exact ⟨hcourse₂.2.refl, hcourse₂.1.buttons.stays⟩
  exact hcourse₂.1.observe hfollows₃.2.moves hfollows₃.1.moments hfollows₃.2.buttons
    (hfollows₃.2.endedBy hcourse₂.1.ended)

theorem World.OnCourse.received {w : World} (h : w.OnCourse) :
    World.OnCourse { w with messages := w.messages + 1 } :=
  ⟨h.chain, h.last, ⟨h.buttons.main_menu, h.buttons.leaderboard_menu⟩, h.ended⟩

theorem mainLoop_onCourse {host : Host} {fuel : Nat} {w : World} {tr : List SysEvent}
    {o : Outcome World} (hsettled : w.Settled) (hcourse : w.OnCourse)
    (hrun : (mainLoop host fuel w).Runs tr o) : ∃ w', o.Ends w' ∧ w'.OnCourse := by
  induction fuel generalizing w tr with
  | zero =>
    rw [mainLoop] at hrun
    split at hrun
    · next hquit =>
      obtain ⟨rfl, rfl⟩ := Prog.runs_ret.mp hrun
      exact ⟨w, .inl ⟨rfl, hquit⟩, hcourse⟩
    · next hquit =>
      obtain ⟨rfl, rfl⟩ := Prog.runs_ret.mp hrun
      exact ⟨w, .inr ⟨rfl, hquit⟩, hcourse⟩
  | succ fuel ih =>
    by_cases hquit : w.gamestate.state = .quit
    · rw [mainLoop, if_pos hquit] at hrun
      obtain ⟨rfl, rfl⟩ := Prog.runs_ret.mp hrun
      exact ⟨w, .inl ⟨rfl, hquit⟩, hcourse⟩
    · rw [mainLoop, if_neg hquit, Prog.query_bind] at hrun
      obtain ⟨r, tr', rfl, hrest⟩ := Prog.runs_ask.mp hrun
      dsimp only at hrest
      have hgood : World.Good { w with messages := w.messages + 1 } :=
        ⟨hsettled.good.valid, hsettled.good.menus, hsettled.good.mouse⟩
      have hrecorded := hsettled.receive hquit
      have hreceived := hcourse.received
      have hobserved : (World.observe { w with messages := w.messages + 1 }).OnCourse :=
        hreceived.observe (.stays rfl rfl) rfl hreceived.buttons hreceived.ended
      split at hrest
      · exact ih (.observe hgood hrecorded) hobserved hrest
      · split at hrest
        · obtain ⟨handled, o₁, rest, rfl, hhandle, hnext⟩ := Prog.runs_bind.mp hrest
          obtain ⟨w₁, rfl, hsettled₁, -⟩ := handleInterrupts_settled hgood hrecorded hhandle
          exact ih hsettled₁ (handleInterrupts_onCourse hgood hreceived hquit hhandle) hnext
        · exact ih (.observe hgood hrecorded) hobserved hrest

/-- The record starts in the main menu. -/
theorem projInit_onCourse {host : Host} {w : World} {tr : List SysEvent}
    (h : (projInit host World.startup).Runs tr (.done (0, w))) :
    w.OnCourse ∧ w.gamestate.state = .main := by
  obtain ⟨_, _, _, _, _, memory, -, -, hrun⟩ := projInit_course h
  obtain ⟨_, made, _, rfl, -, hrun⟩ := Prog.runs_bind.mp hrun
  cases made with
  | none => cases (Prog.runs_ret.mp hrun).2
  | some made =>
    obtain ⟨r, gpu_res_info⟩ := made
    dsimp only at hrun
    split at hrun
    · cases (Prog.runs_ret.mp hrun).2
    · split at hrun
      · cases (Prog.runs_ret.mp hrun).2
      · next menus gamestate hinit =>
        obtain ⟨-, heq⟩ := Prog.runs_ret.mp hrun
        cases heq
        obtain ⟨hmain, hleaderboard⟩ := init_handlers hinit
        have hstate : gamestate.state = .main := by
          rw [GamestateManager.init] at hinit
          split at hinit
          · cases hinit
          · obtain ⟨_, -, heq⟩ := ok_of_map hinit
            cases heq
            rfl
        exact ⟨⟨List.isChain_singleton _, ⟨_, rfl, rfl, rfl⟩, ⟨hmain, hleaderboard⟩,
          fun hquit => absurd (hstate.symm.trans hquit) (by simp)⟩, hstate⟩

/-- **The game moves on and never back.** After any `proj_init` that succeeds, whatever messages
    arrive: from one moment on record to the next the game stays as it is, is quit by the escape key,
    or does what the handler of one clicked element of its menu says, so it goes from the main menu to
    the leaderboard to the end and never back; and when the loop has returned, the escape key is down
    or the last click was on the Quit button. -/
theorem gamestate_moves (host : Host) (fuel : Nat) (boot tr : List SysEvent) (w : World)
    (o : Outcome World) (hboot : (projInit host World.startup).Runs boot (.done (0, w)))
    (hloop : (mainLoop host fuel { w with skip_frame := false }).Runs tr o) :
    ∃ w', o.Ends w' ∧ w'.moments.IsChain Moment.Moves ∧
      (w'.moments.Pairwise fun a b => a.gamestate.state.phase ≤ b.gamestate.state.phase) ∧
      (w'.gamestate.state = .quit → w'.EndedBy) := by
  obtain ⟨hsettled, -⟩ := projInit_settled hboot
  obtain ⟨hcourse, -⟩ := projInit_onCourse hboot
  obtain ⟨w', hends, hcourse'⟩ := mainLoop_onCourse (w := { w with skip_frame := false })
    ⟨⟨hsettled.good.valid, hsettled.good.menus, hsettled.good.mouse⟩,
      ⟨hsettled.recorded.valid, hsettled.recorded.settled, hsettled.recorded.now⟩, hsettled.last⟩
    ⟨hcourse.chain, hcourse.last, ⟨hcourse.buttons.main_menu, hcourse.buttons.leaderboard_menu⟩,
      hcourse.ended⟩ hloop
  refine ⟨w', hends, hcourse'.chain, ?_, hcourse'.ended⟩
  have hphases := hcourse'.chain.imp fun _ _ => Moment.Moves.phase_le
  have htrans : IsTrans Moment fun a b => a.gamestate.state.phase ≤ b.gamestate.state.phase :=
    ⟨fun _ _ _ => le_trans⟩
  exact List.isChain_iff_pairwise.mp hphases

/-- The escape key ends the game. -/
theorem gamestate_moves_escape : ∃ w', escaped.Ends w' ∧ w'.EndedBy := by
  obtain ⟨w', hends, -, -, hended⟩ := gamestate_moves emptyHost 1 bootTrace escapeTrace booted escaped
    rfl rfl
  rcases hends with ⟨hdone, hquit⟩ | ⟨hrunning, hne⟩
  · exact ⟨w', .inl ⟨hdone, hquit⟩, hended hquit⟩
  · cases hrunning

end Lcom

import Lcom.Proof.Input.Clicks
import Lcom.Proof.Input.Keyboard
import Lcom.Proof.Input.MousePackets
import Lcom.Proof.Ui.Rows
import Lcom.Proof.Game.Shutdown

/-!
# The game states of a run

Three handlers run in a row inside one message, and two of them may change the game state: the escape
key, and a click in the middle of the walk over a menu. `Follows` says what any of them may do to the
world — keep it in order, and leave a game that is over alone — and it is proved of each handler on
its own. What a message does, and from it what a run does, follows by composition.
-/

namespace Lcom

open Lib

/-- One of the three states of the menus, with the pointer to the menu that belongs to it. -/
def GamestateManager.Valid (g : GamestateManager) : Prop :=
  (g.state = .main ∧ g.current_menu = some .main_menu) ∨
    (g.state = .leaderboard ∧ g.current_menu = some .leaderboard_menu) ∨ g.state = .quit

/-- Once the game is over the later moment is the same: nothing was clicked, and no message asked
    for. -/
def Moment.Settles (a b : Moment) : Prop := a.gamestate.state = .quit → b = a

/-- Whether an exchange is a `driver_receive`. -/
def SysEvent.receives (e : SysEvent) : Bool := e.1 = .driverReceive

/-- What a run that was answered by `tr` has on record in the world it ends in. -/
structure World.SoundRun (w : World) (tr : List SysEvent) : Prop where
  valid : ∀ m ∈ w.moments, m.gamestate.Valid
  settled : w.moments.Pairwise Moment.Settles
  last : w.moments.getLast? = some w.now
  messages : w.messages = tr.countP SysEvent.receives

/-- The loop has not faulted: it has returned because the game is over, or it is still going. -/
def Outcome.Ends (o : Outcome World) (w : World) : Prop :=
  (o = .done w ∧ w.gamestate.state = .quit) ∨ (o = .running w ∧ w.gamestate.state ≠ .quit)

/-! ## Menus -/

/-- Every handler of the menus goes from a valid state to a valid state. -/
def FunctionPointer.Sound (on_click : FunctionPointer) : Prop :=
  ∀ g : GamestateManager, g.Valid → GamestateManager.Valid (on_click g)

/-- The sprite shows one frame that it has. -/
structure Sprite.Steady (s : Sprite) : Prop where
  delay : s.delay = 0
  offset : ∃ offset, frameOf s.offsets s.current_frame = .ok offset
  size : ∃ size, frameOf s.sizes s.current_frame = .ok size

structure UiElement.Sound (element : UiElement) : Prop where
  steady : element.sprite.Steady
  click : ∀ on_click, element.on_click = some on_click → FunctionPointer.Sound on_click

def Menu.Sound (menu : Menu) : Prop := ∀ element ∈ menu.element, element.Sound

theorem valid_mainMenu (g : GamestateManager) : g.mainMenu.Valid := .inl ⟨rfl, rfl⟩

theorem sound_spoof : FunctionPointer.Sound spoof := fun _ h => h

theorem sound_leaderboard : FunctionPointer.Sound GamestateManager.leaderboard :=
  fun _ _ => .inr (.inl ⟨rfl, rfl⟩)

theorem sound_quit : FunctionPointer.Sound GamestateManager.quit := fun _ _ => .inr (.inr rfl)

namespace Menu

theorem sound_singleFrame (aabb : Aabb) (img : XpmImage) (offset size : Vec2)
    {on_click : Option FunctionPointer} (transparent : Bool)
    (h : ∀ f, on_click = some f → FunctionPointer.Sound f) :
    (singleFrame aabb img offset size on_click transparent).Sound :=
  ⟨⟨rfl, ⟨offset, rfl⟩, ⟨size, rfl⟩⟩, h⟩

theorem sound_label (aabb : Aabb) (img : XpmImage) (offset size : Vec2) (transparent : Bool) :
    (singleFrame aabb img offset size none transparent).Sound :=
  sound_singleFrame aabb img offset size transparent fun _ h => by cases h

theorem sound_button (aabb : Aabb) (img : XpmImage) (offset size : Vec2) (transparent : Bool)
    {f : FunctionPointer} (h : FunctionPointer.Sound f) :
    (singleFrame aabb img offset size (some f) transparent).Sound :=
  sound_singleFrame aabb img offset size transparent fun _ heq => Option.some.inj heq ▸ h

theorem sound_createMainMenu (assets : Assets) (fresh : Nat → Bool) :
    (createMainMenu assets fresh).Sound := by
  intro element hmem
  simp only [createMainMenu, List.mem_cons, List.not_mem_nil, or_false] at hmem
  rcases hmem with rfl | rfl | rfl | rfl
  · exact sound_label _ _ _ _ _
  · exact sound_button _ _ _ _ _ sound_spoof
  · exact sound_button _ _ _ _ _ sound_leaderboard
  · exact sound_button _ _ _ _ _ sound_quit

theorem sound_leaderboardHead (assets : Assets) (fresh : Nat → Bool) :
    (leaderboardHead assets fresh).Sound := by
  intro element hmem
  simp only [leaderboardHead, List.mem_cons, List.not_mem_nil, or_false] at hmem
  rcases hmem with rfl | rfl
  · exact sound_label _ _ _ _ _
  · exact sound_button _ _ _ _ _ sound_leaderboard

theorem Sound.append {menu : Menu} {element : UiElement} (h : menu.Sound) (he : element.Sound) :
    (menu.append element).Sound := by
  intro e hmem
  rcases List.mem_append.mp hmem with hold | hnew
  · exact h e hold
  · rw [List.mem_singleton] at hnew
    exact hnew ▸ he

theorem Sound.createUiFromString {menu : Menu} (h : menu.Sound) (assets : Assets)
    (fresh : Nat → Bool) (str : Text) (x y : Int) :
    (createUiFromString assets fresh str x y menu).Sound := by
  induction str generalizing x menu with
  | nil => exact h
  | cons c str ih => exact ih (h.append (sound_label _ _ _ _ _)) _

theorem Sound.createRow {menu : Menu} (h : menu.Sound) {assets : Assets} {fresh : Nat → Bool}
    {i : Nat} {entry : LeaderboardEntry} {rdt : RtcDateTime} {row : RtcDateTime × Menu}
    (hrow : createRow assets fresh i entry rdt menu = .ok row) : row.2.Sound := by
  obtain ⟨_, -, hrow⟩ := bind_eq_ok.mp hrow
  obtain ⟨_, -, hrow⟩ := bind_eq_ok.mp hrow
  cases hrow
  exact (h.createUiFromString assets fresh _ _ _).createUiFromString assets fresh _ _ _

theorem Sound.createRows {menu menu' : Menu} (h : menu.Sound) (assets : Assets)
    (fresh : Nat → Bool) (lb : Leaderboard) (todo i : Nat) (rdt : RtcDateTime) (acc : List Nat)
    (hrows : (createRows assets fresh lb todo i rdt menu acc).result = .ok menu') :
    menu'.Sound := by
  induction todo generalizing i rdt menu acc with
  | zero =>
    cases hrows
    exact h
  | succ todo ih =>
    rw [Menu.createRows] at hrows
    split at hrows
    · cases hrows
    · next row hrow =>
      obtain ⟨entry, -, hrow⟩ := bind_eq_ok.mp hrow
      exact ih (h.createRow hrow) _ _ _ hrows

end Menu

/-- The two menus of `Gamestate_init`, and the state it starts in. -/
theorem init_sound {g g' : GamestateManager} {assets : Assets} {memory : InitMemory}
    {file : Option Text} {menus : MenuPtr → Menu}
    (h : (g.init assets memory file).result = .ok (menus, g')) :
    g'.Valid ∧ ∀ ptr, (menus ptr).Sound := by
  rw [GamestateManager.init] at h
  split at h
  · cases h
  · obtain ⟨menu, hmenu, heq⟩ := ok_of_map h
    cases heq
    refine ⟨valid_mainMenu g, fun ptr => ?_⟩
    cases ptr with
    | main_menu => exact Menu.sound_createMainMenu _ _
    | leaderboard_menu =>
      exact (Menu.sound_leaderboardHead _ _).createRows _ _ _ _ _ _ _ hmenu

/-! ## Drawing -/

theorem drawElements_sound {elements : List UiElement} (h : ∀ e ∈ elements, e.Sound) :
    ∃ drawn calls, Menu.drawElements elements = .ok (drawn, calls) ∧ ∀ e ∈ drawn, e.Sound := by
  induction elements with
  | nil => exact ⟨[], [], rfl, h⟩
  | cons element next ih =>
    obtain ⟨hfirst, hnext⟩ := List.forall_mem_cons.mp h
    obtain ⟨offset, hoffset⟩ := hfirst.steady.offset
    obtain ⟨size, hsize⟩ := hfirst.steady.size
    obtain ⟨img, call, hdraw⟩ :=
      Sprite.draw_still element.aabb.position hfirst.steady.delay hoffset hsize
    obtain ⟨drawn, calls, hdrawn, hsound⟩ := ih hnext
    refine ⟨_, _, by rw [Menu.drawElements, hdraw, ok_bind, hdrawn]; rfl, ?_⟩
    exact List.forall_mem_cons.mpr
      ⟨⟨⟨hfirst.steady.delay, hfirst.steady.offset, hfirst.steady.size⟩, hfirst.click⟩, hsound⟩

theorem Menu.Sound.draw {menu : Menu} (h : menu.Sound) :
    ∃ menu' calls, menu.draw = .ok (menu', calls) ∧ menu'.Sound := by
  obtain ⟨drawn, calls, hdrawn, hsound⟩ := drawElements_sound h
  exact ⟨⟨drawn⟩, calls, by rw [Menu.draw, hdrawn]; rfl, hsound⟩

theorem GamestateManager.Valid.currentMenu {g : GamestateManager} (h : g.Valid)
    (hin : g.inMenu = true) : ∃ ptr, g.getCurrentMenu = some ptr := by
  rcases h with ⟨hstate, hmenu⟩ | ⟨hstate, hmenu⟩ | hstate
  · exact ⟨.main_menu, by rw [getCurrentMenu, if_pos hstate, hmenu]⟩
  · refine ⟨.leaderboard_menu, ?_⟩
    rw [getCurrentMenu, if_neg (by rw [hstate]; decide), if_pos hstate, hmenu]
  · rw [inMenu, hstate] at hin
    exact absurd hin (by decide)

/-- A menu is on the screen exactly as long as the game is not over. -/
theorem GamestateManager.Valid.inMenu_iff {g : GamestateManager} (h : g.Valid) :
    g.inMenu = true ↔ g.state ≠ .quit := by
  rcases h with ⟨hstate, -⟩ | ⟨hstate, -⟩ | hstate
  · rw [inMenu, hstate]
    decide
  · rw [inMenu, hstate]
    decide
  · rw [inMenu, hstate]
    decide

/-- What drawing the cursor needs and keeps. -/
structure Ui.Good (u : Ui) : Prop where
  valid : u.gamestate.Valid
  menus : ∀ ptr, (u.menus ptr).Sound
  mouse : u.mouse.Ready

/-- The walk calls at most one handler, and goes on with the state it left behind. -/
theorem Ui.Good.walk {u : Ui} (h : u.Good) {elements : List UiElement}
    (he : ∀ e ∈ elements, e.Sound) : (u.walk elements).Good := by
  induction elements with
  | nil => exact h
  | cons element next ih =>
    obtain ⟨hfirst, hnext⟩ := List.forall_mem_cons.mp he
    rw [Ui.walk]
    split
    · next on_click _ hclick =>
      have hready : ∀ m : Mouse, m.Ready → (m.setState mouseClick).Ready :=
        fun m hm => ⟨hm.offsets, hm.sizes, hm.delay, .inl rfl⟩
      dsimp only
      split
      · exact ⟨hfirst.click on_click hclick _ h.valid, h.menus, hready _ h.mouse⟩
      · exact ⟨h.valid, h.menus, hready _ h.mouse⟩
    · exact ih hnext

theorem Ui.Good.hover {u : Ui} (h : u.Good) :
    ∃ u', u.hover = .ok u' ∧ u'.Good ∧ (u.gamestate.state = .quit → u' = u) := by
  rw [Ui.hover]
  by_cases hin : u.gamestate.inMenu = true
  · obtain ⟨ptr, hptr⟩ := h.valid.currentMenu hin
    rw [if_pos hin, hptr]
    have hnormal : Ui.Good { u with mouse := u.mouse.setState mouseNormal } :=
      ⟨h.valid, h.menus, ⟨h.mouse.offsets, h.mouse.sizes, h.mouse.delay, .inr rfl⟩⟩
    exact ⟨_, rfl, hnormal.walk (h.menus ptr), fun hquit => absurd hquit (h.valid.inMenu_iff.mp hin)⟩
  · rw [if_neg hin]
    exact ⟨u, rfl, h, fun _ => rfl⟩

/-- **Drawing the cursor.** It does not fault, and when the game is over it clicks nothing. -/
theorem Ui.Good.draw {u : Ui} (h : u.Good) :
    ∃ u' call, u.draw = .ok (u', call) ∧ u'.Good ∧
      (u.gamestate.state = .quit → u'.gamestate = u.gamestate ∧ u'.clicked = u.clicked) := by
  obtain ⟨u₁, hhover, hgood, hquiet⟩ := h.hover
  obtain ⟨u₂, call, hdraw, hready, hclicked, hsame⟩ := Ui.drawCursor_ready hgood.mouse
  refine ⟨u₂, call, by rw [Ui.draw, hhover, ok_bind, hdraw], ?_, fun hquit => ?_⟩
  · exact ⟨hsame.gamestate ▸ hgood.valid, hsame.menus ▸ hgood.menus, hready⟩
  · rw [hsame.gamestate, hclicked, hquiet hquit]
    exact ⟨rfl, rfl⟩

/-! ## The handlers -/

/-- What the handlers need and keep. -/
structure World.Good (w : World) : Prop where
  valid : w.gamestate.Valid
  menus : ∀ ptr, (w.menus ptr).Sound
  mouse : w.mouse.Ready

theorem World.Good.ui {w : World} (h : w.Good) : w.ui.Good := ⟨h.valid, h.menus, h.mouse⟩

/-- What a handler may do: it leaves the record alone, and a game that is over as it is. -/
structure Follows (w w' : World) : Prop where
  good : w'.Good
  moments : w'.moments = w.moments
  messages : w'.messages = w.messages
  afterQuit : w.gamestate.state = .quit → w'.gamestate = w.gamestate ∧ w'.clicked = w.clicked

theorem World.Good.refl {w : World} (h : w.Good) : Follows w w := ⟨h, rfl, rfl, fun _ => ⟨rfl, rfl⟩⟩

theorem Follows.trans {w w' w'' : World} (h : Follows w w') (h' : Follows w' w'') :
    Follows w w'' := by
  refine ⟨h'.good, h'.moments.trans h.moments, h'.messages.trans h.messages, fun hquit => ?_⟩
  obtain ⟨hstate, hclicked⟩ := h.afterQuit hquit
  obtain ⟨hstate', hclicked'⟩ := h'.afterQuit (by rw [hstate]; exact hquit)
  exact ⟨hstate'.trans hstate, hclicked'.trans hclicked⟩

theorem MouseInput.apply_ready {input : MouseInput} (h : input.mouse.Ready) (res : GpuResInfo) :
    (input.apply res).mouse.Ready := by
  rw [MouseInput.apply]
  split
  · exact h.update res _
  · exact h

theorem mouseHandle_follows {w w' : World} {tr : List SysEvent} (h : w.Good)
    (hrun : w.mouseHandle.Runs tr w') : Follows w w' := by
  obtain ⟨input, hinput, rfl⟩ := Prog.runs_bind_ret.mp hrun
  obtain ⟨tr', hinput⟩ := hinput.of_translate
  obtain ⟨r, byte, -, rfl⟩ := runs_mouseHandle.mp hinput
  have hready : ({ w.input with driver := w.driver.receive r byte }.apply
      w.gpu_res_info).mouse.Ready := MouseInput.apply_ready h.mouse _
  exact ⟨⟨h.valid, h.menus, hready⟩, rfl, rfl, fun _ => ⟨rfl, rfl⟩⟩

/-- Every key that a scancode stands for is in `keys`. -/
theorem Keyboard.handleScancode_ok (k : Keyboard) (scancode : UInt8) :
    ∃ k', k.handleScancode scancode = .ok k' := by
  rw [handleScancode]
  split
  · exact ⟨_, rfl⟩
  · obtain ⟨key, make⟩ := translate scancode k.double_width
    cases key with
    | esc => exact ⟨_, rfl⟩
    | up => exact ⟨_, rfl⟩
    | down => exact ⟨_, rfl⟩
    | left => exact ⟨_, rfl⟩
    | right => exact ⟨_, rfl⟩
    | invalid => exact ⟨_, rfl⟩

theorem escapeQuits_follows {w : World} (h : w.Good) :
    ∃ w', w.escapeQuits = .ok w' ∧ Follows w w' := by
  rw [World.escapeQuits]
  split
  · next hin =>
    rw [Keyboard.pressed_esc, ok_bind]
    refine ⟨_, rfl, ?_⟩
    split
    · exact ⟨⟨sound_quit _ h.valid, h.menus, h.mouse⟩, rfl, rfl,
        fun hquit => absurd hquit (h.valid.inMenu_iff.mp hin)⟩
    · exact h.refl
  · exact ⟨w, rfl, h.refl⟩

theorem keyboardHandle_follows {host : Host} {w : World} {tr : List SysEvent}
    {o : Except Fault World} (h : w.Good) (hrun : (w.keyboardHandle host).Runs tr o) :
    ∃ w', o = .ok w' ∧ Follows w w' := by
  obtain ⟨ok, hkeyboard, rfl⟩ := Prog.runs_bind_ret.mp hrun
  obtain ⟨tr', hkeyboard⟩ := hkeyboard.of_translate
  obtain ⟨read, -, rfl⟩ := Prog.runs_bind_ret.mp hkeyboard
  obtain ⟨keyboard, hkeyboard⟩ := w.keyboard.handleScancode_ok read.2
  have hgood : World.Good { w with keyboard } := ⟨h.valid, h.menus, h.mouse⟩
  obtain ⟨w', hescape, hfollows⟩ := escapeQuits_follows hgood
  refine ⟨w', by rw [hkeyboard, ok_bind, hescape], ?_⟩
  exact ⟨hfollows.good, hfollows.moments, hfollows.messages, hfollows.afterQuit⟩

theorem drawMenu_follows {w : World} (h : w.Good) (hin : w.gamestate.inMenu = true) :
    ∃ w', w.drawMenu = .ok w' ∧ Follows w w' := by
  obtain ⟨ptr, hptr⟩ := h.valid.currentMenu hin
  obtain ⟨menu, calls, hdraw, hsound⟩ := (h.menus ptr).draw
  have heq : w.drawMenu = .ok { w with menus := Function.update w.menus ptr menu } := by
    rw [World.drawMenu, hptr]
    dsimp only
    rw [hdraw]
    rfl
  refine ⟨_, heq, ?_⟩
  refine ⟨⟨h.valid, fun ptr' => ?_, h.mouse⟩, rfl, rfl, fun _ => ⟨rfl, rfl⟩⟩
  by_cases heq : ptr' = ptr
  · subst heq
    simpa using hsound
  · simpa [Function.update_of_ne heq] using h.menus ptr'

theorem drawMouse_follows {w : World} (h : w.Good) : ∃ w', w.drawMouse = .ok w' ∧ Follows w w' := by
  obtain ⟨ui, call, hdraw, hgood, hquiet⟩ := h.ui.draw
  have heq : w.drawMouse = .ok (w.setUi ui) := by
    rw [World.drawMouse, hdraw]
    rfl
  exact ⟨_, heq, ⟨hgood.valid, hgood.menus, hgood.mouse⟩, rfl, rfl, hquiet⟩

theorem drawFrame_follows {w : World} (h : w.Good) : ∃ w', w.drawFrame = .ok w' ∧ Follows w w' := by
  rw [World.drawFrame]
  split
  · next hin =>
    obtain ⟨w₁, hmenu, hfollows⟩ := drawMenu_follows h hin
    obtain ⟨w₂, hmouse, hfollows'⟩ := drawMouse_follows hfollows.good
    exact ⟨w₂, by rw [hmenu, ok_bind, hmouse], hfollows.trans hfollows'⟩
  · exact drawMouse_follows h

theorem timerTick_follows {w : World} (h : w.Good) : ∃ w', w.timerTick = .ok w' ∧ Follows w w' := by
  have hskip : ∀ {w₁ : World}, Follows w w₁ →
      Follows w { w₁ with skip_frame := !w₁.skip_frame } := fun hfollows =>
    ⟨⟨hfollows.good.valid, hfollows.good.menus, hfollows.good.mouse⟩, hfollows.moments,
      hfollows.messages, hfollows.afterQuit⟩
  rw [World.timerTick]
  split
  · exact ⟨_, rfl, hskip h.refl⟩
  · obtain ⟨w₁, hdraw, hfollows⟩ := drawFrame_follows h
    exact ⟨_, by rw [hdraw]; rfl, hskip hfollows⟩

/-! ## The record -/

/-- The record up to now, which the present state continues. -/
structure World.Recorded (w : World) : Prop where
  valid : ∀ m ∈ w.moments, m.gamestate.Valid
  settled : w.moments.Pairwise Moment.Settles
  now : ∀ m ∈ w.moments, m.Settles w.now

theorem World.Recorded.follows {w w' : World} (h : w.Recorded) (hfollows : Follows w w') :
    w'.Recorded := by
  refine ⟨?_, ?_, fun m hm hquit => ?_⟩
  · rw [hfollows.moments]
    exact h.valid
  · rw [hfollows.moments]
    exact h.settled
  · rw [hfollows.moments] at hm
    have hnow := h.now m hm hquit
    have hover : w.gamestate.state = .quit := by
      rw [← hnow] at hquit
      exact hquit
    obtain ⟨hstate, hclicked⟩ := hfollows.afterQuit hover
    subst hnow
    rw [World.now, World.now, hstate, hclicked, hfollows.messages]

theorem World.Recorded.observe {w : World} (h : w.Recorded) (hvalid : w.gamestate.Valid) :
    w.observe.Recorded := by
  have hmem : ∀ m ∈ w.moments ++ [w.now], m ∈ w.moments ∨ m = w.now := by
    intro m hm
    rw [List.mem_append, List.mem_singleton] at hm
    exact hm
  refine ⟨fun m hm => ?_, ?_, fun m hm hquit => ?_⟩
  · rcases hmem m hm with hold | rfl
    · exact h.valid m hold
    · exact hvalid
  · refine List.pairwise_append.mpr ⟨h.settled, List.pairwise_singleton _ _, fun m hm m' hm' => ?_⟩
    rw [List.mem_singleton] at hm'
    exact hm' ▸ h.now m hm
  · rcases hmem m hm with hold | rfl
    · exact h.now m hold hquit
    · rfl

/-- The world between two messages: the record ends with the present state. -/
structure World.Settled (w : World) : Prop where
  good : w.Good
  recorded : w.Recorded
  last : w.moments.getLast? = some w.now

theorem World.Settled.observe {w : World} (hgood : w.Good) (hrecorded : w.Recorded) :
    w.observe.Settled :=
  ⟨⟨hgood.valid, hgood.menus, hgood.mouse⟩, hrecorded.observe hgood.valid, List.getLast?_concat⟩

/-! ## One message -/

theorem followed_observe {w w' : World} (h : w.Recorded) (hfollows : Follows w w') :
    w'.observe.Settled := .observe hfollows.good (h.follows hfollows)

/-- **One message** is handled without a fault, and its handlers leave a record in order. -/
theorem handleInterrupts_settled {host : Host} {w : World} {msg : Message} {tr : List SysEvent}
    {o : Except Fault World} (hgood : w.Good) (hrecorded : w.Recorded)
    (hrun : (handleInterrupts host w msg).Runs tr o) :
    ∃ w', o = .ok w' ∧ w'.Settled ∧ w'.messages = w.messages := by
  obtain ⟨tr₁, w₁, rest, rfl, hmouse, hrun⟩ := Prog.runs_bind.mp hrun
  obtain ⟨o₂, hkeyboard, rfl⟩ := Prog.runs_bind_ret.mp hrun
  have hfollows₁ : Follows w w₁ := by
    split at hmouse
    · exact mouseHandle_follows hgood hmouse
    · obtain ⟨-, rfl⟩ := Prog.runs_ret.mp hmouse
      exact hgood.refl
  have hsettled₁ := followed_observe hrecorded hfollows₁
  obtain ⟨w₂, rfl, hfollows₂⟩ : ∃ w₂, o₂ = .ok w₂ ∧ Follows w₁.observe w₂ := by
    split at hkeyboard
    · exact keyboardHandle_follows hsettled₁.good hkeyboard
    · obtain ⟨-, rfl⟩ := Prog.runs_ret.mp hkeyboard
      exact ⟨_, rfl, hsettled₁.good.refl⟩
  have hsettled₂ := followed_observe hsettled₁.recorded hfollows₂
  obtain ⟨w₃, htimer, hfollows₃⟩ : ∃ w₃,
      (if msg.raises .timer then w₂.observe.timerTick else pure w₂.observe) = .ok w₃ ∧
        Follows w₂.observe w₃ := by
    split
    · exact timerTick_follows hsettled₂.good
    · exact ⟨_, rfl, hsettled₂.good.refl⟩
  refine ⟨w₃.observe, ?_, followed_observe hsettled₂.recorded hfollows₃, ?_⟩
  · rw [ok_bind]
    dsimp only
    rw [htimer]
    rfl
  · exact hfollows₃.messages.trans (hfollows₂.messages.trans hfollows₁.messages)

/-! ## The loop -/

/-- Asking for a message: the game is not over, so nothing on record says otherwise. -/
theorem World.Settled.receive {w : World} (h : w.Settled) (hrun : w.gamestate.state ≠ .quit) :
    World.Recorded { w with messages := w.messages + 1 } := by
  refine ⟨h.recorded.valid, h.recorded.settled, fun m hm hquit => ?_⟩
  have hnow := h.recorded.now m hm hquit
  subst hnow
  exact absurd hquit hrun

theorem not_receives_of_port {tr : List SysEvent} (h : ∀ e ∈ tr, e.1 ≠ .driverReceive) :
    tr.countP SysEvent.receives = 0 := by
  rw [List.countP_eq_zero]
  intro e he
  simpa [SysEvent.receives] using h e he

/-- One round of the loop: a message is asked for, and handled with no other. -/
theorem mainLoop_round {host : Host} {fuel : Nat} {w : World} {tr : List SysEvent}
    {o : Outcome World} (h : w.Settled) (hquit : w.gamestate.state ≠ .quit)
    (hrun : (mainLoop host (fuel + 1) w).Runs tr o) :
    ∃ w₁ r handled rest, tr = (SysCall.driverReceive, r) :: (handled ++ rest) ∧
      handled.countP SysEvent.receives = 0 ∧ w₁.Settled ∧ w₁.messages = w.messages + 1 ∧
      (mainLoop host fuel w₁).Runs rest o := by
  rw [mainLoop, if_neg hquit, Prog.query_bind] at hrun
  obtain ⟨r, tr', rfl, hrest⟩ := Prog.runs_ask.mp hrun
  dsimp only at hrest
  have hgood : World.Good { w with messages := w.messages + 1 } :=
    ⟨h.good.valid, h.good.menus, h.good.mouse⟩
  have hrecorded := h.receive hquit
  split at hrest
  · exact ⟨_, r, [], tr', rfl, rfl, .observe hgood hrecorded, rfl, hrest⟩
  · split at hrest
    · obtain ⟨handled, o₁, rest, rfl, hhandle, hnext⟩ := Prog.runs_bind.mp hrest
      obtain ⟨w₁, rfl, hsettled, hmessages⟩ := handleInterrupts_settled hgood hrecorded hhandle
      have hports := (asks_handleInterrupts (P := fun call => call ≠ .driverReceive)
        (fun _ => by simp) host _ r.msg).trace hhandle
      exact ⟨w₁, r, handled, rest, rfl, not_receives_of_port hports, hsettled, hmessages, hnext⟩
    · exact ⟨_, r, [], tr', rfl, rfl, .observe hgood hrecorded, rfl, hrest⟩

/-- **The loop** never faults, returns exactly when the game is over, and keeps its record. -/
theorem mainLoop_settled {host : Host} {fuel : Nat} {w : World} {tr : List SysEvent}
    {o : Outcome World} (h : w.Settled) (hrun : (mainLoop host fuel w).Runs tr o) :
    ∃ w', o.Ends w' ∧ w'.Settled ∧ w'.messages = w.messages + tr.countP SysEvent.receives := by
  induction fuel generalizing w tr with
  | zero =>
    rw [mainLoop] at hrun
    split at hrun
    · next hquit =>
      obtain ⟨rfl, rfl⟩ := Prog.runs_ret.mp hrun
      exact ⟨w, .inl ⟨rfl, hquit⟩, h, rfl⟩
    · next hquit =>
      obtain ⟨rfl, rfl⟩ := Prog.runs_ret.mp hrun
      exact ⟨w, .inr ⟨rfl, hquit⟩, h, rfl⟩
  | succ fuel ih =>
    by_cases hquit : w.gamestate.state = .quit
    · rw [mainLoop, if_pos hquit] at hrun
      obtain ⟨rfl, rfl⟩ := Prog.runs_ret.mp hrun
      exact ⟨w, .inl ⟨rfl, hquit⟩, h, rfl⟩
    · obtain ⟨w₁, r, handled, rest, rfl, hnone, hsettled₁, hmessages₁, hnext⟩ :=
        mainLoop_round h hquit hrun
      obtain ⟨w', hends, hsettled, hmessages⟩ := ih hsettled₁ hnext
      refine ⟨w', hends, hsettled, ?_⟩
      rw [hmessages, hmessages₁, List.countP_cons_of_pos rfl, List.countP_append, hnone]
      omega

/-- A `proj_init` that succeeds leaves the world in order, with one moment on record. -/
theorem projInit_settled {host : Host} {w : World} {tr : List SysEvent}
    (h : (projInit host World.startup).Runs tr (.done (0, w))) : w.Settled ∧ w.messages = 0 := by
  obtain ⟨_, _, _, _, _, memory, -, -, hrun⟩ := projInit_course h
  obtain ⟨_, made, _, rfl, -, hrun⟩ := Prog.runs_bind.mp hrun
  cases made with
  | none => cases (Prog.runs_ret.mp hrun).2
  | some made =>
    obtain ⟨r, gpu_res_info⟩ := made
    dsimp only at hrun
    split at hrun
    · cases (Prog.runs_ret.mp hrun).2
    · split at hrun
      · cases (Prog.runs_ret.mp hrun).2
      · next menus gamestate hinit =>
        obtain ⟨-, heq⟩ := Prog.runs_ret.mp hrun
        cases heq
        obtain ⟨hvalid, hsound⟩ := init_sound hinit
        refine ⟨.observe ⟨hvalid, hsound, Mouse.ready_init _ _ _⟩ ⟨?_, .nil, ?_⟩, rfl⟩
        · exact fun m hm => absurd hm List.not_mem_nil
        · exact fun m hm => absurd hm List.not_mem_nil

/-- **Every run stays in the menus, and ends with the game.** After any `proj_init` that succeeds,
    whatever messages arrive with whatever interrupt bits and device bytes: nothing faults; on
    record the game state is always a valid one; once it is `GS_QUIT` neither it nor the list of
    clicks changes again and no further message is asked for; and the loop has returned exactly when
    it is `GS_QUIT`. -/
theorem gamestates_sound (host : Host) (fuel : Nat) (boot tr : List SysEvent) (w : World)
    (o : Outcome World) (hboot : (projInit host World.startup).Runs boot (.done (0, w)))
    (hloop : (mainLoop host fuel { w with skip_frame := false }).Runs tr o) :
    ∃ w', o.Ends w' ∧ w'.SoundRun tr := by
  obtain ⟨hsettled, hzero⟩ := projInit_settled hboot
  have hstart : World.Settled { w with skip_frame := false } :=
    ⟨⟨hsettled.good.valid, hsettled.good.menus, hsettled.good.mouse⟩,
      ⟨hsettled.recorded.valid, hsettled.recorded.settled, hsettled.recorded.now⟩, hsettled.last⟩
  obtain ⟨w', hends, hsettled', hmessages⟩ := mainLoop_settled hstart hloop
  refine ⟨w', hends, hsettled'.recorded.valid, hsettled'.recorded.settled, hsettled'.last, ?_⟩
  rw [hmessages]
  exact (congrArg (· + _) hzero).trans (Nat.zero_add _)

/-- The world after `bootTrace`. -/
def booted : World :=
  match (projInit emptyHost World.startup).exec bootTrace with
  | some (.done made) => made.2
  | _ => World.startup

/-- What the loop comes to when the escape key is pressed in its first message. -/
def escaped : Outcome World :=
  ((mainLoop emptyHost 1 { booted with skip_frame := false }).exec escapeTrace).getD .panicked

theorem gamestates_sound_escape : ∃ w', escaped.Ends w' ∧ w'.SoundRun escapeTrace :=
  gamestates_sound emptyHost 1 bootTrace escapeTrace booted escaped rfl rfl

end Lcom

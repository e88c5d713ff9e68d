import Lcom.Input.Mouse
import Lcom.Lib.Run
import Lcom.Ui.Menu

/-!
# Presses and clicks

A click is decided in `Mouse_draw`, by comparing the left button of the last two packets, but the
two button records only change in `Mouse_handle`. So every frame drawn between a press packet and
the *next* packet sees the same edge and invokes `on_click` again, and a press whose next packet
comes before any frame is never seen at all.

`clicks_once_iff` is the exact statement, over every interleaving of packets and frames: each
press is clicked once if and only if exactly one frame is drawn between its packet and the packet
after it. Frames outside a press never click.
-/

namespace Lcom

open Lib

/-- What happens to the mouse and the menus: a packet is completed, or a frame is drawn. -/
inductive MouseEvent where
  | packet (p : Packet)
  | frame
  deriving DecidableEq, Repr

/-- One event; `none` is a frame that faults. -/
def Ui.step (res : GpuResInfo) (u : Ui) : MouseEvent → Option Ui
  | .packet p => some { u with mouse := u.mouse.update res p }
  | .frame => (u.draw.toOption).map (·.1)

/-- The element `Mouse_draw` finds under the cursor, if it looks for one and finds one. -/
def Ui.hit (u : Ui) : Option UiElement :=
  if u.gamestate.inMenu then
    u.gamestate.getCurrentMenu.bind fun menu =>
      (u.menus menu).element.find? fun element =>
        element.aabb.contains u.mouse.position && element.on_click.isSome
  else none

/-- The element's handler does not change the game state `gs`. -/
def QuietAt (element : UiElement) (gs : GamestateManager) : Prop :=
  ∀ on_click, element.on_click = some on_click → on_click gs = gs

/-! ## One frame -/

/-- The cursor sprite as `Mouse_init` leaves it, up to the frame shown. -/
structure Mouse.Ready (m : Mouse) : Prop where
  offsets : m.sprite.offsets = cursorOffsets
  sizes : m.sprite.sizes = cursorSizes
  delay : m.sprite.delay = 0
  shown : m.sprite.current_frame = mouseClick ∨ m.sprite.current_frame = mouseNormal

theorem Mouse.ready_init (m : Mouse) (img : XpmImage) (garbage : Bool) :
    (m.init img garbage).Ready :=
  ⟨rfl, rfl, rfl, .inr rfl⟩

theorem Mouse.Ready.update {m : Mouse} (h : m.Ready) (res : GpuResInfo) (p : Packet) :
    (m.update res p).Ready :=
  ⟨h.offsets, h.sizes, h.delay, h.shown⟩

/-- What a frame leaves alone: everything the next packet or frame decides by. -/
structure SameInput (u u' : Ui) : Prop where
  position : u'.mouse.position = u.mouse.position
  buttons : u'.mouse.buttons = u.mouse.buttons
  prev_buttons : u'.mouse.prev_buttons = u.mouse.prev_buttons
  gamestate : u'.gamestate = u.gamestate
  menus : u'.menus = u.menus

theorem SameInput.trans {u u' u'' : Ui} (h : SameInput u u') (h' : SameInput u' u'') :
    SameInput u u'' :=
  ⟨h'.position.trans h.position, h'.buttons.trans h.buttons,
    h'.prev_buttons.trans h.prev_buttons, h'.gamestate.trans h.gamestate, h'.menus.trans h.menus⟩

theorem Sprite.draw_still {s : Sprite} (position : Vec2) {offset size : Vec2} (hdelay : s.delay = 0)
    (hoffset : frameOf s.offsets s.current_frame = .ok offset)
    (hsize : frameOf s.sizes s.current_frame = .ok size) :
    ∃ img call, s.draw position = .ok ({ s with img }, call) := by
  rw [draw]
  cases himg : s.img with
  | none => exact ⟨s.img, none, rfl⟩
  | some img =>
    by_cases hinvalid : img.type = .invalid
    · exact ⟨none, none, if_pos hinvalid⟩
    · simp only [if_neg hinvalid, hoffset, hsize, advance, if_pos hdelay]
      exact ⟨s.img, _, rfl⟩

theorem Ui.drawCursor_ready {u : Ui} (h : u.mouse.Ready) :
    ∃ u' call, u.drawCursor = .ok (u', call) ∧ u'.mouse.Ready ∧ u'.clicked = u.clicked ∧
      SameInput u u' := by
  rw [drawCursor]
  by_cases hhidden : u.mouse.hidden
  · exact ⟨u, none, if_pos hhidden, h, rfl, rfl, rfl, rfl, rfl, rfl⟩
  rw [if_neg hhidden]
  -- where the click cursor is drawn does not matter here
  generalize (if u.mouse.sprite.current_frame = mouseClick then
    (⟨u.mouse.position.x - 9, u.mouse.position.y⟩ : Vec2) else u.mouse.position) = position
  have hframes : ∃ offset size, Sprite.frameOf u.mouse.sprite.offsets
      u.mouse.sprite.current_frame = .ok offset ∧
      Sprite.frameOf u.mouse.sprite.sizes u.mouse.sprite.current_frame = .ok size := by
    rw [h.offsets, h.sizes]
    rcases h.shown with hshown | hshown
    · rw [hshown]
      exact ⟨_, _, rfl, rfl⟩
    · rw [hshown]
      exact ⟨_, _, rfl, rfl⟩
  obtain ⟨offset, size, hoffset, hsize⟩ := hframes
  obtain ⟨img, call, hdraw⟩ := Sprite.draw_still position h.delay hoffset hsize
  dsimp only
  rw [hdraw]
  exact ⟨_, call, rfl, ⟨h.offsets, h.sizes, h.delay, h.shown⟩, rfl, rfl, rfl, rfl, rfl, rfl⟩

theorem Ui.walk_of_find (u : Ui) {elements : List UiElement} {element : UiElement}
    {on_click : FunctionPointer} (hclick : element.on_click = some on_click)
    (hfind : (elements.find? fun e =>
      e.aabb.contains u.mouse.position && e.on_click.isSome) = some element) :
    u.walk elements =
      let u₁ := if u.mouse.lbEdge then
          { u with gamestate := on_click u.gamestate, clicked := u.clicked ++ [element] }
        else u
      { u₁ with mouse := u₁.mouse.setState mouseClick } := by
  induction elements with
  | nil => simp at hfind
  | cons e next ih =>
    rw [walk]
    rw [List.find?_cons] at hfind
    cases hcontains : e.aabb.contains u.mouse.position with
    | false =>
      simp only [hcontains, Bool.false_and] at hfind
      exact ih hfind
    | true =>
      cases hon : e.on_click with
      | none =>
        simp only [hcontains, hon, Option.isSome_none, Bool.and_false] at hfind
        exact ih hfind
      | some f =>
        simp only [hcontains, hon, Option.isSome_some, Bool.and_true, Option.some.injEq] at hfind
        subst hfind
        rw [hclick] at hon
        cases hon
        rfl

/-- The hit test over a clickable element whose handler leaves the game state alone. -/
theorem Ui.hover_of_hit {u : Ui} {element : UiElement} (hready : u.mouse.Ready)
    (hhit : u.hit = some element)
    (hquiet : QuietAt element u.gamestate) :
    ∃ u', u.hover = .ok u' ∧ u'.mouse.Ready ∧ SameInput u u' ∧
      u'.clicked = u.clicked ++ if u.mouse.lbEdge then [element] else [] := by
  have hin : u.gamestate.inMenu := by
    by_contra hout
    simp [hit, hout] at hhit
  rw [hit, if_pos hin] at hhit
  obtain ⟨menu, hmenu, hfind⟩ := Option.bind_eq_some_iff.mp hhit
  have hfound := List.find?_some hfind
  obtain ⟨on_click, hclick⟩ := Option.isSome_iff_exists.mp (Bool.and_eq_true_iff.mp hfound).2
  rw [hover, if_pos hin, hmenu]
  dsimp only
  rw [walk_of_find { u with mouse := u.mouse.setState mouseNormal } hclick hfind]
  refine ⟨_, rfl, ?_⟩
  by_cases hedge : u.mouse.lbEdge
  · have hedge' : (u.mouse.setState mouseNormal).lbEdge := hedge
    rw [if_pos hedge]
    simp only [if_pos hedge']
    exact ⟨⟨hready.offsets, hready.sizes, hready.delay, .inl rfl⟩,
      ⟨rfl, rfl, rfl, hquiet on_click hclick, rfl⟩, trivial⟩
  · have hedge' : ¬ (u.mouse.setState mouseNormal).lbEdge := hedge
    rw [if_neg hedge]
    simp only [if_neg hedge']
    exact ⟨⟨hready.offsets, hready.sizes, hready.delay, .inl rfl⟩, ⟨rfl, rfl, rfl, rfl, rfl⟩,
      (List.append_nil _).symm⟩

/-- **One frame over a clickable element**: it clicks if the last packet pressed the button, and
    leaves everything a later event depends on as it was. -/
theorem Ui.step_frame (res : GpuResInfo) {u : Ui} {element : UiElement} (hready : u.mouse.Ready)
    (hhit : u.hit = some element)
    (hquiet : QuietAt element u.gamestate) :
    ∃ u', u.step res .frame = some u' ∧ u'.mouse.Ready ∧ SameInput u u' ∧
      u'.clicked = u.clicked ++ if u.mouse.lbEdge then [element] else [] := by
  obtain ⟨u₁, hhover, hready₁, hsame₁, hclicked₁⟩ := hover_of_hit hready hhit hquiet
  obtain ⟨u₂, call, hdraw, hready₂, hclicked₂, hsame₂⟩ := drawCursor_ready hready₁
  refine ⟨u₂, ?_, hready₂, hsame₁.trans hsame₂, hclicked₂.trans hclicked₁⟩
  rw [step, draw, hhover, ok_bind, hdraw]
  rfl

/-! ## Presses -/

/-- Whether the left button is down after these events: as the last packet says. -/
def lbAfter (lb : Bool) : List MouseEvent → Bool
  | [] => lb
  | .packet p :: es => lbAfter p.lb es
  | .frame :: es => lbAfter lb es

/-- A press in `es` after which a frame is drawn: `p` is its packet, `q` the packet that releases
    the button, `held` what happens in between; `lb` is the button before `es`. -/
structure Press (lb : Bool) (es pre : List MouseEvent) (p : Packet) (held : List MouseEvent)
    (q : Packet) (post : List MouseEvent) : Prop where
  eq : es = pre ++ .packet p :: (held ++ .packet q :: post)
  up : lbAfter lb pre = false
  down : p.lb = true
  still_down : ∀ p', MouseEvent.packet p' ∈ held → p'.lb = true
  release : q.lb = false
  drawn : MouseEvent.frame ∈ held

/-- The frames drawn before the next packet. -/
def leadingFrames (es : List MouseEvent) : Nat := (es.takeWhile (· = .frame)).length

/-- Each press clicks `element` once, between its packet and its release, and a frame drawn while
    the button is up clicks nothing. -/
structure ClicksOnce (res : GpuResInfo) (u : Ui) (es : List MouseEvent) (element : UiElement) :
    Prop where
  once : ∀ pre p held q post, Press u.mouse.buttons.lb es pre p held q post →
    ∃ u₁ u₂, run (Ui.step res) u (pre ++ [.packet p]) = some u₁ ∧
      run (Ui.step res) u₁ held = some u₂ ∧ u₂.clicked = u₁.clicked ++ [element]
  outside : ∀ pre post, es = pre ++ .frame :: post → lbAfter u.mouse.buttons.lb pre = false →
    ∃ u₁ u₂, run (Ui.step res) u pre = some u₁ ∧ u₁.step res .frame = some u₂ ∧
      u₂.clicked = u₁.clicked

/-- The condition: of each press, exactly one frame is drawn before the next packet. -/
def OneFramePerPress (lb : Bool) (es : List MouseEvent) : Prop :=
  ∀ pre p held q post, Press lb es pre p held q post → leadingFrames held = 1

/-- The cursor is inside `element` at every frame of the run. -/
def StaysInside (res : GpuResInfo) (element : UiElement) : Ui → List MouseEvent → Prop :=
  EveryStep (Ui.step res) fun u e => e = .frame → u.hit = some element

section Hovering

variable {res : GpuResInfo} {element : UiElement}

/-- A run over one element never faults, and keeps what its frames need. -/
theorem run_inside {u : Ui} {es : List MouseEvent} (hready : u.mouse.Ready)
    (hquiet : QuietAt element u.gamestate) (hin : StaysInside res element u es) :
    ∃ u', run (Ui.step res) u es = some u' ∧ u'.mouse.Ready ∧ u'.gamestate = u.gamestate ∧
      u'.mouse.buttons.lb = lbAfter u.mouse.buttons.lb es := by
  induction es generalizing u with
  | nil => exact ⟨u, rfl, hready, rfl, rfl⟩
  | cons e es ih =>
    cases e with
    | packet p =>
      have hstep : u.step res (.packet p) = some { u with mouse := u.mouse.update res p } := rfl
      obtain ⟨u', hrun, hready', hgs, hlb⟩ :=
        ih (u := { u with mouse := u.mouse.update res p }) (hready.update res p) hquiet
          ((everyStep_cons hstep).mp hin).2
      exact ⟨u', run_cons_eq_some.mpr ⟨_, hstep, hrun⟩, hready', hgs, hlb⟩
    | frame =>
      have hhit : u.hit = some element := hin [] .frame es u rfl rfl rfl
      obtain ⟨u₁, hstep, hready₁, hsame, -⟩ := Ui.step_frame res hready hhit hquiet
      obtain ⟨u', hrun, hready', hgs, hlb⟩ :=
        ih hready₁ (hsame.gamestate ▸ hquiet) ((everyStep_cons hstep).mp hin).2
      refine ⟨u', run_cons_eq_some.mpr ⟨u₁, hstep, hrun⟩, hready', hgs.trans hsame.gamestate, ?_⟩
      rw [hlb, hsame.buttons, lbAfter]

/-- The clicks while the button is held: a frame clicks as long as it sees the edge, and the first packet
    removes it. -/
theorem clicked_while_held {u u' : Ui} {es : List MouseEvent} (hready : u.mouse.Ready)
    (hquiet : QuietAt element u.gamestate) (hin : StaysInside res element u es)
    (hheld : ∀ p, .packet p ∈ es → p.lb = true) (hlb : u.mouse.buttons.lb = true)
    (hrun : run (Ui.step res) u es = some u') :
    u'.clicked = u.clicked ++
      List.replicate (if u.mouse.prev_buttons.lb then 0 else leadingFrames es) element := by
  induction es generalizing u with
  | nil =>
    cases hrun
    simp [leadingFrames]
  | cons e es ih =>
    obtain ⟨u₁, hstep, hrun₁⟩ := run_cons_eq_some.mp hrun
    have hin₁ := ((everyStep_cons hstep).mp hin).2
    have hheld₁ := fun p hp => hheld p (List.mem_cons_of_mem e hp)
    cases e with
    | packet p =>
      cases hstep
      -- the packet overwrites `prev_buttons`, so the edge is gone for the rest of the press
      have hprev₁ : (u.mouse.update res p).prev_buttons.lb = true := hlb
      have hnone : leadingFrames (.packet p :: es) = 0 := by simp [leadingFrames]
      rw [ih (u := { u with mouse := u.mouse.update res p }) (hready.update res p) hquiet hin₁ hheld₁
        (hheld p List.mem_cons_self) hrun₁, if_pos hprev₁, hnone, ite_self]
    | frame =>
      have hhit : u.hit = some element := hin [] .frame es u rfl rfl rfl
      obtain ⟨u₂, hstep₂, hready₁, hsame, hclicked⟩ := Ui.step_frame res hready hhit hquiet
      obtain rfl := Option.some.inj (hstep.symm.trans hstep₂)
      -- the frame leaves the buttons as they were: the next frame sees the same edge
      rw [ih hready₁ (hsame.gamestate ▸ hquiet) hin₁ hheld₁ (hsame.buttons ▸ hlb) hrun₁, hclicked,
        hsame.prev_buttons]
      have hone : leadingFrames (.frame :: es) = leadingFrames es + 1 := by simp [leadingFrames]
      cases hprev : u.mouse.prev_buttons.lb with
      | true => simp [Mouse.lbEdge, hlb, hprev]
      | false => simp [Mouse.lbEdge, hlb, hprev, hone, List.replicate_succ]

/-- **The clicks of a press are its leading frames.** Right after the press packet every frame
    sees the edge, until the next packet removes it. -/
theorem clicked_of_press {u u' : Ui} {es : List MouseEvent} (hready : u.mouse.Ready)
    (hquiet : QuietAt element u.gamestate) (hin : StaysInside res element u es)
    (hheld : ∀ p, .packet p ∈ es → p.lb = true) (hlb : u.mouse.buttons.lb = true)
    (hprev : u.mouse.prev_buttons.lb = false) (hrun : run (Ui.step res) u es = some u') :
    u'.clicked = u.clicked ++ List.replicate (leadingFrames es) element := by
  rw [clicked_while_held hready hquiet hin hheld hlb hrun, hprev, if_neg Bool.false_ne_true]

theorem Press.clicks {u : Ui} {es pre held post : List MouseEvent} {p q : Packet}
    (hpress : Press u.mouse.buttons.lb es pre p held q post) (hready : u.mouse.Ready)
    (hquiet : QuietAt element u.gamestate) (hin : StaysInside res element u es) :
    ∃ u₁ u₂, run (Ui.step res) u (pre ++ [.packet p]) = some u₁ ∧
      run (Ui.step res) u₁ held = some u₂ ∧
      u₂.clicked = u₁.clicked ++ List.replicate (leadingFrames held) element := by
  -- up to the press packet, then up to the release
  have hsplit : es = (pre ++ [.packet p]) ++ (held ++ .packet q :: post) := by
    rw [hpress.eq]
    simp
  rw [hsplit] at hin
  obtain ⟨u₀, hrun₀, hready₀, hgs₀, hlb₀⟩ := run_inside hready hquiet hin.left.left
  obtain ⟨u₁, hstep⟩ : ∃ u₁, u₁ = { u₀ with mouse := u₀.mouse.update res p } := ⟨_, rfl⟩
  have hrun₁ : run (Ui.step res) u (pre ++ [.packet p]) = some u₁ :=
    run_append_eq_some.mpr ⟨u₀, hrun₀, hstep ▸ rfl⟩
  have hin₁ := (hin.right hrun₁).left
  have hready₁ : u₁.mouse.Ready := hstep ▸ hready₀.update res p
  have hquiet₁ : QuietAt element u₁.gamestate := by
    rw [hstep]
    exact hgs₀ ▸ hquiet
  have hdown : u₁.mouse.buttons.lb = true := by
    rw [hstep]
    exact hpress.down
  have hprev : u₁.mouse.prev_buttons.lb = false := by
    rw [hstep]
    exact hlb₀.trans hpress.up
  obtain ⟨u₂, hrun₂, -⟩ := run_inside hready₁ hquiet₁ hin₁
  exact ⟨u₁, u₂, hrun₁, hrun₂,
    clicked_of_press hready₁ hquiet₁ hin₁ hpress.still_down hdown hprev hrun₂⟩

theorem ClicksOnce.leadingFrames_eq_one {u : Ui} {es pre held post : List MouseEvent}
    {p q : Packet} (h : ClicksOnce res u es element)
    (hpress : Press u.mouse.buttons.lb es pre p held q post) (hready : u.mouse.Ready)
    (hquiet : QuietAt element u.gamestate) (hin : StaysInside res element u es) :
    leadingFrames held = 1 := by
  obtain ⟨u₁, u₂, hrun₁, hrun₂, honce⟩ := h.once pre p held q post hpress
  obtain ⟨v₁, v₂, hrun₁', hrun₂', hclicks⟩ := hpress.clicks hready hquiet hin
  obtain rfl := Option.some.inj (hrun₁.symm.trans hrun₁')
  obtain rfl := Option.some.inj (hrun₂.symm.trans hrun₂')
  have hlist := List.append_cancel_left (honce.symm.trans hclicks)
  simpa using (congrArg List.length hlist).symm

theorem clicked_outside {u : Ui} {es pre post : List MouseEvent} (hes : es = pre ++ .frame :: post)
    (hup : lbAfter u.mouse.buttons.lb pre = false) (hready : u.mouse.Ready)
    (hquiet : QuietAt element u.gamestate) (hin : StaysInside res element u es) :
    ∃ u₁ u₂, run (Ui.step res) u pre = some u₁ ∧ u₁.step res .frame = some u₂ ∧
      u₂.clicked = u₁.clicked := by
  rw [hes] at hin
  obtain ⟨u₁, hrun, hready₁, hgs, hlb⟩ := run_inside hready hquiet hin.left
  have hhit : u₁.hit = some element := hin.right hrun [] .frame post u₁ rfl rfl rfl
  obtain ⟨u₂, hstep, -, -, hclicked⟩ := Ui.step_frame res hready₁ hhit (hgs ▸ hquiet)
  have hedge : u₁.mouse.lbEdge = false := by simp [Mouse.lbEdge, hlb, hup]
  refine ⟨u₁, u₂, hrun, hstep, ?_⟩
  rw [hclicked, hedge]
  exact List.append_nil _

end Hovering

/-- **A press is clicked once exactly when one frame is drawn before the next packet.** From any
    state with the cursor `Mouse_init` set up, over any interleaving of packets and frames that
    keeps the cursor inside one element whose handler leaves the game state alone: every press
    that a frame is drawn in clicks once, and nothing clicks outside a press, if and only if each
    of these presses has exactly one frame between its packet and the packet after it. -/
theorem clicks_once_iff (res : GpuResInfo) (u : Ui) (es : List MouseEvent) (element : UiElement)
    (hready : u.mouse.Ready) (hquiet : QuietAt element u.gamestate)
    (hin : StaysInside res element u es) :
    ClicksOnce res u es element ↔ OneFramePerPress u.mouse.buttons.lb es := by
  constructor
  · intro h pre p held q post hpress
    exact h.leadingFrames_eq_one hpress hready hquiet hin
  · intro h
    constructor
    · intro pre p held q post hpress
      obtain ⟨u₁, u₂, hrun₁, hrun₂, hclicks⟩ := hpress.clicks hready hquiet hin
      rw [h pre p held q post hpress] at hclicks
      exact ⟨u₁, u₂, hrun₁, hrun₂, hclicks⟩
    · intro pre post hes hup
      exact clicked_outside hes hup hready hquiet hin

/-! ### The main menu, with the cursor on its Play button -/

/-- A packet without motion, with the left button as given. -/
def stillPacket (lb : Bool) : Packet := decodePacket ⟨if lb then 0x09 else 0x08, 0, 0⟩

/-- Play, the second element of the main menu. -/
def playButton : UiElement :=
  (Menu.createMainMenu noAssets fun _ => false).element.get ⟨1, by decide⟩

/-- The main menu, with the cursor on Play. -/
def menuScreen : Ui where
  mouse := { Mouse.zeroed.init noImage false with position := ⟨400, 380⟩ }
  gamestate := GamestateManager.startup.mainMenu
  menus := fun ptr => match ptr with
    | .main_menu => Menu.createMainMenu noAssets fun _ => false
    | .leaderboard_menu => Menu.leaderboardHead noAssets fun _ => false
  clicked := []

theorem ready_menuScreen : menuScreen.mouse.Ready := ⟨rfl, rfl, rfl, .inr rfl⟩

theorem playButton_quiet : QuietAt playButton menuScreen.gamestate := by
  rintro _ h
  cases h
  rfl

theorem clicks_once_one_frame :
    ClicksOnce ⟨1024, 768⟩ menuScreen [.packet (stillPacket true), .frame, .packet (stillPacket false)]
        playButton ↔
      OneFramePerPress false [.packet (stillPacket true), .frame, .packet (stillPacket false)] :=
  clicks_once_iff ⟨1024, 768⟩ menuScreen _ playButton ready_menuScreen playButton_quiet
    ((everyStep_cons rfl).mpr ⟨by simp, (everyStep_cons rfl).mpr ⟨fun _ => rfl,
      (everyStep_cons rfl).mpr ⟨by simp, everyStep_nil⟩⟩⟩)

/-- Two frames between the press and the release: Play is clicked twice. -/
theorem press_clicked_twice :
    ¬ ∀ (res : GpuResInfo) (u : Ui) (es : List MouseEvent) (element : UiElement),
      u.mouse.Ready → QuietAt element u.gamestate → StaysInside res element u es →
      ClicksOnce res u es element := by
  intro h
  have hin : StaysInside ⟨1024, 768⟩ playButton menuScreen
      [.packet (stillPacket true), .frame, .frame, .packet (stillPacket false)] :=
    (everyStep_cons rfl).mpr ⟨by simp, (everyStep_cons rfl).mpr ⟨fun _ => rfl,
      (everyStep_cons rfl).mpr ⟨fun _ => rfl, (everyStep_cons rfl).mpr ⟨by simp, everyStep_nil⟩⟩⟩⟩
  have hpress : Press false
      [.packet (stillPacket true), .frame, .frame, .packet (stillPacket false)]
      [] (stillPacket true) [.frame, .frame] (stillPacket false) [] :=
    ⟨rfl, rfl, by decide, by simp, by decide, by simp⟩
  have hone := (h _ menuScreen _ playButton ready_menuScreen playButton_quiet
    hin).leadingFrames_eq_one hpress ready_menuScreen playButton_quiet hin
  exact absurd hone (by decide)

end Lcom

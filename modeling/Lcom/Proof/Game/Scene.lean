import Lcom.Proof.Game.Moves
import Lcom.Proof.Ui.Picture

/-!
# One frame

A frame shows the menu of the current game state and the cursor over it: the hand where something can
be clicked, the arrow elsewhere. `World.scene` says so without a word about how it is drawn, of the
menus as `Gamestate_init` made them; `World.Staged.drawScene` is that `Menu_draw` and `Mouse_draw` put
just this over what the back buffer holds, and do to the world what they do without a screen.
-/

namespace Lcom

open Lib

/-! ## The scene -/

/-- Something happens when this is clicked at the point. -/
def UiElement.clickableAt (element : UiElement) (point : Vec2) : Bool :=
  element.aabb.contains point && element.on_click.isSome

/-- The cursor image in one of its two shapes. -/
def cursorSprite (img : XpmImage) (shape : UInt32) : Sprite :=
  { Sprite.create img Mouse.cursorOffsets Mouse.cursorSizes 2 0 true with current_frame := shape }

/-- Where the image of the cursor goes: the tip of the hand is nine pixels in. -/
def cursorPlace (shape : UInt32) (position : Vec2) : Vec2 :=
  if shape = mouseClick then ⟨position.x - 9, position.y⟩ else position

namespace World

/-- The shape the cursor takes: the hand over what can be clicked, the arrow elsewhere, and when no
    menu is on the screen the one it had. -/
def shape (menus : MenuPtr → Menu) (w : World) : UInt32 :=
  match w.gamestate.getCurrentMenu with
  | none => w.mouse.sprite.current_frame
  | some ptr =>
    if (menus ptr).element.any (·.clickableAt w.mouse.position) then mouseClick else mouseNormal

/-- The current one of the menus. -/
def menuLayer (W H : Nat) (menus : MenuPtr → Menu) (w : World) : Picture :=
  match w.gamestate.getCurrentMenu with
  | none => Layer.empty
  | some ptr => (menus ptr).layer W H

def cursorLayer (W H : Nat) (menus : MenuPtr → Menu) (img : XpmImage) (w : World) : Picture :=
  (cursorSprite img (w.shape menus)).layer W H (cursorPlace (w.shape menus) w.mouse.position)

/-- What a frame shows. -/
def scene (W H : Nat) (menus : MenuPtr → Menu) (img : XpmImage) (w : World) : Picture :=
  (w.cursorLayer W H menus img).onto (w.menuLayer W H menus)

end World

/-! ## The images -/

/-- What `xpm_load` makes of an image of this size: all of its pixels, unless it fails. -/
def XpmImage.Loaded (img : XpmImage) (width height : Nat) : Prop :=
  img.type = .invalid ∨ img.width.toNat = width ∧ img.height.toNat = height ∧
    height * width ≤ img.bytes.length

/-- The images have the sizes their headers declare. -/
structure Assets.Loaded (assets : Assets) : Prop where
  logo : assets.logo.Loaded 540 108
  play_button : assets.play_button.Loaded 402 97
  leaderboard_button : assets.leaderboard_button.Loaded 402 97
  quit_button : assets.quit_button.Loaded 402 97
  trophy : assets.trophy.Loaded 300 300
  alphabet_sprites : assets.alphabet_sprites.Loaded 44 3486
  mouse : assets.mouse.Loaded 58 42

/-- A frame of an image, at a place from which it cannot leave the range of the coordinates. -/
structure FrameAt (width height : Nat) (position offset size : Vec2) : Prop where
  left : 0 ≤ offset.x
  top : 0 ≤ offset.y
  wide : 0 ≤ size.x
  high : 0 ≤ size.y
  right : offset.x + size.x ≤ width
  bottom : offset.y + size.y ≤ height
  placed : Gpu.Placed position size

theorem FrameAt.fits {img : XpmImage} {width height : Nat} {position offset size : Vec2}
    (h : FrameAt width height position offset size) (himg : img.Loaded width height)
    (hvalid : ¬ img.type = .invalid) (transparent : Bool) :
    DrawCall.Fits ⟨transparent, img, position, offset, size⟩ := by
  obtain ⟨hw, hh, hbytes⟩ := himg.resolve_left hvalid
  exact ⟨hw ▸ hh ▸ hbytes,
    ⟨h.left, h.top, h.wide, h.high, hw ▸ h.right, hh ▸ h.bottom⟩, h.placed⟩

/-- The frame that is the whole image. -/
theorem frameAt_whole {width height : Nat} {x y : Int}
    (hx : -32768 ≤ x ∧ x + width ≤ 32767) (hy : -32768 ≤ y ∧ y + height ≤ 32767) :
    FrameAt width height ⟨x, y⟩ ⟨0, 0⟩ ⟨width, height⟩ where
  left := le_refl 0
  top := le_refl 0
  wide := Int.natCast_nonneg width
  high := Int.natCast_nonneg height
  right := (Int.zero_add _).le
  bottom := (Int.zero_add _).le
  placed := ⟨hx, hy⟩

/-- An element over one image with a single frame can be drawn. -/
theorem drawable_singleFrame {aabb : Aabb} {img : XpmImage} {offset size : Vec2} {width height : Nat}
    (h : FrameAt width height aabb.position offset size) (himg : img.Loaded width height)
    (on_click : Option FunctionPointer) (transparent : Bool) :
    (Menu.singleFrame aabb img offset size on_click transparent).Drawable := by
  refine ⟨rfl, ⟨offset, rfl⟩, ⟨size, rfl⟩, fun call hcall => ?_⟩
  by_cases hvalid : img.type = .invalid
  · have hnone : (Menu.singleFrame aabb img offset size on_click transparent).sprite.call
        aabb.position = none := if_pos hvalid
    exact absurd (hnone.symm.trans hcall) (by simp)
  · have hsome : (Menu.singleFrame aabb img offset size on_click transparent).sprite.call
        aabb.position = some ⟨transparent, img, aabb.position, offset, size⟩ := if_neg hvalid
    obtain rfl := Option.some.inj (hsome.symm.trans hcall)
    exact h.fits himg hvalid transparent

/-! ## The menus of `Gamestate_init` -/

namespace Menu

theorem Drawable.append {menu : Menu} {element : UiElement} (h : menu.Drawable)
    (he : element.Drawable) : (menu.append element).Drawable := by
  intro e hmem
  rcases List.mem_append.mp hmem with hold | hnew
  · exact h e hold
  · rw [List.mem_singleton] at hnew
    exact hnew ▸ he

theorem charIndex_le {c : UInt8} {index : Nat} (h : charIndex c = some index) : index ≤ 41 := by
  have hall : ∀ n < 256, (charIndex (UInt8.ofNat n)).all (fun index => index ≤ 41) := by
    decide +kernel
  have hc := hall c.toNat c.toNat_lt
  rw [UInt8.ofNat_toNat, h] at hc
  simpa using hc

/-- The frame of a character lies in the alphabet, or is empty. -/
theorem frameAt_char (c : UInt8) {x y : Int} (hx : -32768 ≤ x ∧ x ≤ 32000)
    (hy : -32768 ≤ y ∧ y ≤ 32000) :
    FrameAt 44 3486 ⟨x, y⟩ ⟨(calculateCharCoord c).x, (calculateCharCoord c).y⟩
        ⟨(calculateCharCoord c).width, (calculateCharCoord c).height⟩ ∧
      0 ≤ (calculateCharCoord c).width ∧ (calculateCharCoord c).width ≤ 44 := by
  unfold calculateCharCoord
  cases hindex : charIndex c with
  | none =>
    refine ⟨⟨?_, ?_, ?_, ?_, ?_, ?_, ⟨?_, ?_⟩⟩, ?_, ?_⟩ <;> dsimp only <;> omega
  | some index =>
    have hle := charIndex_le hindex
    refine ⟨⟨?_, ?_, ?_, ?_, ?_, ?_, ⟨?_, ?_⟩⟩, ?_, ?_⟩ <;> dsimp only [charWidth, charHeight] <;>
      omega

theorem Drawable.createUiFromString {assets : Assets} (hassets : assets.Loaded) (fresh : Nat → Bool)
    {y : Int} (hy : -32768 ≤ y ∧ y ≤ 32000) (str : Text) {menu : Menu} (h : menu.Drawable) {x : Int}
    (hx : -32768 ≤ x ∧ x + 44 * str.length ≤ 32000) :
    (createUiFromString assets fresh str x y menu).Drawable := by
  induction str generalizing x menu with
  | nil => exact h
  | cons c str ih =>
    rw [List.length_cons] at hx
    push_cast at hx
    obtain ⟨hframe, hlo, hhi⟩ := frameAt_char c (x := x) (y := y) (by omega) hy
    exact ih (h.append (drawable_singleFrame hframe hassets.alphabet_sprites _ _)) (by omega)

theorem Drawable.createRow {assets : Assets} (hassets : assets.Loaded) {fresh : Nat → Bool} {i : Nat}
    (hi : i < 3) {entry : LeaderboardEntry} {rdt : RtcDateTime} {menu : Menu} (h : menu.Drawable)
    {row : RtcDateTime × Menu} (hrow : createRow assets fresh i entry rdt menu = .ok row) :
    row.2.Drawable := by
  obtain ⟨rdt, -, hrow⟩ := bind_eq_ok.mp hrow
  obtain ⟨name, -, hrow⟩ := bind_eq_ok.mp hrow
  cases hrow
  have hfirst : (firstLine i name rdt).length ≤ 14 := List.length_take_le _ _
  have hsecond : (secondLine entry.dt_of_entry).length ≤ 20 := List.length_take_le _ _
  exact Drawable.createUiFromString hassets fresh (by omega) _
    (Drawable.createUiFromString hassets fresh (by omega) _ h (by omega)) (by omega)

theorem Drawable.createRows {assets : Assets} (hassets : assets.Loaded) (fresh : Nat → Bool)
    (lb : Leaderboard) (todo i : Nat) (rdt : RtcDateTime) {menu menu' : Menu} (h : menu.Drawable)
    (acc : List Nat)
    (hrows : (createRows assets fresh lb todo i rdt menu acc).result = .ok menu') :
    menu'.Drawable := by
  induction todo generalizing i rdt menu acc with
  | zero =>
    cases hrows
    exact h
  | succ todo ih =>
    rw [Menu.createRows] at hrows
    split at hrows
    · cases hrows
    · next row hrow =>
      obtain ⟨entry, hload, hrow⟩ := bind_eq_ok.mp hrow
      -- there are three entries, and a row beyond them is not built
      have hi : i < 3 := by
        unfold load at hload
        split at hload
        · assumption
        · cases hload
      exact ih _ _ (Drawable.createRow hassets hi h hrow) _ hrows

theorem drawable_createMainMenu {assets : Assets} (h : assets.Loaded) (fresh : Nat → Bool) :
    (createMainMenu assets fresh).Drawable := by
  intro element hmem
  simp only [createMainMenu, List.mem_cons, List.not_mem_nil, or_false] at hmem
  rcases hmem with rfl | rfl | rfl | rfl
  · exact drawable_singleFrame (frameAt_whole (by decide) (by decide)) h.logo _ _
  · exact drawable_singleFrame (frameAt_whole (by decide) (by decide)) h.play_button _ _
  · exact drawable_singleFrame (frameAt_whole (by decide) (by decide)) h.leaderboard_button _ _
  · exact drawable_singleFrame (frameAt_whole (by decide) (by decide)) h.quit_button _ _

theorem drawable_leaderboardHead {assets : Assets} (h : assets.Loaded) (fresh : Nat → Bool) :
    (leaderboardHead assets fresh).Drawable := by
  intro element hmem
  simp only [leaderboardHead, List.mem_cons, List.not_mem_nil, or_false] at hmem
  rcases hmem with rfl | rfl
  · exact drawable_singleFrame (frameAt_whole (by decide) (by decide)) h.trophy _ _
  · exact drawable_singleFrame (frameAt_whole (by decide) (by decide)) h.leaderboard_button _ _

/-- The two menus of `Gamestate_init` can be drawn. -/
theorem init_drawable {g g' : GamestateManager} {assets : Assets} (hassets : assets.Loaded)
    {memory : InitMemory} {file : Option Text} {menus : MenuPtr → Menu}
    (h : (g.init assets memory file).result = .ok (menus, g')) (ptr : MenuPtr) :
    (menus ptr).Drawable := by
  rw [GamestateManager.init] at h
  split at h
  · cases h
  · obtain ⟨menu, hmenu, heq⟩ := ok_of_map h
    cases heq
    cases ptr with
    | main_menu => exact drawable_createMainMenu hassets _
    | leaderboard_menu =>
      exact (drawable_leaderboardHead hassets _).createRows hassets _ _ _ _ _ _ hmenu

theorem Kept.clickable {menu menu' : Menu} (h : menu.Kept menu') (point : Vec2) :
    menu'.element.any (·.clickableAt point) = menu.element.any (·.clickableAt point) := by
  have hany : ∀ {elements elements' : List UiElement},
      List.Forall₂ UiElement.Kept elements elements' →
        elements'.any (·.clickableAt point) = elements.any (·.clickableAt point) := by
    intro elements elements' hkept
    induction hkept with
    | nil => rfl
    | cons hhead _ ih =>
      rw [List.any_cons, List.any_cons, ih]
      unfold UiElement.clickableAt
      rw [hhead.aabb, hhead.on_click]
  exact hany h

end Menu

/-! ## The cursor -/

/-- The mouse as the screen sees it: the cursor image, shown, with its tip on the screen. -/
structure Mouse.OnScreen (img : XpmImage) (res : GpuResInfo) (m : Mouse) : Prop where
  sprite : (cursorSprite img m.sprite.current_frame).Kept m.sprite
  hidden : m.hidden = false
  x : -1 ≤ m.position.x ∧ m.position.x ≤ res.x_res.toNat
  y : -1 ≤ m.position.y ∧ m.position.y ≤ res.y_res.toNat

theorem Mouse.onScreen_init {m : Mouse} (img : XpmImage) (garbage : Bool) (res : GpuResInfo) :
    (m.init img garbage).OnScreen img res where
  sprite := .refl _
  hidden := rfl
  x := ⟨(by decide : (-1 : Int) ≤ 0), Int.natCast_nonneg _⟩
  y := ⟨(by decide : (-1 : Int) ≤ 0), Int.natCast_nonneg _⟩

theorem Mouse.clampTo_bounds (res : UInt16) (v : Int) :
    -1 ≤ clampTo res v ∧ clampTo res v ≤ res.toNat := by
  unfold clampTo
  dsimp only
  split <;> split <;> omega

theorem Mouse.OnScreen.update {img : XpmImage} {res : GpuResInfo} {m : Mouse}
    (h : m.OnScreen img res) (p : Packet) : (m.update res p).OnScreen img res :=
  ⟨h.sprite, h.hidden, clampTo_bounds _ _, clampTo_bounds _ _⟩

/-- Another shape of the same cursor. -/
theorem kept_cursorSprite {img : XpmImage} {shape : UInt32} {s : Sprite}
    (h : (cursorSprite img shape).Kept s) (shape' : UInt32) :
    (cursorSprite img shape').Kept { s with current_frame := shape' } := by
  rcases h with rfl | ⟨img', himg, hinvalid, rfl⟩
  · exact .inl rfl
  · exact .inr ⟨img', himg, hinvalid, rfl⟩

theorem Mouse.OnScreen.setState {img : XpmImage} {res : GpuResInfo} {m : Mouse}
    (h : m.OnScreen img res) (shape : UInt32) : (m.setState shape).OnScreen img res :=
  ⟨kept_cursorSprite h.sprite shape, h.hidden, h.x, h.y⟩

/-- The cursor can be drawn wherever it is. -/
theorem drawable_cursor {img : XpmImage} (himg : img.Loaded 58 42) {shape : UInt32}
    (hshape : shape = mouseClick ∨ shape = mouseNormal) {position : Vec2}
    (hx : -1 ≤ position.x ∧ position.x ≤ 32000) (hy : -1 ≤ position.y ∧ position.y ≤ 32000) :
    (cursorSprite img shape).Drawable (cursorPlace shape position) := by
  have hframes : ∃ offset size, (cursorSprite img shape).offsets[shape.toNat]? = some offset ∧
      (cursorSprite img shape).sizes[shape.toNat]? = some size ∧
      FrameAt 58 42 (cursorPlace shape position) offset size := by
    unfold cursorPlace
    rcases hshape with rfl | rfl
    · refine ⟨⟨0, 0⟩, ⟨34, 42⟩, rfl, rfl, ?_⟩
      rw [if_pos rfl]
      refine ⟨?_, ?_, ?_, ?_, ?_, ?_, ?_, ?_⟩ <;> dsimp only <;> omega
    · refine ⟨⟨34, 0⟩, ⟨24, 38⟩, rfl, rfl, ?_⟩
      rw [if_neg (by decide)]
      refine ⟨?_, ?_, ?_, ?_, ?_, ?_, ?_, ?_⟩ <;> dsimp only <;> omega
  obtain ⟨offset, size, hoffset, hsize, hframe⟩ := hframes
  refine ⟨rfl, ⟨offset, hoffset⟩, ⟨size, hsize⟩, fun call hcall => ?_⟩
  have hcases : (cursorSprite img shape).call (cursorPlace shape position) =
      if img.type = .invalid then none
      else some ⟨true, img, cursorPlace shape position, offset, size⟩ :=
    Sprite.call_eq rfl hoffset hsize _
  rw [hcases] at hcall
  split at hcall
  · cases hcall
  · next hvalid =>
    obtain rfl := Option.some.inj hcall
    exact hframe.fits himg hvalid true

/-- The walk over a menu points the hand at what can be clicked. -/
theorem Ui.walk_mouse (u : Ui) (elements : List UiElement) :
    (u.walk elements).mouse = if elements.any (·.clickableAt u.mouse.position) then
      u.mouse.setState mouseClick else u.mouse := by
  induction elements with
  | nil => rfl
  | cons element next ih =>
    rw [Ui.walk, List.any_cons]
    split
    · next on_click hcontains hclick =>
      have hhere : element.clickableAt u.mouse.position = true := by
        unfold UiElement.clickableAt
        rw [hcontains, hclick]
        rfl
      rw [hhere, Bool.true_or, if_pos rfl]
      dsimp only
      split
      · rfl
      · rfl
    · next hmiss =>
      have hhere : element.clickableAt u.mouse.position = false := by
        unfold UiElement.clickableAt
        cases hcontains : element.aabb.contains u.mouse.position with
        | false => rfl
        | true =>
          cases hclick : element.on_click with
          | none => rfl
          | some on_click => exact absurd hclick (hmiss on_click hcontains)
      rw [hhere, Bool.false_or]
      exact ih

theorem GamestateManager.getCurrentMenu_of_not_inMenu {g : GamestateManager}
    (h : ¬ g.inMenu = true) : g.getCurrentMenu = none := by
  rw [inMenu, Bool.or_eq_true, beq_iff_eq, beq_iff_eq, not_or] at h
  rw [getCurrentMenu, if_neg h.1, if_neg h.2]

/-! ## The frame -/

/-- A world whose menus look like the ones given, and whose cursor is the image given. -/
structure World.Staged (menus : MenuPtr → Menu) (img : XpmImage) (res : GpuResInfo) (w : World) :
    Prop where
  good : w.Good
  mode : w.gpu_res_info = res
  kept : ∀ ptr, (menus ptr).Kept (w.menus ptr)
  drawable : ∀ ptr, (w.menus ptr).Drawable
  cursor : w.mouse.OnScreen img res

section
variable {menus : MenuPtr → Menu} {img : XpmImage} {res : GpuResInfo} {w : World} {W H : Nat} {g : Gpu}

/-- The shape of the cursor after the hit test is the one the scene shows. -/
theorem World.Staged.hover (h : w.Staged menus img res) :
    ∃ u, w.ui.hover = .ok u ∧ u.Good ∧ u.mouse = w.mouse.setState (w.shape menus) ∧
      u.menus = w.menus := by
  obtain ⟨u, hhover, hgood, -⟩ := h.good.ui.hover
  refine ⟨u, hhover, hgood, ?_⟩
  rw [Ui.hover] at hhover
  unfold World.shape
  split at hhover
  · next hin =>
    obtain ⟨ptr, hptr⟩ := h.good.valid.currentMenu hin
    have hcurrent : w.ui.gamestate.getCurrentMenu = some ptr := hptr
    rw [hcurrent] at hhover
    cases hhover
    refine ⟨(Ui.walk_mouse _ _).trans ?_, Ui.walk_menus _ _⟩
    rw [hptr]
    dsimp only
    rw [← (h.kept ptr).clickable]
    change (if (w.menus ptr).element.any (·.clickableAt w.mouse.position) then _ else _) = _
    split
    · rfl
    · rfl
  · next hout =>
    cases hhover
    have hcurrent : w.gamestate.getCurrentMenu = none :=
      GamestateManager.getCurrentMenu_of_not_inMenu hout
    rw [hcurrent]
    exact ⟨rfl, rfl⟩

/-- **`Mouse_draw`** puts the cursor over the picture. -/
theorem World.Staged.drawMouse (himg : img.Loaded 58 42) (hW : W ≤ 32000) (hH : H ≤ 32000)
    (hres : res.x_res.toNat = W ∧ res.y_res.toNat = H) (h : w.Staged menus img res)
    (hg : g.Ready W H) :
    ∃ w' g', w.drawMouse = .ok w' ∧ w.drawMouseOn g = .ok (w', g') ∧ w'.Staged menus img res ∧
      w'.skip_frame = w.skip_frame ∧ g'.Ready W H ∧
      g'.view = (w.cursorLayer W H menus img).onto g.view := by
  obtain ⟨u, hhover, hgood, hmouse, hmenus⟩ := h.hover
  have honscreen : u.mouse.OnScreen img res := hmouse ▸ h.cursor.setState _
  have hshape : u.mouse.sprite.current_frame = w.shape menus := by
    rw [hmouse]
    rfl
  have hposition : u.mouse.position = w.mouse.position := by
    rw [hmouse]
    rfl
  have hkept := honscreen.sprite
  have hx := honscreen.x
  have hy := honscreen.y
  rw [hshape] at hkept
  have hdrawable : u.mouse.sprite.Drawable (cursorPlace (w.shape menus) u.mouse.position) :=
    hkept.drawable (drawable_cursor himg (hshape ▸ hgood.mouse.shown) (by omega) (by omega))
  obtain ⟨sprite, g', hdraw, hdrawOn, hkept', hg', hview⟩ :=
    hdrawable.drawOn (by omega) (by omega) hg
  have hplace : cursorPlace (w.shape menus) u.mouse.position =
      if u.mouse.sprite.current_frame = mouseClick then
        ⟨u.mouse.position.x - 9, u.mouse.position.y⟩ else u.mouse.position := by
    rw [hshape]
    rfl
  have hframe : sprite.current_frame = w.shape menus := by
    rcases hkept.trans hkept' with rfl | ⟨_, -, -, rfl⟩
    · rfl
    · rfl
  have hui : w.ui.draw = .ok ({ u with mouse := { u.mouse with sprite } },
      u.mouse.sprite.call (cursorPlace (w.shape menus) u.mouse.position)) := by
    rw [Ui.draw, hhover, ok_bind, Ui.drawCursor, honscreen.hidden]
    rw [hplace] at hdraw ⊢
    exact bind_eq_ok.mpr ⟨_, hdraw, rfl⟩
  have huiOn : w.ui.drawOn g = .ok ({ u with mouse := { u.mouse with sprite } }, g') := by
    rw [Ui.drawOn, hhover, ok_bind, Ui.drawCursorOn, honscreen.hidden]
    rw [hplace] at hdrawOn
    exact bind_eq_ok.mpr ⟨_, hdrawOn, rfl⟩
  obtain ⟨w', hmouse', hfollows⟩ := drawMouse_follows h.good
  have heq : w.drawMouse = .ok (w.setUi { u with mouse := { u.mouse with sprite } }) := by
    rw [World.drawMouse, hui]
    rfl
  rw [heq, Except.ok.injEq] at hmouse'
  subst hmouse'
  refine ⟨_, g', heq, ?_, ⟨hfollows.good, h.mode, hmenus ▸ h.kept, hmenus ▸ h.drawable, ?_⟩, rfl, hg',
    ?_⟩
  · rw [World.drawMouseOn, huiOn]
    rfl
  · refine ⟨?_, honscreen.hidden, honscreen.x, honscreen.y⟩
    change (cursorSprite img sprite.current_frame).Kept sprite
    rw [hframe]
    exact hkept.trans hkept'
  · rw [hview, hkept.layer, hposition]
    rfl

/-- **`Menu_draw`**, if a menu is on the screen. -/
theorem World.Staged.drawMenu (hW : W ≤ 32000) (hH : H ≤ 32000) (h : w.Staged menus img res)
    (hg : g.Ready W H) :
    ∃ w' g', (if w.gamestate.inMenu then w.drawMenu else pure w) = .ok w' ∧
      (if w.gamestate.inMenu then w.drawMenuOn g else pure (w, g)) = .ok (w', g') ∧
      w'.Staged menus img res ∧ w'.gamestate = w.gamestate ∧ w'.mouse = w.mouse ∧
      w'.skip_frame = w.skip_frame ∧ g'.Ready W H ∧
      g'.view = (w.menuLayer W H menus).onto g.view := by
  unfold World.menuLayer
  split
  · next hin =>
    obtain ⟨ptr, hptr⟩ := h.good.valid.currentMenu hin
    obtain ⟨menu, calls, g', hdraw, hdrawOn, hkept, hdrawable, hg', hview⟩ :=
      (h.drawable ptr).drawOn (by omega : W ≤ 32768) (by omega : H ≤ 32768) hg
    obtain ⟨w', hmenu', hfollows⟩ := drawMenu_follows h.good hin
    have heq : w.drawMenu = .ok { w with menus := Function.update w.menus ptr menu } := by
      rw [World.drawMenu, hptr]
      dsimp only
      rw [hdraw]
      rfl
    rw [heq, Except.ok.injEq] at hmenu'
    subst hmenu'
    -- the other menu is not touched
    have hmenus : ∀ ptr', (menus ptr').Kept (Function.update w.menus ptr menu ptr') ∧
        (Function.update w.menus ptr menu ptr').Drawable := by
      intro ptr'
      by_cases hsame : ptr' = ptr
      · subst hsame
        rw [Function.update_self]
        exact ⟨(h.kept ptr').trans hkept, hdrawable⟩
      · rw [Function.update_of_ne hsame]
        exact ⟨h.kept ptr', h.drawable ptr'⟩
    refine ⟨_, g', heq, ?_, ⟨hfollows.good, h.mode, fun ptr' => (hmenus ptr').1,
      fun ptr' => (hmenus ptr').2, h.cursor⟩, rfl, rfl, rfl, hg', ?_⟩
    · rw [World.drawMenuOn, hptr]
      dsimp only
      rw [hdrawOn]
      rfl
    · rw [hview, hptr, (h.kept ptr).layer]
  · next hout =>
    rw [GamestateManager.getCurrentMenu_of_not_inMenu hout]
    exact ⟨w, g, rfl, rfl, h, rfl, rfl, rfl, hg, rfl⟩

/-- **A frame** puts its scene over what the back buffer holds, and does to the world what it does
    without a screen. -/
theorem World.Staged.drawScene (himg : img.Loaded 58 42) (hW : W ≤ 32000) (hH : H ≤ 32000)
    (hres : res.x_res.toNat = W ∧ res.y_res.toNat = H) (h : w.Staged menus img res)
    (hg : g.Ready W H) :
    ∃ w' g', w.drawFrame = .ok w' ∧ w.drawSceneOn g = .ok (w', g') ∧ w'.Staged menus img res ∧
      w'.skip_frame = w.skip_frame ∧ g'.Ready W H ∧
      g'.view = (w.scene W H menus img).onto g.view := by
  obtain ⟨w₁, g₁, hmenu, hmenuOn, hstaged₁, hgamestate, hmouse, hskip₁, hg₁, hview₁⟩ :=
    h.drawMenu hW hH hg
  obtain ⟨w₂, g₂, hcursor, hcursorOn, hstaged₂, hskip₂, hg₂, hview₂⟩ :=
    hstaged₁.drawMouse himg hW hH hres hg₁
  have hlayer : w₁.cursorLayer W H menus img = w.cursorLayer W H menus img := by
    unfold World.cursorLayer World.shape
    rw [hgamestate, hmouse]
  refine ⟨w₂, g₂, ?_, ?_, hstaged₂, hskip₂.trans hskip₁, hg₂, ?_⟩
  · rw [World.drawFrame, hmenu, ok_bind, hcursor]
  · rw [World.drawSceneOn, hmenuOn, ok_bind]
    exact hcursorOn
  · rw [hview₂, hview₁, hlayer, World.scene, Layer.onto_assoc]

end

end Lcom

import Lcom.Input.Keyboard
import Lcom.Proof.Input.Clicks

/-!
# What the two init functions leave behind

`Keyboard_init` and `Mouse_init` start the managers anew, but each `memset` is told the size of one
`bool`: it clears one key, and one button of each record. The other keys and the other two buttons
stay as they were, and the program can see that. The previous state of these two buttons is left
over as well; only the left one's is ever looked at.
-/

namespace Lcom

open Lib

/-! ## The managers together -/

/-- What happens to the managers: a byte from the keyboard, a packet, or a frame. -/
inductive InputEvent where
  | byte (scancode : UInt8)
  | mouse (e : MouseEvent)
  deriving DecidableEq, Repr

structure Managers where
  keyboard : Keyboard
  ui : Ui

/-- What the rest of the program can learn from the managers. -/
structure Seen where
  pressed : KbKey → Except Fault Bool
  position : Vec2
  buttons : Buttons
  clicked : List UiElement

namespace Managers

/-- One event; `none` is one that faults. -/
def step (res : GpuResInfo) (w : Managers) : InputEvent → Option Managers
  | .byte scancode =>
    (w.keyboard.handleScancode scancode).toOption.map fun keyboard => { w with keyboard }
  | .mouse e => (w.ui.step res e).map fun ui => { w with ui }

/-- `Keyboard_pressed` of every key, `Mouse_position`, `Mouse_button` of every button, and the
    elements clicked. -/
def seen (w : Managers) : Seen :=
  ⟨w.keyboard.pressed, w.ui.mouse.position, w.ui.mouse.buttons, w.ui.clicked⟩

/-- The managers after the two calls, in a program that is somewhere in its menus. -/
def afterInit (k : Keyboard) (m : Mouse) (img : XpmImage) (garbage : Bool)
    (gamestate : GamestateManager) (menus : MenuPtr → Menu) : Managers :=
  ⟨k.init, ⟨m.init img garbage, gamestate, menus, []⟩⟩

/-- After the two calls, no sequence of events tells one past from the other. -/
def Forgotten (k k' : Keyboard) (m m' : Mouse) : Prop :=
  ∀ img garbage garbage' gamestate menus res es,
    (run (step res) (afterInit k m img garbage gamestate menus) es).map seen =
      (run (step res) (afterInit k' m' img garbage' gamestate menus) es).map seen

end Managers

/-! ## What is never looked at -/

/-- Without the records nobody reads: the previous state of the middle and the right button, and the
    history. -/
def Mouse.blank (m : Mouse) : Mouse :=
  { m with prev_buttons := ⟨m.prev_buttons.lb, false, false⟩, applied := [] }

def Ui.blank (u : Ui) : Ui := { u with mouse := u.mouse.blank }

theorem Mouse.update_blank (m : Mouse) (res : GpuResInfo) (p : Packet) :
    (m.blank.update res p).blank = (m.update res p).blank := rfl

namespace Ui

theorem walk_blank (u : Ui) (elements : List UiElement) :
    u.blank.walk elements = (u.walk elements).blank := by
  induction elements with
  | nil => rfl
  | cons element next ih =>
    unfold walk
    cases hcontains : element.aabb.contains u.mouse.position with
    | false =>
      have hcontains' : element.aabb.contains u.blank.mouse.position = false := hcontains
      rw [hcontains']
      exact ih
    | true =>
      have hcontains' : element.aabb.contains u.blank.mouse.position = true := hcontains
      rw [hcontains']
      cases element.on_click with
      | none => exact ih
      | some on_click =>
        have hedge : u.blank.mouse.lbEdge = u.mouse.lbEdge := rfl
        dsimp only
        rw [hedge]
        cases u.mouse.lbEdge with
        | false => rfl
        | true => rfl

theorem hover_blank (u : Ui) : u.blank.hover = u.hover.map blank := by
  have hgamestate : u.blank.gamestate = u.gamestate := rfl
  unfold hover
  rw [hgamestate]
  cases u.gamestate.inMenu with
  | false => rfl
  | true =>
    rw [if_pos rfl, if_pos rfl]
    cases u.gamestate.getCurrentMenu with
    | none => rfl
    | some menu => exact congrArg Except.ok (walk_blank { u with mouse := u.mouse.setState mouseNormal } _)

theorem drawCursor_blank (u : Ui) :
    u.blank.drawCursor = u.drawCursor.map fun r => (r.1.blank, r.2) := by
  have hhidden : u.blank.mouse.hidden = u.mouse.hidden := rfl
  have hsprite : u.blank.mouse.sprite = u.mouse.sprite := rfl
  have hposition : u.blank.mouse.position = u.mouse.position := rfl
  unfold drawCursor
  rw [hhidden, hsprite, hposition]
  cases u.mouse.hidden with
  | true => rfl
  | false =>
    simp only [Bool.false_eq_true, if_false]
    generalize u.mouse.sprite.draw _ = drawn
    cases drawn with
    | error e => rfl
    | ok r => rfl

theorem draw_blank (u : Ui) : u.blank.draw = u.draw.map fun r => (r.1.blank, r.2) := by
  unfold draw
  rw [hover_blank]
  cases u.hover with
  | error e => rfl
  | ok u₁ => exact drawCursor_blank u₁

end Ui

theorem Ui.step_blank (res : GpuResInfo) (u : Ui) (e : MouseEvent) :
    (u.blank.step res e).map Ui.blank = (u.step res e).map Ui.blank := by
  cases e with
  | packet p => exact congrArg (fun m => some { u.blank with mouse := m }) (u.mouse.update_blank res p)
  | frame =>
    unfold Ui.step
    rw [Ui.draw_blank]
    cases u.draw with
    | error f => rfl
    | ok r => rfl

/-! ## The keys -/

theorem KbKey.index_lt {key : KbKey} (h : key ≠ .invalid) : key.index < 20 := by
  cases key <;> first | decide | exact absurd rfl h

theorem KbKey.index_inj {key key' : KbKey} (h : key.index = key'.index) : key = key' := by
  cases key <;> cases key' <;> first | rfl | exact absurd h (by decide)

/-- A key that is written reads as written, the others as before. -/
theorem Keyboard.pressed_set (double_width double_width' : Bool) (keys : Vector Bool 20) {key : KbKey}
    (h : key ≠ .invalid) (make : Bool) :
    (Keyboard.mk double_width (keys.set key.index make (KbKey.index_lt h))).pressed =
      Function.update (Keyboard.mk double_width' keys).pressed key (.ok make) := by
  funext key'
  by_cases heq : key' = key
  · subst heq
    rw [Function.update_self]
    unfold Keyboard.pressed
    rw [load_of_lt (KbKey.index_lt h), Vector.getElem_set_self]
  · rw [Function.update_of_ne heq]
    unfold Keyboard.pressed load
    split
    · rw [Vector.getElem_set_ne]
      exact fun h => heq (KbKey.index_inj h.symm)
    · rfl

/-- What a byte makes of the pending prefix and the keys. -/
def Keyboard.afterByte (double_width : Bool) (pressed : KbKey → Except Fault Bool) (scancode : UInt8) :
    Bool × (KbKey → Except Fault Bool) :=
  if scancode = doubleByte ∧ double_width = false then (true, pressed)
  else
    let (key, make) := translate scancode double_width
    (false, if key ≠ .invalid then Function.update pressed key (.ok make) else pressed)

theorem Keyboard.handleScancode_seen (k : Keyboard) (scancode : UInt8) :
    ∃ k₁, k.handleScancode scancode = .ok k₁ ∧
      (k₁.double_width, k₁.pressed) = afterByte k.double_width k.pressed scancode := by
  obtain ⟨double_width, keys⟩ := k
  unfold handleScancode afterByte
  dsimp only
  by_cases hpre : scancode = doubleByte ∧ double_width = false
  · rw [if_pos hpre, if_pos hpre]
    exact ⟨_, rfl, rfl⟩
  · rw [if_neg hpre, if_neg hpre]
    by_cases hkey : (translate scancode double_width).1 = .invalid
    · rw [if_neg (not_not.mpr hkey), if_neg (not_not.mpr hkey)]
      exact ⟨⟨false, keys⟩, rfl, rfl⟩
    · rw [if_pos hkey, if_pos hkey, store_of_lt (KbKey.index_lt hkey)]
      exact ⟨_, rfl, congrArg (Prod.mk false) (pressed_set _ _ keys hkey _)⟩

theorem Keyboard.pressed_init (k : Keyboard) :
    k.init.pressed = Function.update k.pressed .esc (.ok false) := by
  have hset : k.init.keys = k.keys.set 0 false := by
    refine Vector.ext fun i hi => ?_
    unfold init
    rw [Vector.getElem_setIfInBounds, Vector.getElem_set]
  have hpressed := pressed_set false k.double_width k.keys (show KbKey.esc ≠ .invalid by decide) false
  rw [← hpressed]
  funext key
  unfold pressed
  rw [hset]
  rfl

/-! ## Two pasts -/

namespace Managers

/-- What the managers show, now or later. -/
def view (w : Managers) : (Bool × (KbKey → Except Fault Bool)) × Ui :=
  ((w.keyboard.double_width, w.keyboard.pressed), w.ui.blank)

/-- What is seen now is part of it. -/
theorem map_seen (o : Option Managers) :
    o.map seen = (o.map view).map fun v =>
      ⟨v.1.2, v.2.mouse.position, v.2.mouse.buttons, v.2.clicked⟩ := by
  rw [Option.map_map]
  rfl

/-- One event shows only what was there to see. -/
theorem step_view (res : GpuResInfo) (w w' : Managers) (e : InputEvent) (h : w.view = w'.view) :
    (w.step res e).map view = (w'.step res e).map view := by
  have hkeys : (w.keyboard.double_width, w.keyboard.pressed) =
      (w'.keyboard.double_width, w'.keyboard.pressed) := congrArg Prod.fst h
  have hui : w.ui.blank = w'.ui.blank := congrArg Prod.snd h
  cases e with
  | byte scancode =>
    obtain ⟨k₁, hk₁, hseen⟩ := w.keyboard.handleScancode_seen scancode
    obtain ⟨k₂, hk₂, hseen'⟩ := w'.keyboard.handleScancode_seen scancode
    obtain ⟨hwidth, hpressed⟩ := Prod.mk.inj hkeys
    rw [← hwidth, ← hpressed, ← hseen] at hseen'
    unfold step
    dsimp only
    rw [hk₁, hk₂]
    exact congrArg some (Prod.ext hseen'.symm hui)
  | mouse e =>
    have hstep : (w.ui.step res e).map Ui.blank = (w'.ui.step res e).map Ui.blank := by
      rw [← Ui.step_blank, ← Ui.step_blank res w'.ui, hui]
    have hpair : ∀ (w : Managers), (w.step res (.mouse e)).map view =
        ((w.ui.step res e).map Ui.blank).map
          (Prod.mk (w.keyboard.double_width, w.keyboard.pressed)) := by
      intro w
      unfold step
      rw [Option.map_map, Option.map_map]
      rfl
    rw [hpair, hpair, hstep, hkeys]

/-- The two pasts left the same in what is not cleared: the keys other than escape, and the middle
    and the right button. -/
structure SameLeft (k k' : Keyboard) (m m' : Mouse) : Prop where
  keys : ∀ key, key ≠ .esc → k.pressed key = k'.pressed key
  mb : m.buttons.mb = m'.buttons.mb
  rb : m.buttons.rb = m'.buttons.rb

/-- **The init calls forget the past exactly when it left nothing in the keys and buttons they do not
    clear.** -/
theorem forgotten_iff (k k' : Keyboard) (m m' : Mouse) :
    Forgotten k k' m m' ↔ SameLeft k k' m m' := by
  constructor
  · intro h
    -- at once after the calls
    have hseen := Option.some.inj (h ⟨.indexed, 0, 0, []⟩ false false GamestateManager.startup (fun _ => ⟨[]⟩)
      ⟨0, 0⟩ [])
    have hpressed : k.init.pressed = k'.init.pressed := congrArg Seen.pressed hseen
    refine ⟨fun key hkey => ?_, congrArg (fun o => o.buttons.mb) hseen,
      congrArg (fun o => o.buttons.rb) hseen⟩
    have hkeyPressed := congrFun hpressed key
    rwa [Keyboard.pressed_init, Keyboard.pressed_init, Function.update_of_ne hkey,
      Function.update_of_ne hkey] at hkeyPressed
  · intro h img garbage garbage' gamestate menus res es
    have hpressed : k.init.pressed = k'.init.pressed := by
      rw [Keyboard.pressed_init, Keyboard.pressed_init]
      funext key
      by_cases hkey : key = .esc
      · rw [hkey, Function.update_self, Function.update_self]
      · rw [Function.update_of_ne hkey, Function.update_of_ne hkey, h.keys key hkey]
    have hmouse : (m.init img garbage).blank = (m'.init img garbage').blank := by
      unfold Mouse.init Mouse.blank
      dsimp only
      rw [h.mb, h.rb]
      rfl
    have hview : (afterInit k m img garbage gamestate menus).view =
        (afterInit k' m' img garbage' gamestate menus).view := by
      unfold afterInit view Ui.blank
      dsimp only
      rw [hpressed, hmouse]
      rfl
    rw [map_seen, map_seen, run_map_eq view (step_view res) hview es]

/-- Up is pressed and not released before the second initialisation: it is still down after it. -/
theorem forgotten_up_held :
    ¬ ∀ img garbage gamestate menus res es es' w w',
      run (step res) (afterInit Keyboard.startup Mouse.zeroed img garbage gamestate menus) es =
        some w →
      run (step res) (afterInit Keyboard.startup Mouse.zeroed img garbage gamestate menus) es' =
        some w' →
      Forgotten w.keyboard w'.keyboard w.ui.mouse w'.ui.mouse := by
  intro h
  have hforgotten := h ⟨.indexed, 0, 0, []⟩ false GamestateManager.startup (fun _ => ⟨[]⟩) ⟨0, 0⟩
    [.byte 0xE0, .byte 0x48] [] _ _ rfl rfl
  have hseen := Option.some.inj (hforgotten ⟨.indexed, 0, 0, []⟩ false false
    GamestateManager.startup (fun _ => ⟨[]⟩) ⟨0, 0⟩ [])
  have hup := congrFun (congrArg Seen.pressed hseen) .up
  exact absurd hup (by decide)

end Managers

end Lcom

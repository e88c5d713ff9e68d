import Lcom.Game.Display
import Lcom.Lib.Layers
import Lcom.Proof.Drivers.Blit

/-!
# What drawing leaves in the back buffer

A blit puts a layer over the picture that is already there: the rectangle of its frame, cut at the
edges of the screen, and with holes where a transparent image says `99`. A sprite shows one layer at
each position, whether or not its image loaded, and a menu the stack of its elements' layers.

One byte for a pixel is assumed throughout, as in mode `0x105`.
-/

namespace Lcom

open Lib

/-- What is seen at each pixel of the screen. -/
abbrev Picture := Layer (Nat × Nat) UInt8

/-! ## The back buffer as a picture -/

namespace Gpu

/-- A back buffer of `H` lines of `W` pixels, one byte each. -/
structure Ready (W H : Nat) (g : Gpu) : Prop where
  width : g.W = W
  height : g.H = H
  one : g.bpp = 1
  sized : g.Sized

/-- The picture in the back buffer. -/
def view (g : Gpu) : Picture := fun p =>
  if p.1 < g.W ∧ p.2 < g.H then g.pixel p.1 p.2 0 else none

variable {W H : Nat} {g g' : Gpu}

theorem Ready.sameMode (h : g.Ready W H) (hmode : SameMode g g') : g'.Ready W H where
  width := hmode.W.trans h.width
  height := hmode.H.trans h.height
  one := hmode.bpp.trans h.one
  sized := hmode.sized h.sized

theorem Ready.view_of_inside (h : g.Ready W H) {p : Nat × Nat} (hp : p.1 < W ∧ p.2 < H) :
    g.view p = g.pixel p.1 p.2 0 := by
  unfold view
  rw [h.width, h.height, if_pos hp]

theorem Ready.view_of_outside (h : g.Ready W H) {p : Nat × Nat} (hp : ¬ (p.1 < W ∧ p.2 < H)) :
    g.view p = none := by
  unfold view
  rw [h.width, h.height, if_neg hp]

/-- A drawing that is known pixel by pixel, as a layer. -/
theorem Ready.view_eq_onto (h : g.Ready W H) (hmode : SameMode g g') {layer : Picture}
    (hout : ∀ p, ¬ (p.1 < W ∧ p.2 < H) → layer p = none)
    (hin : ∀ p, p.1 < W ∧ p.2 < H →
      g'.pixel p.1 p.2 0 = (layer p).or (g.pixel p.1 p.2 0)) :
    g'.view = layer.onto g.view := by
  funext p
  by_cases hp : p.1 < W ∧ p.2 < H
  · unfold Layer.onto
    rw [(h.sameMode hmode).view_of_inside hp, h.view_of_inside hp, hin p hp]
  · rw [(h.sameMode hmode).view_of_outside hp, Layer.onto_of_none (hout p hp), h.view_of_outside hp]

end Gpu

/-! ## A whole buffer -/

/-- A screen with nothing on it. -/
def blackScreen (W H : Nat) : Picture := fun p => if p.1 < W ∧ p.2 < H then some 0 else none

theorem Gpu.Ready.vramSize {W H : Nat} {g : Gpu} (h : g.Ready W H) :
    g.vramSize.toNat = g.backbuffer.length := by
  have hx := g.gpu_res_info.x_res.toNat_lt
  have hy := g.gpu_res_info.y_res.toNat_lt
  have hbytes : g.bytes_per_pixel.toNat = 1 := h.one
  have hmax : g.gpu_res_info.x_res.toNat * g.gpu_res_info.y_res.toNat ≤ 65535 * 65535 :=
    Nat.mul_le_mul (Nat.le_of_lt_succ hx) (Nat.le_of_lt_succ hy)
  have hsize : g.gpu_res_info.x_res.toNat * g.gpu_res_info.y_res.toNat < 2 ^ 32 :=
    hmax.trans_lt (by decide)
  have hlength : g.backbuffer.length = g.gpu_res_info.x_res.toNat * g.gpu_res_info.y_res.toNat := by
    rw [h.sized, h.one, Nat.mul_one, Nat.mul_comm]
    rfl
  rw [hlength]
  unfold Gpu.vramSize
  rw [UInt32.toNat_mul, UInt32.toNat_mul, UInt16.toNat_toUInt32, UInt16.toNat_toUInt32,
    UInt8.toNat_toUInt32, hbytes, Nat.mul_one, Nat.mod_mod, Nat.mod_eq_of_lt hsize]

theorem Gpu.Ready.with_backbuffer {W H : Nat} {g : Gpu} (h : g.Ready W H) {backbuffer : List UInt8}
    (hlength : backbuffer.length = g.backbuffer.length) :
    Gpu.Ready W H { g with backbuffer } :=
  h.sameMode ⟨rfl, rfl, hlength⟩

theorem Gpu.Ready.length {W H : Nat} {g : Gpu} (h : g.Ready W H) : g.backbuffer.length = H * W := by
  rw [h.sized, h.one, Nat.mul_one, h.width, h.height]

/-- Nothing is seen in a back buffer that has been cleared. -/
theorem Gpu.Ready.view_cleared {W H : Nat} {g : Gpu} (h : g.Ready W H) :
    Gpu.view { g with backbuffer := List.replicate g.backbuffer.length 0 } = blackScreen W H := by
  have hcleared := h.with_backbuffer (List.length_replicate (n := g.backbuffer.length) (a := (0 : UInt8)))
  funext p
  unfold blackScreen
  split
  · next hp =>
    have hin : p.2 * W + p.1 < H * W := pixel_lt hp.1 hp.2
    rw [hcleared.view_of_inside hp]
    unfold Gpu.pixel
    rw [hcleared.width, hcleared.one]
    dsimp only
    rw [List.getElem?_replicate, h.length, if_pos (by omega)]
  · next hp => exact hcleared.view_of_outside hp

/-! ## One blit -/

namespace DrawCall

/-- The byte of the image that belongs at a pixel of the screen. -/
def byteAt (call : DrawCall) (p : Nat × Nat) : Option UInt8 :=
  call.xpm.bytes[((p.2 - call.position.y + call.offset.y) * call.xpm.width.toNat +
    (p.1 - call.position.x + call.offset.x)).toNat]?

/-- What a blit shows on a screen of `H` lines of `W` pixels. -/
def layer (W H : Nat) (call : DrawCall) : Picture := fun p =>
  if (p.1 < W ∧ p.2 < H) ∧ Gpu.InRect call.position call.size p.1 p.2 then
    (call.byteAt p).filter fun byte => !call.transparent || byte != 99
  else none

/-- The frame lies in the image, the image is complete, and no coordinate leaves the range of
    `int16_t`. -/
structure Fits (call : DrawCall) : Prop where
  bytes : call.xpm.height.toNat * call.xpm.width.toNat ≤ call.xpm.bytes.length
  frame : Gpu.FrameWithin call.xpm call.offset call.size
  placed : Gpu.Placed call.position call.size

variable {W H : Nat} {call : DrawCall}

theorem layer_of_outside {p : Nat × Nat} (hp : ¬ (p.1 < W ∧ p.2 < H)) : call.layer W H p = none :=
  if_neg fun h => hp h.1

theorem layer_of_apart {p : Nat × Nat} (hp : ¬ Gpu.InRect call.position call.size p.1 p.2) :
    call.layer W H p = none :=
  if_neg fun h => hp h.2

theorem layer_of_inside {p : Nat × Nat} (hp : p.1 < W ∧ p.2 < H)
    (hrect : Gpu.InRect call.position call.size p.1 p.2) :
    call.layer W H p = (call.byteAt p).filter fun byte => !call.transparent || byte != 99 :=
  if_pos ⟨hp, hrect⟩

theorem imageByte_eq_byteAt {g : Gpu} (hone : g.bpp = 1) (p : Nat × Nat) :
    g.imageByte call.xpm call.position call.offset p.1 p.2 0 = call.byteAt p := by
  unfold Gpu.imageByte byteAt
  rw [hone, Nat.cast_one, Nat.cast_zero, Int.mul_one, Int.add_zero]

theorem Fits.holds (h : call.Fits) {g : Gpu} (hone : g.bpp = 1) : g.Holds call.xpm := by
  unfold Gpu.Holds
  rw [hone, Nat.mul_one]
  exact h.bytes

/-- A frame with a pixel in it. -/
theorem Fits.frameInside (h : call.Fits) (hx : 0 < call.size.x) (hy : 0 < call.size.y) :
    Gpu.FrameInside call.xpm call.offset call.size :=
  { h.frame with width := hx, height := hy }

theorem Fits.byteAt_isSome (h : call.Fits) {p : Nat × Nat}
    (hrect : Gpu.InRect call.position call.size p.1 p.2) : ∃ byte, call.byteAt p = some byte := by
  obtain ⟨hx, hy⟩ := hrect
  obtain ⟨byte, -, hbyte⟩ := Gpu.imageByte_at (g := ⟨⟨0, 0⟩, 1, []⟩) rfl (h.holds rfl)
    (h.frameInside (hx.1.trans_lt hx.2) (hy.1.trans_lt hy.2)) call.position hx hy
  refine ⟨byte, ?_⟩
  rw [← imageByte_eq_byteAt (g := ⟨⟨0, 0⟩, 1, []⟩) rfl]
  exact hbyte p.1 p.2 (by omega) (by omega)

theorem paints_opaque (h : call.Fits) (hsolid : call.transparent = false) :
    Layer.Paints (Gpu.Ready W H) Gpu.view
      (fun g => g.drawXpm call.xpm call.position call.offset call.size) (call.layer W H) := by
  intro g hg
  have hb : 0 < g.bpp := by
    rw [hg.one]
    exact Nat.one_pos
  obtain ⟨g', hdraw, hmode, hpixels⟩ :=
    Gpu.drawXpm_spec hg.sized hb (h.holds hg.one) h.frame call.position
  refine ⟨g', hdraw, hg.sameMode hmode,
    hg.view_eq_onto hmode (fun p hp => layer_of_outside hp) fun p hp => ?_⟩
  rw [hpixels p.1 p.2 0 (hg.width ▸ hp.1) (hg.height ▸ hp.2) hb,
    Gpu.drawnByte_eq_imageByte (.inl hg.one), imageByte_eq_byteAt hg.one]
  by_cases hrect : Gpu.InRect call.position call.size p.1 p.2
  · obtain ⟨byte, hbyte⟩ := h.byteAt_isSome hrect
    rw [if_pos hrect, layer_of_inside hp hrect, hbyte, hsolid]
    rfl
  · rw [if_neg hrect, layer_of_apart hrect, Option.none_or]

/-- A frame without a pixel is drawn in no time. -/
theorem drawTransparentXpm_nothing {g : Gpu} {xpm : XpmImage} {position offset size : Vec2}
    (h : size.x ≤ 0 ∨ size.y ≤ 0) : g.drawTransparentXpm xpm position offset size = .ok g := by
  have hnone : ∀ {body : Int → Gpu → Except Fault Gpu} {n : Int} {s : Gpu}, n ≤ 0 →
      forRange 0 (n - 1) body s = .ok s := by
    intro body n s hn
    unfold forRange
    rw [Int.toNat_of_nonpos (by omega)]
    rfl
  by_cases hy : size.y ≤ 0
  · exact hnone hy
  · have hrows : ∃ g', g.drawTransparentXpm xpm position offset size = .ok g' ∧ g' = g :=
      forRange_spec (I := fun _ s => s = g) (by omega) rfl fun y s _ _ hs => by
        subst hs
        exact ⟨s, hnone (h.resolve_right hy), rfl⟩
    obtain ⟨g', hdraw, rfl⟩ := hrows
    exact hdraw

theorem paints_transparent (hW : W ≤ 32768) (hH : H ≤ 32768) (h : call.Fits)
    (htransparent : call.transparent = true) :
    Layer.Paints (Gpu.Ready W H) Gpu.view
      (fun g => g.drawTransparentXpm call.xpm call.position call.offset call.size)
      (call.layer W H) := by
  intro g hg
  by_cases hsize : 0 < call.size.x ∧ 0 < call.size.y
  · obtain ⟨g', hdraw, hmode, hpixels⟩ := Gpu.drawTransparentXpm_spec hg.sized hg.one
      (hg.width ▸ hW) (hg.height ▸ hH) (h.holds hg.one) (h.frameInside hsize.1 hsize.2) h.placed
    refine ⟨g', hdraw, hg.sameMode hmode,
      hg.view_eq_onto hmode (fun p hp => layer_of_outside hp) fun p hp => ?_⟩
    rw [hpixels p.1 p.2 (hg.width ▸ hp.1) (hg.height ▸ hp.2), imageByte_eq_byteAt hg.one]
    by_cases hrect : Gpu.InRect call.position call.size p.1 p.2
    · obtain ⟨byte, hbyte⟩ := h.byteAt_isSome hrect
      rw [layer_of_inside hp hrect, hbyte, htransparent]
      by_cases h99 : byte = 99
      · rw [if_neg fun hboth => hboth.2 (by rw [h99]), Option.filter_some_neg (by simp [h99]),
          Option.none_or]
      · rw [if_pos ⟨hrect, fun heq => h99 (Option.some.inj heq)⟩,
          Option.filter_some_pos (by simp [h99]), Option.some_or]
    · rw [if_neg fun hboth => hrect hboth.1, layer_of_apart hrect, Option.none_or]
  · -- nothing is drawn, and the layer is empty
    have hnothing : call.layer W H = Layer.empty := by
      funext p
      refine layer_of_apart fun hrect => hsize ?_
      unfold Gpu.InRect at hrect
      omega
    refine ⟨g, drawTransparentXpm_nothing (by omega), hg, ?_⟩
    rw [hnothing, Layer.empty_onto]

/-- **A blit puts its layer over the picture.** -/
theorem Fits.paints (hW : W ≤ 32768) (hH : H ≤ 32768) (h : call.Fits) :
    Layer.Paints (Gpu.Ready W H) Gpu.view call.run (call.layer W H) := by
  intro g hg
  unfold run
  cases htransparent : call.transparent with
  | false => exact paints_opaque h htransparent g hg
  | true => exact paints_transparent hW hH h htransparent g hg

end DrawCall

/-! ## Sprites -/

namespace Sprite

/-- The blit a draw of the sprite asks for. -/
def call (s : Sprite) (position : Vec2) : Option DrawCall :=
  match s.img with
  | none => none
  | some img =>
    if img.type = .invalid then none
    else
      match s.offsets[s.current_frame.toNat]?, s.sizes[s.current_frame.toNat]? with
      | some offset, some size => some ⟨s.transparent, img, position, offset, size⟩
      | _, _ => none

/-- The blit of a frame the sprite has. -/
theorem call_eq {s : Sprite} {img : XpmImage} {offset size : Vec2} (himg : s.img = some img)
    (hoffset : s.offsets[s.current_frame.toNat]? = some offset)
    (hsize : s.sizes[s.current_frame.toNat]? = some size) (position : Vec2) :
    s.call position = if img.type = .invalid then none
      else some ⟨s.transparent, img, position, offset, size⟩ := by
  unfold call
  rw [himg, hoffset, hsize]

/-- What the sprite shows at a position. -/
def layer (W H : Nat) (s : Sprite) (position : Vec2) : Picture :=
  match s.call position with
  | none => Layer.empty
  | some call => call.layer W H

/-- The sprite can be drawn at the position: it stands still on a frame it has, and its blit fits. -/
structure Drawable (s : Sprite) (position : Vec2) : Prop where
  delay : s.delay = 0
  offset : ∃ offset, s.offsets[s.current_frame.toNat]? = some offset
  size : ∃ size, s.sizes[s.current_frame.toNat]? = some size
  fits : ∀ call, s.call position = some call → call.Fits

/-- Drawing drops an image that did not load, and changes nothing else. -/
def Kept (s s' : Sprite) : Prop :=
  s' = s ∨ ∃ img, s.img = some img ∧ img.type = .invalid ∧ s' = { s with img := none }

theorem Kept.refl (s : Sprite) : s.Kept s := .inl rfl

theorem Kept.trans {s s' s'' : Sprite} (h : s.Kept s') (h' : s'.Kept s'') : s.Kept s'' := by
  rcases h with rfl | ⟨img, himg, hinvalid, rfl⟩
  · exact h'
  · rcases h' with rfl | ⟨img', himg', -, -⟩
    · exact .inr ⟨img, himg, hinvalid, rfl⟩
    · cases himg'

theorem Kept.call {s s' : Sprite} (h : s.Kept s') (position : Vec2) :
    s'.call position = s.call position := by
  rcases h with rfl | ⟨img, himg, hinvalid, rfl⟩
  · rfl
  · unfold Sprite.call
    rw [himg]
    exact (if_pos hinvalid).symm

theorem Kept.layer {s s' : Sprite} (h : s.Kept s') (W H : Nat) (position : Vec2) :
    s'.layer W H position = s.layer W H position := by
  unfold Sprite.layer
  rw [h.call]

theorem Kept.drawable {s s' : Sprite} (h : s.Kept s') {position : Vec2}
    (hs : s.Drawable position) : s'.Drawable position := by
  have hcall := h.call position
  rcases h with rfl | ⟨img, -, -, rfl⟩
  · exact hs
  · exact ⟨hs.delay, hs.offset, hs.size, fun call hsome => hs.fits call (hcall ▸ hsome)⟩

/-- A draw asks for the blit the sprite stands for. -/
theorem Drawable.draw {s : Sprite} {position : Vec2} (h : s.Drawable position) :
    ∃ s', s.draw position = .ok (s', s.call position) ∧ s.Kept s' := by
  obtain ⟨offset, hoffset⟩ := h.offset
  obtain ⟨size, hsize⟩ := h.size
  unfold Sprite.draw Sprite.call
  cases himg : s.img with
  | none => exact ⟨s, rfl, .refl s⟩
  | some img =>
    by_cases hinvalid : img.type = .invalid
    · dsimp only
      rw [if_pos hinvalid, if_pos hinvalid]
      exact ⟨_, rfl, .inr ⟨img, himg, hinvalid, rfl⟩⟩
    · dsimp only
      rw [if_neg hinvalid, if_neg hinvalid, frameOf, frameOf, hoffset, hsize]
      refine ⟨s, ?_, .refl s⟩
      rw [advance, if_pos h.delay]
      rfl

/-- **A draw puts the sprite's layer over the picture.** The sprite is the same as without a screen. -/
theorem Drawable.drawOn {W H : Nat} (hW : W ≤ 32768) (hH : H ≤ 32768) {s : Sprite}
    {position : Vec2} (h : s.Drawable position) {g : Gpu} (hg : g.Ready W H) :
    ∃ s' g', s.draw position = .ok (s', s.call position) ∧
      s.drawOn position g = .ok (s', g') ∧ s.Kept s' ∧ g'.Ready W H ∧
      g'.view = (s.layer W H position).onto g.view := by
  obtain ⟨s', hdraw, hkept⟩ := h.draw
  unfold Sprite.drawOn Sprite.layer
  rw [hdraw, ok_bind]
  cases hcall : s.call position with
  | none => exact ⟨s', g, rfl, rfl, hkept, hg, rfl⟩
  | some call =>
    obtain ⟨g', hrun, hg', hview⟩ := (h.fits call hcall).paints hW hH g hg
    refine ⟨s', g', rfl, ?_, hkept, hg', hview⟩
    dsimp only
    rw [hrun]
    rfl

end Sprite

/-! ## Elements and menus -/

namespace UiElement

def layer (W H : Nat) (element : UiElement) : Picture :=
  element.sprite.layer W H element.aabb.position

def Drawable (element : UiElement) : Prop := element.sprite.Drawable element.aabb.position

/-- The two elements look alike, and are clicked alike. -/
structure Kept (element element' : UiElement) : Prop where
  aabb : element'.aabb = element.aabb
  on_click : element'.on_click = element.on_click
  sprite : element.sprite.Kept element'.sprite

theorem Kept.refl (element : UiElement) : element.Kept element := ⟨rfl, rfl, .refl _⟩

theorem Kept.trans {e e' e'' : UiElement} (h : e.Kept e') (h' : e'.Kept e'') : e.Kept e'' :=
  ⟨h'.aabb.trans h.aabb, h'.on_click.trans h.on_click, h.sprite.trans h'.sprite⟩

theorem Kept.layer {e e' : UiElement} (h : e.Kept e') (W H : Nat) :
    e'.layer W H = e.layer W H := by
  unfold UiElement.layer
  rw [h.aabb, h.sprite.layer]

theorem Kept.drawable {e e' : UiElement} (h : e.Kept e') (he : e.Drawable) : e'.Drawable := by
  unfold Drawable
  rw [h.aabb]
  exact h.sprite.drawable he

end UiElement

namespace Menu

/-- What a menu shows: its elements, one over the other. -/
def layer (W H : Nat) (menu : Menu) : Picture :=
  Layer.stack (menu.element.map (UiElement.layer W H))

def Drawable (menu : Menu) : Prop := ∀ element ∈ menu.element, element.Drawable

def Kept (menu menu' : Menu) : Prop := List.Forall₂ UiElement.Kept menu.element menu'.element

theorem Kept.refl (menu : Menu) : menu.Kept menu := by
  unfold Kept
  exact List.forall₂_same.mpr fun element _ => .refl element

theorem forall₂_trans {α : Type} {R : α → α → Prop} (hR : ∀ a b c, R a b → R b c → R a c)
    {l l' l'' : List α} (h : List.Forall₂ R l l') (h' : List.Forall₂ R l' l'') :
    List.Forall₂ R l l'' := by
  induction h generalizing l'' with
  | nil => exact h'
  | cons hhead _ ih =>
    cases h' with
    | cons hhead' htail' => exact .cons (hR _ _ _ hhead hhead') (ih htail')

theorem Kept.trans {menu menu' menu'' : Menu} (h : menu.Kept menu') (h' : menu'.Kept menu'') :
    menu.Kept menu'' :=
  forall₂_trans (R := UiElement.Kept) (fun _ _ _ hab hbc => hab.trans hbc) h h'

theorem Kept.layer {menu menu' : Menu} (h : menu.Kept menu') (W H : Nat) :
    menu'.layer W H = menu.layer W H := by
  have hlayers : ∀ {elements elements' : List UiElement},
      List.Forall₂ UiElement.Kept elements elements' →
        elements'.map (UiElement.layer W H) = elements.map (UiElement.layer W H) := by
    intro elements elements' hkept
    induction hkept with
    | nil => rfl
    | cons hhead _ ih => rw [List.map_cons, List.map_cons, hhead.layer, ih]
  exact congrArg Layer.stack (hlayers h)

theorem drawElementsOn_spec {W H : Nat} (hW : W ≤ 32768) (hH : H ≤ 32768)
    {elements : List UiElement} (h : ∀ e ∈ elements, e.Drawable) {g : Gpu} (hg : g.Ready W H) :
    ∃ drawn calls g', drawElements elements = .ok (drawn, calls) ∧
      drawElementsOn elements g = .ok (drawn, g') ∧ List.Forall₂ UiElement.Kept elements drawn ∧
      (∀ e ∈ drawn, e.Drawable) ∧ g'.Ready W H ∧
      g'.view = (Layer.stack (elements.map (UiElement.layer W H))).onto g.view := by
  induction elements generalizing g with
  | nil => exact ⟨[], [], g, rfl, rfl, .nil, h, hg, rfl⟩
  | cons element next ih =>
    obtain ⟨hfirst, hnext⟩ := List.forall_mem_cons.mp h
    obtain ⟨sprite, g₁, hdraw, hdrawOn, hkept, hg₁, hview₁⟩ :=
      Sprite.Drawable.drawOn hW hH hfirst hg
    obtain ⟨drawn, calls, g', hdrawn, hdrawnOn, hkepts, hdrawables, hg', hview⟩ := ih hnext hg₁
    have helement : element.draw g = .ok ({ element with sprite }, g₁) := by
      unfold UiElement.draw
      unfold Sprite.drawOn at hdrawOn
      rw [hdraw, ok_bind] at hdrawOn ⊢
      dsimp only at hdrawOn ⊢
      cases hcall : element.sprite.call element.aabb.position with
      | none =>
        rw [hcall] at hdrawOn
        cases hdrawOn
        rfl
      | some call =>
        rw [hcall] at hdrawOn
        obtain ⟨g₂, hrun, heq⟩ := bind_eq_ok.mp hdrawOn
        cases heq
        dsimp only
        rw [hrun]
        rfl
    have hkeptElement : element.Kept { element with sprite } := ⟨rfl, rfl, hkept⟩
    refine ⟨{ element with sprite } :: drawn,
      (element.sprite.call element.aabb.position).toList ++ calls, g', ?_, ?_,
      .cons hkeptElement hkepts, ?_, hg', ?_⟩
    · rw [drawElements, hdraw, ok_bind]
      dsimp only
      rw [hdrawn]
      rfl
    · rw [drawElementsOn, helement, ok_bind]
      dsimp only
      rw [hdrawnOn]
      rfl
    · exact List.forall_mem_cons.mpr ⟨hkeptElement.drawable hfirst, hdrawables⟩
    · rw [hview, hview₁, List.map_cons, Layer.stack, Layer.onto_assoc]
      rfl

/-- **`Menu_draw`** puts the menu over the picture, and leaves it looking as it did. -/
theorem Drawable.drawOn {W H : Nat} (hW : W ≤ 32768) (hH : H ≤ 32768) {menu : Menu}
    (h : menu.Drawable) {g : Gpu} (hg : g.Ready W H) :
    ∃ menu' calls g', menu.draw = .ok (menu', calls) ∧ menu.drawOn g = .ok (menu', g') ∧
      menu.Kept menu' ∧ menu'.Drawable ∧ g'.Ready W H ∧
      g'.view = (menu.layer W H).onto g.view := by
  obtain ⟨drawn, calls, g', hdrawn, hdrawnOn, hkept, hdrawable, hg', hview⟩ :=
    drawElementsOn_spec hW hH h hg
  refine ⟨⟨drawn⟩, calls, g', ?_, ?_, hkept, hdrawable, hg', hview⟩
  · rw [Menu.draw, hdrawn]
    rfl
  · rw [Menu.drawOn, hdrawnOn]
    rfl

end Menu

end Lcom

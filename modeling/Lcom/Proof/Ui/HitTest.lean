import Lcom.Proof.Drivers.Blit
import Lcom.Ui.Menu

/-!
# The pointer on an element

Two functions say how far an element of a menu extends: `AABB_contains`, which decides whether the
pointer is on it, and the blit, which paints it. The blit stops before `position + size`, the hit
test behind it, so an element reacts one column and one row beyond its picture.
-/

namespace Lcom

open Lib

/-- Drawing the element writes the pixel: the bytes that stand there afterwards do not depend on
    what the back buffer held. -/
def UiElement.Writes (element : UiElement) (g : Gpu) (px py : Nat) : Prop :=
  ∃ byte : Nat → Option UInt8, ∀ s, Gpu.SameMode g s →
    ∃ after, element.draw s = .ok after ∧ ∀ k < g.bpp, after.2.pixel px py k = byte k

/-- The element shows a frame of `img`, without transparency, and is as large as the frame. -/
structure UiElement.Framed (element : UiElement) (img : XpmImage) (offset : Vec2) : Prop where
  image : element.sprite.img = some img
  loaded : img.type ≠ .invalid
  solid : element.sprite.transparent = false
  offsetAt : element.sprite.offsets[element.sprite.current_frame.toNat]? = some offset
  sizeAt : element.sprite.sizes[element.sprite.current_frame.toNat]? = some element.aabb.size
  inside : Gpu.FrameWithin img offset element.aabb.size

/-- The pixels directly to the right of the picture and directly below it. -/
def Aabb.FarEdge (aabb : Aabb) (px py : Nat) : Prop :=
  (px : Int) = aabb.position.x + aabb.size.x ∧ aabb.position.y ≤ py ∧
      py ≤ aabb.position.y + aabb.size.y ∨
    (py : Int) = aabb.position.y + aabb.size.y ∧ aabb.position.x ≤ px ∧
      px ≤ aabb.position.x + aabb.size.x

theorem Aabb.contains_iff (aabb : Aabb) (point : Vec2) :
    aabb.contains point = true ↔
      (aabb.position.x ≤ point.x ∧ point.x ≤ aabb.position.x + aabb.size.x) ∧
        aabb.position.y ≤ point.y ∧ point.y ≤ aabb.position.y + aabb.size.y := by
  unfold Aabb.contains
  split
  · exact iff_of_false (by simp) (by omega)
  · split
    · exact iff_of_false (by simp) (by omega)
    · exact iff_of_true rfl (by omega)

section
variable {element : UiElement} {img : XpmImage} {offset : Vec2} {g : Gpu}

/-- Drawing such an element is one call of `gpu_draw_xpm`. -/
theorem UiElement.Framed.draw_eq (h : element.Framed img offset) (s : Gpu) :
    element.draw s = (s.drawXpm img element.aabb.position offset element.aabb.size).map fun s' =>
      ({ element with sprite := element.sprite.advance }, s') := by
  unfold draw Sprite.draw Sprite.frameOf
  rw [h.image]
  dsimp only
  rw [if_neg h.loaded, h.offsetAt, h.sizeAt, h.solid]
  change (s.drawXpm img element.aabb.position offset element.aabb.size >>= _) = _
  cases s.drawXpm img element.aabb.position offset element.aabb.size with
  | error e => rfl
  | ok s' => rfl

/-- What drawing it leaves in the back buffer. -/
theorem UiElement.Framed.draw_spec (h : element.Framed img offset) (hg : g.Sized) (hb : 0 < g.bpp)
    (himg : g.Holds img) {s : Gpu} (hs : Gpu.SameMode g s) :
    ∃ after, element.draw s = .ok after ∧ ∀ px py k, px < g.W → py < g.H → k < g.bpp →
      after.2.pixel px py k =
        if Gpu.InRect element.aabb.position element.aabb.size px py then
          g.drawnByte img element.aabb.position offset px py k
        else s.pixel px py k := by
  have himg' : s.Holds img := by
    unfold Gpu.Holds
    rw [hs.bpp]
    exact himg
  obtain ⟨s', hdraw, -, hpixels⟩ := Gpu.drawXpm_spec (hs.sized hg) (hs.bpp ▸ hb) himg' h.inside
    element.aabb.position
  refine ⟨({ element with sprite := element.sprite.advance }, s'), ?_, fun px py k hpx hpy hk => ?_⟩
  · rw [h.draw_eq, hdraw]
    rfl
  · have hbyte : s.drawnByte img element.aabb.position offset px py k =
        g.drawnByte img element.aabb.position offset px py k := by
      unfold Gpu.drawnByte
      rw [hs.bpp]
    rw [hpixels px py k (hs.W ▸ hpx) (hs.H ▸ hpy) (hs.bpp ▸ hk), hbyte]

/-- The blit writes the pixels of the rectangle and no others. -/
theorem UiElement.Framed.writes_iff (h : element.Framed img offset) (hg : g.Sized) (hb : 0 < g.bpp)
    (himg : g.Holds img) {px py : Nat} (hpx : px < g.W) (hpy : py < g.H) :
    element.Writes g px py ↔ Gpu.InRect element.aabb.position element.aabb.size px py := by
  constructor
  · intro hwrites
    obtain ⟨byte, hbyte⟩ := hwrites
    by_contra hout
    -- a pixel outside keeps whatever it held, a 0 as well as a 1
    have hkeeps : ∀ b, byte 0 = some b := by
      intro b
      obtain ⟨s, hs, hpixel⟩ := Gpu.exists_pixel_eq hg hb hpx hpy b
      obtain ⟨after, hdraw, hall⟩ := hbyte s hs
      obtain ⟨after', hdraw', hall'⟩ := h.draw_spec hg hb himg hs
      rw [hdraw, Except.ok.injEq] at hdraw'
      subst hdraw'
      have hold := hall' px py 0 hpx hpy hb
      rw [if_neg hout, hpixel] at hold
      rw [← hall 0 hb, hold]
    have hne : (some 0 : Option UInt8) = some 1 := (hkeeps 0).symm.trans (hkeeps 1)
    exact absurd hne (by decide)
  · intro hin
    refine ⟨g.drawnByte img element.aabb.position offset px py, fun s hs => ?_⟩
    obtain ⟨after, hdraw, hall⟩ := h.draw_spec hg hb himg hs
    refine ⟨after, hdraw, fun k hk => ?_⟩
    rw [hall px py k hpx hpy hk, if_pos hin]

theorem Aabb.farEdge_iff {aabb : Aabb} (hwidth : 0 ≤ aabb.size.x) (hheight : 0 ≤ aabb.size.y)
    (px py : Nat) :
    aabb.FarEdge px py ↔
      aabb.contains ⟨px, py⟩ = true ∧ ¬ Gpu.InRect aabb.position aabb.size px py := by
  rw [Aabb.contains_iff]
  unfold Aabb.FarEdge Gpu.InRect
  dsimp only
  omega

/-- **An element reacts where it is painted, except along its far edges.** -/
theorem contains_iff_writes_iff (h : element.Framed img offset) (hg : g.Sized) (hb : 1 ≤ g.bpp)
    (himg : g.Holds img) {px py : Nat} (hpx : px < g.W) (hpy : py < g.H) :
    (element.aabb.contains ⟨px, py⟩ = true ↔ element.Writes g px py) ↔
      ¬ element.aabb.FarEdge px py := by
  have hinside : Gpu.InRect element.aabb.position element.aabb.size px py →
      element.aabb.contains ⟨px, py⟩ = true := by
    intro hin
    rw [Aabb.contains_iff]
    unfold Gpu.InRect at hin
    dsimp only
    omega
  rw [h.writes_iff hg hb himg hpx hpy, Aabb.farEdge_iff h.inside.width h.inside.height]
  tauto

end

/-! ## The Play button -/

/-- The Play button of the main menu, over an image of its size. -/
def playElement : UiElement :=
  Menu.singleFrame ⟨⟨311, 340⟩, ⟨402, 97⟩⟩ ⟨.indexed, 402, 97, List.replicate (402 * 97) 0⟩ ⟨0, 0⟩
    ⟨402, 97⟩ (some spoof) false

/-- The driver in the mode the program sets, 1024 by 768 pixels of one byte. -/
def graphics : Gpu := ⟨⟨1024, 768⟩, 1, List.replicate (768 * 1024 * 1) 0⟩

theorem framed_playElement :
    playElement.Framed ⟨.indexed, 402, 97, List.replicate (402 * 97) 0⟩ ⟨0, 0⟩ where
  image := rfl
  loaded := by simp
  solid := rfl
  offsetAt := rfl
  sizeAt := rfl
  inside := ⟨by decide, by decide, by decide, by decide, by decide, by decide⟩

theorem sized_graphics : graphics.Sized := by
  unfold Gpu.Sized
  exact List.length_replicate

theorem holds_graphics :
    graphics.Holds ⟨.indexed, 402, 97, List.replicate (402 * 97) 0⟩ := by
  unfold Gpu.Holds
  dsimp only
  rw [List.length_replicate]
  decide

theorem contains_iff_writes_iff_corner :
    (playElement.aabb.contains ⟨311, 340⟩ = true ↔ playElement.Writes graphics 311 340) ↔
      ¬ playElement.aabb.FarEdge 311 340 :=
  contains_iff_writes_iff framed_playElement sized_graphics (by decide) holds_graphics
    (by decide) (by decide)

/-- Directly to the right of the picture the button still reacts. -/
theorem contains_beyond_picture :
    ¬ ∀ (element : UiElement) img offset g px py, element.Framed img offset → Gpu.Sized g →
      1 ≤ Gpu.bpp g → Gpu.Holds g img → px < Gpu.W g → py < Gpu.H g →
      (element.aabb.contains ⟨px, py⟩ = true ↔ element.Writes g px py) := by
  intro h
  have hwrites := (h playElement _ _ graphics 713 340 framed_playElement sized_graphics (by decide)
    holds_graphics (by decide) (by decide)).mp (by decide)
  have hin := (framed_playElement.writes_iff sized_graphics (by decide) holds_graphics (by decide)
    (by decide)).mp hwrites
  exact absurd hin (by decide)

end Lcom

import Lcom.Lab5.Move
import Lcom.Proof.Assets.Image
import Lcom.Proof.Lab5.Rectangle
import Lcom.Proof.Ui.Picture

/-!
# A frame of the moving image

A frame clears the back buffer, draws the image and copies the whole to the video memory, so what is
then on the screen is the image on black. The image is drawn pixel by pixel at coordinates that are
cut to `uint16_t`: a part that lies beyond 65535 shows on the other side.
-/

namespace Lcom
namespace Lab5

open Lib

/-- The project's driver over the same mode and the same back buffer. -/
def Gpu.toProject (g : Gpu) : Lcom.Gpu where
  gpu_res_info := ⟨g.x_res, g.y_res⟩
  bytes_per_pixel := g.bytes_per_pixel
  backbuffer := g.backbuffer

/-- What an image shows when it is drawn at `(x, y)`. -/
def imageLayer (W H : Nat) (img : XpmImage) (x y : UInt16) : Picture := fun p =>
  if (p.1 < W ∧ p.2 < H) ∧ AssetsManager.along x p.1 < img.width.toNat ∧
      AssetsManager.along y p.2 < img.height.toNat then
    img.bytes[AssetsManager.along y p.2 * img.width.toNat + AssetsManager.along x p.1]?
  else none

/-- The image has a byte for each of its pixels. -/
def Complete (img : XpmImage) : Prop := img.height.toNat * img.width.toNat ≤ img.bytes.length

instance (img : XpmImage) : Decidable (Complete img) := inferInstanceAs (Decidable (_ ≤ _))

/-! ## Drawing -/

/-- The walk of `aux_draw_xpm` is the one of `assets_manager_draw_img`. -/
theorem auxDrawXpm_eq (img : XpmImage) (x y : UInt16) (g : Lcom.Gpu) :
    (ofProject g).auxDrawXpm img x y =
      (AssetsManager.walk img.width img.height x y img.bytes (0, g)).map
        fun s => (0, ofProject s.2) := by
  have hpixel : ∀ iy ix (s : Nat × Lcom.Gpu),
      Gpu.drawXpmPixel img.bytes x y iy ix (s.1, ofProject s.2) =
        (AssetsManager.imgPixel x y img.bytes iy ix s).map fun s => (0, (s.1, ofProject s.2)) := by
    intro iy ix s
    unfold Gpu.drawXpmPixel AssetsManager.imgPixel
    cases loadByte img.bytes s.1 with
    | error f => rfl
    | ok color =>
      rw [ok_bind, ok_bind]
      dsimp only
      rw [drawPixel_ofProject]
      cases s.2.drawPixel (UInt16.ofInt (x.toNat + ix)) (UInt16.ofInt (y.toNat + iy))
        color.toUInt32 with
      | error f => rfl
      | ok g => rfl
  have hwalk := forRangeCheck_map (f := fun s : Nat × Lcom.Gpu => (s.1, ofProject s.2))
    (fun iy s => forRangeCheck_map (f := fun s : Nat × Lcom.Gpu => (s.1, ofProject s.2))
      (fun ix s => hpixel iy ix s) 0 (img.width.toNat - 1) s) 0 (img.height.toNat - 1) (0, g)
  unfold Gpu.auxDrawXpm AssetsManager.walk
  rw [hwalk]
  cases forRange 0 (img.height.toNat - 1 : Int)
    (fun iy => forRange 0 (img.width.toNat - 1) (AssetsManager.imgPixel x y img.bytes iy))
    (0, g) with
  | error f => rfl
  | ok s => rfl

namespace Panel

/-- The mode is one of `H` lines of `W` pixels, one byte each, and both buffers are as long. -/
structure Ready (W H : Nat) (d : Panel) : Prop where
  gpu : d.gpu.toProject.Ready W H
  vram : d.video_mem.length = d.gpu.backbuffer.length

/-- What is in the back buffer, and what is on the screen. -/
def back (d : Panel) : Picture := d.gpu.toProject.view

def screen (d : Panel) : Picture := Lcom.Gpu.view { d.gpu.toProject with backbuffer := d.video_mem }

variable {W H : Nat} {d : Panel}

/-- Drawing that the project's driver would have done as well. -/
theorem Ready.drawn (h : d.Ready W H) {g : Lcom.Gpu} (hmode : Gpu.SameMode d.gpu.toProject g) :
    Ready W H { d with gpu := ofProject g } where
  gpu := h.gpu.sameMode hmode
  vram := h.vram.trans hmode.length.symm

/-- **`aux_clear`** leaves nothing in the back buffer. -/
theorem Ready.clear (h : d.Ready W H) :
    ∃ d', d.clear = .ok (0, d') ∧ d'.Ready W H ∧ d'.back = blackScreen W H ∧
      d'.video_mem = d.video_mem := by
  have hone := h.gpu.one
  have hx := d.gpu.x_res.toNat_lt
  have hy := d.gpu.y_res.toNat_lt
  obtain ⟨g, hdraw, hcolored⟩ := @pixelRect_colored d.gpu.toProject 0 0 h.gpu.sized
    (hone ▸ by decide) (Gpu.mem_of_one hone) d.gpu.x_res d.gpu.y_res
    (fun z hlo hhi => uncut_of_nonneg hlo (by omega))
    (fun z hlo hhi => uncut_of_nonneg hlo (by omega)) 0
  refine ⟨{ d with gpu := ofProject g }, ?_, h.drawn hcolored.1, ?_, rfl⟩
  · have hclear : d.gpu.auxClear = .ok (0, ofProject g) := by
      change Gpu.vgDrawRectangle 0 0 d.gpu.x_res d.gpu.y_res 0 (ofProject d.gpu.toProject) = _
      rw [vgDrawRectangle_ofProject]
      change (pixelRect (UInt16.ofInt 0) (UInt16.ofInt 0) d.gpu.x_res d.gpu.y_res 0 _).map _ = _
      rw [hdraw]
      rfl
    unfold Panel.clear
    rw [hclear]
    rfl
  · funext p
    change g.view p = _
    unfold blackScreen
    split
    · next hp =>
      have hin : Gpu.InRect ⟨0, 0⟩ ⟨d.gpu.x_res.toNat, d.gpu.y_res.toNat⟩ p.1 p.2 := by
        have hwidth : d.gpu.x_res.toNat = W := h.gpu.width
        have hheight : d.gpu.y_res.toNat = H := h.gpu.height
        unfold Gpu.InRect
        dsimp only
        omega
      have hblack := (hcolored.2 p.1 p.2 0 (h.gpu.width.symm ▸ hp.1) (h.gpu.height.symm ▸ hp.2)
        (by rw [hone]; decide)).1 hin
      rw [(h.gpu.sameMode hcolored.1).view_of_inside hp, hblack]
      rfl
    · next hp => exact (h.gpu.sameMode hcolored.1).view_of_outside hp

/-- **`aux_draw_xpm`** puts the image over the picture. -/
theorem Ready.drawXpm (h : d.Ready W H) {img : XpmImage} (himg : Complete img) (x y : UInt16) :
    ∃ d', d.drawXpm img x y = .ok (0, d') ∧ d'.Ready W H ∧
      d'.back = (imageLayer W H img x y).onto d.back ∧ d'.video_mem = d.video_mem := by
  obtain ⟨g, hwalk, hmode, hpixels⟩ := AssetsManager.walk_spec x y h.gpu.sized h.gpu.one himg
  refine ⟨{ d with gpu := ofProject g }, ?_, h.drawn hmode, ?_, rfl⟩
  · have hdraw : d.gpu.auxDrawXpm img x y = .ok (0, ofProject g) := by
      change (ofProject d.gpu.toProject).auxDrawXpm img x y = _
      rw [auxDrawXpm_eq, hwalk]
      rfl
    unfold Panel.drawXpm
    rw [hdraw]
    rfl
  · refine h.gpu.view_eq_onto hmode (fun p hp => if_neg fun hboth => hp hboth.1) fun p hp => ?_
    rw [hpixels p.1 p.2 (h.gpu.width.symm ▸ hp.1) (h.gpu.height.symm ▸ hp.2)]
    unfold imageLayer
    split
    · next hin =>
      have hlt : AssetsManager.along y p.2 * img.width.toNat + AssetsManager.along x p.1 <
          img.bytes.length := (pixel_lt hin.1 hin.2).trans_le himg
      rw [if_pos ⟨hp, hin⟩, List.getElem?_eq_getElem hlt, Option.some_or]
    · next hout => rw [if_neg fun hboth => hout hboth.2, Option.none_or]

/-- **`aux_vg_commit`** shows the back buffer. -/
theorem Ready.vgCommit (h : d.Ready W H) :
    ∃ d', d.vgCommit = .ok d' ∧ d'.Ready W H ∧ d'.screen = d.back := by
  have hsize : d.gpu.vramSize.toNat = d.gpu.backbuffer.length := h.gpu.vramSize
  refine ⟨{ d with video_mem := d.gpu.backbuffer }, ?_, ⟨h.gpu, rfl⟩, rfl⟩
  unfold Panel.vgCommit
  rw [hsize, memcpy_all h.vram]
  rfl

end Panel

/-! ## Frames -/

/-- The last of the frames is on the screen, on black; before the first one the memory is as it was. -/
structure Panel.Shows (W H : Nat) (img : XpmImage) (d d₀ : Panel) (frames : List (UInt16 × UInt16)) :
    Prop where
  ready : d.Ready W H
  untouched : frames = [] → d = d₀
  last : ∀ earlier x y, frames = earlier ++ [(x, y)] →
    d.screen = (imageLayer W H img x y).onto (blackScreen W H)

section
variable {W H : Nat} {img : XpmImage} {d₀ : Panel} {s : Mover}

theorem Panel.shows_start (h : d₀.Ready W H) : d₀.Shows W H img d₀ [] where
  ready := h
  untouched := fun _ => rfl
  last := fun earlier x y h => by simp at h

/-- What a frame changes. -/
structure Mover.Framed (W H : Nat) (img : XpmImage) (d₀ : Panel) (s s' : Mover) : Prop where
  kbd : s'.kbd = s.kbd
  counter : s'.counter = s.counter
  place : s'.x = s.x ∧ s'.y = s.y
  left : s'.left = s.left
  frames : s'.frames = s.frames ++ [(s.x, s.y)]
  shows : s'.panel.Shows W H img d₀ s'.frames

/-- The image is drawn and shown. -/
theorem Mover.framed_showFrame {panel : Panel} (hready : panel.Ready W H)
    (hback : panel.back = (imageLayer W H img s.x s.y).onto (blackScreen W H)) :
    ∃ s', Mover.showFrame { s with panel } = .ok s' ∧ s.Framed W H img d₀ s' := by
  obtain ⟨d', hcommit, hready', hscreen⟩ := hready.vgCommit
  refine ⟨{ s with panel := d', frames := s.frames ++ [(s.x, s.y)] }, ?_,
    ⟨rfl, rfl, ⟨rfl, rfl⟩, rfl, rfl, hready', fun hnone => by simp at hnone, ?_⟩⟩
  · unfold Mover.showFrame
    rw [hcommit]
    rfl
  · intro earlier x y hframes
    obtain ⟨-, hlast⟩ := List.append_inj' hframes rfl
    obtain ⟨rfl, rfl⟩ := Prod.mk.inj (List.singleton_inj.mp hlast)
    rw [hscreen, hback]

/-- **A frame of the controller.** -/
theorem Controller.drawFrame_framed (himg : Complete img) (h : s.panel.Ready W H) :
    ∃ s', Controller.drawFrame img s = .ok s' ∧ s.Framed W H img d₀ s' := by
  obtain ⟨cleared, hclear, hready, hblack, -⟩ := h.clear
  obtain ⟨drawn, hdraw, hready', hback, -⟩ := hready.drawXpm himg s.x s.y
  rw [hblack] at hback
  obtain ⟨s', hshow, hframed⟩ := @Mover.framed_showFrame W H img d₀ s drawn hready' hback
  refine ⟨s', ?_, hframed⟩
  unfold Controller.drawFrame
  rw [hclear, ok_bind]
  dsimp only
  rw [hdraw, ok_bind]
  exact hshow

/-- **A frame of the image on its way** is one pixel further. -/
theorem Mover.stepFrame_framed (himg : Complete img) (h : s.panel.Ready W H) :
    ∃ s', s.stepFrame img = .ok s' ∧
      Mover.Framed W H img d₀ { s with x := s.x + 1, y := s.y + 1 } s' := by
  obtain ⟨cleared, hclear, hready, hblack, -⟩ := h.clear
  obtain ⟨drawn, hdraw, hready', hback, -⟩ := hready.drawXpm himg (s.x + 1) (s.y + 1)
  rw [hblack] at hback
  obtain ⟨s', hshow, hframed⟩ := @Mover.framed_showFrame W H img d₀
    { s with x := s.x + 1, y := s.y + 1 } drawn hready' hback
  refine ⟨s', ?_, hframed⟩
  unfold Mover.stepFrame
  dsimp only
  rw [hclear, ok_bind]
  dsimp only
  rw [if_neg (by decide), hdraw, ok_bind]
  exact hshow

end

end Lab5
end Lcom

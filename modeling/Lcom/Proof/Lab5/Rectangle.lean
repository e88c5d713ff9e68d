import Lcom.Lab5.Gpu
import Lcom.Proof.Drivers.Blit

/-!
# Two ways to fill a rectangle

The project fills a rectangle line by line, with signed clipping; lab 5 did it pixel by pixel, with
coordinates that are cut to `uint16_t` at every call. Both loops are described by the same picture,
`Filled`, so they leave the same back buffer (`drawRect_eq_vgDrawRectangle`).
-/

namespace Lcom

open Lib

namespace Gpu

/-! ## Back buffers are equal when their pixels are -/

theorem exists_pixel {g : Gpu} (hg : g.Sized) {i : Nat} (hi : i < g.backbuffer.length) :
    ∃ px py k, px < g.W ∧ py < g.H ∧ k < g.bpp ∧ i = (py * g.W + px) * g.bpp + k := by
  rw [hg] at hi
  have hbpp : 0 < g.bpp := by
    by_contra h
    rw [Nat.eq_zero_of_not_pos h, Nat.mul_zero] at hi
    exact Nat.not_lt_zero _ hi
  have hpixel : i / g.bpp < g.H * g.W := Nat.div_lt_of_lt_mul (by rwa [Nat.mul_comm])
  have hW : 0 < g.W := by
    by_contra h
    rw [Nat.eq_zero_of_not_pos h, Nat.mul_zero] at hpixel
    exact Nat.not_lt_zero _ hpixel
  refine ⟨i / g.bpp % g.W, i / g.bpp / g.W, i % g.bpp, Nat.mod_lt _ hW, ?_, Nat.mod_lt _ hbpp, ?_⟩
  · exact Nat.div_lt_of_lt_mul (by rwa [Nat.mul_comm])
  · rw [Nat.div_add_mod', Nat.div_add_mod']

theorem SameMode.ext {g a b : Gpu} (hg : g.Sized) (ha : SameMode g a) (hb : SameMode g b)
    (h : ∀ px py k, px < g.W → py < g.H → k < g.bpp → a.pixel px py k = b.pixel px py k) :
    a = b := by
  have hbuffer : a.backbuffer = b.backbuffer := by
    refine List.ext_getElem? fun i => ?_
    by_cases hi : i < g.backbuffer.length
    · obtain ⟨px, py, k, hpx, hpy, hk, rfl⟩ := exists_pixel hg hi
      have hpixel := h px py k hpx hpy hk
      unfold pixel at hpixel
      rwa [ha.W, ha.bpp, hb.W, hb.bpp] at hpixel
    · rw [List.getElem?_eq_none (by rw [ha.length]; omega),
        List.getElem?_eq_none (by rw [hb.length]; omega)]
  obtain ⟨res, bytes, buffer⟩ := a
  obtain ⟨res', bytes', buffer'⟩ := b
  have hres : res = res' := ha.res.trans hb.res.symm
  have hbytes : bytes = bytes' := ha.bytes.trans hb.bytes.symm
  have hbuffer : buffer = buffer' := hbuffer
  rw [hres, hbytes, hbuffer]

/-- The first `n` rows of the rectangle have been filled. -/
def Filled (g : Gpu) (position size : Vec2) (color : UInt8) (n : Int) (s : Gpu) : Prop :=
  SameMode g s ∧ ∀ px py, px < g.W → py < g.H →
    s.pixel px py 0 =
      if InRect position size px py ∧ py - position.y < n then some color else g.pixel px py 0

theorem filled_zero (g : Gpu) (position size : Vec2) (color : UInt8) :
    Filled g position size color 0 g := by
  refine ⟨SameMode.refl g, fun px py _ _ => ?_⟩
  rw [if_neg]
  unfold InRect
  omega

/-- A row of the rectangle has been filled in `s'`, in addition to the ones above it. -/
theorem Filled.succ {g s s' : Gpu} {position size : Vec2} {color : UInt8} {n : Int}
    (h : Filled g position size color n s) (hn : 0 ≤ n ∧ n < size.y) (hmode : SameMode s s')
    (hrow : ∀ px py, px < s.W → py < s.H → s'.pixel px py 0 =
      if (py : Int) = position.y + n ∧ position.x ≤ px ∧ px < position.x + size.x then some color
      else s.pixel px py 0) : Filled g position size color (n + 1) s' := by
  obtain ⟨hsame, hpixels⟩ := h
  refine ⟨hsame.trans hmode, fun px py hpx hpy => ?_⟩
  rw [hrow px py (hsame.W ▸ hpx) (hsame.H ▸ hpy), hpixels px py hpx hpy]
  by_cases hhere : (py : Int) = position.y + n ∧ position.x ≤ px ∧ px < position.x + size.x
  · have hin : InRect position size px py ∧ py - position.y < n + 1 := by
      unfold InRect
      omega
    rw [if_pos hhere, if_pos hin]
  · rw [if_neg hhere]
    refine if_congr ?_ rfl rfl
    unfold InRect
    omega

/-- Two buffers with the same rows of the same rectangle filled are the same. -/
theorem Filled.unique {g s s' : Gpu} {position size : Vec2} {color : UInt8} {n : Int}
    (hg : g.Sized) (hb : g.bpp = 1) (h : Filled g position size color n s)
    (h' : Filled g position size color n s') : s = s' := by
  refine SameMode.ext hg h.1 h'.1 fun px py k hpx hpy hk => ?_
  obtain rfl : k = 0 := by omega
  rw [h.2 px py hpx hpy, h'.2 px py hpx hpy]

/-! ## Line by line -/

theorem drawRectLine_filled {g s : Gpu} {position size : Vec2} {color : UInt8} {p : Nat} {y : Int}
    (hg : g.Sized) (hb : g.bpp = 1) (hp : 0 < p) (hsize : size.x = p)
    (hy : position.y ≤ y ∧ y < position.y + size.y)
    (hs : Filled g position size color (y - position.y) s) :
    ∃ s', drawRectLine position size color y s = .ok s' ∧
      Filled g position size color (y + 1 - position.y) s' := by
  have hb' : s.bpp = 1 := hs.1.bpp.trans hb
  have hlen : (List.replicate p color).length = p * s.bpp := by
    rw [List.length_replicate, hb', Nat.mul_one]
  obtain ⟨s', hdraw, hmode, hpixels⟩ :=
    drawLine_spec (hs.1.sized hg) (by omega) ⟨position.x, y⟩ hlen
  refine ⟨s', ?_, ?_⟩
  · unfold drawRectLine
    rw [if_neg (by omega), hsize]
    exact hdraw
  · have hnext : y + 1 - position.y = y - position.y + 1 := by omega
    rw [hnext]
    refine hs.succ (by omega) hmode fun px py hpx hpy => ?_
    rw [hpixels px py 0 hpx hpy (by omega), hb']
    have hline : (py : Int) = y ∧ position.x ≤ px ∧ px < position.x + p ↔
        (py : Int) = position.y + (y - position.y) ∧ position.x ≤ px ∧
          px < position.x + size.x := by omega
    by_cases hhere : (py : Int) = y ∧ position.x ≤ px ∧ px < position.x + p
    · have hlt : skipped position.x + ((px - position.x.toNat) * 1 + 0) < p := by
        unfold skipped
        omega
      rw [if_pos hhere, if_pos (hline.mp hhere), List.getElem?_replicate, if_pos hlt]
    · rw [if_neg hhere, if_neg fun h => hhere (hline.mpr h)]

/-- What `gpu_draw_rect` leaves in the back buffer. -/
theorem drawRect_filled {g : Gpu} {position size : Vec2} {color : UInt8} (hg : g.Sized)
    (hb : g.bpp = 1) (hx : 0 < size.x) (hy : 0 ≤ size.y) :
    ∃ g', g.drawRect indexMode position size color = .ok g' ∧
      Filled g position size color size.y g' := by
  obtain ⟨p, hp⟩ : ∃ p : Nat, size.x = p := ⟨_, (Int.toNat_of_nonneg (by omega)).symm⟩
  have hstart : Filled g position size color (position.y - position.y) g := by
    rw [Int.sub_self]
    exact filled_zero g position size color
  have hloop : ∃ g', g.drawRect indexMode position size color = .ok g' ∧
      Filled g position size color (position.y + size.y - 1 + 1 - position.y) g' :=
    forRange_spec (I := fun y => Filled g position size color (y - position.y)) (by omega) hstart
      fun y s hlo hhi hs => drawRectLine_filled hg hb (by omega) hp ⟨hlo, by omega⟩ hs
  have hlast : position.y + size.y - 1 + 1 - position.y = size.y := by omega
  rwa [hlast] at hloop

end Gpu

/-! ## Pixel by pixel -/

namespace Lab5

/-- The driver of lab 5 over the same mode and the same back buffer. -/
def ofProject (g : Lcom.Gpu) : Gpu where
  x_res := g.gpu_res_info.x_res
  y_res := g.gpu_res_info.y_res
  bytes_per_pixel := g.bytes_per_pixel
  backbuffer := g.backbuffer

/-- The two loops, with the project's `gpu_draw_pixel` in them. -/
def pixelLine (x y len : UInt16) (color : UInt32) (g : Lcom.Gpu) : Except Fault Lcom.Gpu :=
  forRange 0 (len.toNat - 1) (fun n g => g.drawPixel (UInt16.ofInt (x.toNat + n)) y color) g

def pixelRect (x y width height : UInt16) (color : UInt32) (g : Lcom.Gpu) :
    Except Fault Lcom.Gpu :=
  forRange 0 (height.toNat - 1)
    (fun n => pixelLine x (UInt16.ofInt (y.toNat + n)) width color) g

theorem drawPixel_ofProject (x y : UInt16) (color : UInt32) (g : Lcom.Gpu) :
    Gpu.drawPixel x y color (ofProject g) =
      (g.drawPixel x y color).map fun g' => (0, ofProject g') := by
  have hcopy : ∀ e : Except Fault (List UInt8),
      (e >>= fun backbuffer => pure (0, ofProject { g with backbuffer })) =
        (e >>= fun backbuffer => pure { g with backbuffer }).map fun g' =>
          ((0 : Int), ofProject g') := by
    intro e
    cases e with
    | error f => rfl
    | ok backbuffer => rfl
  unfold Lcom.Gpu.drawPixel
  change (if x ≥ g.gpu_res_info.x_res ∨ y ≥ g.gpu_res_info.y_res then _ else _) = _
  split
  · rfl
  · exact hcopy _

theorem vgDrawHline_ofProject (x y len : UInt16) (color : UInt32) (g : Lcom.Gpu) :
    Gpu.vgDrawHline x y len color (ofProject g) =
      (pixelLine x y len color g).map fun g' => (0, ofProject g') :=
  forRangeCheck_map (fun n g => drawPixel_ofProject (UInt16.ofInt (x.toNat + n)) y color g) _ _ g

theorem vgDrawRectangle_ofProject (x y width height : UInt16) (color : UInt32) (g : Lcom.Gpu) :
    Gpu.vgDrawRectangle x y width height color (ofProject g) =
      (pixelRect x y width height color g).map fun g' => (0, ofProject g') :=
  forRangeCheck_map
    (fun n g => vgDrawHline_ofProject x (UInt16.ofInt (y.toNat + n)) width color g) _ _ g

/-- A sum on top of a coordinate that has been cut is cut to the same. -/
theorem ofInt_toNat_add (z n : Int) :
    UInt16.ofInt ((UInt16.ofInt z).toNat + n) = UInt16.ofInt (z + n) := by
  rw [← UInt16.toNat_inj, Gpu.toNat_uint16_ofInt, Gpu.toNat_uint16_ofInt, Gpu.toNat_uint16_ofInt]
  omega

/-- On a screen of `size` pixels a coordinate is where it was before it was cut to `uint16_t`. -/
def Uncut (size : Nat) (z : Int) : Prop := ∀ p < size, p = (UInt16.ofInt z).toNat ↔ (p : Int) = z

theorem uncut_of_nonneg {size : Nat} {z : Int} (hlo : 0 ≤ z) (hhi : z ≤ 65535) : Uncut size z := by
  intro p hp
  rw [Gpu.toNat_uint16_ofInt]
  omega

/-- A negative coordinate is cut to one that a small screen does not have. -/
theorem uncut_of_small {size : Nat} {z : Int} (hlo : -32768 ≤ z) (hhi : z ≤ 65535)
    (hsize : size ≤ 32768) : Uncut size z := fun _ hp =>
  Gpu.eq_toNat_ofInt_iff hlo hhi hp hsize

/-- The pixels of the region have got the colour, and the others are as they were. -/
def Colored (g : Lcom.Gpu) (color : UInt32) (region : Nat → Nat → Prop) (s : Lcom.Gpu) : Prop :=
  Gpu.SameMode g s ∧ ∀ px py k, px < g.W → py < g.H → k < g.bpp →
    (region px py → s.pixel px py k = (colorBytes color)[k]?) ∧
      (¬ region px py → s.pixel px py k = g.pixel px py k)

section
variable {g s s' : Lcom.Gpu} {X Y : Int} {color : UInt32} {region region' region'' : Nat → Nat → Prop}

theorem Colored.refl (g : Lcom.Gpu) (color : UInt32) (h : ∀ px py, ¬ region px py) :
    Colored g color region g :=
  ⟨Gpu.SameMode.refl g, fun px py _ _ _ _ => ⟨fun hin => absurd hin (h px py), fun _ => rfl⟩⟩

theorem Colored.trans (h : Colored g color region s) (h' : Colored s color region' s')
    (hboth : ∀ px py, px < g.W → py < g.H → (region'' px py ↔ region px py ∨ region' px py)) :
    Colored g color region'' s' := by
  refine ⟨h.1.trans h'.1, fun px py k hpx hpy hk => ?_⟩
  obtain ⟨hin, hout⟩ := h.2 px py k hpx hpy hk
  obtain ⟨hin', hout'⟩ := h'.2 px py k (h.1.W ▸ hpx) (h.1.H ▸ hpy) (h.1.bpp ▸ hk)
  rw [hboth px py hpx hpy, not_or]
  refine ⟨fun heither => ?_, fun hneither => ?_⟩
  · by_cases hnew : region' px py
    · exact hin' hnew
    · rw [hout' hnew]
      exact hin (heither.resolve_right hnew)
  · rw [hout' hneither.2, hout hneither.1]

theorem Colored.pixel_eq (h : Colored g color region s) [∀ px py, Decidable (region px py)]
    {px py k : Nat} (hpx : px < g.W) (hpy : py < g.H) (hk : k < g.bpp) :
    s.pixel px py k = if region px py then (colorBytes color)[k]? else g.pixel px py k := by
  obtain ⟨hin, hout⟩ := h.2 px py k hpx hpy hk
  split
  · rename_i hregion
    exact hin hregion
  · rename_i hregion
    exact hout hregion

theorem drawPixel_colored (hg : g.Sized) (hb : g.bpp ≤ 4) (hmem : g.H * g.W * g.bpp ≤ 2 ^ 32)
    (hX : Uncut g.W X) (hY : Uncut g.H Y) (color : UInt32) :
    ∃ g', g.drawPixel (UInt16.ofInt X) (UInt16.ofInt Y) color = .ok g' ∧
      Colored g color (fun px py => (px : Int) = X ∧ (py : Int) = Y) g' := by
  obtain ⟨g', hdraw, hmode, hpixels⟩ := Gpu.drawPixel_pixels hg hb hmem (UInt16.ofInt X)
    (UInt16.ofInt Y) color
  refine ⟨g', hdraw, hmode, fun px py k hpx hpy hk => ?_⟩
  have hhere := and_congr (hX px hpx) (hY py hpy)
  rw [hpixels px py k hpx hpy hk, if_congr hhere rfl rfl]
  exact ⟨fun hin => if_pos hin, fun hout => if_neg hout⟩

/-- What `vg_draw_hline` does: the pixels from `X` on, `len` of them, get the colour. -/
theorem pixelLine_colored (hg : g.Sized) (hb : g.bpp ≤ 4) (hmem : g.H * g.W * g.bpp ≤ 2 ^ 32)
    {len : UInt16} (hX : ∀ z, X ≤ z → z < X + len.toNat → Uncut g.W z) (hY : Uncut g.H Y)
    (color : UInt32) :
    ∃ g', pixelLine (UInt16.ofInt X) (UInt16.ofInt Y) len color g = .ok g' ∧
      Colored g color (fun px py => (py : Int) = Y ∧ X ≤ px ∧ px < X + len.toNat) g' := by
  have hstart : Colored g color (fun px py => (py : Int) = Y ∧ X ≤ px ∧ px < X + (0 : Int)) g :=
    Colored.refl g color fun px py => by omega
  have hloop : ∃ g', pixelLine (UInt16.ofInt X) (UInt16.ofInt Y) len color g = .ok g' ∧
      Colored g color (fun px py => (py : Int) = Y ∧ X ≤ px ∧ px < X + (len.toNat - 1 + 1 : Int)) g' := by
    refine forRange_spec
      (I := fun n s => Colored g color (fun px py => (py : Int) = Y ∧ X ≤ px ∧ px < X + n) s)
      (by omega) hstart fun n s hlo hhi hs => ?_
    obtain ⟨s', hdraw, hs'⟩ := drawPixel_colored (hs.1.sized hg) (hs.1.bpp ▸ hb)
      (by rw [hs.1.H, hs.1.W, hs.1.bpp]; exact hmem)
      (hs.1.W ▸ hX (X + n) (by omega) (by omega)) (hs.1.H ▸ hY) color
    refine ⟨s', ?_, hs.trans hs' fun px py _ _ => by omega⟩
    rw [ofInt_toNat_add]
    exact hdraw
  rwa [Int.sub_add_cancel] at hloop

/-- What `vg_draw_rectangle` does, over any mode. -/
theorem pixelRect_colored (hg : g.Sized) (hb : g.bpp ≤ 4) (hmem : g.H * g.W * g.bpp ≤ 2 ^ 32)
    {width height : UInt16} (hX : ∀ z, X ≤ z → z < X + width.toNat → Uncut g.W z)
    (hY : ∀ z, Y ≤ z → z < Y + height.toNat → Uncut g.H z) (color : UInt32) :
    ∃ g', pixelRect (UInt16.ofInt X) (UInt16.ofInt Y) width height color g = .ok g' ∧
      Colored g color (Gpu.InRect ⟨X, Y⟩ ⟨width.toNat, height.toNat⟩) g' := by
  have hstart : Colored g color (Gpu.InRect ⟨X, Y⟩ ⟨width.toNat, 0⟩) g :=
    Colored.refl g color fun px py => by unfold Gpu.InRect; dsimp only; omega
  have hloop : ∃ g', pixelRect (UInt16.ofInt X) (UInt16.ofInt Y) width height color g = .ok g' ∧
      Colored g color (Gpu.InRect ⟨X, Y⟩ ⟨width.toNat, height.toNat - 1 + 1⟩) g' := by
    refine forRange_spec
      (I := fun n s => Colored g color (Gpu.InRect ⟨X, Y⟩ ⟨width.toNat, n⟩) s)
      (by omega) hstart fun n s hlo hhi hs => ?_
    obtain ⟨s', hline, hs'⟩ := pixelLine_colored (hs.1.sized hg) (hs.1.bpp ▸ hb)
      (by rw [hs.1.H, hs.1.W, hs.1.bpp]; exact hmem) (hs.1.W ▸ hX)
      (hs.1.H ▸ hY (Y + n) (by omega) (by omega)) color
    refine ⟨s', ?_, hs.trans hs' fun px py _ _ => ?_⟩
    · rw [ofInt_toNat_add]
      exact hline
    · unfold Gpu.InRect
      dsimp only
      omega
  rwa [Int.sub_add_cancel] at hloop

end

open Lcom.Gpu in
/-- What `vg_draw_rectangle` leaves in the back buffer. -/
theorem pixelRect_filled {g : Lcom.Gpu} (hg : g.Sized) (hb : g.bpp = 1) (hW : g.W ≤ 32768)
    (hH : g.H ≤ 32768) {X Y : Int} {width height : UInt16}
    (hX : -32768 ≤ X ∧ X + width.toNat ≤ 65536) (hY : -32768 ≤ Y ∧ Y + height.toNat ≤ 65536)
    (color : UInt8) :
    ∃ g', pixelRect (UInt16.ofInt X) (UInt16.ofInt Y) width height color.toUInt32 g = .ok g' ∧
      Filled g ⟨X, Y⟩ ⟨width.toNat, height.toNat⟩ color height.toNat g' := by
  have huncutX : ∀ z, X ≤ z → z < X + width.toNat → Uncut g.W z := fun z hlo hhi =>
    uncut_of_small (by omega) (by omega) hW
  have huncutY : ∀ z, Y ≤ z → z < Y + height.toNat → Uncut g.H z := fun z hlo hhi =>
    uncut_of_small (by omega) (by omega) hH
  obtain ⟨g', hdraw, hcolored⟩ :=
    pixelRect_colored hg (by omega) (mem_of_one hb) huncutX huncutY color.toUInt32
  refine ⟨g', hdraw, hcolored.1, fun px py hpx hpy => ?_⟩
  have hbyte : (colorBytes color.toUInt32)[0]? = some color := by simp [colorBytes]
  rw [hcolored.pixel_eq hpx hpy (by omega), hbyte]
  refine if_congr ?_ rfl rfl
  unfold InRect
  dsimp only
  omega

/-! ## The two, compared -/

/-- **A rectangle of the project is a rectangle of lab 5.** -/
theorem drawRect_eq_vgDrawRectangle {g : Lcom.Gpu} (hg : g.Sized) (hb : g.bpp = 1)
    (hW : g.W ≤ 32768) (hH : g.H ≤ 32768) {X Y : Int} {width height : UInt16}
    (hX : -32768 ≤ X ∧ X + width.toNat ≤ 65536) (hY : -32768 ≤ Y ∧ Y + height.toNat ≤ 65536)
    (hwidth : 1 ≤ width.toNat) (hheight : 1 ≤ height.toNat) (color : UInt8) :
    ∃ backbuffer, g.drawRect indexMode ⟨X, Y⟩ ⟨width.toNat, height.toNat⟩ color =
        .ok { g with backbuffer } ∧
      Gpu.vgDrawRectangle (UInt16.ofInt X) (UInt16.ofInt Y) width height color.toUInt32
        ⟨g.gpu_res_info.x_res, g.gpu_res_info.y_res, g.bytes_per_pixel, g.backbuffer⟩ =
          .ok (0, ⟨g.gpu_res_info.x_res, g.gpu_res_info.y_res, g.bytes_per_pixel, backbuffer⟩) := by
  obtain ⟨g₁, hline, hfilled⟩ := @Gpu.drawRect_filled g ⟨X, Y⟩ ⟨width.toNat, height.toNat⟩ color hg
    hb (by dsimp only; omega) (by dsimp only; omega)
  obtain ⟨g₂, hpixel, hfilled'⟩ := pixelRect_filled hg hb hW hH hX hY color
  obtain rfl : g₁ = g₂ := hfilled.unique hg hb hfilled'
  obtain ⟨res, bytes, buffer⟩ := g₁
  obtain rfl : res = g.gpu_res_info := hfilled.1.res
  obtain rfl : bytes = g.bytes_per_pixel := hfilled.1.bytes
  refine ⟨buffer, hline, ?_⟩
  have hlab := vgDrawRectangle_ofProject (UInt16.ofInt X) (UInt16.ofInt Y) width height
    color.toUInt32 g
  rw [hpixel] at hlab
  exact hlab

/-- Over the lower left corner of a screen of two by two pixels. -/
theorem drawRect_eq_vgDrawRectangle_corner :
    ∃ backbuffer, Lcom.Gpu.drawRect ⟨⟨2, 2⟩, 1, [0, 0, 0, 0]⟩ indexMode ⟨-1, 1⟩ ⟨2, 2⟩ 7 =
        .ok ⟨⟨2, 2⟩, 1, backbuffer⟩ ∧
      Gpu.vgDrawRectangle 65535 1 2 2 7 ⟨2, 2, 1, [0, 0, 0, 0]⟩ = .ok (0, ⟨2, 2, 1, backbuffer⟩) :=
  @drawRect_eq_vgDrawRectangle ⟨⟨2, 2⟩, 1, [0, 0, 0, 0]⟩ (by decide) rfl (by decide) (by decide) (-1) 1 2 2
    (by decide) (by decide) (by decide) (by decide) 7

end Lab5

end Lcom

import Lcom.Assets.AssetsManager
import Lcom.Proof.Drivers.Blit

/-!
# What `assets_manager_draw_img` draws

The image it is given plays no part in the walk: both loops are bounded by the size of `block.img`,
and a row of the source is as long as a row of that one. So any other image comes out right only if
it has as many pixels, and if the two ways to break them into rows look the same on the screen.
-/

namespace Lcom

open Lib

namespace AssetsManager

/-! ## The claim, and when it holds -/

/-- The pixel of the screen belongs to the image. -/
def InImage (img : XpmImage) (posx posy : UInt16) (px py : Nat) : Prop :=
  (posx.toNat ≤ px ∧ px < posx.toNat + img.width.toNat) ∧
    posy.toNat ≤ py ∧ py < posy.toNat + img.height.toNat

instance (img : XpmImage) (posx posy : UInt16) (px py : Nat) :
    Decidable (InImage img posx posy px py) := inferInstanceAs (Decidable ((_ ∧ _) ∧ _ ∧ _))

/-- Whatever the back buffer holds, the call reads the pixels of the image, shows them, and leaves
    the rest of the screen alone. -/
def DrawsImage (manager : AssetsManager) (img : XpmImage) (posx posy : UInt16) (colors : List UInt8)
    (g : Gpu) : Prop :=
  ∀ s, Gpu.SameMode g s → ∃ g',
    manager.drawImg img posx posy colors s = .ok (0, (img.height.toNat * img.width.toNat, g')) ∧
      Gpu.SameMode g g' ∧ ∀ px py, px < g.W → py < g.H →
        g'.pixel px py 0 =
          if InImage img posx posy px py then
            colors[(py - posy.toNat) * img.width.toNat + (px - posx.toNat)]?
          else s.pixel px py 0

/-- How far a coordinate is behind a position, as `uint16_t`s go. -/
def along (pos : UInt16) (p : Nat) : Nat := (p + 65536 - pos.toNat) % 65536

/-- A walk over an image of another size makes no difference on the screen. -/
structure SameWalk (block img : XpmImage) (posx posy : UInt16) (colors : List UInt8) (g : Gpu) :
    Prop where
  count : block.height.toNat * block.width.toNat = img.height.toNat * img.width.toNat
  region : ∀ px py, px < g.W → py < g.H →
    (along posx px < block.width.toNat ∧ along posy py < block.height.toNat ↔
      InImage img posx posy px py)
  bytes : ∀ px py, px < g.W → py < g.H → InImage img posx posy px py →
    colors[(py - posy.toNat) * block.width.toNat + (px - posx.toNat)]? =
      colors[(py - posy.toNat) * img.width.toNat + (px - posx.toNat)]?

theorem along_eq_iff (pos : UInt16) {p i : Nat} (hp : p < 65536) (hi : i < 65536) :
    along pos p = i ↔ p = (UInt16.ofInt (pos.toNat + i)).toNat := by
  have hpos := pos.toNat_lt
  rw [Gpu.toNat_uint16_ofInt]
  unfold along
  omega

theorem along_of_le {pos : UInt16} {p : Nat} (hp : p < 65536) (hle : pos.toNat ≤ p) :
    along pos p = p - pos.toNat := by
  unfold along
  omega

theorem along_lt_iff {pos : UInt16} {p n : Nat} (hp : p < 65536) (hn : pos.toNat + n ≤ 65536) :
    along pos p < n ↔ pos.toNat ≤ p ∧ p < pos.toNat + n := by
  unfold along
  omega

/-- An image of the size of `block.img` is walked through as it should be. -/
theorem sameWalk_of_size {block img : XpmImage} {posx posy : UInt16} {colors : List UInt8} {g : Gpu}
    (hwidth : block.width = img.width) (hheight : block.height = img.height)
    (hx : posx.toNat + img.width.toNat ≤ 65536) (hy : posy.toNat + img.height.toNat ≤ 65536) :
    SameWalk block img posx posy colors g where
  count := by rw [hwidth, hheight]
  region := by
    intro px py hpx hpy
    have hpx' : px < 65536 := hpx.trans g.gpu_res_info.x_res.toNat_lt
    have hpy' : py < 65536 := hpy.trans g.gpu_res_info.y_res.toNat_lt
    rw [hwidth, hheight, along_lt_iff hpx' hx, along_lt_iff hpy' hy]
    rfl
  bytes := by
    intro px py _ _ _
    rw [hwidth]

/-! ## The walk -/

/-- A step, without the code that is always 0. -/
def imgPixel (posx posy : UInt16) (colors : List UInt8) (iy ix : Int) (s : Nat × Gpu) :
    Except Fault (Nat × Gpu) := do
  let color ← loadByte colors s.1
  let g ← s.2.drawPixel (UInt16.ofInt (posx.toNat + ix)) (UInt16.ofInt (posy.toNat + iy))
    color.toUInt32
  pure (s.1 + 1, g)

/-- The walk over an image of a given size. -/
def walk (width height : UInt16) (posx posy : UInt16) (colors : List UInt8) (s : Nat × Gpu) :
    Except Fault (Nat × Gpu) :=
  forRange 0 (height.toNat - 1)
    (fun iy => forRange 0 (width.toNat - 1) (imgPixel posx posy colors iy)) s

theorem drawImgPixel_eq (posx posy : UInt16) (colors : List UInt8) (iy ix : Int) (s : Nat × Gpu) :
    drawImgPixel posx posy colors iy ix s =
      (imgPixel posx posy colors iy ix s).map fun s => (0, s) := by
  unfold drawImgPixel imgPixel
  cases loadByte colors s.1 with
  | error e => rfl
  | ok color =>
    rw [ok_bind, ok_bind]
    cases s.2.drawPixel (UInt16.ofInt (posx.toNat + ix)) (UInt16.ofInt (posy.toNat + iy))
      color.toUInt32 with
    | error e => rfl
    | ok g => rfl

theorem drawImg_eq (manager : AssetsManager) (img : XpmImage) (posx posy : UInt16)
    (colors : List UInt8) (g : Gpu) :
    manager.drawImg img posx posy colors g =
      (walk manager.block.img.width manager.block.img.height posx posy colors (0, g)).map
        fun s => (0, s) := by
  unfold drawImg walk
  exact forRangeCheck_map (f := id) (fun iy s => forRangeCheck_map (f := id)
    (fun ix s => drawImgPixel_eq posx posy colors iy ix s) _ _ s) _ _ _

/-- Every step takes one byte. -/
theorem imgPixel_count {posx posy : UInt16} {colors : List UInt8} {iy ix : Int} {s s' : Nat × Gpu}
    (h : imgPixel posx posy colors iy ix s = .ok s') : s'.1 = s.1 + 1 := by
  obtain ⟨color, -, h⟩ := bind_eq_ok.mp h
  obtain ⟨g, -, h⟩ := bind_eq_ok.mp h
  rw [← Except.ok.inj h]

/-- A walk that goes through has taken a byte for each pixel of its own rectangle. -/
theorem walk_count {width height posx posy : UInt16} {colors : List UInt8} {g : Gpu}
    {s : Nat × Gpu} (h : walk width height posx posy colors (0, g) = .ok s) :
    s.1 = height.toNat * width.toNat := by
  have hrows : (s.1 : Int) = (height.toNat - 1 + 1 : Int) * width.toNat := by
    refine forRange_inv (I := fun iy s => (s.1 : Int) = iy * width.toNat) (by omega) (by simp) ?_ h
    intro iy s s' _ _ hs hrow
    have hline : (s'.1 : Int) = iy * width.toNat + (width.toNat - 1 + 1) := by
      refine forRange_inv (I := fun ix s => (s.1 : Int) = iy * width.toNat + ix) (by omega)
        (by rw [hs, Int.add_zero]) ?_ hrow
      intro ix s s' _ _ hs hpixel
      rw [imgPixel_count hpixel]
      push_cast
      omega
    rw [hline]
    ring
  rw [Int.sub_add_cancel] at hrows
  exact_mod_cast hrows

section
variable {g : Gpu} {width height posx posy : UInt16} {colors : List UInt8}

/-- The pixels before `(ix, iy)`, in the order of the walk, have been drawn. -/
def Walked (g : Gpu) (width posx posy : UInt16) (colors : List UInt8) (iy ix : Int)
    (s : Nat × Gpu) : Prop :=
  (s.1 : Int) = iy * width.toNat + ix ∧ Gpu.SameMode g s.2 ∧ ∀ px py, px < g.W → py < g.H →
    s.2.pixel px py 0 =
      if along posx px < width.toNat ∧
          ((along posy py : Int) < iy ∨ (along posy py : Int) = iy ∧ (along posx px : Int) < ix) then
        colors[along posy py * width.toNat + along posx px]?
      else g.pixel px py 0

theorem walked_pixel (hg : g.Sized) (hb : g.bpp = 1)
    (hlen : height.toNat * width.toNat ≤ colors.length) {iy ix : Int}
    (hix : 0 ≤ ix ∧ ix < width.toNat) (hiy : 0 ≤ iy ∧ iy < height.toNat) {s : Nat × Gpu}
    (hs : Walked g width posx posy colors iy ix s) :
    ∃ s', imgPixel posx posy colors iy ix s = .ok s' ∧
      Walked g width posx posy colors iy (ix + 1) s' := by
  obtain ⟨hcount, hmode, hpixels⟩ := hs
  obtain ⟨row, rfl⟩ : ∃ row : Nat, iy = row := ⟨_, (Int.toNat_of_nonneg hiy.1).symm⟩
  obtain ⟨col, rfl⟩ : ∃ col : Nat, ix = col := ⟨_, (Int.toNat_of_nonneg hix.1).symm⟩
  have hindex : s.1 = row * width.toNat + col := by exact_mod_cast hcount
  have hlt := pixel_lt (W := width.toNat) (H := height.toNat) (x := col) (y := row) (by omega)
    (by omega)
  have hload : loadByte colors s.1 = .ok colors[row * width.toNat + col] := by
    rw [hindex]
    exact loadByte_of_lt (by omega)
  have hb' : s.2.bpp = 1 := hmode.bpp.trans hb
  obtain ⟨g', hdraw, hmode', hpixels'⟩ := Gpu.drawPixel_pixels (hmode.sized hg) (by omega)
    (Gpu.mem_of_one hb') (UInt16.ofInt (posx.toNat + (col : Int)))
    (UInt16.ofInt (posy.toNat + (row : Int))) colors[row * width.toNat + col].toUInt32
  refine ⟨(s.1 + 1, g'), ?_, ?_, hmode.trans hmode', fun px py hpx hpy => ?_⟩
  · unfold imgPixel
    rw [hload, ok_bind, hdraw]
    rfl
  · push_cast
    omega
  · have hpx' : px < 65536 := hpx.trans g.gpu_res_info.x_res.toNat_lt
    have hpy' : py < 65536 := hpy.trans g.gpu_res_info.y_res.toNat_lt
    have hwidth := width.toNat_lt
    have hheight := height.toNat_lt
    have hx := along_eq_iff posx hpx' (show col < 65536 by omega)
    have hy := along_eq_iff posy hpy' (show row < 65536 by omega)
    dsimp only
    rw [hpixels' px py 0 (hmode.W ▸ hpx) (hmode.H ▸ hpy) (by omega), hpixels px py hpx hpy]
    by_cases hhere : along posx px = col ∧ along posy py = row
    · have hin : row * width.toNat + col < colors.length := by omega
      rw [if_pos ⟨hx.mp hhere.1, hy.mp hhere.2⟩, if_pos (by omega), hhere.1, hhere.2,
        List.getElem?_eq_getElem hin]
      simp [colorBytes]
    · rw [if_neg fun h => hhere ⟨hx.mpr h.1, hy.mpr h.2⟩]
      exact if_congr (by omega) rfl rfl

variable (posx posy) in
/-- What the walk leaves on the screen: its own rectangle, wrapped round at 65536. -/
theorem walk_spec (hg : g.Sized) (hb : g.bpp = 1)
    (hlen : height.toNat * width.toNat ≤ colors.length) :
    ∃ g', walk width height posx posy colors (0, g) = .ok (height.toNat * width.toNat, g') ∧
      Gpu.SameMode g g' ∧ ∀ px py, px < g.W → py < g.H →
        g'.pixel px py 0 =
          if along posx px < width.toNat ∧ along posy py < height.toNat then
            colors[along posy py * width.toNat + along posx px]?
          else g.pixel px py 0 := by
  have hstart : Walked g width posx posy colors 0 0 (0, g) := by
    refine ⟨by simp, Gpu.SameMode.refl g, fun px py _ _ => ?_⟩
    rw [if_neg (by omega)]
  have hloop : ∃ s', walk width height posx posy colors (0, g) = .ok s' ∧
      Walked g width posx posy colors (height.toNat - 1 + 1) 0 s' := by
    refine forRange_spec (I := fun iy => Walked g width posx posy colors iy 0) (by omega) hstart ?_
    intro iy s hlo hhi hs
    have hline : ∃ s', forRange 0 (width.toNat - 1) (imgPixel posx posy colors iy) s = .ok s' ∧
        Walked g width posx posy colors iy (width.toNat - 1 + 1) s' :=
      forRange_spec (by omega) hs fun ix s hlo' hhi' hs =>
        walked_pixel hg hb hlen ⟨hlo', by omega⟩ ⟨hlo, by omega⟩ hs
    obtain ⟨s', hdraw, hcount, hmode, hpixels⟩ := hline
    refine ⟨s', hdraw, ?_, hmode, fun px py hpx hpy => ?_⟩
    · rw [hcount]
      ring
    · -- behind the end of a row is the start of the next one
      rw [hpixels px py hpx hpy]
      exact if_congr (by omega) rfl rfl
  obtain ⟨⟨read, g'⟩, hdraw, hcount, hmode, hpixels⟩ := hloop
  have hread := walk_count hdraw
  dsimp only at hread hmode hpixels
  refine ⟨g', by rw [hdraw, hread], hmode, fun px py hpx hpy => ?_⟩
  rw [hpixels px py hpx hpy]
  exact if_congr (by omega) rfl rfl

end

/-! ## The claim -/

/-- A choice between a value and whatever was there is the same choice only if it is made alike. -/
theorem ite_determined {P Q : Prop} [Decidable P] [Decidable Q] {a b : Option UInt8}
    (h : ∀ byte, (if P then a else some byte) = if Q then b else some byte) :
    (P ↔ Q) ∧ (Q → a = b) := by
  have h0 := h 0
  have h1 := h 1
  by_cases hP : P
  · by_cases hQ : Q
    · rw [if_pos hP, if_pos hQ] at h0
      exact ⟨iff_of_true hP hQ, fun _ => h0⟩
    · rw [if_pos hP, if_neg hQ] at h0 h1
      exact absurd (h0.symm.trans h1) (by decide)
  · by_cases hQ : Q
    · rw [if_neg hP, if_pos hQ] at h0 h1
      exact absurd (h0.trans h1.symm) (by decide)
    · exact ⟨iff_of_false hP hQ, fun h => absurd h hQ⟩

theorem DrawsImage.sameWalk {manager : AssetsManager} {img : XpmImage} {posx posy : UInt16}
    {colors : List UInt8} {g : Gpu} (hg : g.Sized) (hb : g.bpp = 1)
    (hcolors : colors.length = img.height.toNat * img.width.toNat)
    (h : DrawsImage manager img posx posy colors g) :
    SameWalk manager.block.img img posx posy colors g := by
  have hcount : manager.block.img.height.toNat * manager.block.img.width.toNat =
      img.height.toNat * img.width.toNat := by
    obtain ⟨g', hdraw, -⟩ := h g (Gpu.SameMode.refl g)
    rw [drawImg_eq] at hdraw
    obtain ⟨s, hwalk, hs⟩ := ok_of_map hdraw
    have hread := walk_count hwalk
    rw [(Prod.mk.inj hs).2] at hread
    exact hread.symm
  have hpixel : ∀ px py, px < g.W → py < g.H →
      (along posx px < manager.block.img.width.toNat ∧
          along posy py < manager.block.img.height.toNat ↔ InImage img posx posy px py) ∧
        (InImage img posx posy px py →
          colors[along posy py * manager.block.img.width.toNat + along posx px]? =
            colors[(py - posy.toNat) * img.width.toNat + (px - posx.toNat)]?) := by
    intro px py hpx hpy
    refine ite_determined fun byte => ?_
    obtain ⟨s, hs, hold⟩ := Gpu.exists_pixel_eq hg (by omega) hpx hpy byte
    obtain ⟨g', hdraw, -, hclaim⟩ := h s hs
    obtain ⟨g'', hwalk, -, hpixels⟩ := walk_spec posx posy (hs.sized hg)
      (hs.bpp.trans hb) (hcount.trans hcolors.symm).le
    rw [drawImg_eq, hwalk, hcount] at hdraw
    have hsame : g'' = g' := by
      have hinj := Except.ok.inj hdraw
      exact (Prod.mk.inj (Prod.mk.inj hinj).2).2
    rw [← hold, ← hclaim px py hpx hpy, ← hsame, hpixels px py (hs.W ▸ hpx) (hs.H ▸ hpy)]
  refine ⟨hcount, fun px py hpx hpy => (hpixel px py hpx hpy).1, fun px py hpx hpy hin => ?_⟩
  have hpx' : px < 65536 := hpx.trans g.gpu_res_info.x_res.toNat_lt
  have hpy' : py < 65536 := hpy.trans g.gpu_res_info.y_res.toNat_lt
  rw [← (hpixel px py hpx hpy).2 hin, along_of_le hpx' hin.1.1, along_of_le hpy' hin.2.1]

theorem SameWalk.drawsImage {manager : AssetsManager} {img : XpmImage} {posx posy : UInt16}
    {colors : List UInt8} {g : Gpu} (hg : g.Sized) (hb : g.bpp = 1)
    (hcolors : colors.length = img.height.toNat * img.width.toNat)
    (h : SameWalk manager.block.img img posx posy colors g) :
    DrawsImage manager img posx posy colors g := by
  intro s hs
  obtain ⟨g', hwalk, hmode, hpixels⟩ := walk_spec posx posy (hs.sized hg)
    (hs.bpp.trans hb) (h.count.trans hcolors.symm).le
  refine ⟨g', ?_, hs.trans hmode, fun px py hpx hpy => ?_⟩
  · rw [drawImg_eq, hwalk, h.count]
    rfl
  · have hpx' : px < 65536 := hpx.trans g.gpu_res_info.x_res.toNat_lt
    have hpy' : py < 65536 := hpy.trans g.gpu_res_info.y_res.toNat_lt
    rw [hpixels px py (hs.W ▸ hpx) (hs.H ▸ hpy), if_congr (h.region px py hpx hpy) rfl rfl]
    refine ite_congr rfl (fun hin => ?_) fun _ => rfl
    rw [← h.bytes px py hpx hpy hin, along_of_le hpx' hin.1.1, along_of_le hpy' hin.2.1]

/-- **`assets_manager_draw_img` draws the image it is given exactly when a walk over one of the size of
    `block.img` makes no difference**, in a mode with one byte for each pixel. -/
theorem drawImg_iff {manager : AssetsManager} {img : XpmImage} {posx posy : UInt16}
    {colors : List UInt8} {g : Gpu} (hg : g.Sized) (hb : g.bpp = 1)
    (hcolors : colors.length = img.height.toNat * img.width.toNat) :
    DrawsImage manager img posx posy colors g ↔
      SameWalk manager.block.img img posx posy colors g :=
  ⟨fun h => h.sameWalk hg hb hcolors, fun h => h.drawsImage hg hb hcolors⟩

/-- Two assets of two pixels. -/
def twoTiles : AssetsManager where
  block := ⟨⟨.indexed, 2, 1, []⟩, [1, 2]⟩
  player_sprite := ⟨⟨.indexed, 2, 1, []⟩, [3, 4]⟩

theorem drawImg_twoTiles :
    DrawsImage twoTiles twoTiles.player_sprite.img 0 0 [3, 4] ⟨⟨2, 2⟩, 1, [0, 0, 0, 0]⟩ :=
  (@drawImg_iff twoTiles twoTiles.player_sprite.img 0 0 [3, 4] ⟨⟨2, 2⟩, 1, [0, 0, 0, 0]⟩ (by decide)
    rfl rfl).mpr (sameWalk_of_size rfl rfl (by decide) (by decide))

/-- The player of 64 by 64 pixels, with the program's block of 64 by 128: twice as many pixels are
    read as there are. -/
theorem drawImg_player :
    ¬ ∀ (manager : AssetsManager) (img : XpmImage) (posx posy : UInt16) (colors : List UInt8)
      (g : Gpu), g.Sized → g.bpp = 1 → colors.length = img.height.toNat * img.width.toNat →
      posx.toNat + img.width.toNat ≤ 65536 → posy.toNat + img.height.toNat ≤ 65536 →
      DrawsImage manager img posx posy colors g := by
  intro h
  have hlen : (List.replicate 4096 (0 : UInt8)).length = 4096 := List.length_replicate
  have hdraws := h ⟨⟨⟨.indexed, 64, 128, []⟩, []⟩, ⟨⟨.indexed, 64, 64, []⟩, []⟩⟩
    ⟨.indexed, 64, 64, []⟩ 0 0 (List.replicate 4096 0) ⟨⟨1, 1⟩, 1, [0]⟩ rfl rfl hlen (by decide)
    (by decide)
  exact absurd (hdraws.sameWalk (by rfl) (by rfl) hlen).count (by decide)

end AssetsManager

end Lcom

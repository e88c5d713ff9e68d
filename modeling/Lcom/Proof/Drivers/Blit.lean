import Lcom.Drivers.Gpu

/-!
# What the drawing functions leave in the back buffer

Every function is described pixel by pixel: which byte stands at byte `k` of pixel `(px, py)`
afterwards. For `gpu_draw_xpm` that is the image byte a reference blit would put there, except that
the bytes to skip on the left of the screen are counted in pixels (`drawXpm_spec`); for
`gpu_draw_transparent_xpm` it is the image byte or the old one (`drawTransparentXpm_spec`).
-/

namespace Lcom

open Lib

/-! ## Pixels -/

/-- The pixels of a row, as a range of the numbers of all pixels. -/
theorem pixel_range {W Y y s c x : Nat} (hx : x < W) (hend : s + c ≤ W) :
    Y * W + s ≤ y * W + x ∧ y * W + x < Y * W + s + c ↔ y = Y ∧ s ≤ x ∧ x < s + c := by
  rcases Nat.lt_trichotomy y Y with hy | hy | hy
  · have hrow : (y + 1) * W ≤ Y * W := Nat.mul_le_mul_right W hy
    rw [Nat.succ_mul] at hrow
    omega
  · subst hy
    omega
  · have hrow : (Y + 1) * W ≤ y * W := Nat.mul_le_mul_right W hy
    rw [Nat.succ_mul] at hrow
    omega

/-- A byte of a pixel lies in the bytes of a range of pixels exactly when the pixel lies in the
    range. -/
theorem byte_range {b n k m c : Nat} (hk : k < b) :
    m * b ≤ n * b + k ∧ n * b + k < m * b + c * b ↔ m ≤ n ∧ n < m + c := by
  rw [← Nat.add_mul]
  constructor
  · intro h
    constructor
    · by_contra hlt
      have hrow : (n + 1) * b ≤ m * b := Nat.mul_le_mul_right b (by omega)
      rw [Nat.succ_mul] at hrow
      omega
    · by_contra hge
      have hrow : (m + c) * b ≤ n * b := Nat.mul_le_mul_right b (by omega)
      omega
  · intro h
    have hlow : m * b ≤ n * b := Nat.mul_le_mul_right b h.1
    have hhigh : (n + 1) * b ≤ (m + c) * b := Nat.mul_le_mul_right b h.2
    rw [Nat.succ_mul] at hhigh
    omega

theorem pixel_lt {W H x y : Nat} (hx : x < W) (hy : y < H) : y * W + x < H * W := by
  have hrow : (y + 1) * W ≤ H * W := Nat.mul_le_mul_right W hy
  rw [Nat.succ_mul] at hrow
  omega

namespace Gpu

def W (g : Gpu) : Nat := g.gpu_res_info.x_res.toNat
def H (g : Gpu) : Nat := g.gpu_res_info.y_res.toNat
def bpp (g : Gpu) : Nat := g.bytes_per_pixel.toNat

/-- The back buffer is as large as the resolution says. -/
def Sized (g : Gpu) : Prop := g.backbuffer.length = g.H * g.W * g.bpp

instance (g : Gpu) : Decidable g.Sized := inferInstanceAs (Decidable (_ = _))

/-- Byte `k` of the pixel `(px, py)`. -/
def pixel (g : Gpu) (px py k : Nat) : Option UInt8 := g.backbuffer[(py * g.W + px) * g.bpp + k]?

/-- The two states have the same mode; only the back buffers can differ. -/
structure SameMode (g g' : Gpu) : Prop where
  res : g'.gpu_res_info = g.gpu_res_info
  bytes : g'.bytes_per_pixel = g.bytes_per_pixel
  length : g'.backbuffer.length = g.backbuffer.length

theorem SameMode.refl (g : Gpu) : SameMode g g := ⟨rfl, rfl, rfl⟩

theorem SameMode.trans {g g' g'' : Gpu} (h : SameMode g g') (h' : SameMode g' g'') :
    SameMode g g'' :=
  ⟨h'.res.trans h.res, h'.bytes.trans h.bytes, h'.length.trans h.length⟩

theorem SameMode.W {g g' : Gpu} (h : SameMode g g') : g'.W = g.W := by
  unfold Gpu.W
  rw [h.res]

theorem SameMode.H {g g' : Gpu} (h : SameMode g g') : g'.H = g.H := by
  unfold Gpu.H
  rw [h.res]

theorem SameMode.bpp {g g' : Gpu} (h : SameMode g g') : g'.bpp = g.bpp := by
  unfold Gpu.bpp
  rw [h.bytes]

theorem SameMode.sized {g g' : Gpu} (h : SameMode g g') (hg : g.Sized) : g'.Sized := by
  unfold Sized
  rw [h.length, h.W, h.H, h.bpp]
  exact hg

/-- The bytes of a range of pixels of one row are in the buffer. -/
theorem range_inside {g : Gpu} (hg : g.Sized) {Y s c : Nat} (hY : Y < g.H) (hend : s + c ≤ g.W) :
    (Y * g.W + s) * g.bpp + c * g.bpp ≤ g.backbuffer.length := by
  have hrow : (Y + 1) * g.W ≤ g.H * g.W := Nat.mul_le_mul_right _ hY
  rw [Nat.succ_mul] at hrow
  rw [hg, ← Nat.add_mul]
  exact Nat.mul_le_mul_right _ (by omega)

/-- The state with `c` pixels written from the pixel `(s, Y)` on. -/
def written (g : Gpu) (Y s : Nat) (bytes : List UInt8) : Gpu :=
  { g with backbuffer := splice g.backbuffer ((Y * g.W + s) * g.bpp) bytes }

theorem sameMode_written {g : Gpu} (hg : g.Sized) {Y s c : Nat} (hY : Y < g.H)
    (hend : s + c ≤ g.W) {bytes : List UInt8} (hbytes : bytes.length = c * g.bpp) :
    SameMode g (g.written Y s bytes) := by
  refine ⟨rfl, rfl, length_splice ?_⟩
  rw [hbytes]
  exact range_inside hg hY hend

theorem pixel_written {g : Gpu} (hg : g.Sized) {Y s c : Nat} (hY : Y < g.H) (hend : s + c ≤ g.W)
    {bytes : List UInt8} (hbytes : bytes.length = c * g.bpp) {px py k : Nat} (hpx : px < g.W)
    (hk : k < g.bpp) :
    (g.written Y s bytes).pixel px py k =
      if py = Y ∧ s ≤ px ∧ px < s + c then bytes[(px - s) * g.bpp + k]? else g.pixel px py k := by
  have hinside := range_inside hg hY hend
  have hrange := (byte_range (n := py * g.W + px) (m := Y * g.W + s) (c := c) hk).trans
    (pixel_range hpx hend)
  change (splice g.backbuffer ((Y * g.W + s) * g.bpp) bytes)[(py * g.W + px) * g.bpp + k]? = _
  rw [getElem?_splice (by rw [hbytes]; exact hinside), hbytes]
  by_cases hin : py = Y ∧ s ≤ px ∧ px < s + c
  · rw [if_pos hin, if_pos (hrange.mpr hin)]
    obtain ⟨rfl, hs, -⟩ := hin
    congr 1
    obtain ⟨d, rfl⟩ := Nat.exists_eq_add_of_le hs
    rw [← Nat.add_assoc, Nat.add_mul _ d, Nat.add_sub_cancel_left]
    omega
  · rw [if_neg hin, if_neg fun h => hin (hrange.mp h)]
    rfl

/-- A pixel can hold any byte before the drawing. -/
theorem exists_pixel_eq {g : Gpu} (hg : g.Sized) (hb : 0 < g.bpp) {px py : Nat} (hpx : px < g.W)
    (hpy : py < g.H) (byte : UInt8) : ∃ s, SameMode g s ∧ s.pixel px py 0 = some byte := by
  have hlen : (List.replicate g.bpp byte).length = 1 * g.bpp := by
    rw [List.length_replicate, Nat.one_mul]
  refine ⟨_, sameMode_written hg hpy (c := 1) hpx hlen, ?_⟩
  rw [pixel_written hg hpy (c := 1) hpx hlen hpx hb, if_pos (by omega), Nat.sub_self,
    Nat.zero_mul, List.getElem?_replicate, if_pos hb]

/-! ## One line -/

/-- How many bytes `gpu_draw_line` skips. -/
def skipped (x : Int) : Nat := (-x).toNat

/-- The bytes skipped and the bytes drawn are bytes of the line. -/
theorem skipped_inside {position : Vec2} {p c b : Nat} (hb : 0 < b)
    (hcount : (position.x.toNat : Int) + c ≤ position.x + p) :
    skipped position.x + c * b ≤ p * b := by
  have hmul : skipped position.x + c ≤ p := by
    unfold skipped
    omega
  have hle : (skipped position.x + c) * b ≤ p * b := Nat.mul_le_mul_right _ hmul
  have hskip : skipped position.x * 1 ≤ skipped position.x * b := Nat.mul_le_mul_left _ hb
  rw [Nat.add_mul] at hle
  omega

/-- The line between the edges of the screen: the pixels from `position.x.toNat` on, `c` of them. -/
theorem drawLine_of_visible {g : Gpu} {position : Vec2} {bytes : List UInt8} {p c Y : Nat}
    (hg : g.Sized) (hb : 0 < g.bpp) (hbytes : bytes.length = p * g.bpp)
    (hy : position.y = Y) (hY : Y < g.H) (hleft : 0 ≤ position.x + p)
    (hcount : (position.x.toNat : Int) + c = min (g.W : Int) (position.x + p)) :
    g.drawLine position bytes p =
      .ok (g.written Y position.x.toNat ((bytes.drop (skipped position.x)).take (c * g.bpp))) := by
  have hres : (g.gpu_res_info.x_res.toNat : Int) = g.W := rfl
  have hresy : (g.gpu_res_info.y_res.toNat : Int) = g.H := rfl
  have hbpp : (g.bytes_per_pixel.toNat : Int) = g.bpp := rfl
  have hstart : max position.x 0 = (position.x.toNat : Int) := by omega
  have hshift : (if position.x < 0 then -position.x else 0) = (skipped position.x : Int) := by
    unfold skipped
    split
    · omega
    · omega
  have hwidth : min ((g.W : Int) - 1) (position.x + p - 1) - position.x.toNat + 1 = c := by omega
  have hlocation : (((Y : Int) * g.W + position.x.toNat) * g.bpp) =
      (((Y * g.W + position.x.toNat) * g.bpp : Nat) : Int) := by push_cast; rfl
  have hsrc : skipped position.x + c * g.bpp ≤ bytes.length := by
    rw [hbytes]
    exact skipped_inside hb (by omega)
  have hdst := range_inside hg hY (s := position.x.toNat) (c := c) (by omega)
  unfold drawLine
  rw [hres, hresy, hbpp, hy, if_neg (by omega), if_neg (by omega), if_neg (by omega)]
  dsimp only
  rw [hstart, hshift, hwidth, hlocation, ← Nat.cast_mul,
    memcpy_of_inside (by omega) (by omega) (by omega) (by exact_mod_cast hdst)
      (by exact_mod_cast hsrc)]
  rfl

/-- One line, pixel by pixel: what is on the screen of it is drawn, with the bytes counted from the
    skipped ones on. -/
theorem drawLine_spec {g : Gpu} (hg : g.Sized) (hb : 0 < g.bpp) (position : Vec2)
    {bytes : List UInt8} {p : Nat} (hbytes : bytes.length = p * g.bpp) :
    ∃ g', g.drawLine position bytes p = .ok g' ∧ SameMode g g' ∧
      ∀ px py k, px < g.W → py < g.H → k < g.bpp →
        g'.pixel px py k =
          if (py : Int) = position.y ∧ position.x ≤ px ∧ px < position.x + p then
            bytes[skipped position.x + ((px - position.x.toNat) * g.bpp + k)]?
          else g.pixel px py k := by
  by_cases hout : position.x > g.W ∨ position.x + p < 0 ∨ position.y < 0 ∨ position.y ≥ g.H
  · -- nothing of the line is on the screen
    refine ⟨g, ?_, SameMode.refl g, fun px py k hpx hpy _ => ?_⟩
    · change (if position.x > g.W then _ else if _ then _ else if position.y < 0 ∨ position.y ≥ g.H
        then _ else _) = _
      split
      · rfl
      · split
        · rfl
        · rw [if_pos (by omega)]
    · rw [if_neg (by omega)]
  · obtain ⟨Y, hY⟩ : ∃ Y : Nat, position.y = Y := ⟨_, (Int.toNat_of_nonneg (by omega)).symm⟩
    obtain ⟨c, hc⟩ : ∃ c : Nat, min (g.W : Int) (position.x + p) - position.x.toNat = c :=
      ⟨_, (Int.toNat_of_nonneg (by omega)).symm⟩
    have hYH : Y < g.H := by omega
    have hend : position.x.toNat + c ≤ g.W := by omega
    have hlen : ((bytes.drop (skipped position.x)).take (c * g.bpp)).length = c * g.bpp := by
      have hin : skipped position.x + c * g.bpp ≤ p * g.bpp := skipped_inside hb (by omega)
      rw [List.length_take, List.length_drop, hbytes]
      omega
    refine ⟨_, drawLine_of_visible hg hb hbytes hY hYH (by omega) (by omega),
      sameMode_written hg hYH hend hlen, fun px py k hpx hpy hk => ?_⟩
    rw [pixel_written hg hYH hend hlen hpx hk]
    have hiff : (py = Y ∧ position.x.toNat ≤ px ∧ px < position.x.toNat + c) ↔
        (py : Int) = position.y ∧ position.x ≤ px ∧ px < position.x + p := by omega
    by_cases hin : py = Y ∧ position.x.toNat ≤ px ∧ px < position.x.toNat + c
    · have hbyte : (px - position.x.toNat) * g.bpp + k < 0 * g.bpp + c * g.bpp :=
        ((byte_range hk).mpr (by omega)).2
      rw [Nat.zero_mul, Nat.zero_add] at hbyte
      rw [if_pos hin, if_pos (hiff.mp hin), List.getElem?_take, if_pos hbyte, List.getElem?_drop]
    · rw [if_neg hin, if_neg fun h => hin (hiff.mpr h)]

/-! ## `gpu_draw_xpm` -/

/-- The frame lies in the image. -/
structure FrameInside (xpm : XpmImage) (offset size : Vec2) : Prop where
  left : 0 ≤ offset.x
  top : 0 ≤ offset.y
  width : 0 < size.x
  height : 0 < size.y
  right : offset.x + size.x ≤ xpm.width.toNat
  bottom : offset.y + size.y ≤ xpm.height.toNat

/-- The same of a frame that may have no pixel at all. -/
structure FrameWithin (xpm : XpmImage) (offset size : Vec2) : Prop where
  left : 0 ≤ offset.x
  top : 0 ≤ offset.y
  width : 0 ≤ size.x
  height : 0 ≤ size.y
  right : offset.x + size.x ≤ xpm.width.toNat
  bottom : offset.y + size.y ≤ xpm.height.toNat

theorem FrameInside.within {xpm : XpmImage} {offset size : Vec2} (h : FrameInside xpm offset size) :
    FrameWithin xpm offset size :=
  { h with width := h.width.le, height := h.height.le }

/-- The image has `bytes_per_pixel` bytes for each pixel. -/
def Holds (g : Gpu) (xpm : XpmImage) : Prop :=
  xpm.height.toNat * xpm.width.toNat * g.bpp ≤ xpm.bytes.length

instance (g : Gpu) (xpm : XpmImage) : Decidable (g.Holds xpm) := inferInstanceAs (Decidable (_ ≤ _))

/-- The pixel `(px, py)` of the screen lies in the rectangle. -/
def InRect (position size : Vec2) (px py : Nat) : Prop :=
  (0 ≤ px - position.x ∧ px - position.x < size.x) ∧ 0 ≤ py - position.y ∧ py - position.y < size.y

instance (position size : Vec2) (px py : Nat) : Decidable (InRect position size px py) :=
  inferInstanceAs (Decidable ((_ ∧ _) ∧ _ ∧ _))

/-- The byte that belongs at byte `k` of the pixel `(px, py)`: the one of the image pixel
    `(px - position.x + offset.x, py - position.y + offset.y)`. -/
def imageByte (g : Gpu) (xpm : XpmImage) (position offset : Vec2) (px py k : Nat) : Option UInt8 :=
  xpm.bytes[(((py - position.y + offset.y) * xpm.width.toNat + (px - position.x + offset.x)) *
    g.bpp + k).toNat]?

/-- The byte that the code puts there. -/
def drawnByte (g : Gpu) (xpm : XpmImage) (position offset : Vec2) (px py k : Nat) : Option UInt8 :=
  xpm.bytes[(((py - position.y + offset.y) * xpm.width.toNat +
    (px - position.x.toNat + offset.x)) * g.bpp + skipped position.x + k).toNat]?

/-- A row of a frame is a slice of the image. -/
theorem slice_row {g : Gpu} {xpm : XpmImage} {offset size : Vec2} (hxpm : g.Holds xpm)
    (hframe : FrameWithin xpm offset size) {y A : Nat} (hy : y < xpm.height.toNat) {p : Nat}
    (hp : size.x = p)
    (hA : (A : Int) = (y * xpm.width.toNat + offset.x) * g.bpp) :
    slice xpm.bytes ((y * xpm.width.toNat + offset.x) * g.bytes_per_pixel.toNat)
        (size.x * g.bytes_per_pixel.toNat) =
      .ok ((xpm.bytes.drop A).take (p * g.bpp)) ∧
    A + p * g.bpp ≤ xpm.bytes.length := by
  obtain ⟨ox, hox⟩ : ∃ ox : Nat, offset.x = ox := ⟨_, (Int.toNat_of_nonneg hframe.left).symm⟩
  have hbpp : (g.bytes_per_pixel.toNat : Int) = g.bpp := rfl
  have hright := hframe.right
  rw [hox, hp] at hright
  rw [hox] at hA
  have hA' : A = (y * xpm.width.toNat + ox) * g.bpp := by exact_mod_cast hA
  have hin : A + p * g.bpp ≤ xpm.bytes.length := by
    have hrow : (y + 1) * xpm.width.toNat ≤ xpm.height.toNat * xpm.width.toNat :=
      Nat.mul_le_mul_right _ hy
    rw [Nat.succ_mul] at hrow
    have hle : (y * xpm.width.toNat + ox + p) * g.bpp ≤
        xpm.height.toNat * xpm.width.toNat * g.bpp := Nat.mul_le_mul_right _ (by omega)
    rw [Nat.add_mul, ← hA'] at hle
    exact hle.trans hxpm
  have hcast : ((p : Int) * g.bpp) = ((p * g.bpp : Nat) : Int) := by push_cast; rfl
  refine ⟨?_, hin⟩
  rw [hbpp, hp, hox, ← hA, hcast, slice_of_inside (by omega) (by omega) (by omega)]
  rfl

/-- The bytes of a row of the frame, as `gpu_draw_line` counts them. -/
theorem row_drawnByte {g : Gpu} {xpm : XpmImage} {position offset : Vec2} {A p row px py k : Nat}
    (hA : (A : Int) = (row * xpm.width.toNat + offset.x) * g.bpp)
    (hrow : (py : Int) = position.y + row - offset.y)
    (hcol : position.x ≤ px ∧ px < position.x + p) (hk : k < g.bpp) :
    ((xpm.bytes.drop A).take (p * g.bpp))[skipped position.x +
        ((px - position.x.toNat) * g.bpp + k)]? =
      g.drawnByte xpm position offset px py k := by
  obtain ⟨d, hd⟩ : ∃ d, px = position.x.toNat + d :=
    Nat.exists_eq_add_of_le (by omega)
  have hin : skipped position.x + (d + 1) * g.bpp ≤ p * g.bpp := skipped_inside (by omega) (by omega)
  have hsub : px - position.x.toNat = d := by omega
  have hindex : ((py - position.y + offset.y) * xpm.width.toNat +
      (px - position.x.toNat + offset.x)) * g.bpp + skipped position.x + k =
      ((A + (skipped position.x + (d * g.bpp + k)) : Nat) : Int) := by
    have hy : (py : Int) - position.y + offset.y = row := by omega
    have hx : (px : Int) - position.x.toNat = d := by omega
    rw [hy, hx]
    push_cast
    rw [hA]
    ring
  rw [Nat.succ_mul] at hin
  unfold drawnByte
  rw [hindex, Int.toNat_natCast, hsub, List.getElem?_take, if_pos (by omega), List.getElem?_drop]

/-- The rows of the frame above row `y` of the image have been drawn. -/
def RowsDrawn (g : Gpu) (xpm : XpmImage) (position offset size : Vec2) (y : Int) (s : Gpu) : Prop :=
  SameMode g s ∧ ∀ px py k, px < g.W → py < g.H → k < g.bpp →
    s.pixel px py k =
      if InRect position size px py ∧ py - position.y + offset.y < y then
        g.drawnByte xpm position offset px py k else g.pixel px py k

theorem inRect_row {position offset size : Vec2} {row : Int} {px py : Nat}
    (hlo : offset.y ≤ row) (hhi : row < offset.y + size.y)
    (hrow : (py : Int) = position.y + row - offset.y) :
    InRect position size px py ↔ position.x ≤ px ∧ px < position.x + size.x := by
  unfold InRect
  omega

/-- The pixels a line draws, and the pixels that are drawn before it. -/
theorem drawn_succ {position offset size : Vec2} {row : Int} {px py : Nat} {α : Type}
    (hlo : offset.y ≤ row) (hhi : row < offset.y + size.y) (new old : α) :
    (if (py : Int) = position.y + row - offset.y ∧ position.x ≤ px ∧ px < position.x + size.x then
      new else if InRect position size px py ∧ py - position.y + offset.y < row then new else old) =
    if InRect position size px py ∧ py - position.y + offset.y < row + 1 then new else old := by
  by_cases hrow : (py : Int) = position.y + row - offset.y
  · have hrect : InRect position size px py ↔ _ := inRect_row hlo hhi hrow
    by_cases hcol : position.x ≤ px ∧ px < position.x + size.x
    · rw [if_pos ⟨hrow, hcol⟩, if_pos ⟨hrect.mpr hcol, by omega⟩]
    · rw [if_neg fun h => hcol h.2, if_neg fun h => hcol (hrect.mp h.1),
        if_neg fun h => hcol (hrect.mp h.1)]
  · have hsame : py - position.y + offset.y < row ↔ py - position.y + offset.y < row + 1 := by omega
    rw [if_neg fun h => hrow h.1, if_congr (and_congr_right fun _ => hsame) rfl rfl]

theorem drawXpm_row {g s : Gpu} {xpm : XpmImage} {position offset size : Vec2} (hg : g.Sized)
    (hb : 0 < g.bpp) (hxpm : g.Holds xpm) (hframe : FrameWithin xpm offset size) {y : Int}
    (hlo : offset.y ≤ y) (hhi : y < offset.y + size.y)
    (hs : RowsDrawn g xpm position offset size y s) :
    ∃ s', drawXpmRow xpm position offset size y s = .ok s' ∧
      RowsDrawn g xpm position offset size (y + 1) s' := by
  obtain ⟨hmode, hpixels⟩ := hs
  have htop := hframe.top
  have hbottom := hframe.bottom
  have hwidth := hframe.width
  obtain ⟨row, rfl⟩ : ∃ row : Nat, y = row := ⟨_, (Int.toNat_of_nonneg (by omega)).symm⟩
  obtain ⟨p, hp⟩ : ∃ p : Nat, size.x = p := ⟨_, (Int.toNat_of_nonneg hwidth).symm⟩
  have hleft := hframe.left
  obtain ⟨A, hA⟩ : ∃ A : Nat, (A : Int) = (row * xpm.width.toNat + offset.x) * g.bpp :=
    ⟨_, Int.toNat_of_nonneg (by positivity)⟩
  obtain ⟨hslice, hin⟩ := slice_row hxpm hframe (y := row) (by omega) hp hA
  have hlen : ((xpm.bytes.drop A).take (p * g.bpp)).length = p * s.bpp := by
    rw [List.length_take, List.length_drop, hmode.bpp, min_eq_left (by omega)]
  obtain ⟨s', hline, hmode', hpixels'⟩ := drawLine_spec (hmode.sized hg) (hmode.bpp ▸ hb)
    ⟨position.x, position.y + row - offset.y⟩ hlen
  refine ⟨s', ?_, hmode.trans hmode', fun px py k hpx hpy hk => ?_⟩
  · rw [drawXpmRow, hmode.bytes, hslice, ok_bind, hp]
    exact hline
  · rw [hpixels' px py k (hmode.W ▸ hpx) (hmode.H ▸ hpy) (hmode.bpp ▸ hk),
      hpixels px py k hpx hpy hk, ← drawn_succ hlo hhi, hp, hmode.bpp]
    refine ite_congr rfl (fun hcond => ?_) fun _ => rfl
    have hrow : (py : Int) = position.y + row - offset.y := hcond.1
    have hcol : position.x ≤ px ∧ px < position.x + p := hcond.2
    have hbyte := row_drawnByte hA hrow hcol hk
    exact hbyte

/-- What `gpu_draw_xpm` leaves in the back buffer. -/
theorem drawXpm_spec {g : Gpu} {xpm : XpmImage} {offset size : Vec2} (hg : g.Sized)
    (hb : 0 < g.bpp) (hxpm : g.Holds xpm) (hframe : FrameWithin xpm offset size)
    (position : Vec2) :
    ∃ g', g.drawXpm xpm position offset size = .ok g' ∧ SameMode g g' ∧
      ∀ px py k, px < g.W → py < g.H → k < g.bpp →
        g'.pixel px py k = if InRect position size px py then
          g.drawnByte xpm position offset px py k else g.pixel px py k := by
  have hheight := hframe.height
  have hstart : RowsDrawn g xpm position offset size offset.y g := by
    refine ⟨SameMode.refl g, fun px py k _ _ _ => ?_⟩
    rw [if_neg]
    unfold InRect
    omega
  have hloop : ∃ g', g.drawXpm xpm position offset size = .ok g' ∧
      RowsDrawn g xpm position offset size (offset.y + size.y - 1 + 1) g' :=
    forRange_spec (by omega) hstart fun y s hlo hhi hs =>
      drawXpm_row hg hb hxpm hframe hlo (by omega) hs
  obtain ⟨g', hdraw, hmode, hpixels⟩ := hloop
  refine ⟨g', hdraw, hmode, fun px py k hpx hpy hk => ?_⟩
  have hall : (InRect position size px py ∧
      py - position.y + offset.y < offset.y + size.y - 1 + 1) ↔ InRect position size px py := by
    unfold InRect
    omega
  rw [hpixels px py k hpx hpy hk, if_congr hall rfl rfl]

/-- The reference: in the rectangle the image, outside the screen as it was. -/
def Blit (g : Gpu) (xpm : XpmImage) (position offset size : Vec2) (g' : Gpu) : Prop :=
  SameMode g g' ∧ ∀ px py k, px < g.W → py < g.H → k < g.bpp →
    g'.pixel px py k = if InRect position size px py then g.imageByte xpm position offset px py k
      else g.pixel px py k

/-- In the part of the frame that is on the screen, the image looks the same as many bytes further
    to the right as many pixels further. -/
def SkipsAlike (g : Gpu) (xpm : XpmImage) (position offset size : Vec2) : Prop :=
  ∀ px py k, px < g.W → py < g.H → k < g.bpp → InRect position size px py →
    xpm.bytes[(((py - position.y + offset.y) * xpm.width.toNat + (px + offset.x)) * g.bpp + k +
        -position.x).toNat]? =
      xpm.bytes[(((py - position.y + offset.y) * xpm.width.toNat + (px + offset.x)) * g.bpp + k +
        -position.x * g.bpp).toNat]?

theorem drawnByte_eq_imageByte {g : Gpu} {xpm : XpmImage} {position offset : Vec2} {px py k : Nat}
    (h : g.bpp = 1 ∨ 0 ≤ position.x) :
    g.drawnByte xpm position offset px py k = g.imageByte xpm position offset px py k := by
  unfold drawnByte imageByte
  congr 2
  rcases h with hb | hx
  · have hsplit : (position.x.toNat : Int) - skipped position.x = position.x := by
      unfold skipped
      omega
    rw [hb]
    push_cast
    linarith
  · have hstart : (position.x.toNat : Int) = position.x := Int.toNat_of_nonneg hx
    have hskip : skipped position.x = 0 := by
      unfold skipped
      omega
    rw [hstart, hskip]
    push_cast
    ring

theorem drawnByte_of_left {g : Gpu} {xpm : XpmImage} {position offset : Vec2} {px py k : Nat}
    (h : position.x < 0) :
    g.drawnByte xpm position offset px py k =
      xpm.bytes[(((py - position.y + offset.y) * xpm.width.toNat + (px + offset.x)) * g.bpp + k +
        -position.x).toNat]? := by
  unfold drawnByte
  congr 2
  have hstart : (position.x.toNat : Int) = 0 := by omega
  have hskip : (skipped position.x : Int) = -position.x := by
    unfold skipped
    omega
  rw [hstart, hskip]
  ring

theorem imageByte_eq (g : Gpu) (xpm : XpmImage) (position offset : Vec2) (px py k : Nat) :
    g.imageByte xpm position offset px py k =
      xpm.bytes[(((py - position.y + offset.y) * xpm.width.toNat + (px + offset.x)) * g.bpp + k +
        -position.x * g.bpp).toNat]? := by
  unfold imageByte
  congr 2
  ring

/-- **`gpu_draw_xpm` is the reference blit** exactly with one byte per pixel, or with nothing cut off
    on the left, or for an image on which the two ways of skipping cannot be told apart. -/
theorem drawXpm_blit_iff {g : Gpu} {xpm : XpmImage} {position offset size : Vec2} (hg : g.Sized)
    (hb : 0 < g.bpp) (hxpm : g.Holds xpm) (hframe : FrameInside xpm offset size) :
    (∃ g', g.drawXpm xpm position offset size = .ok g' ∧ Blit g xpm position offset size g') ↔
      g.bpp = 1 ∨ 0 ≤ position.x ∨ SkipsAlike g xpm position offset size := by
  obtain ⟨g', hdraw, hmode, hpixels⟩ := drawXpm_spec hg hb hxpm hframe.within position
  have hblit : (∃ g', g.drawXpm xpm position offset size = .ok g' ∧
        Blit g xpm position offset size g') ↔
      ∀ px py k, px < g.W → py < g.H → k < g.bpp → InRect position size px py →
        g.drawnByte xpm position offset px py k = g.imageByte xpm position offset px py k := by
    constructor
    · intro h px py k hpx hpy hk hrect
      obtain ⟨g'', hdraw', -, hall⟩ := h
      rw [hdraw, Except.ok.injEq] at hdraw'
      subst hdraw'
      have hpixel := hall px py k hpx hpy hk
      rwa [hpixels px py k hpx hpy hk, if_pos hrect, if_pos hrect] at hpixel
    · intro h
      refine ⟨g', hdraw, hmode, fun px py k hpx hpy hk => ?_⟩
      rw [hpixels px py k hpx hpy hk]
      exact ite_congr rfl (h px py k hpx hpy hk) fun _ => rfl
  rw [hblit]
  by_cases hone : g.bpp = 1
  · exact iff_of_true (fun _ _ _ _ _ _ _ => drawnByte_eq_imageByte (.inl hone)) (.inl hone)
  by_cases hleft : 0 ≤ position.x
  · exact iff_of_true (fun _ _ _ _ _ _ _ => drawnByte_eq_imageByte (.inr hleft))
      (.inr (.inl hleft))
  · rw [or_iff_right hone, or_iff_right hleft]
    unfold SkipsAlike
    simp only [drawnByte_of_left (not_le.mp hleft), imageByte_eq]

/-- One pixel of two bytes, and an image of two such pixels. -/
def twoBytes : Gpu := ⟨⟨1, 1⟩, 2, [0, 0]⟩
def twoPixels : XpmImage := ⟨.indexed, 2, 1, [1, 2, 3, 4]⟩

theorem frameInside_twoPixels : FrameInside twoPixels ⟨0, 0⟩ ⟨2, 1⟩ where
  left := by decide
  top := by decide
  width := by decide
  height := by decide
  right := by decide
  bottom := by decide

/-- At the left edge the image is drawn as it is. -/
theorem drawXpm_blit_edge :
    ∃ g', twoBytes.drawXpm twoPixels ⟨0, 0⟩ ⟨0, 0⟩ ⟨2, 1⟩ = .ok g' ∧
      Blit twoBytes twoPixels ⟨0, 0⟩ ⟨0, 0⟩ ⟨2, 1⟩ g' :=
  (drawXpm_blit_iff (by decide) (by decide) (by decide)
    frameInside_twoPixels).mpr (.inr (.inl (by decide)))

/-- One pixel further to the left, the second byte of the first pixel is taken for the first byte of
    the second. -/
theorem drawXpm_torn :
    ¬ ∀ g xpm position offset size, 1 ≤ bpp g → bpp g ≤ 4 → Sized g → Holds g xpm →
      FrameInside xpm offset size →
      ∃ g', g.drawXpm xpm position offset size = .ok g' ∧ Blit g xpm position offset size g' := by
  intro h
  obtain ⟨g', hdraw, -, hall⟩ := h twoBytes twoPixels ⟨-1, 0⟩ ⟨0, 0⟩ ⟨2, 1⟩ (by decide) (by decide)
    (by decide) (by decide) frameInside_twoPixels
  have hdrawn : twoBytes.drawXpm twoPixels ⟨-1, 0⟩ ⟨0, 0⟩ ⟨2, 1⟩ = .ok ⟨⟨1, 1⟩, 2, [2, 3]⟩ := by
    decide +kernel
  rw [hdrawn, Except.ok.injEq] at hdraw
  subst hdraw
  exact absurd (hall 0 0 0 (by decide) (by decide) (by decide)) (by decide +kernel)

/-! ## `gpu_draw_transparent_xpm` -/

theorem toNat_uint16_ofInt (x : Int) : (UInt16.ofInt x).toNat = (x % 65536).toNat := by
  have hlt : (x % 65536).toNat < 65536 := by omega
  exact Nat.mod_eq_of_lt hlt

/-- A coordinate that is negative, but not below the range of `int16_t`, is beyond every edge as a
    `uint16_t`. -/
theorem toNat_ofInt_coordinate {x : Int} (hlo : -32768 ≤ x) (hhi : x ≤ 65535) {size : Nat}
    (hsize : size ≤ 32768) :
    (UInt16.ofInt x).toNat < size ↔ 0 ≤ x ∧ x < size := by
  rw [toNat_uint16_ofInt]
  omega

theorem toNat_ofInt_of_nonneg {x : Int} (hlo : 0 ≤ x) (hhi : x ≤ 65535) :
    ((UInt16.ofInt x).toNat : Int) = x := by
  rw [toNat_uint16_ofInt]
  omega

theorem eq_toNat_ofInt_iff {x : Int} (hlo : -32768 ≤ x) (hhi : x ≤ 65535) {p size : Nat}
    (hp : p < size) (hsize : size ≤ 32768) : p = (UInt16.ofInt x).toNat ↔ (p : Int) = x := by
  constructor
  · intro h
    have hin := (toNat_ofInt_coordinate hlo hhi hsize).mp (h ▸ hp)
    rw [h, toNat_ofInt_of_nonneg hin.1 hhi]
  · intro h
    have hx := toNat_ofInt_of_nonneg (h ▸ Int.natCast_nonneg p) hhi
    exact_mod_cast h.trans hx.symm

/-- A pixel on the screen gets the low bytes of the colour, in any mode whose memory a 32-bit offset
    reaches. -/
theorem drawPixel_at {g : Gpu} (hg : g.Sized) (hb : g.bpp ≤ 4) (hmem : g.H * g.W * g.bpp ≤ 2 ^ 32)
    {x y : UInt16} (hx : x.toNat < g.W) (hy : y.toNat < g.H) (color : UInt32) :
    g.drawPixel x y color = .ok (g.written y.toNat x.toNat ((colorBytes color).take g.bpp)) := by
  have hinside := range_inside hg hy (s := x.toNat) (c := 1) hx
  rw [Nat.one_mul] at hinside
  have hcopy : memcpy g.backbuffer (UInt32.ofNat ((y.toNat * g.W + x.toNat) * g.bpp)).toNat
      (colorBytes color) 0 g.bpp =
        .ok (splice g.backbuffer ((y.toNat * g.W + x.toNat) * g.bpp)
          ((colorBytes color).take g.bpp)) := by
    by_cases hzero : g.bpp = 0
    · -- nothing is copied, from the beginning of the memory on
      rw [hzero, Nat.mul_zero]
      exact memcpy_of_inside (le_refl _) (le_refl _) (le_refl _) (by simp) (by simp)
    · have hlocation : (UInt32.ofNat ((y.toNat * g.W + x.toNat) * g.bpp)).toNat =
          (y.toNat * g.W + x.toNat) * g.bpp := by
        rw [hg] at hinside
        exact Nat.mod_eq_of_lt (by omega)
      rw [hlocation, memcpy_of_inside (by omega) (by omega) (by omega)
        (by exact_mod_cast hinside) (by simp [colorBytes]; omega), Int.toNat_natCast]
      simp
  unfold drawPixel
  rw [if_neg (not_or.mpr ⟨UInt16.not_le.mpr hx, UInt16.not_le.mpr hy⟩)]
  exact bind_eq_ok.mpr ⟨_, hcopy, rfl⟩

theorem drawPixel_of_inside {g : Gpu} (hg : g.Sized) (hb : g.bpp = 1) (hW : g.W ≤ 32768)
    (hH : g.H ≤ 32768) {x y : UInt16} (hx : x.toNat < g.W) (hy : y.toNat < g.H) (byte : UInt8) :
    g.drawPixel x y byte.toUInt32 = .ok (g.written y.toNat x.toNat [byte]) := by
  have hmax : g.H * g.W ≤ 32768 * 32768 := Nat.mul_le_mul hH hW
  rw [drawPixel_at hg (by omega) (by rw [hb]; omega) hx hy, hb]
  simp [colorBytes]

theorem drawPixel_of_outside {g : Gpu} {x y : UInt16} (h : ¬ (x.toNat < g.W ∧ y.toNat < g.H))
    (color : UInt32) : g.drawPixel x y color = .ok g := by
  unfold drawPixel
  rw [if_pos]
  rcases not_and_or.mp h with hx | hy
  · exact .inl (UInt16.not_lt.mp hx)
  · exact .inr (UInt16.not_lt.mp hy)

/-- `gpu_draw_pixel`, pixel by pixel. -/
theorem drawPixel_pixels {g : Gpu} (hg : g.Sized) (hb : g.bpp ≤ 4)
    (hmem : g.H * g.W * g.bpp ≤ 2 ^ 32) (x y : UInt16) (color : UInt32) :
    ∃ g', g.drawPixel x y color = .ok g' ∧ SameMode g g' ∧
      ∀ px py k, px < g.W → py < g.H → k < g.bpp →
        g'.pixel px py k = if px = x.toNat ∧ py = y.toNat then (colorBytes color)[k]?
          else g.pixel px py k := by
  by_cases hin : x.toNat < g.W ∧ y.toNat < g.H
  · have hlen : ((colorBytes color).take g.bpp).length = 1 * g.bpp := by
      rw [List.length_take]
      simp [colorBytes]
      omega
    refine ⟨_, drawPixel_at hg hb hmem hin.1 hin.2 color,
      sameMode_written hg hin.2 (c := 1) hin.1 hlen, fun px py k hpx hpy hk => ?_⟩
    rw [pixel_written hg hin.2 (c := 1) hin.1 hlen hpx hk]
    by_cases hpixel : px = x.toNat ∧ py = y.toNat
    · rw [if_pos hpixel, if_pos (by omega), hpixel.1, Nat.sub_self, Nat.zero_mul, Nat.zero_add,
        List.getElem?_take, if_pos hk]
    · rw [if_neg hpixel, if_neg (by omega)]
  · refine ⟨g, drawPixel_of_outside hin _, SameMode.refl g, fun px py k hpx hpy _ => ?_⟩
    rw [if_neg]
    intro h
    exact hin ⟨h.1 ▸ hpx, h.2 ▸ hpy⟩

/-- One byte for each pixel is always little enough. -/
theorem mem_of_one {g : Gpu} (hb : g.bpp = 1) : g.H * g.W * g.bpp ≤ 2 ^ 32 := by
  have hW := g.gpu_res_info.x_res.toNat_lt
  have hH := g.gpu_res_info.y_res.toNat_lt
  have hmax : g.H * g.W ≤ 65535 * 65535 := Nat.mul_le_mul (Nat.le_of_lt_succ hH) (Nat.le_of_lt_succ hW)
  rw [hb]
  omega

/-- One pixel: the byte goes to the pixel it is meant for, or nowhere. -/
theorem drawPixel_spec {g : Gpu} (hg : g.Sized) (hb : g.bpp = 1) (hW : g.W ≤ 32768)
    (hH : g.H ≤ 32768) {x y : Int} (hx : -32768 ≤ x ∧ x ≤ 65535) (hy : -32768 ≤ y ∧ y ≤ 65535)
    (byte : UInt8) :
    ∃ g', g.drawPixel (UInt16.ofInt x) (UInt16.ofInt y) byte.toUInt32 = .ok g' ∧ SameMode g g' ∧
      ∀ px py, px < g.W → py < g.H →
        g'.pixel px py 0 = if (px : Int) = x ∧ (py : Int) = y then some byte
          else g.pixel px py 0 := by
  have hbyte : (colorBytes byte.toUInt32)[0]? = some byte := by simp [colorBytes]
  obtain ⟨g', hdraw, hmode, hpixels⟩ := drawPixel_pixels hg (by omega) (mem_of_one hb)
    (UInt16.ofInt x) (UInt16.ofInt y) byte.toUInt32
  refine ⟨g', hdraw, hmode, fun px py hpx hpy => ?_⟩
  rw [hpixels px py 0 hpx hpy (by omega), hbyte]
  exact if_congr (and_congr (eq_toNat_ofInt_iff hx.1 hx.2 hpx hW)
    (eq_toNat_ofInt_iff hy.1 hy.2 hpy hH)) rfl rfl

/-- The pixels of the frame before `(x, y)`, in the order in which they are taken, have been
    drawn where the image does not say `99`. -/
def PixelsDrawn (g : Gpu) (xpm : XpmImage) (position offset size : Vec2) (y x : Int) (s : Gpu) :
    Prop :=
  SameMode g s ∧ ∀ px py, px < g.W → py < g.H →
    s.pixel px py 0 =
      if (InRect position size px py ∧ (py - position.y < y ∨
          py - position.y = y ∧ px - position.x < x)) ∧
          g.imageByte xpm position offset px py 0 ≠ some 99 then
        g.imageByte xpm position offset px py 0 else g.pixel px py 0

/-- The frame is placed so that no coordinate leaves the range of `int16_t`. -/
structure Placed (position size : Vec2) : Prop where
  x : -32768 ≤ position.x ∧ position.x + size.x ≤ 32767
  y : -32768 ≤ position.y ∧ position.y + size.y ≤ 32767

theorem imageByte_at {g : Gpu} {xpm : XpmImage} {offset size : Vec2} (hb : g.bpp = 1)
    (hxpm : g.Holds xpm) (hframe : FrameInside xpm offset size) (position : Vec2) {x y : Int}
    (hx : 0 ≤ x ∧ x < size.x) (hy : 0 ≤ y ∧ y < size.y) :
    ∃ byte, loadByte xpm.bytes ((y + offset.y) * xpm.width.toNat + (x + offset.x)) = .ok byte ∧
      ∀ px py : Nat, (px : Int) = position.x + x → (py : Int) = position.y + y →
        g.imageByte xpm position offset px py 0 = some byte := by
  have hleft := hframe.left
  have htop := hframe.top
  have hright := hframe.right
  have hbottom := hframe.bottom
  obtain ⟨r, hr⟩ : ∃ r : Nat, y + offset.y = r := ⟨_, (Int.toNat_of_nonneg (by omega)).symm⟩
  obtain ⟨c, hc⟩ : ∃ c : Nat, x + offset.x = c := ⟨_, (Int.toNat_of_nonneg (by omega)).symm⟩
  have hin : r * xpm.width.toNat + c < xpm.bytes.length := by
    have hlt := pixel_lt (W := xpm.width.toNat) (H := xpm.height.toNat) (x := c) (y := r)
      (by omega) (by omega)
    unfold Holds at hxpm
    rw [hb] at hxpm
    omega
  refine ⟨xpm.bytes[r * xpm.width.toNat + c], ?_, fun px py hpx hpy => ?_⟩
  · rw [hr, hc]
    exact_mod_cast loadByte_of_lt hin
  · have hrow : (py : Int) - position.y + offset.y = r := by omega
    have hcol : (px : Int) - position.x + offset.x = c := by omega
    have hindex : (((r : Int) * xpm.width.toNat + c) * ((1 : Nat) : Int) + ((0 : Nat) : Int)).toNat =
        r * xpm.width.toNat + c := by
      push_cast
      rw [Int.mul_one, Int.add_zero]
      exact_mod_cast Int.toNat_natCast (r * xpm.width.toNat + c)
    unfold imageByte
    rw [hrow, hcol, hb, hindex, List.getElem?_eq_getElem hin]

/-- The next pixel, and the pixels before it. -/
theorem before_succ {position size : Vec2} {x y : Int} {px py : Nat} (hx : 0 ≤ x ∧ x < size.x)
    (hy : 0 ≤ y ∧ y < size.y) :
    (InRect position size px py ∧ (py - position.y < y ∨
        py - position.y = y ∧ px - position.x < x + 1)) ↔
      (px : Int) = position.x + x ∧ (py : Int) = position.y + y ∨
        InRect position size px py ∧ (py - position.y < y ∨
          py - position.y = y ∧ px - position.x < x) := by
  unfold InRect
  omega

theorem drawTransparent_pixel {g s : Gpu} {xpm : XpmImage} {position offset size : Vec2}
    (hg : g.Sized) (hb : g.bpp = 1) (hW : g.W ≤ 32768) (hH : g.H ≤ 32768) (hxpm : g.Holds xpm)
    (hframe : FrameInside xpm offset size) (hplaced : Placed position size) {x y : Int}
    (hx : 0 ≤ x ∧ x < size.x) (hy : 0 ≤ y ∧ y < size.y)
    (hs : PixelsDrawn g xpm position offset size y x s) :
    ∃ s', drawTransparentPixel xpm position offset y x s = .ok s' ∧
      PixelsDrawn g xpm position offset size y (x + 1) s' := by
  obtain ⟨hmode, hpixels⟩ := hs
  obtain ⟨byte, hload, himage⟩ := imageByte_at hb hxpm hframe position hx hy
  unfold drawTransparentPixel
  rw [hload, ok_bind]
  by_cases h99 : byte = 99
  · -- the pixel stays as it is
    subst h99
    refine ⟨s, if_neg (by simp), hmode, fun px py hpx hpy => ?_⟩
    rw [hpixels px py hpx hpy]
    refine if_congr ?_ rfl rfl
    rw [before_succ hx hy]
    constructor
    · intro h
      exact ⟨.inr h.1, h.2⟩
    · intro h
      rcases h with ⟨hhere | hbefore, hne⟩
      · exact absurd (himage px py hhere.1 hhere.2) hne
      · exact ⟨hbefore, hne⟩
  · have hplacedx := hplaced.x
    have hplacedy := hplaced.y
    obtain ⟨s', hdraw, hmode', hpixels'⟩ := drawPixel_spec (hmode.sized hg) (hmode.bpp ▸ hb)
      (hmode.W ▸ hW) (hmode.H ▸ hH) (x := position.x + x) (y := position.y + y) (by omega)
      (by omega) byte
    refine ⟨s', by rw [if_pos h99]; exact hdraw, hmode.trans hmode', fun px py hpx hpy => ?_⟩
    rw [hpixels' px py (hmode.W ▸ hpx) (hmode.H ▸ hpy), hpixels px py hpx hpy]
    by_cases hhere : (px : Int) = position.x + x ∧ (py : Int) = position.y + y
    · have hbyte := himage px py hhere.1 hhere.2
      have hne : ¬ some byte = some 99 := fun h => h99 (Option.some.inj h)
      rw [if_pos hhere, hbyte, if_pos ⟨(before_succ hx hy).mpr (.inl hhere), hne⟩]
    · rw [if_neg hhere]
      refine if_congr ?_ rfl rfl
      rw [before_succ hx hy, or_iff_right hhere]

theorem drawTransparent_row {g s : Gpu} {xpm : XpmImage} {position offset size : Vec2}
    (hg : g.Sized) (hb : g.bpp = 1) (hW : g.W ≤ 32768) (hH : g.H ≤ 32768) (hxpm : g.Holds xpm)
    (hframe : FrameInside xpm offset size) (hplaced : Placed position size) {y : Int}
    (hy : 0 ≤ y ∧ y < size.y) (hs : PixelsDrawn g xpm position offset size y 0 s) :
    ∃ s', drawTransparentRow xpm position offset size y s = .ok s' ∧
      PixelsDrawn g xpm position offset size (y + 1) 0 s' := by
  have hwidth := hframe.width
  have hloop : ∃ s', drawTransparentRow xpm position offset size y s = .ok s' ∧
      PixelsDrawn g xpm position offset size y (size.x - 1 + 1) s' :=
    forRange_spec (by omega) hs fun x s hlo hhi hs =>
      drawTransparent_pixel hg hb hW hH hxpm hframe hplaced ⟨hlo, by omega⟩ hy hs
  obtain ⟨s', hline, hmode, hpixels⟩ := hloop
  refine ⟨s', hline, hmode, fun px py hpx hpy => ?_⟩
  -- behind the end of a row is the start of the next one
  have hnext : (InRect position size px py ∧ (py - position.y < y ∨
        py - position.y = y ∧ px - position.x < size.x - 1 + 1)) ↔
      InRect position size px py ∧ (py - position.y < y + 1 ∨
        py - position.y = y + 1 ∧ px - position.x < 0) := by
    unfold InRect
    omega
  rw [hpixels px py hpx hpy]
  exact if_congr (and_congr_left fun _ => hnext) rfl rfl

/-- What `gpu_draw_transparent_xpm` leaves in the back buffer. -/
theorem drawTransparentXpm_spec {g : Gpu} {xpm : XpmImage} {position offset size : Vec2}
    (hg : g.Sized) (hb : g.bpp = 1) (hW : g.W ≤ 32768) (hH : g.H ≤ 32768) (hxpm : g.Holds xpm)
    (hframe : FrameInside xpm offset size) (hplaced : Placed position size) :
    ∃ g', g.drawTransparentXpm xpm position offset size = .ok g' ∧ SameMode g g' ∧
      ∀ px py, px < g.W → py < g.H →
        g'.pixel px py 0 =
          if InRect position size px py ∧ g.imageByte xpm position offset px py 0 ≠ some 99 then
            g.imageByte xpm position offset px py 0 else g.pixel px py 0 := by
  have hheight := hframe.height
  have hstart : PixelsDrawn g xpm position offset size 0 0 g := by
    refine ⟨SameMode.refl g, fun px py _ _ => ?_⟩
    rw [if_neg]
    unfold InRect
    omega
  have hloop : ∃ g', g.drawTransparentXpm xpm position offset size = .ok g' ∧
      PixelsDrawn g xpm position offset size (size.y - 1 + 1) 0 g' :=
    forRange_spec (I := fun y => PixelsDrawn g xpm position offset size y 0) (by omega) hstart
      fun y s hlo hhi hs => drawTransparent_row hg hb hW hH hxpm hframe hplaced ⟨hlo, by omega⟩ hs
  obtain ⟨g', hdraw, hmode, hpixels⟩ := hloop
  refine ⟨g', hdraw, hmode, fun px py hpx hpy => ?_⟩
  have hall : (InRect position size px py ∧ (py - position.y < size.y - 1 + 1 ∨
      py - position.y = size.y - 1 + 1 ∧ px - position.x < 0)) ↔ InRect position size px py := by
    unfold InRect
    omega
  rw [hpixels px py hpx hpy]
  exact if_congr (and_congr_left fun _ => hall) rfl rfl

/-- **The two ways to draw agree** where the image is not transparent, and leave the rest to the back
    buffer. -/
theorem transparent_agrees {g : Gpu} {xpm : XpmImage} {position offset size : Vec2}
    (hg : g.Sized) (hb : g.bpp = 1) (hW : g.W ≤ 32768) (hH : g.H ≤ 32768) (hxpm : g.Holds xpm)
    (hframe : FrameInside xpm offset size) (hplaced : Placed position size) :
    ∃ t o, g.drawTransparentXpm xpm position offset size = .ok t ∧
      g.drawXpm xpm position offset size = .ok o ∧ SameMode g t ∧ SameMode g o ∧
      ∀ px py, px < g.W → py < g.H →
        (¬ InRect position size px py →
          t.pixel px py 0 = g.pixel px py 0 ∧ o.pixel px py 0 = g.pixel px py 0) ∧
        (InRect position size px py →
          (g.imageByte xpm position offset px py 0 ≠ some 99 →
            t.pixel px py 0 = o.pixel px py 0) ∧
          (g.imageByte xpm position offset px py 0 = some 99 →
            t.pixel px py 0 = g.pixel px py 0)) := by
  obtain ⟨t, ht, hmode, htpixels⟩ := drawTransparentXpm_spec hg hb hW hH hxpm hframe hplaced
  obtain ⟨o, ho, hmode', hopixels⟩ := drawXpm_spec hg (by omega) hxpm hframe.within position
  refine ⟨t, o, ht, ho, hmode, hmode', fun px py hpx hpy => ?_⟩
  have hopixel := hopixels px py 0 hpx hpy (by omega)
  rw [drawnByte_eq_imageByte (.inl hb)] at hopixel
  rw [htpixels px py hpx hpy, hopixel]
  refine ⟨fun hout => ?_, fun hin => ⟨fun hne => ?_, fun h99 => ?_⟩⟩
  · rw [if_neg fun h => hout h.1, if_neg hout]
    exact ⟨rfl, rfl⟩
  · rw [if_pos ⟨hin, hne⟩, if_pos hin]
  · rw [if_neg fun h => h.2 h99]

/-- A cursor of two pixels, the second of them transparent, half off the left edge. -/
theorem transparent_agrees_cursor :
    ∃ t o, drawTransparentXpm ⟨⟨2, 1⟩, 1, [7, 8]⟩ ⟨.indexed, 2, 1, [5, 99]⟩ ⟨-1, 0⟩ ⟨0, 0⟩ ⟨2, 1⟩
        = .ok t ∧
      drawXpm ⟨⟨2, 1⟩, 1, [7, 8]⟩ ⟨.indexed, 2, 1, [5, 99]⟩ ⟨-1, 0⟩ ⟨0, 0⟩ ⟨2, 1⟩ = .ok o ∧
      t.pixel 0 0 0 = some 7 := by
  have hframe : FrameInside ⟨.indexed, 2, 1, [5, 99]⟩ ⟨0, 0⟩ ⟨2, 1⟩ :=
    ⟨by decide, by decide, by decide, by decide, by decide, by decide⟩
  obtain ⟨t, o, ht, ho, -, -, hall⟩ := @transparent_agrees ⟨⟨2, 1⟩, 1, [7, 8]⟩
    ⟨.indexed, 2, 1, [5, 99]⟩ ⟨-1, 0⟩ ⟨0, 0⟩ ⟨2, 1⟩ (by decide) rfl (by decide) (by decide)
    (by decide) hframe ⟨by decide, by decide⟩
  refine ⟨t, o, ht, ho, ?_⟩
  exact ((hall 0 0 (by decide) (by decide)).2 (by decide)).2 (by decide)

end Gpu

end Lcom

import Lcom.Lab5.Pattern
import Lcom.Lib.BitField
import Lcom.Proof.Lab5.Rectangle
import Lcom.Proof.Assets.Image

/-!
# The test pattern

What `video_test_pattern` documents of the pattern is `ModeInfo.patternColor`. `aux_draw_pattern`
keeps the size of a tile in a byte, and it cuts a component out of `first` without shifting it down;
`auxDrawPattern_iff` says when neither shows.
-/

namespace Lcom
namespace Lab5

open Lib

/-! ## Components -/

/-- The components of a colour. -/
inductive Channel where
  | red
  | green
  | blue
  deriving DecidableEq, Repr

namespace ModeInfo

def position (vmi_p : ModeInfo) : Channel → UInt8
  | .red => vmi_p.RedFieldPosition
  | .green => vmi_p.GreenFieldPosition
  | .blue => vmi_p.BlueFieldPosition

def maskSize (vmi_p : ModeInfo) : Channel → UInt8
  | .red => vmi_p.RedMaskSize
  | .green => vmi_p.GreenMaskSize
  | .blue => vmi_p.BlueMaskSize

end ModeInfo

/-- How many steps a component of the tile is away from the first tile's. -/
def Channel.distance (col row : Nat) : Channel → Nat
  | .red => col
  | .green => row
  | .blue => col + row

namespace ModeInfo

/-- A mode whose memory a 32-bit machine can map. The fields of a direct colour are not empty, lie in
    the pixel and do not overlap. -/
structure Valid (vmi_p : ModeInfo) : Prop where
  bits : 1 ≤ vmi_p.BitsPerPixel.toNat ∧ vmi_p.BitsPerPixel.toNat ≤ 32
  memory : vmi_p.XResolution.toNat * vmi_p.YResolution.toNat * vmi_p.bytesPerPixel.toNat < 2 ^ 32
  inside : vmi_p.MemoryModel = 0x06 → ∀ ch, 1 ≤ (vmi_p.maskSize ch).toNat ∧
    (vmi_p.position ch).toNat + (vmi_p.maskSize ch).toNat ≤ vmi_p.BitsPerPixel.toNat
  apart : vmi_p.MemoryModel = 0x06 → ∀ ch ch', ch ≠ ch' →
    Apart (vmi_p.position ch).toNat (vmi_p.maskSize ch).toNat (vmi_p.position ch').toNat
      (vmi_p.maskSize ch').toNat

/-- A colour with the given components, each at its place. -/
def pack (vmi_p : ModeInfo) (value : Channel → Nat) : Nat :=
  value .red <<< (vmi_p.position .red).toNat ||| value .green <<< (vmi_p.position .green).toNat |||
    value .blue <<< (vmi_p.position .blue).toNat

/-- The component of `first`. -/
def component (vmi_p : ModeInfo) (first : UInt32) (ch : Channel) : Nat :=
  field first.toNat (vmi_p.position ch).toNat (vmi_p.maskSize ch).toNat

/-- The documented colour of the tile in column `col` and row `row`. -/
def patternColor (vmi_p : ModeInfo) (no_rectangles : UInt8) (first : UInt32) (step : UInt8)
    (col row : Nat) : Nat :=
  if vmi_p.MemoryModel = 0x06 then
    vmi_p.pack fun ch =>
      (vmi_p.component first ch + ch.distance col row * step.toNat) % 2 ^ (vmi_p.maskSize ch).toNat
  else
    (first.toNat + (row * no_rectangles.toNat + col) * step.toNat) % 2 ^ vmi_p.BitsPerPixel.toNat

variable {vmi_p : ModeInfo} {value : Channel → Nat}

theorem Valid.field_pack (hv : vmi_p.Valid) (hmode : vmi_p.MemoryModel = 0x06)
    (hvalue : ∀ ch, value ch < 2 ^ (vmi_p.maskSize ch).toNat) (ch : Channel) :
    field (vmi_p.pack value) (vmi_p.position ch).toNat (vmi_p.maskSize ch).toNat = value ch := by
  have hother : ∀ ch', ch ≠ ch' → field (value ch' <<< (vmi_p.position ch').toNat)
      (vmi_p.position ch).toNat (vmi_p.maskSize ch).toNat = 0 := fun ch' hne =>
    field_shiftLeft_apart (hvalue ch') (hv.apart hmode ch ch' hne)
  unfold pack
  rw [field_or, field_or]
  cases ch with
  | red =>
    rw [field_shiftLeft (hvalue .red), hother .green (by decide), hother .blue (by decide),
      Nat.or_zero, Nat.or_zero]
  | green =>
    rw [field_shiftLeft (hvalue .green), hother .red (by decide), hother .blue (by decide),
      Nat.zero_or, Nat.or_zero]
  | blue =>
    rw [field_shiftLeft (hvalue .blue), hother .red (by decide), hother .green (by decide),
      Nat.zero_or, Nat.zero_or]

theorem Valid.pack_lt (hv : vmi_p.Valid) (hmode : vmi_p.MemoryModel = 0x06)
    (hvalue : ∀ ch, value ch < 2 ^ (vmi_p.maskSize ch).toNat) :
    vmi_p.pack value < 2 ^ vmi_p.BitsPerPixel.toNat := by
  have hlt : ∀ ch, value ch <<< (vmi_p.position ch).toNat < 2 ^ vmi_p.BitsPerPixel.toNat :=
    fun ch => shiftLeft_lt (hvalue ch) (hv.inside hmode ch).2
  exact Nat.or_lt_two_pow (Nat.or_lt_two_pow (hlt .red) (hlt .green)) (hlt .blue)

/-- The fields of a mode are all shorter than a word, since there are three of them. -/
theorem Valid.maskSize_lt (hv : vmi_p.Valid) (hmode : vmi_p.MemoryModel = 0x06) (ch : Channel) :
    (vmi_p.maskSize ch).toNat < 32 ∧ (vmi_p.position ch).toNat < 32 := by
  have hbits := hv.bits
  have hin := hv.inside hmode ch
  obtain ⟨ch', hne⟩ : ∃ ch', ch ≠ ch' := by
    cases ch with
    | red => exact ⟨.green, by decide⟩
    | green => exact ⟨.red, by decide⟩
    | blue => exact ⟨.red, by decide⟩
  have hin' := hv.inside hmode ch'
  have hapart := hv.apart hmode ch ch' hne
  unfold Apart at hapart
  omega

end ModeInfo

/-! ## The colours of the code -/

theorem shl_of_lt {v : UInt32} {k : UInt8} (hk : k.toNat < 32) :
    ∃ c, shl v k = .ok c ∧ c.toNat = v.toNat * 2 ^ k.toNat % 2 ^ 32 := by
  refine ⟨v <<< k.toUInt32, if_pos hk, ?_⟩
  have hcount : k.toUInt32.toNat % 32 = k.toNat := by
    rw [UInt8.toNat_toUInt32, Nat.mod_eq_of_lt hk]
  rw [UInt32.toNat_shiftLeft, hcount, Nat.shiftLeft_eq]

theorem shl_one {k : UInt8} (hk : k.toNat < 32) :
    ∃ c, shl 1 k = .ok c ∧ c.toNat = 2 ^ k.toNat := by
  obtain ⟨c, hc, htoNat⟩ := shl_of_lt (v := 1) hk
  have hlt : 2 ^ k.toNat < 2 ^ 32 := Nat.pow_lt_pow_right (by decide) hk
  refine ⟨c, hc, ?_⟩
  rw [htoNat, UInt32.toNat_one, Nat.one_mul, Nat.mod_eq_of_lt hlt]

/-- A remainder by a power of two is not changed by the cut to 32 bits before. -/
theorem mod_word_mod {x k : Nat} (hk : k < 32) : x % 2 ^ 32 % 2 ^ k = x % 2 ^ k :=
  Nat.mod_mod_of_dvd x (Nat.pow_dvd_pow 2 (Nat.le_of_lt hk))

/-- The mask of a component: its low bits are all set, wherever the field is. -/
theorem mask_mod {mask : UInt32} {location size : Nat} (hsize : size < 32)
    (hmask : mask.toNat = location * 2 ^ size % 2 ^ 32) :
    (mask - 1).toNat % 2 ^ size = 2 ^ size - 1 := by
  have hpos : 0 < 2 ^ size := Nat.two_pow_pos size
  obtain ⟨d, hd⟩ : ∃ d, 2 ^ 32 = d * 2 ^ size + 2 ^ size := by
    obtain ⟨e, he⟩ := Nat.exists_eq_add_of_le hsize
    refine ⟨2 * 2 ^ e - 1, ?_⟩
    have hword : 2 ^ 32 = 2 * 2 ^ e * 2 ^ size := by
      rw [he, Nat.pow_add, Nat.pow_succ]
      ring
    have hone : 1 ≤ 2 * 2 ^ e := Nat.mul_pos (by decide) (Nat.two_pow_pos e)
    obtain ⟨f, hf⟩ := Nat.exists_eq_add_of_le hone
    rw [hword, hf, Nat.add_sub_cancel_left]
    ring
  rw [UInt32.toNat_sub, UInt32.toNat_one, mod_word_mod hsize, hmask, Nat.add_mod,
    mod_word_mod hsize, Nat.mul_mod_left, Nat.add_zero, Nat.mod_mod, hd,
    show d * 2 ^ size + 2 ^ size - 1 = (2 ^ size - 1) + d * 2 ^ size by omega,
    Nat.add_mul_mod_self_right]
  exact Nat.mod_eq_of_lt (by omega)

/-- What the code takes for a component: the low bits of `first`, however high the field is. -/
theorem directComponent_eq {location size : UInt8} (hsize : size.toNat < 32) (first : UInt32)
    (step : UInt8) (k : Nat) :
    ∃ c, directComponent location size first step k = .ok c ∧
      c.toNat = (first.toNat + k * step.toNat) % 2 ^ size.toNat := by
  obtain ⟨mask, hmask, hmaskNat⟩ := shl_of_lt (v := location.toUInt32) hsize
  obtain ⟨count, hcount, hcountNat⟩ := shl_one hsize
  refine ⟨_, bind_eq_ok.mpr ⟨mask, hmask, bind_eq_ok.mpr ⟨count, hcount, rfl⟩⟩, ?_⟩
  have hlow := and_mod_of_mask (x := first.toNat) (mask_mod hsize hmaskNat)
  rw [UInt32.toNat_mod, UInt32.toNat_add, UInt32.toNat_and, hcountNat, mod_word_mod hsize,
    Nat.add_mod, hlow, ← Nat.add_mod, UInt32.toNat_ofNat', Nat.add_mod, mod_word_mod hsize,
    ← Nat.add_mod]

/-- The colour of a tile, in the mode the driver is in. -/
def tileColor (vmi_p : ModeInfo) (no_rectangles : UInt8) (first : UInt32) (step : UInt8)
    (nx ny : Nat) : Except Fault UInt32 :=
  if vmi_p.MemoryModel = 0x06 then directColor vmi_p.colors first step nx ny
  else indexColor vmi_p.colors no_rectangles first step nx ny

section
variable {vmi_p : ModeInfo}

/-- The colour `aux_draw_pattern` gives the tile in column `nx` and row `ny`. -/
def codeColor (vmi_p : ModeInfo) (no_rectangles : UInt8) (first : UInt32) (step : UInt8)
    (nx ny : Nat) : Nat :=
  if vmi_p.MemoryModel = 0x06 then
    vmi_p.pack fun ch =>
      (first.toNat + ch.distance nx ny * step.toNat) % 2 ^ (vmi_p.maskSize ch).toNat
  else (first.toNat + (ny * no_rectangles.toNat + nx) * step.toNat) % 2 ^ vmi_p.BitsPerPixel.toNat

theorem pack_word {value : Channel → Nat} {red green blue : UInt32}
    (hred : red.toNat = value .red <<< (vmi_p.position .red).toNat)
    (hgreen : green.toNat = value .green <<< (vmi_p.position .green).toNat)
    (hblue : blue.toNat = value .blue <<< (vmi_p.position .blue).toNat) :
    (red ||| green ||| blue).toNat = vmi_p.pack value := by
  rw [UInt32.toNat_or, UInt32.toNat_or, hred, hgreen, hblue]
  rfl

/-- A component of the code, at its place. -/
theorem shl_component (hv : vmi_p.Valid) (hmode : vmi_p.MemoryModel = 0x06) (ch : Channel)
    (first : UInt32) (step : UInt8) (k : Nat) :
    ∃ c c', directComponent (vmi_p.position ch) (vmi_p.maskSize ch) first step k = .ok c ∧
      shl c (vmi_p.position ch) = .ok c' ∧
      c'.toNat = ((first.toNat + k * step.toNat) % 2 ^ (vmi_p.maskSize ch).toNat) <<<
        (vmi_p.position ch).toNat := by
  obtain ⟨hsize, hposition⟩ := hv.maskSize_lt hmode ch
  obtain ⟨c, hc, hcNat⟩ := @directComponent_eq (vmi_p.position ch) _ hsize first step k
  obtain ⟨c', hc', hcNat'⟩ := shl_of_lt (v := c) hposition
  have hlt : c.toNat < 2 ^ (vmi_p.maskSize ch).toNat := by
    rw [hcNat]
    exact Nat.mod_lt _ (Nat.two_pow_pos _)
  have hinside := (hv.inside hmode ch).2
  have hbits := hv.bits
  have hend : (vmi_p.position ch).toNat + (vmi_p.maskSize ch).toNat ≤ 32 := by omega
  have hword := shiftLeft_lt hlt hend
  refine ⟨c, c', hc, hc', ?_⟩
  rw [hcNat', ← Nat.shiftLeft_eq, Nat.mod_eq_of_lt hword, hcNat]

/-- The code finds a colour for every tile, unless the indexed colours are as many as words. -/
theorem tileColor_eq (hv : vmi_p.Valid)
    (hbits : vmi_p.MemoryModel ≠ 0x06 → vmi_p.BitsPerPixel.toNat < 32) (no_rectangles : UInt8)
    (first : UInt32) (step : UInt8) (nx ny : Nat) :
    ∃ color, tileColor vmi_p no_rectangles first step nx ny = .ok color ∧
      color.toNat = codeColor vmi_p no_rectangles first step nx ny := by
  unfold tileColor codeColor
  split
  · rename_i hmode
    obtain ⟨red, red', hred, hred', hredNat⟩ := shl_component hv hmode .red first step nx
    obtain ⟨green, green', hgreen, hgreen', hgreenNat⟩ :=
      shl_component hv hmode .green first step ny
    obtain ⟨blue, blue', hblue, hblue', hblueNat⟩ :=
      shl_component hv hmode .blue first step (nx + ny)
    refine ⟨red' ||| green' ||| blue', ?_, pack_word hredNat hgreenNat hblueNat⟩
    exact bind_eq_ok.mpr ⟨red, hred, bind_eq_ok.mpr ⟨green, hgreen, bind_eq_ok.mpr ⟨blue, hblue,
      bind_eq_ok.mpr ⟨red', hred', bind_eq_ok.mpr ⟨green', hgreen',
        bind_eq_ok.mpr ⟨blue', hblue', rfl⟩⟩⟩⟩⟩⟩
  · rename_i hmode
    obtain ⟨count, hcount, hcountNat⟩ := shl_one (hbits hmode)
    refine ⟨_, bind_eq_ok.mpr ⟨count, hcount, rfl⟩, ?_⟩
    rw [UInt32.toNat_mod, UInt32.toNat_add, hcountNat, mod_word_mod (hbits hmode),
      UInt32.toNat_ofNat', Nat.add_mod, mod_word_mod (hbits hmode), ← Nat.add_mod]

/-- The low bits of `first` are the components of `first`. -/
def FieldsLow (vmi_p : ModeInfo) (first : UInt32) : Prop :=
  ∀ ch, vmi_p.component first ch = first.toNat % 2 ^ (vmi_p.maskSize ch).toNat

theorem codeColor_of_fieldsLow {first : UInt32}
    (h : vmi_p.MemoryModel = 0x06 → FieldsLow vmi_p first) (no_rectangles step : UInt8)
    (nx ny : Nat) : codeColor vmi_p no_rectangles first step nx ny =
      vmi_p.patternColor no_rectangles first step nx ny := by
  unfold codeColor ModeInfo.patternColor
  split
  · rename_i hmode
    congr 1
    funext ch
    rw [h hmode ch, Nat.mod_add_mod]
  · rfl

/-- The first tile shows whether they are. -/
theorem fieldsLow_of_codeColor (hv : vmi_p.Valid) (hmode : vmi_p.MemoryModel = 0x06)
    {no_rectangles step : UInt8} {first : UInt32}
    (h : codeColor vmi_p no_rectangles first step 0 0 =
      vmi_p.patternColor no_rectangles first step 0 0) : FieldsLow vmi_p first := by
  intro ch
  unfold codeColor ModeInfo.patternColor at h
  rw [if_pos hmode, if_pos hmode] at h
  have hpow : ∀ ch, 0 < 2 ^ (vmi_p.maskSize ch).toNat := fun ch => Nat.two_pow_pos _
  have hcode := hv.field_pack hmode
    (fun ch => Nat.mod_lt (first.toNat + ch.distance 0 0 * step.toNat) (hpow ch)) ch
  have hdoc := hv.field_pack hmode
    (fun ch => Nat.mod_lt (vmi_p.component first ch + ch.distance 0 0 * step.toNat) (hpow ch)) ch
  have hcomponent : vmi_p.component first ch < 2 ^ (vmi_p.maskSize ch).toNat := field_lt _ _ _
  have hdistance : ch.distance 0 0 = 0 := by cases ch <;> rfl
  rw [h, hdoc, hdistance, Nat.zero_mul, Nat.add_zero, Nat.add_zero, Nat.mod_eq_of_lt hcomponent]
    at hcode
  exact hcode

end

/-! ## Tiles -/

theorem ofNat_eq_ofInt (n : Nat) : UInt16.ofNat n = UInt16.ofInt n := by
  rw [← UInt16.toNat_inj, Gpu.toNat_uint16_ofInt, UInt16.toNat_ofNat']
  omega

/-- A product of two bytes is a coordinate. -/
theorem byte_mul_le {a b c : Nat} (ha : a < b) (hb : b < 256) (hc : c < 256) :
    a * c + c ≤ 65535 := by
  have hrow : (a + 1) * c ≤ 255 * 255 := Nat.mul_le_mul (by omega) (by omega)
  rw [Nat.succ_mul] at hrow
  omega

open Lcom.Gpu in
/-- `rows` rows of `n` tiles have been drawn, and `cols` tiles of the next row. -/
def Tiled (g : Lcom.Gpu) (n sx sy : Nat) (color : Nat → Nat → Nat) (rows cols : Nat)
    (s : Lcom.Gpu) : Prop :=
  SameMode g s ∧ ∀ px py k, px < g.W → py < g.H → k < g.bpp →
    s.pixel px py k =
      if px < n * sx ∧ py < rows * sy ∨ px < cols * sx ∧ rows * sy ≤ py ∧ py < rows * sy + sy then
        (colorBytes (UInt32.ofNat (color (px / sx) (py / sy))))[k]?
      else g.pixel px py k

section
variable {g s : Lcom.Gpu} {n sx sy rows cols : Nat} {color : Nat → Nat → Nat}

theorem tiled_zero (g : Lcom.Gpu) (n sx sy : Nat) (color : Nat → Nat → Nat) :
    Tiled g n sx sy color 0 0 g := by
  refine ⟨Gpu.SameMode.refl g, fun px py k _ _ _ => ?_⟩
  rw [if_neg (by omega)]

/-- A row is complete: the next one has no tile yet. -/
theorem Tiled.row (h : Tiled g n sx sy color rows n s) : Tiled g n sx sy color (rows + 1) 0 s := by
  refine ⟨h.1, fun px py k hpx hpy hk => ?_⟩
  rw [h.2 px py k hpx hpy hk, Nat.succ_mul]
  exact if_congr (by omega) rfl rfl

/-- One tile more, painted as a rectangle. -/
theorem Tiled.tile {s' : Lcom.Gpu} {word : UInt32} (h : Tiled g n sx sy color rows cols s)
    (hcols : cols < n) (hword : word = UInt32.ofNat (color cols rows))
    (hrect : Colored s word (Gpu.InRect ⟨(cols * sx : Nat), (rows * sy : Nat)⟩ ⟨sx, sy⟩) s') :
    Tiled g n sx sy color rows (cols + 1) s' := by
  refine ⟨h.1.trans hrect.1, fun px py k hpx hpy hk => ?_⟩
  have hfit : (cols + 1) * sx ≤ n * sx := Nat.mul_le_mul_right sx hcols
  rw [Nat.succ_mul] at hfit
  have hin : Gpu.InRect ⟨(cols * sx : Nat), (rows * sy : Nat)⟩ ⟨sx, sy⟩ px py ↔
      (cols * sx ≤ px ∧ px < cols * sx + sx) ∧ rows * sy ≤ py ∧ py < rows * sy + sy := by
    unfold Gpu.InRect
    dsimp only
    omega
  rw [hrect.pixel_eq (h.1.W ▸ hpx) (h.1.H ▸ hpy) (h.1.bpp ▸ hk), h.2 px py k hpx hpy hk, Nat.succ_mul]
  by_cases hhere : (cols * sx ≤ px ∧ px < cols * sx + sx) ∧ rows * sy ≤ py ∧ py < rows * sy + sy
  · obtain ⟨hcol, hrow⟩ := hhere
    have hcol' : px / sx = cols := Nat.div_eq_of_lt_le hcol.1 (by rw [Nat.succ_mul]; exact hcol.2)
    have hrow' : py / sy = rows := Nat.div_eq_of_lt_le hrow.1 (by rw [Nat.succ_mul]; exact hrow.2)
    rw [if_pos (hin.mpr ⟨hcol, hrow⟩), if_pos (by omega), hcol', hrow', hword]
  · rw [if_neg (mt hin.mp hhere)]
    exact if_congr (by omega) rfl rfl

end

section
variable {vmi_p : ModeInfo} {g : Lcom.Gpu} {n step sx sy : UInt8} {first : UInt32}

theorem drawTile_eq (vmi_p : ModeInfo) (n : UInt8) (first : UInt32) (step sx sy : UInt8)
    (nx ny : Nat) (s : Gpu) :
    drawTile vmi_p.colors n first step sx sy nx ny s =
      tileColor vmi_p n first step nx ny >>= fun color =>
        s.vgDrawRectangle (UInt16.ofNat (nx * sx.toNat)) (UInt16.ofNat (ny * sy.toNat))
          sx.toUInt16 sy.toUInt16 color := by
  unfold drawTile tileColor ModeInfo.colors
  by_cases hmode : vmi_p.MemoryModel = 0x06
  · simp only [hmode, if_true]
    rw [if_neg (by decide)]
  · simp only [hmode, if_false, if_true]

theorem drawTile_tiled (hg : g.Sized) (hb : g.bpp ≤ 4) (hmem : g.H * g.W * g.bpp ≤ 2 ^ 32)
    (hcolor : ∀ nx ny, ∃ word, tileColor vmi_p n first step nx ny = .ok word ∧
      word.toNat = codeColor vmi_p n first step nx ny) {nx ny : Nat} (hx : nx < n.toNat)
    (hy : ny < n.toNat) {s : Lcom.Gpu}
    (hs : Tiled g n.toNat sx.toNat sy.toNat (codeColor vmi_p n first step) ny nx s) :
    ∃ s', drawTile vmi_p.colors n first step sx sy nx ny (ofProject s) = .ok (0, ofProject s') ∧
      Tiled g n.toNat sx.toNat sy.toNat (codeColor vmi_p n first step) ny (nx + 1) s' := by
  obtain ⟨word, hword, hwordNat⟩ := hcolor nx ny
  have hn := n.toNat_lt
  have hsx := sx.toNat_lt
  have hsy := sy.toNat_lt
  have hX := byte_mul_le hx hn hsx
  have hY := byte_mul_le hy hn hsy
  have hwidth : sx.toUInt16.toNat = sx.toNat := UInt8.toNat_toUInt16 sx
  have hheight : sy.toUInt16.toNat = sy.toNat := UInt8.toNat_toUInt16 sy
  have hsame := hs.1
  obtain ⟨s', hdraw, hrect⟩ := @pixelRect_colored s (nx * sx.toNat : Nat) (ny * sy.toNat : Nat)
    (hsame.sized hg) (hsame.bpp ▸ hb)
    (by rw [hsame.H, hsame.W, hsame.bpp]; exact hmem) sx.toUInt16 sy.toUInt16
    (fun z hlo hhi => uncut_of_nonneg (by omega) (by omega))
    (fun z hlo hhi => uncut_of_nonneg (by omega) (by omega)) word
  rw [hwidth, hheight] at hrect
  refine ⟨s', ?_, hs.tile hx ?_ hrect⟩
  · rw [drawTile_eq, hword, ok_bind, vgDrawRectangle_ofProject, ofNat_eq_ofInt, ofNat_eq_ofInt,
      hdraw]
    rfl
  · rw [← hwordNat, UInt32.ofNat_toNat]

/-- `Tiled`, of the driver of the lab and with the indices of its loops. -/
def DrawnTiles (vmi_p : ModeInfo) (n : UInt8) (first : UInt32) (step sx sy : UInt8) (g : Lcom.Gpu)
    (ny nx : Int) (t : Gpu) : Prop :=
  ∃ s, t = ofProject s ∧
    Tiled g n.toNat sx.toNat sy.toNat (codeColor vmi_p n first step) ny.toNat nx.toNat s

/-- The inner loop draws a row. -/
theorem drawRow_tiled (hg : g.Sized) (hb : g.bpp ≤ 4) (hmem : g.H * g.W * g.bpp ≤ 2 ^ 32)
    (hcolor : ∀ nx ny, ∃ word, tileColor vmi_p n first step nx ny = .ok word ∧
      word.toNat = codeColor vmi_p n first step nx ny) {ny : Int} (hlo : 0 ≤ ny)
    (hhi : ny < n.toNat) {t : Gpu} (ht : DrawnTiles vmi_p n first step sx sy g ny 0 t) :
    ∃ t', forRangeCheck 0 (n.toNat - 1)
      (fun nx => drawTile vmi_p.colors n first step sx sy nx.toNat ny.toNat) t = .ok (0, t') ∧
        DrawnTiles vmi_p n first step sx sy g (ny + 1) 0 t' := by
  have htile : ∀ nx t, 0 ≤ nx → nx ≤ (n.toNat : Int) - 1 →
      DrawnTiles vmi_p n first step sx sy g ny nx t → ∃ t',
        drawTile vmi_p.colors n first step sx sy nx.toNat ny.toNat t = .ok (0, t') ∧
          DrawnTiles vmi_p n first step sx sy g ny (nx + 1) t' := by
    rintro nx _ hxlo hxhi ⟨s, rfl, hs⟩
    have hx : nx.toNat < n.toNat := by omega
    have hy : ny.toNat < n.toNat := by omega
    obtain ⟨s', hdraw, hs'⟩ := drawTile_tiled hg hb hmem hcolor hx hy hs
    refine ⟨_, hdraw, s', rfl, ?_⟩
    rwa [Int.toNat_add hxlo (by decide)]
  obtain ⟨t', hrun, s, rfl, hs⟩ := forRangeCheck_spec (by omega) ht htile
  refine ⟨_, hrun, s, rfl, ?_⟩
  rw [Int.sub_add_cancel, Int.toNat_natCast] at hs
  rw [Int.toNat_add hlo (by decide)]
  exact hs.row

/-- `aux_draw_pattern`, pixel by pixel, with tiles as large as the bytes say. -/
theorem auxDrawPattern_pixels (hg : g.Sized) (hb : g.bpp ≤ 4) (hmem : g.H * g.W * g.bpp ≤ 2 ^ 32)
    (hn : 1 ≤ n.toNat) (hcolor : ∀ nx ny, ∃ word, tileColor vmi_p n first step nx ny = .ok word ∧
      word.toNat = codeColor vmi_p n first step nx ny) :
    ∃ g', auxDrawPattern vmi_p.colors n first step (ofProject g) = .ok (0, ofProject g') ∧
      Gpu.SameMode g g' ∧ ∀ px py k, px < g.W → py < g.H → k < g.bpp →
        g'.pixel px py k =
          if px < n.toNat * (g.W / n.toNat % 256) ∧ py < n.toNat * (g.H / n.toNat % 256) then
            (colorBytes (UInt32.ofNat (codeColor vmi_p n first step (px / (g.W / n.toNat % 256))
              (py / (g.H / n.toNat % 256)))))[k]?
          else g.pixel px py k := by
  have hne : n ≠ 0 := by
    rintro rfl
    exact absurd hn (by decide)
  let sx := UInt8.ofNat (g.W / n.toNat)
  let sy := UInt8.ofNat (g.H / n.toNat)
  have hsx : sx.toNat = g.W / n.toNat % 256 := UInt8.toNat_ofNat'
  have hsy : sy.toNat = g.H / n.toNat % 256 := UInt8.toNat_ofNat'
  have hstart : DrawnTiles vmi_p n first step sx sy g 0 0 (ofProject g) :=
    ⟨g, rfl, tiled_zero g _ _ _ _⟩
  have hrow : ∀ ny t, 0 ≤ ny → ny ≤ (n.toNat : Int) - 1 →
      DrawnTiles vmi_p n first step sx sy g ny 0 t → ∃ t', forRangeCheck 0 (n.toNat - 1)
        (fun nx => drawTile vmi_p.colors n first step sx sy nx.toNat ny.toNat) t = .ok (0, t') ∧
          DrawnTiles vmi_p n first step sx sy g (ny + 1) 0 t' := fun ny t hlo hhi ht =>
    drawRow_tiled hg hb hmem hcolor hlo (by omega) ht
  obtain ⟨t, hrun, s, rfl, hmode, hpixels⟩ :=
    forRangeCheck_spec (I := fun ny => DrawnTiles vmi_p n first step sx sy g ny 0) (by omega) hstart
      hrow
  refine ⟨s, ?_, hmode, fun px py k hpx hpy hk => ?_⟩
  · unfold auxDrawPattern
    rw [if_neg hne]
    exact hrun
  · rw [Int.sub_add_cancel, Int.toNat_natCast, Int.toNat_zero, Nat.zero_mul, hsx, hsy] at hpixels
    rw [hpixels px py k hpx hpy hk]
    exact if_congr (by omega) rfl rfl

end

/-! ## The pattern that is documented -/

/-- `aux_draw_pattern` draws the documented pattern, whatever the back buffer held, and nothing
    else. -/
def DrawsPattern (vmi_p : ModeInfo) (n : UInt8) (first : UInt32) (step : UInt8) : Prop :=
  ∀ backbuffer, backbuffer.length = vmi_p.vramSize.toNat → ∃ backbuffer',
    auxDrawPattern vmi_p.colors n first step (vmi_p.gpu backbuffer) =
        .ok (0, vmi_p.gpu backbuffer') ∧
      backbuffer'.length = backbuffer.length ∧
      ∀ px py k, px < vmi_p.XResolution.toNat → py < vmi_p.YResolution.toNat →
        k < vmi_p.bytesPerPixel.toNat →
        backbuffer'[(py * vmi_p.XResolution.toNat + px) * vmi_p.bytesPerPixel.toNat + k]? =
          if px / (vmi_p.XResolution.toNat / n.toNat) < n.toNat ∧
              py / (vmi_p.YResolution.toNat / n.toNat) < n.toNat then
            (colorBytes (UInt32.ofNat (vmi_p.patternColor n first step
              (px / (vmi_p.XResolution.toNat / n.toNat))
              (py / (vmi_p.YResolution.toNat / n.toNat)))))[k]?
          else backbuffer[(py * vmi_p.XResolution.toNat + px) * vmi_p.bytesPerPixel.toNat + k]?

/-- What decides: a tile is smaller than 256 pixels, the colours of a palette are fewer than words,
    and the components of `first` are its low bits. -/
structure PatternHolds (vmi_p : ModeInfo) (n : UInt8) (first : UInt32) : Prop where
  width : vmi_p.XResolution.toNat / n.toNat < 256
  height : vmi_p.YResolution.toNat / n.toNat < 256
  index : vmi_p.MemoryModel ≠ 0x06 → vmi_p.BitsPerPixel.toNat < 32
  direct : vmi_p.MemoryModel = 0x06 → FieldsLow vmi_p first

section
variable {vmi_p : ModeInfo} {n step : UInt8} {first : UInt32}

/-- The mode, as the project's driver would keep it. -/
def ModeInfo.screen (vmi_p : ModeInfo) (backbuffer : List UInt8) : Lcom.Gpu :=
  ⟨⟨vmi_p.XResolution, vmi_p.YResolution⟩, vmi_p.bytesPerPixel, backbuffer⟩

theorem ModeInfo.Valid.bytes (hv : vmi_p.Valid) :
    vmi_p.bytesPerPixel.toNat = (vmi_p.BitsPerPixel.toNat + 7) / 8 := by
  have hbits := hv.bits
  unfold ModeInfo.bytesPerPixel
  rw [UInt8.toNat_ofNat']
  omega

theorem ModeInfo.Valid.sized (hv : vmi_p.Valid) {backbuffer : List UInt8}
    (hlen : backbuffer.length = vmi_p.vramSize.toNat) : (vmi_p.screen backbuffer).Sized := by
  have hmemory := hv.memory
  have hpixels : vmi_p.XResolution.toNat * vmi_p.YResolution.toNat < 2 ^ 32 := by
    have hpos : 0 < vmi_p.bytesPerPixel.toNat := by
      have hbits := hv.bits
      rw [hv.bytes]
      omega
    exact lt_of_le_of_lt (Nat.le_mul_of_pos_right _ hpos) hmemory
  change backbuffer.length = vmi_p.YResolution.toNat * vmi_p.XResolution.toNat *
    vmi_p.bytesPerPixel.toNat
  rw [hlen, ModeInfo.vramSize, UInt32.toNat_mul, UInt32.toNat_mul, UInt16.toNat_toUInt32,
    UInt16.toNat_toUInt32, UInt8.toNat_toUInt32, Nat.mod_eq_of_lt hpixels,
    Nat.mod_eq_of_lt hmemory, Nat.mul_comm vmi_p.XResolution.toNat]

/-- What `aux_draw_pattern` does in a mode it has been set up for. -/
theorem auxDrawPattern_gpu (hv : vmi_p.Valid) (hn : 1 ≤ n.toNat)
    (hindex : vmi_p.MemoryModel ≠ 0x06 → vmi_p.BitsPerPixel.toNat < 32) (first : UInt32)
    (step : UInt8) {backbuffer : List UInt8}
    (hlen : backbuffer.length = vmi_p.vramSize.toNat) :
    ∃ backbuffer', auxDrawPattern vmi_p.colors n first step (vmi_p.gpu backbuffer) =
        .ok (0, vmi_p.gpu backbuffer') ∧ backbuffer'.length = backbuffer.length ∧
      ∀ px py k, px < vmi_p.XResolution.toNat → py < vmi_p.YResolution.toNat →
        k < vmi_p.bytesPerPixel.toNat →
        backbuffer'[(py * vmi_p.XResolution.toNat + px) * vmi_p.bytesPerPixel.toNat + k]? =
          if px < n.toNat * (vmi_p.XResolution.toNat / n.toNat % 256) ∧
              py < n.toNat * (vmi_p.YResolution.toNat / n.toNat % 256) then
            (colorBytes (UInt32.ofNat (codeColor vmi_p n first step
              (px / (vmi_p.XResolution.toNat / n.toNat % 256))
              (py / (vmi_p.YResolution.toNat / n.toNat % 256)))))[k]?
          else backbuffer[(py * vmi_p.XResolution.toNat + px) * vmi_p.bytesPerPixel.toNat + k]? := by
  have hbits := hv.bits
  have hsized := hv.sized hlen
  have hbytes : (vmi_p.screen backbuffer).bpp ≤ 4 := by
    change vmi_p.bytesPerPixel.toNat ≤ 4
    rw [hv.bytes]
    omega
  have hmem : (vmi_p.screen backbuffer).H * (vmi_p.screen backbuffer).W *
      (vmi_p.screen backbuffer).bpp ≤ 2 ^ 32 := by
    rw [Nat.mul_comm (vmi_p.screen backbuffer).H]
    exact Nat.le_of_lt hv.memory
  obtain ⟨g', hdraw, hmode, hpixels⟩ := auxDrawPattern_pixels hsized hbytes hmem hn
    fun nx ny => tileColor_eq hv hindex n first step nx ny
  obtain ⟨res, bytes, backbuffer'⟩ := g'
  obtain rfl : res = (vmi_p.screen backbuffer).gpu_res_info := hmode.res
  obtain rfl : bytes = (vmi_p.screen backbuffer).bytes_per_pixel := hmode.bytes
  exact ⟨backbuffer', hdraw, hmode.length, hpixels⟩

/-- With as many indices as words no colour is computed. -/
theorem auxDrawPattern_error (hn : 1 ≤ n.toNat) (hmode : vmi_p.MemoryModel ≠ 0x06)
    (hbits : 32 ≤ vmi_p.BitsPerPixel.toNat) (first : UInt32) (step : UInt8) (g : Gpu) :
    auxDrawPattern vmi_p.colors n first step g = .error .outOfBounds := by
  have hne : n ≠ 0 := by
    rintro rfl
    exact absurd hn (by decide)
  have hshl : shl 1 vmi_p.BitsPerPixel = .error .outOfBounds :=
    if_neg (by rw [UInt8.lt_iff_toNat_lt]; exact Nat.not_lt.mpr hbits)
  unfold auxDrawPattern
  rw [if_neg hne]
  refine forRangeCheck_error (by omega) (forRangeCheck_error (by omega) ?_)
  rw [drawTile_eq, tileColor, if_neg hmode, indexColor]
  change ((shl 1 vmi_p.BitsPerPixel >>= _) >>= _) = _
  rw [hshl]
  rfl

theorem getElem?_colorBytes (word : UInt32) {k : Nat} (hk : k < 4) :
    (colorBytes word)[k]? = some (UInt8.ofNat (word.toNat / 256 ^ k)) := by
  have hbyte : ∀ j < 4, (word >>> UInt32.ofNat (8 * j)).toUInt8 =
      UInt8.ofNat (word.toNat / 256 ^ j) := by
    intro j hj
    have hcount : (UInt32.ofNat (8 * j)).toNat % 32 = 8 * j := by
      rw [UInt32.toNat_ofNat']
      omega
    rw [← UInt8.toNat_inj, UInt32.toNat_toUInt8, UInt32.toNat_shiftRight, hcount,
      Nat.shiftRight_eq_div_pow, UInt8.toNat_ofNat', Nat.pow_mul]
  interval_cases k
  · have hzero := hbyte 0 (by decide)
    rw [← hzero]
    rfl
  · exact congrArg some (hbyte 1 (by decide))
  · exact congrArg some (hbyte 2 (by decide))
  · exact congrArg some (hbyte 3 (by decide))

/-- Two colours that fit in a pixel and have the same bytes there are the same. -/
theorem eq_of_colorBytes {a b bytes : Nat} (hbytes : bytes ≤ 4) (ha : a < 256 ^ bytes)
    (hb : b < 256 ^ bytes)
    (h : ∀ k < bytes, (colorBytes (UInt32.ofNat a))[k]? = (colorBytes (UInt32.ofNat b))[k]?) :
    a = b := by
  have hpow : 256 ^ bytes ≤ 2 ^ 32 := by
    calc 256 ^ bytes ≤ 256 ^ 4 := Nat.pow_le_pow_right (by decide) hbytes
      _ = 2 ^ 32 := by decide
  refine eq_of_bytes ha hb fun k hk => ?_
  have hbyte := h k hk
  rw [getElem?_colorBytes _ (by omega), getElem?_colorBytes _ (by omega), UInt32.toNat_ofNat',
    UInt32.toNat_ofNat', Nat.mod_eq_of_lt (by omega), Nat.mod_eq_of_lt (by omega)] at hbyte
  have htoNat := congrArg UInt8.toNat (Option.some.inj hbyte)
  rwa [UInt8.toNat_ofNat', UInt8.toNat_ofNat'] at htoNat

theorem patternColor_lt (hv : vmi_p.Valid) (n : UInt8) (first : UInt32) (step : UInt8)
    (col row : Nat) : vmi_p.patternColor n first step col row < 2 ^ vmi_p.BitsPerPixel.toNat := by
  unfold ModeInfo.patternColor
  split
  · rename_i hmode
    exact hv.pack_lt hmode fun ch => Nat.mod_lt _ (Nat.two_pow_pos _)
  · exact Nat.mod_lt _ (Nat.two_pow_pos _)

theorem codeColor_lt (hv : vmi_p.Valid) (n : UInt8) (first : UInt32) (step : UInt8)
    (nx ny : Nat) : codeColor vmi_p n first step nx ny < 2 ^ vmi_p.BitsPerPixel.toNat := by
  unfold codeColor
  split
  · rename_i hmode
    exact hv.pack_lt hmode fun ch => Nat.mod_lt _ (Nat.two_pow_pos _)
  · exact Nat.mod_lt _ (Nat.two_pow_pos _)

/-! ## When it is drawn -/

/-- Byte `k` of the pixel of the tile in column `col` and row `row`, by the code and by the
    documentation. -/
def codeByte (vmi_p : ModeInfo) (n : UInt8) (first : UInt32) (step : UInt8) (col row k : Nat) :
    Option UInt8 := (colorBytes (UInt32.ofNat (codeColor vmi_p n first step col row)))[k]?

def patternByte (vmi_p : ModeInfo) (n : UInt8) (first : UInt32) (step : UInt8) (col row k : Nat) :
    Option UInt8 := (colorBytes (UInt32.ofNat (vmi_p.patternColor n first step col row)))[k]?

/-- Where the pattern is drawn as documented, the two say the same of every byte. -/
theorem DrawsPattern.byte (h : DrawsPattern vmi_p n first step) (hv : vmi_p.Valid)
    (hn : 1 ≤ n.toNat) (hindex : vmi_p.MemoryModel ≠ 0x06 → vmi_p.BitsPerPixel.toNat < 32)
    {backbuffer : List UInt8} (hlen : backbuffer.length = vmi_p.vramSize.toNat) {px py k : Nat}
    (hpx : px < vmi_p.XResolution.toNat) (hpy : py < vmi_p.YResolution.toNat)
    (hk : k < vmi_p.bytesPerPixel.toNat) :
    (if px < n.toNat * (vmi_p.XResolution.toNat / n.toNat % 256) ∧
          py < n.toNat * (vmi_p.YResolution.toNat / n.toNat % 256) then
        codeByte vmi_p n first step (px / (vmi_p.XResolution.toNat / n.toNat % 256))
          (py / (vmi_p.YResolution.toNat / n.toNat % 256)) k
      else (vmi_p.screen backbuffer).pixel px py k) =
    if px / (vmi_p.XResolution.toNat / n.toNat) < n.toNat ∧
        py / (vmi_p.YResolution.toNat / n.toNat) < n.toNat then
      patternByte vmi_p n first step (px / (vmi_p.XResolution.toNat / n.toNat))
        (py / (vmi_p.YResolution.toNat / n.toNat)) k
    else (vmi_p.screen backbuffer).pixel px py k := by
  obtain ⟨backbuffer', hdraw, -, hdoc⟩ := h backbuffer hlen
  obtain ⟨backbuffer'', hdraw', -, hcode⟩ := auxDrawPattern_gpu hv hn hindex first step hlen
  have hsame : backbuffer' = backbuffer'' := by
    rw [hdraw] at hdraw'
    exact congrArg Gpu.backbuffer (Prod.mk.inj (Except.ok.inj hdraw')).2
  have hpixel := hcode px py k hpx hpy hk
  rw [← hsame, hdoc px py k hpx hpy hk] at hpixel
  exact hpixel.symm

/-- So the tiles of the code cover what they should, -/
theorem DrawsPattern.covers (h : DrawsPattern vmi_p n first step) (hv : vmi_p.Valid)
    (hn : 1 ≤ n.toNat) (hindex : vmi_p.MemoryModel ≠ 0x06 → vmi_p.BitsPerPixel.toNat < 32)
    {px py : Nat} (hpx : px < vmi_p.XResolution.toNat) (hpy : py < vmi_p.YResolution.toNat) :
    px < n.toNat * (vmi_p.XResolution.toNat / n.toNat % 256) ∧
        py < n.toNat * (vmi_p.YResolution.toNat / n.toNat % 256) ↔
      px / (vmi_p.XResolution.toNat / n.toNat) < n.toNat ∧
        py / (vmi_p.YResolution.toNat / n.toNat) < n.toNat := by
  have hbits := hv.bits
  have hpos : 0 < vmi_p.bytesPerPixel.toNat := by
    rw [hv.bytes]
    omega
  have hstart : (List.replicate vmi_p.vramSize.toNat (0 : UInt8)).length = vmi_p.vramSize.toNat :=
    List.length_replicate
  refine (AssetsManager.ite_determined
    (a := codeByte vmi_p n first step (px / (vmi_p.XResolution.toNat / n.toNat % 256))
      (py / (vmi_p.YResolution.toNat / n.toNat % 256)) 0)
    (b := patternByte vmi_p n first step (px / (vmi_p.XResolution.toNat / n.toNat))
      (py / (vmi_p.YResolution.toNat / n.toNat)) 0) fun byte => ?_).1
  -- a back buffer that holds the byte in this pixel
  obtain ⟨⟨res, bytes, backbuffer⟩, hs, hold⟩ :=
    Gpu.exists_pixel_eq (hv.sized hstart) hpos hpx hpy byte
  obtain rfl : res = _ := hs.res
  obtain rfl : bytes = _ := hs.bytes
  have hbyte := h.byte hv hn hindex (hs.length.trans hstart) hpx hpy hpos
  have hold' : (vmi_p.screen backbuffer).pixel px py 0 = some byte := hold
  rw [hold'] at hbyte
  exact hbyte

/-- and the first tile has its colour. -/
theorem DrawsPattern.firstTile (h : DrawsPattern vmi_p n first step) (hv : vmi_p.Valid)
    (hn : 1 ≤ n.toNat) (hindex : vmi_p.MemoryModel ≠ 0x06 → vmi_p.BitsPerPixel.toNat < 32)
    (hx : n.toNat ≤ vmi_p.XResolution.toNat) (hy : n.toNat ≤ vmi_p.YResolution.toNat) :
    codeColor vmi_p n first step 0 0 = vmi_p.patternColor n first step 0 0 := by
  have hbits := hv.bits
  have hbytes := hv.bytes
  have hword : 2 ^ vmi_p.BitsPerPixel.toNat ≤ 256 ^ vmi_p.bytesPerPixel.toNat := by
    calc 2 ^ vmi_p.BitsPerPixel.toNat ≤ 2 ^ (8 * vmi_p.bytesPerPixel.toNat) :=
          Nat.pow_le_pow_right (by decide) (by omega)
      _ = 256 ^ vmi_p.bytesPerPixel.toNat := by rw [Nat.pow_mul]
  have hstart : (List.replicate vmi_p.vramSize.toNat (0 : UInt8)).length = vmi_p.vramSize.toNat :=
    List.length_replicate
  refine eq_of_colorBytes (by omega) (lt_of_lt_of_le (codeColor_lt hv n first step 0 0) hword)
    (lt_of_lt_of_le (patternColor_lt hv n first step 0 0) hword) fun k hk => ?_
  have hleft : 0 < vmi_p.XResolution.toNat := by omega
  have htop : 0 < vmi_p.YResolution.toNat := by omega
  have hbyte := h.byte hv hn hindex hstart hleft htop hk
  have hdoc : 0 / (vmi_p.XResolution.toNat / n.toNat) < n.toNat ∧
      0 / (vmi_p.YResolution.toNat / n.toNat) < n.toNat := by
    rw [Nat.zero_div, Nat.zero_div]
    omega
  rw [if_pos ((h.covers hv hn hindex hleft htop).mpr hdoc), if_pos hdoc, Nat.zero_div,
    Nat.zero_div, Nat.zero_div, Nat.zero_div] at hbyte
  exact hbyte

/-- The last pixel of `n` tiles is not among those of smaller tiles. -/
theorem last_not_covered {n size : Nat} (hn : 1 ≤ n) (hsize : 256 ≤ size) :
    ¬ n * size - 1 < n * (size % 256) := by
  have hle : n * (size % 256 + 1) ≤ n * size := Nat.mul_le_mul_left n (by omega)
  rw [Nat.mul_succ] at hle
  omega

theorem last_in_tiles {n size : Nat} (hn : 1 ≤ n) (hsize : 1 ≤ size) :
    (n * size - 1) / size < n := by
  have hpos : 0 < n * size := Nat.mul_pos hn hsize
  exact (Nat.div_lt_iff_lt_mul hsize).mpr (by omega)

theorem DrawsPattern.holds (h : DrawsPattern vmi_p n first step) (hv : vmi_p.Valid)
    (hn : 1 ≤ n.toNat) (hx : n.toNat ≤ vmi_p.XResolution.toNat)
    (hy : n.toNat ≤ vmi_p.YResolution.toNat) : PatternHolds vmi_p n first := by
  have hindex : vmi_p.MemoryModel ≠ 0x06 → vmi_p.BitsPerPixel.toNat < 32 := by
    intro hmode
    by_contra hbits
    obtain ⟨backbuffer', hdraw, -⟩ := h (List.replicate vmi_p.vramSize.toNat 0)
      List.length_replicate
    rw [auxDrawPattern_error hn hmode (Nat.not_lt.mp hbits)] at hdraw
    cases hdraw
  have hwidth : 1 ≤ vmi_p.XResolution.toNat / n.toNat := Nat.div_pos hx hn
  have hheight : 1 ≤ vmi_p.YResolution.toNat / n.toNat := Nat.div_pos hy hn
  have hlastx := Nat.mul_div_le vmi_p.XResolution.toNat n.toNat
  have hlasty := Nat.mul_div_le vmi_p.YResolution.toNat n.toNat
  have hzero : ∀ size, 0 / size < n.toNat := fun size => by
    rw [Nat.zero_div]
    exact hn
  have hleft : 0 < vmi_p.XResolution.toNat := by omega
  have htop : 0 < vmi_p.YResolution.toNat := by omega
  have hright : n.toNat * (vmi_p.XResolution.toNat / n.toNat) - 1 < vmi_p.XResolution.toNat := by
    omega
  have hbottom : n.toNat * (vmi_p.YResolution.toNat / n.toNat) - 1 < vmi_p.YResolution.toNat := by
    omega
  refine ⟨?_, ?_, hindex, fun hmode => fieldsLow_of_codeColor hv hmode
    (h.firstTile hv hn hindex hx hy)⟩
  · by_contra hlarge
    have hcovered := (h.covers hv hn hindex hright htop).mpr ⟨last_in_tiles hn hwidth, hzero _⟩
    exact last_not_covered hn (Nat.not_lt.mp hlarge) hcovered.1
  · by_contra hlarge
    have hcovered := (h.covers hv hn hindex hleft hbottom).mpr ⟨hzero _, last_in_tiles hn hheight⟩
    exact last_not_covered hn (Nat.not_lt.mp hlarge) hcovered.2

theorem PatternHolds.draws (h : PatternHolds vmi_p n first) (hv : vmi_p.Valid) (hn : 1 ≤ n.toNat)
    (hx : n.toNat ≤ vmi_p.XResolution.toNat) (hy : n.toNat ≤ vmi_p.YResolution.toNat)
    (step : UInt8) : DrawsPattern vmi_p n first step := by
  intro backbuffer hlen
  obtain ⟨backbuffer', hdraw, hlen', hpixels⟩ :=
    auxDrawPattern_gpu hv hn h.index first step hlen
  refine ⟨backbuffer', hdraw, hlen', fun px py k hpx hpy hk => ?_⟩
  have hin : ∀ {p size : Nat}, n.toNat ≤ size →
      (p < n.toNat * (size / n.toNat) ↔ p / (size / n.toNat) < n.toNat) := fun hsize =>
    (Nat.div_lt_iff_lt_mul (Nat.div_pos hsize hn)).symm
  rw [hpixels px py k hpx hpy hk, Nat.mod_eq_of_lt h.width, Nat.mod_eq_of_lt h.height,
    codeColor_of_fieldsLow h.direct]
  exact if_congr (and_congr (hin hx) (hin hy)) rfl rfl

/-- **When the pattern of the documentation is drawn.** -/
theorem auxDrawPattern_iff (hv : vmi_p.Valid) (hn : 1 ≤ n.toNat)
    (hx : n.toNat ≤ vmi_p.XResolution.toNat) (hy : n.toNat ≤ vmi_p.YResolution.toNat) :
    DrawsPattern vmi_p n first step ↔ PatternHolds vmi_p n first :=
  ⟨fun h => h.holds hv hn hx hy, fun h => h.draws hv hn hx hy step⟩

end

/-! ## Two modes -/

/-- Mode `0x105`: 1024 by 768 pixels of a palette of 256 colours. -/
def mode105 : ModeInfo := ⟨1024, 768, 8, 0x04, 0, 0, 0, 0, 0, 0⟩

/-- Mode `0x115`: 800 by 600 pixels of three bytes, red on top. -/
def mode115 : ModeInfo := ⟨800, 600, 24, 0x06, 8, 16, 8, 8, 8, 0⟩

theorem mode105_valid : mode105.Valid where
  bits := by decide
  memory := by decide
  inside h := absurd h (by decide)
  apart h := absurd h (by decide)

theorem mode115_valid : mode115.Valid where
  bits := by decide
  memory := by decide
  inside _ ch := by cases ch <;> decide
  apart _ ch ch' hne := by cases ch <;> cases ch' <;> first | exact absurd rfl hne | decide

/-- Eight tiles of 128 by 96 pixels, in mode `0x105`. -/
theorem auxDrawPattern_eight : DrawsPattern mode105 8 1 1 :=
  (auxDrawPattern_iff mode105_valid (by decide) (by decide) (by decide)).mpr
    ⟨by decide, by decide, fun _ => by decide, fun h => absurd h (by decide)⟩

/-- Four tiles of 256 by 192 pixels in mode `0x105` are tiles of no width; eight tiles in mode `0x115`
    whose first one is to be red are all black. -/
theorem auxDrawPattern_modes :
    ¬ DrawsPattern mode105 4 1 1 ∧ ¬ DrawsPattern mode115 8 0xFF0000 0 := by
  constructor
  · intro h
    exact absurd (h.holds mode105_valid (by decide) (by decide) (by decide)).width (by decide)
  · intro h
    have hlow := (h.holds mode115_valid (by decide) (by decide) (by decide)).direct rfl .red
    exact absurd hlow (by decide)

end Lab5
end Lcom

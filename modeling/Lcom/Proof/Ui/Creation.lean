import Lcom.Proof.Drivers.Blit
import Lcom.Ui.Sprite

/-!
# Two sprites created alike

`Sprite_init` sets every field of a sprite but `transparent`, and `Sprite_draw` branches on that one.
Two sprites created with equal arguments draw alike exactly when the allocator left the same flag in
both blocks: every image tells the two blits apart at some position.
-/

namespace Lcom

open Lib

namespace Sprite

variable {img : XpmImage} {offset size : Vec2}

/-- A screen of one pixel. -/
def dot (byte : UInt8) : Gpu := ⟨⟨1, 1⟩, 1, [byte]⟩

theorem sized_dot (byte : UInt8) : (dot byte).Sized := rfl

theorem holds_dot (hbytes : img.height.toNat * img.width.toNat ≤ img.bytes.length) (byte : UInt8) :
    (dot byte).Holds img := by
  unfold Gpu.Holds
  exact (Nat.mul_one _).symm ▸ hbytes

/-- The pixel of the screen at which the first pixel of the frame is shown holds its byte after the
    opaque blit. -/
theorem drawXpm_dot (hframe : Gpu.FrameInside img offset size)
    (hbytes : img.height.toNat * img.width.toNat ≤ img.bytes.length) (byte : UInt8)
    (position : Vec2) :
    ∃ g, (dot byte).drawXpm img position offset size = .ok g ∧
      g.pixel 0 0 0 = if Gpu.InRect position size 0 0 then
        (dot byte).imageByte img position offset 0 0 0 else some byte := by
  obtain ⟨g, hdraw, -, hpixels⟩ := Gpu.drawXpm_spec (sized_dot byte) Nat.one_pos
    (holds_dot hbytes byte) hframe.within position
  refine ⟨g, hdraw, ?_⟩
  rw [hpixels 0 0 0 Nat.one_pos Nat.one_pos Nat.one_pos, Gpu.drawnByte_eq_imageByte (.inl rfl)]
  rfl

theorem drawPixel_dot (old byte : UInt8) (x y : UInt16) :
    (dot old).drawPixel x y byte.toUInt32 =
      .ok (dot (if x.toNat = 0 ∧ y.toNat = 0 then byte else old)) := by
  by_cases hin : x.toNat = 0 ∧ y.toNat = 0
  · have hx : x.toNat < (dot old).W := hin.1 ▸ Nat.one_pos
    have hy : y.toNat < (dot old).H := hin.2 ▸ Nat.one_pos
    have hsmall : 1 ≤ 32768 := by decide
    rw [if_pos hin, Gpu.drawPixel_of_inside (sized_dot old) rfl hsmall hsmall hx hy, hin.1, hin.2]
    rfl
  · have hout : ¬ (x.toNat < (dot old).W ∧ y.toNat < (dot old).H) := fun h =>
      hin ⟨Nat.lt_one_iff.mp h.1, Nat.lt_one_iff.mp h.2⟩
    rw [if_neg hin, Gpu.drawPixel_of_outside hout]

/-- One step of the transparent blit. -/
theorem drawTransparentPixel_dot {position : Vec2} {x y : Int} {byte : UInt8}
    (hload : loadByte img.bytes ((y + offset.y) * img.width.toNat + (x + offset.x)) = .ok byte)
    (old : UInt8) :
    Gpu.drawTransparentPixel img position offset y x (dot old) =
      .ok (dot (if byte ≠ 99 ∧ (UInt16.ofInt (position.x + x)).toNat = 0 ∧
        (UInt16.ofInt (position.y + y)).toNat = 0 then byte else old)) := by
  unfold Gpu.drawTransparentPixel
  rw [hload, ok_bind]
  by_cases h99 : byte = 99
  · rw [if_neg (not_not.mpr h99), if_neg fun h => h.1 h99]
    rfl
  · rw [if_pos h99, drawPixel_dot, if_congr (and_iff_right h99) rfl rfl]

/-- The transparent blit leaves no `99` where there was none. -/
theorem drawTransparentXpm_ne (old : UInt8) (hold : old ≠ 99) {position : Vec2} {g : Gpu}
    (h : (dot old).drawTransparentXpm img position offset size = .ok g) :
    ∃ new, g = dot new ∧ new ≠ 99 := by
  refine forRange_keep (I := fun g => ∃ new, g = dot new ∧ new ≠ 99) (fun y s s' hs hrow => ?_)
    ⟨old, rfl, hold⟩ h
  refine forRange_keep (I := fun g => ∃ new, g = dot new ∧ new ≠ 99) (fun x s s' hs hpixel => ?_) hs
    hrow
  obtain ⟨old, rfl, hold⟩ := hs
  cases hload : loadByte img.bytes ((y + offset.y) * img.width.toNat + (x + offset.x)) with
  | error e =>
    unfold Gpu.drawTransparentPixel at hpixel
    rw [hload] at hpixel
    cases hpixel
  | ok byte =>
    rw [drawTransparentPixel_dot hload, Except.ok.injEq] at hpixel
    refine ⟨_, hpixel.symm, ?_⟩
    split
    · rename_i hdrawn
      exact hdrawn.1
    · exact hold

/-- The position one turn of a 16-bit coordinate to the right of the screen. -/
def farRight : Vec2 := ⟨65536, 0⟩

/-- Once the steps have come past the first one, the screen shows `byte`. -/
def FirstShown (byte : UInt8) (y x : Int) (g : Gpu) : Prop :=
  ∃ c, g = dot c ∧ (0 < y ∨ 0 < x → c = byte)

/-- The first step draws its byte, and no later one comes to the same coordinates. -/
theorem drawTransparentPixel_farRight (hframe : Gpu.FrameInside img offset size)
    (hbytes : img.height.toNat * img.width.toNat ≤ img.bytes.length) {byte : UInt8}
    (hfirst : loadByte img.bytes ((0 + offset.y) * img.width.toNat + (0 + offset.x)) = .ok byte)
    (h99 : byte ≠ 99) {y x : Int} (hy : 0 ≤ y ∧ y < size.y) (hx : 0 ≤ x ∧ x < size.x) {g : Gpu}
    (hg : FirstShown byte y x g) :
    ∃ g', Gpu.drawTransparentPixel img farRight offset y x g = .ok g' ∧
      FirstShown byte y (x + 1) g' := by
  have hleft := hframe.left
  have htop := hframe.top
  have hright := hframe.right
  have hbottom := hframe.bottom
  have hmaxw := img.width.toNat_lt
  have hmaxh := img.height.toNat_lt
  obtain ⟨c, rfl, hc⟩ := hg
  obtain ⟨byte', hload, -⟩ := Gpu.imageByte_at (g := dot 0) rfl (holds_dot hbytes 0) hframe ⟨0, 0⟩
    hx hy
  refine ⟨_, drawTransparentPixel_dot hload c, _, rfl, fun _ => ?_⟩
  have hzero : (UInt16.ofInt (farRight.x + x)).toNat = 0 ∧
      (UInt16.ofInt (farRight.y + y)).toNat = 0 ↔ x = 0 ∧ y = 0 := by
    rw [Gpu.toNat_uint16_ofInt, Gpu.toNat_uint16_ofInt]
    unfold farRight
    dsimp only
    omega
  rw [if_congr (and_congr_right fun _ => hzero) rfl rfl]
  by_cases hstart : x = 0 ∧ y = 0
  · rw [hstart.1, hstart.2, hfirst, Except.ok.injEq] at hload
    rw [← hload, if_pos ⟨h99, hstart⟩]
  · rw [if_neg fun h => hstart h.2]
    exact hc (by omega)

theorem drawTransparentRow_farRight (hframe : Gpu.FrameInside img offset size)
    (hbytes : img.height.toNat * img.width.toNat ≤ img.bytes.length) {byte : UInt8}
    (hfirst : loadByte img.bytes ((0 + offset.y) * img.width.toNat + (0 + offset.x)) = .ok byte)
    (h99 : byte ≠ 99) {y : Int} (hy : 0 ≤ y ∧ y < size.y) {g : Gpu}
    (hg : FirstShown byte y 0 g) :
    ∃ g', Gpu.drawTransparentRow img farRight offset size y g = .ok g' ∧
      FirstShown byte (y + 1) 0 g' := by
  have hwidth := hframe.width
  have hrow : ∃ g', Gpu.drawTransparentRow img farRight offset size y g = .ok g' ∧
      FirstShown byte y (size.x - 1 + 1) g' :=
    forRange_spec (I := FirstShown byte y) (by omega) hg fun x g hlo hhi hg =>
      drawTransparentPixel_farRight hframe hbytes hfirst h99 hy ⟨hlo, by omega⟩ hg
  obtain ⟨g', hdraw, c, rfl, hc⟩ := hrow
  exact ⟨_, hdraw, c, rfl, fun _ => hc (by omega)⟩

/-- There the transparent blit draws the first pixel of the frame on the screen all the same. -/
theorem drawTransparentXpm_farRight (hframe : Gpu.FrameInside img offset size)
    (hbytes : img.height.toNat * img.width.toNat ≤ img.bytes.length) {byte : UInt8}
    (hfirst : loadByte img.bytes ((0 + offset.y) * img.width.toNat + (0 + offset.x)) = .ok byte)
    (h99 : byte ≠ 99) (old : UInt8) :
    (dot old).drawTransparentXpm img farRight offset size = .ok (dot byte) := by
  have hheight := hframe.height
  have hloop : ∃ g', (dot old).drawTransparentXpm img farRight offset size = .ok g' ∧
      FirstShown byte (size.y - 1 + 1) 0 g' :=
    forRange_spec (I := fun y => FirstShown byte y 0) (by omega)
      ⟨old, rfl, fun h => absurd h (by decide)⟩ fun y g hlo hhi hg =>
        drawTransparentRow_farRight hframe hbytes hfirst h99 ⟨hlo, by omega⟩ hg
  obtain ⟨g', hdraw, c, rfl, hc⟩ := hloop
  rw [hdraw, hc (by omega)]

/-- Some position on some screen tells the two blits apart. -/
theorem exists_blits_ne (hframe : Gpu.FrameInside img offset size)
    (hbytes : img.height.toNat * img.width.toNat ≤ img.bytes.length) :
    ∃ (position : Vec2) (g : Gpu), g.drawTransparentXpm img position offset size ≠
      g.drawXpm img position offset size := by
  have hwidth := hframe.width
  have hheight := hframe.height
  obtain ⟨byte, hload, himage⟩ := Gpu.imageByte_at (g := dot 0) rfl (holds_dot hbytes 0) hframe
    ⟨0, 0⟩ ⟨le_refl 0, hwidth⟩ ⟨le_refl 0, hheight⟩
  by_cases h99 : byte = 99
  · -- a transparent pixel on the screen
    subst h99
    refine ⟨⟨0, 0⟩, dot 0, fun heq => ?_⟩
    obtain ⟨g, hdraw, hpixel⟩ := drawXpm_dot hframe hbytes 0 ⟨0, 0⟩
    obtain ⟨new, rfl, hnew⟩ := drawTransparentXpm_ne 0 (by decide) (heq.trans hdraw)
    rw [himage 0 0 rfl rfl, if_pos (by unfold Gpu.InRect; dsimp only; omega)] at hpixel
    exact hnew (Option.some.inj hpixel)
  · -- a visible pixel beyond the range of the coordinates of `gpu_draw_pixel`
    refine ⟨farRight, dot (byte + 1), fun heq => ?_⟩
    obtain ⟨g, hdraw, hpixel⟩ := drawXpm_dot hframe hbytes (byte + 1) farRight
    rw [← heq, drawTransparentXpm_farRight hframe hbytes hload h99, Except.ok.injEq] at hdraw
    rw [← hdraw, if_neg (by unfold Gpu.InRect farRight; dsimp only; omega)] at hpixel
    have hbyte : byte = byte + 1 := Option.some.inj hpixel
    simp at hbyte

/-! ## Two runs -/

/-- Without an image the back buffers stay as they are. -/
theorem pictures_of_null {s : Sprite} (himg : s.img = none) (calls : List (Vec2 × Gpu)) :
    s.pictures calls = .ok (calls.map Prod.snd) := by
  induction calls with
  | nil => rfl
  | cons call rest ih =>
    have hdraw : s.drawOn call.1 call.2 = .ok (s, call.2) := by
      unfold drawOn draw
      rw [himg]
      rfl
    unfold pictures
    dsimp only
    rw [hdraw, ok_bind]
    dsimp only
    rw [ih]
    rfl

/-- The same when the image did not load; the first draw drops it. -/
theorem pictures_of_invalid {s : Sprite} (himg : s.img = some img) (hinvalid : img.type = .invalid)
    (calls : List (Vec2 × Gpu)) : s.pictures calls = .ok (calls.map Prod.snd) := by
  cases calls with
  | nil => rfl
  | cons call rest =>
    have hdraw : s.drawOn call.1 call.2 = .ok ({ s with img := none }, call.2) := by
      unfold drawOn draw
      rw [himg]
      dsimp only
      rw [if_pos hinvalid]
      rfl
    unfold pictures
    dsimp only
    rw [hdraw, ok_bind]
    dsimp only
    rw [pictures_of_null rfl]
    rfl

/-- The first draw of a sprite is the blit its flag selects. -/
theorem pictures_single {s : Sprite} (himg : s.img = some img) (hvalid : img.type ≠ .invalid)
    (hoffset : frameOf s.offsets s.current_frame = .ok offset)
    (hsize : frameOf s.sizes s.current_frame = .ok size) (position : Vec2) (g : Gpu) :
    s.pictures [(position, g)] =
      (if s.transparent then g.drawTransparentXpm img position offset size
        else g.drawXpm img position offset size).map fun g => [g] := by
  have hdraw : s.draw position =
      .ok (s.advance, some ⟨s.transparent, img, position, offset, size⟩) := by
    unfold draw
    rw [himg]
    dsimp only
    rw [if_neg hvalid, hoffset, hsize]
    rfl
  have hdrawOn : s.drawOn position g = (if s.transparent then
      g.drawTransparentXpm img position offset size
        else g.drawXpm img position offset size).map (Prod.mk s.advance) := by
    unfold drawOn
    rw [hdraw, ok_bind]
    dsimp only
    unfold DrawCall.run
    dsimp only
    cases (if s.transparent then g.drawTransparentXpm img position offset size
      else g.drawXpm img position offset size) with
    | error e => rfl
    | ok g' => rfl
  unfold pictures
  rw [hdrawOn]
  cases (if s.transparent then g.drawTransparentXpm img position offset size
    else g.drawXpm img position offset size) with
  | error e => rfl
  | ok g => rfl

theorem map_singleton_inj {x y : Except Fault Gpu}
    (h : (x.map fun g => [g]) = y.map fun g => [g]) : x = y := by
  cases x with
  | error e =>
    cases y with
    | error e' => exact congrArg Except.error (Except.error.inj h)
    | ok g' => cases h
  | ok g =>
    cases y with
    | error e' => cases h
    | ok g' => exact congrArg Except.ok (List.singleton_inj.mp (Except.ok.inj h))

/-- **Two sprites created with equal arguments draw alike** exactly when the allocator left the same
    flag in both, or the image did not load. -/
theorem pictures_create_iff {offsets sizes : List Vec2} {framesc delay : UInt32} {t t' : Bool}
    (hoffset : offsets[0]? = some offset) (hsize : sizes[0]? = some size)
    (hframe : Gpu.FrameInside img offset size)
    (hbytes : img.height.toNat * img.width.toNat ≤ img.bytes.length) :
    (∀ calls, (create img offsets sizes framesc delay t).pictures calls =
      (create img offsets sizes framesc delay t').pictures calls) ↔
        t = t' ∨ img.type = .invalid := by
  constructor
  · intro h
    by_contra hne
    obtain ⟨hflag, hvalid⟩ := not_or.mp hne
    have hoffset' : frameOf offsets 0 = .ok offset := by
      unfold frameOf
      rw [UInt32.toNat_zero, hoffset]
    have hsize' : frameOf sizes 0 = .ok size := by
      unfold frameOf
      rw [UInt32.toNat_zero, hsize]
    obtain ⟨position, g, hblits⟩ := exists_blits_ne hframe hbytes
    have hdraws := h [(position, g)]
    rw [pictures_single rfl hvalid hoffset' hsize', pictures_single rfl hvalid hoffset' hsize']
      at hdraws
    have hblit := map_singleton_inj hdraws
    cases t with
    | false =>
      cases t' with
      | false => exact hflag rfl
      | true => exact hblits hblit.symm
    | true =>
      cases t' with
      | false => exact hblits hblit
      | true => exact hflag rfl
  · intro h calls
    rcases h with rfl | hinvalid
    · rfl
    · rw [pictures_of_invalid rfl hinvalid, pictures_of_invalid rfl hinvalid]

/-- Two blocks with the same flag, and a cursor with a transparent pixel. -/
theorem pictures_create_fresh :
    (create ⟨.indexed, 1, 1, [99]⟩ [⟨0, 0⟩] [⟨1, 1⟩] 1 0 false).pictures [(⟨0, 0⟩, dot 7)] =
      (create ⟨.indexed, 1, 1, [99]⟩ [⟨0, 0⟩] [⟨1, 1⟩] 1 0 false).pictures [(⟨0, 0⟩, dot 7)] :=
  (@pictures_create_iff ⟨.indexed, 1, 1, [99]⟩ ⟨0, 0⟩ ⟨1, 1⟩ [⟨0, 0⟩] [⟨1, 1⟩] 1 0 false false rfl rfl
    ⟨by decide, by decide, by decide, by decide, by decide, by decide⟩ (by decide)).mpr (.inl rfl) _

/-- A block that held a `true` against one that held a `false`. -/
theorem pictures_create_garbage :
    ¬ ∀ (img : XpmImage) offsets sizes framesc delay t t' calls,
      (create img offsets sizes framesc delay t).pictures calls =
        (create img offsets sizes framesc delay t').pictures calls := by
  intro h
  have hpictures := h ⟨.indexed, 1, 1, [99]⟩ [⟨0, 0⟩] [⟨1, 1⟩] 1 0 true false [(⟨0, 0⟩, dot 7)]
  exact absurd hpictures (by decide)

end Sprite

end Lcom

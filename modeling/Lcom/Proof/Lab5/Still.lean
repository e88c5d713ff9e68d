import Lcom.Lab5.Still
import Lcom.Proof.Lab5.Move
import Lcom.Proof.Lab5.Pattern

/-!
# What stands on the screen

While one of the still tests waits for the escape key, and when it is over, the screen shows what the
test has copied there: `video_test_rectangle` nothing at all, since it draws to the back buffer only;
`video_test_pattern` and `video_test_xpm` their picture, over whatever `malloc` left in the back buffer,
since neither clears it. The pattern is the one of the documentation where its tiles are less than 256
pixels wide and high; the driver keeps their size in a byte.
-/

namespace Lcom
namespace Lab5

open Lib

/-! ## The run -/

/-- The program has its picture on the screen: it waits, or has gone through. -/
def Stands (ending : Ending) : Prop := ending = .running ∨ ending = .returned 0

section
variable {heap vram : Nat → UInt8} {mode : UInt16} {draw : Panel → Except Fault (Int × Panel)}
  {kbd : KbdGlobals} {fuel : Nat} {tr : List SysEvent} {ending : Ending} {d : Panel}

/-- How a still test comes to its end: it gives up before it draws, or the mode is set up and the
    picture is what its drawing has made, once. -/
theorem runs_showStill (h : (showStill heap vram mode draw kbd fuel).Runs tr (ending, d)) :
    ending = .panicked ∨ ending = .returned 1 ∨
      ∃ reply, (SysCall.vbeGetModeInfo mode, reply) ∈ tr ∧
        ((∃ f, ending = .faulted f ∧ draw (.mapped heap vram reply.mode_info) = .error f) ∨
          Stands ending ∧ draw (.mapped heap vram reply.mode_info) = .ok (0, d)) := by
  unfold showStill at h
  obtain ⟨init, made, tail, rfl, hinit, hrest⟩ := Prog.runs_bind.mp h
  cases made with
  | none =>
    cases (Prog.runs_ret.mp hrest).2
    exact .inl rfl
  | some made =>
    obtain ⟨r, panel⟩ := made
    dsimp only at hrest
    split at hrest
    · cases (Prog.runs_ret.mp hrest).2
      exact .inr (.inl rfl)
    next hzero =>
    obtain rfl := not_not.mp hzero
    obtain ⟨reply, hasked, rfl⟩ := runs_gpuInit hinit
    rcases runs_call hrest with ⟨_, -, -, heq⟩ | ⟨_, _, rfl, -, hrest⟩
    · cases heq
      exact .inr (.inl rfl)
    cases hdraw : draw (.mapped heap vram reply.mode_info) with
    | error f =>
      rw [hdraw] at hrest
      cases (Prog.runs_ret.mp hrest).2
      exact .inr (.inr ⟨reply, List.mem_append_left _ hasked, .inl ⟨f, rfl, hdraw⟩⟩)
    | ok drawn =>
      obtain ⟨r, panel⟩ := drawn
      rw [hdraw] at hrest
      dsimp only at hrest
      split at hrest
      · cases (Prog.runs_ret.mp hrest).2
        exact .inr (.inl rfl)
      next hzero =>
      obtain rfl := not_not.mp hzero
      -- the wait leaves the picture alone
      obtain ⟨wait, ⟨code, kbd'⟩, close, rfl, -, hclose⟩ := Prog.runs_bind.mp hrest
      cases code with
      | none =>
        cases (Prog.runs_ret.mp hclose).2
        exact .inr (.inr ⟨reply, List.mem_append_left _ hasked, .inr ⟨.inl rfl, hdraw⟩⟩)
      | some r =>
        dsimp only at hclose
        split at hclose
        · cases (Prog.runs_ret.mp hclose).2
          exact .inr (.inl rfl)
        · rcases runs_call hclose with ⟨_, -, -, heq⟩ | ⟨_, _, -, -, hret⟩
          · cases heq
            exact .inr (.inl rfl)
          · cases (Prog.runs_ret.mp hret).2
            exact .inr (.inr ⟨reply, List.mem_append_left _ hasked, .inr ⟨.inr rfl, hdraw⟩⟩)

end

/-! ## The picture of the pattern -/

/-- The pattern of indices: `n` by `n` tiles, each as wide and as high as the resolution allows. -/
def patternLayer (W H : Nat) (n : UInt8) (first : UInt32) (step : UInt8) : Picture := fun p =>
  if p.1 < n.toNat * (W / n.toNat) ∧ p.2 < n.toNat * (H / n.toNat) then
    some (UInt8.ofNat (first.toNat +
      (p.2 / (H / n.toNat) * n.toNat + p.1 / (W / n.toNat)) * step.toNat))
  else none

/-- The mode of the panel, with the statics of colour. -/
def Panel.modeInfo (d : Panel) (c : Colors) : ModeInfo where
  XResolution := d.gpu.x_res
  YResolution := d.gpu.y_res
  BitsPerPixel := 8
  MemoryModel := 0x04
  RedMaskSize := c.red_mask_size
  RedFieldPosition := c.red_mask_location
  GreenMaskSize := c.green_mask_size
  GreenFieldPosition := c.green_mask_location
  BlueMaskSize := c.blue_mask_size
  BlueFieldPosition := c.blue_mask_location

namespace Panel

variable {W H : Nat} {d : Panel}

theorem bytesPerPixel_modeInfo (d : Panel) (c : Colors) : (d.modeInfo c).bytesPerPixel = 1 := by
  have hround : UInt8.ofNat (((8 : UInt8).toNat + 7) / 8) = 1 := by decide
  exact hround

theorem valid_modeInfo (d : Panel) (c : Colors) : (d.modeInfo c).Valid where
  bits := (by decide : 1 ≤ (8 : UInt8).toNat ∧ (8 : UInt8).toNat ≤ 32)
  memory := by
    have hx := d.gpu.x_res.toNat_lt
    have hy := d.gpu.y_res.toNat_lt
    have hmax : d.gpu.x_res.toNat * d.gpu.y_res.toNat ≤ 65535 * 65535 :=
      Nat.mul_le_mul (Nat.le_of_lt_succ hx) (Nat.le_of_lt_succ hy)
    rw [bytesPerPixel_modeInfo, UInt8.toNat_one, Nat.mul_one]
    exact hmax.trans_lt (by decide)
  inside := fun hdirect => absurd hdirect (by decide : ¬ (0x04 : UInt8) = 0x06)
  apart := fun hdirect => absurd hdirect (by decide : ¬ (0x04 : UInt8) = 0x06)

/-- **`aux_draw_pattern`** in a mode of indices: the pattern, if a byte holds the size of a tile. -/
theorem Ready.drawPattern (h : d.Ready W H) {c : Colors} (hbits : c.bits_per_pixel = 8)
    (hindex : c.color_mode = indexMode) {n : UInt8} (hn : 1 ≤ n.toNat) (first : UInt32) (step : UInt8) :
    ∃ d', d.drawPattern c n first step = .ok (0, d') ∧ d'.Ready W H ∧
      d'.video_mem = d.video_mem ∧ (W / n.toNat < 256 → H / n.toNat < 256 →
        d'.back = (patternLayer W H n first step).onto d.back) := by
  have hcolors : (d.modeInfo c).colors = c := by
    obtain ⟨bits, _, _, _, _, _, _, mode⟩ := c
    obtain rfl : bits = 8 := hbits
    obtain rfl : mode = indexMode := hindex
    rfl
  have hbyte : d.gpu.bytes_per_pixel = 1 := UInt8.toNat_inj.mp h.gpu.one
  have hgpu : ∀ backbuffer, (d.modeInfo c).gpu backbuffer = { d.gpu with backbuffer } := by
    intro backbuffer
    unfold ModeInfo.gpu
    rw [bytesPerPixel_modeInfo, ← hbyte]
    rfl
  have hlength : d.gpu.backbuffer.length = (d.modeInfo c).vramSize.toNat := by
    have hsize := h.gpu.vramSize
    unfold ModeInfo.vramSize
    rw [bytesPerPixel_modeInfo, ← hbyte]
    exact hsize.symm
  obtain ⟨backbuffer, hdraw, hkept, hpixels⟩ := auxDrawPattern_gpu (valid_modeInfo d c) hn
    (fun _ => (by decide : (8 : UInt8).toNat < 32)) first step hlength
  rw [hcolors, hgpu, hgpu] at hdraw
  have hmode : Gpu.SameMode d.gpu.toProject { d.gpu.toProject with backbuffer } := ⟨rfl, rfl, hkept⟩
  refine ⟨{ d with gpu := { d.gpu with backbuffer } }, ?_, h.drawn hmode, rfl, fun hwide hhigh => ?_⟩
  · unfold Panel.drawPattern
    change (auxDrawPattern c n first step { d.gpu with backbuffer := d.gpu.backbuffer } >>= _) = _
    rw [hdraw]
    rfl
  · have hwidth : d.gpu.x_res.toNat = W := h.gpu.width
    have hheight : d.gpu.y_res.toNat = H := h.gpu.height
    have hinside : ∀ p : Nat × Nat, p.1 < n.toNat * (W / n.toNat) ∧ p.2 < n.toNat * (H / n.toNat) →
        p.1 < W ∧ p.2 < H := fun p hp =>
      ⟨hp.1.trans_le (Nat.mul_div_le W n.toNat), hp.2.trans_le (Nat.mul_div_le H n.toNat)⟩
    refine h.gpu.view_eq_onto hmode (fun p hp => if_neg (mt (hinside p) hp)) fun p hp => ?_
    have hone : (d.modeInfo c).bytesPerPixel.toNat = 1 := by rw [bytesPerPixel_modeInfo, UInt8.toNat_one]
    have hpixel := hpixels p.1 p.2 0 (hwidth.symm ▸ hp.1) (hheight.symm ▸ hp.2) (by rw [hone]; decide)
    have hx : (d.modeInfo c).XResolution.toNat = W := hwidth
    have hy : (d.modeInfo c).YResolution.toNat = H := hheight
    rw [hone, hx, hy, Nat.mod_eq_of_lt hwide, Nat.mod_eq_of_lt hhigh] at hpixel
    have hW : d.gpu.toProject.W = W := h.gpu.width
    have hbpp : d.gpu.toProject.bpp = 1 := h.gpu.one
    change backbuffer[(p.2 * d.gpu.toProject.W + p.1) * d.gpu.toProject.bpp + 0]? =
      (patternLayer W H n first step p).or
        (d.gpu.backbuffer[(p.2 * d.gpu.toProject.W + p.1) * d.gpu.toProject.bpp + 0]?)
    rw [hW, hbpp, hpixel]
    unfold patternLayer
    split
    · rw [Option.some_or, getElem?_colorBytes _ (by decide)]
      congr 1
      have hcode : ∀ nx ny, codeColor (d.modeInfo c) n first step nx ny =
          (first.toNat + (ny * n.toNat + nx) * step.toNat) % 2 ^ 8 := fun nx ny => rfl
      rw [hcode, ← UInt8.toNat_inj, UInt8.toNat_ofNat', UInt8.toNat_ofNat', UInt32.toNat_ofNat']
      omega
    · rw [Option.none_or]

end Panel

/-! ## The three programs -/

section
variable {heap vram : Nat → UInt8} {mode : UInt16} {kbd : KbdGlobals} {fuel : Nat}
  {tr : List SysEvent} {ending : Ending} {d : Panel}

/-- The panel in the mode that the trace has set up, with nothing drawn yet. -/
def SetUp (heap vram : Nat → UInt8) (mode : UInt16) (tr : List SysEvent) (d₀ : Panel) : Prop :=
  ∃ reply, (SysCall.vbeGetModeInfo mode, reply) ∈ tr ∧ d₀ = .mapped heap vram reply.mode_info

theorem setUp_of_stands {draw : Panel → Except Fault (Int × Panel)}
    (h : (showStill heap vram mode draw kbd fuel).Runs tr (ending, d)) (hstands : Stands ending) :
    ∃ d₀, SetUp heap vram mode tr d₀ ∧ draw d₀ = .ok (0, d) := by
  rcases runs_showStill h with rfl | rfl | ⟨reply, hasked, ⟨f, rfl, -⟩ | ⟨-, hdraw⟩⟩
  · rcases hstands with hstands | hstands <;> cases hstands
  · rcases hstands with hstands | hstands <;> cases hstands
  · rcases hstands with hstands | hstands <;> cases hstands
  · exact ⟨_, ⟨reply, hasked, rfl⟩, hdraw⟩

/-- A drawing that goes through in every mode of eight bits is shown, and faults in no run. -/
theorem showStill_shows {draw : Panel → Except Fault (Int × Panel)}
    {shown : Nat → Nat → Panel → Panel → Prop}
    (hdraw : ∀ W H (d₀ : Panel), d₀.Ready W H → ∃ d', draw d₀ = .ok (0, d') ∧ shown W H d₀ d')
    (hbits : ∀ reply, (SysCall.vbeGetModeInfo mode, reply) ∈ tr → reply.mode_info.BitsPerPixel = 8)
    (h : (showStill heap vram mode draw kbd fuel).Runs tr (ending, d)) :
    (∀ f, ending ≠ .faulted f) ∧ (Stands ending → ∃ d₀, SetUp heap vram mode tr d₀ ∧
      shown d₀.gpu.x_res.toNat d₀.gpu.y_res.toNat d₀ d) := by
  constructor
  · rintro f rfl
    rcases runs_showStill h with heq | heq | ⟨reply, hasked, ⟨f', -, hfault⟩ | ⟨hstands, -⟩⟩
    · cases heq
    · cases heq
    · obtain ⟨d', hok, -⟩ := hdraw _ _ _ (@Panel.ready_mapped heap vram _ (hbits reply hasked))
      rw [hfault] at hok
      cases hok
    · rcases hstands with heq | heq <;> cases heq
  · intro hstands
    obtain ⟨d₀, ⟨reply, hasked, rfl⟩, hd⟩ := setUp_of_stands h hstands
    obtain ⟨d', hok, hscreen⟩ := hdraw _ _ _ (@Panel.ready_mapped heap vram _ (hbits reply hasked))
    rw [hd] at hok
    cases hok
    exact ⟨_, ⟨reply, hasked, rfl⟩, hscreen⟩

end

/-- **What the still tests show.** In no run does `video_test_rectangle` change the video memory, in any
    mode. In a mode of eight bits the other two never fault, and while they wait and after they have
    returned 0 the screen shows the pattern, whose tiles must be less than 256 pixels wide and high, or
    the image over what `malloc` left in the back buffer. -/
theorem stills_on_screen (heap vram : Nat → UInt8) (mode : UInt16) (kbd : KbdGlobals) (fuel : Nat)
    (tr : List SysEvent) (ending : Ending) (d : Panel) :
    (∀ x y width height color,
      (videoTestRectangle heap vram mode x y width height color kbd fuel).Runs tr (ending, d) →
      Stands ending → ∃ d₀, SetUp heap vram mode tr d₀ ∧ d.video_mem = d₀.video_mem) ∧
    (∀ (c : Colors) (n : UInt8) first step, c.bits_per_pixel = 8 → c.color_mode = indexMode →
      1 ≤ n.toNat →
      (∀ reply, (SysCall.vbeGetModeInfo mode, reply) ∈ tr → reply.mode_info.BitsPerPixel = 8) →
      (videoTestPattern c heap vram mode n first step kbd fuel).Runs tr (ending, d) →
      (∀ f, ending ≠ .faulted f) ∧ (Stands ending → ∃ d₀, SetUp heap vram mode tr d₀ ∧
        (d₀.gpu.x_res.toNat / n.toNat < 256 → d₀.gpu.y_res.toNat / n.toNat < 256 → d.screen =
          (patternLayer d₀.gpu.x_res.toNat d₀.gpu.y_res.toNat n first step).onto d₀.back))) ∧
    (∀ img x y, Complete img →
      (∀ reply, (SysCall.vbeGetModeInfo 0x105, reply) ∈ tr → reply.mode_info.BitsPerPixel = 8) →
      (videoTestXpm img heap vram x y kbd fuel).Runs tr (ending, d) →
      (∀ f, ending ≠ .faulted f) ∧ (Stands ending → ∃ d₀, SetUp heap vram 0x105 tr d₀ ∧ d.screen =
        (imageLayer d₀.gpu.x_res.toNat d₀.gpu.y_res.toNat img x y).onto d₀.back)) := by
  refine ⟨?_, ?_, ?_⟩
  · intro x y width height color h hstands
    obtain ⟨d₀, hsetUp, hdraw⟩ := setUp_of_stands h hstands
    obtain ⟨⟨r, gpu⟩, -, heq⟩ := bind_eq_ok.mp hdraw
    cases heq
    exact ⟨d₀, hsetUp, rfl⟩
  · intro c n first step hbits hindex hn hmode h
    refine @showStill_shows _ _ _ _ _ _ _ _ _
      (fun W H d₀ d => W / n.toNat < 256 → H / n.toNat < 256 →
        d.screen = (patternLayer W H n first step).onto d₀.back) ?_ hmode h
    intro W H d₀ hready
    obtain ⟨d₁, hdraw, hready₁, -, hback⟩ := hready.drawPattern hbits hindex hn first step
    obtain ⟨d₂, hcommit, -, hscreen⟩ := hready₁.vgCommit
    refine ⟨d₂, ?_, fun hwide hhigh => hscreen.trans (hback hwide hhigh)⟩
    rw [hdraw, ok_bind]
    dsimp only
    rw [if_neg (not_not.mpr rfl), hcommit]
    rfl
  · intro img x y himg hmode h
    refine @showStill_shows _ _ _ _ _ _ _ _ _
      (fun W H d₀ d => d.screen = (imageLayer W H img x y).onto d₀.back) ?_ hmode h
    intro W H d₀ hready
    obtain ⟨d₁, hdraw, hready₁, hback, -⟩ := hready.drawXpm himg x y
    obtain ⟨d₂, hcommit, -, hscreen⟩ := hready₁.vgCommit
    refine ⟨d₂, ?_, hscreen.trans hback⟩
    rw [hdraw, ok_bind]
    dsimp only
    rw [hcommit]
    rfl

/-- Four by three pixels, in which a test has been set up and waits. -/
def stillTrace : List SysEvent :=
  [ (.vbeGetModeInfo 0x105, ⟨false, 0, ⟨4, 3, 8, 0⟩, ⟨false, false, 0⟩⟩),
    granted (.privctlAddMem 0 12) 0, granted (.vmMapPhys 0 12) 0, granted (.malloc 12) 0,
    granted (.int86 0x10 0x4F02 0x4105) 0, granted (.irqSetPolicy kbcIrqKbd true .keyboard) 0 ]

/-- Over a back buffer that holds threes: four tiles of two pixels, and a dot. -/
theorem stills_on_screen_dot :
    (∃ d₀ d : Panel, SetUp (fun _ => 3) (fun _ => 5) 0x105 stillTrace d₀ ∧
      (videoTestPattern ⟨8, 0, 0, 0, 0, 0, 0, indexMode⟩ (fun _ => 3) (fun _ => 5) 0x105 2 1 1
        ⟨0, false⟩ 0).Runs stillTrace (.running, d) ∧
      d.screen = (patternLayer 4 3 2 1 1).onto d₀.back) ∧
    ∃ d₀ d : Panel, SetUp (fun _ => 3) (fun _ => 5) 0x105 stillTrace d₀ ∧
      (videoTestXpm ⟨.indexed, 1, 1, [9]⟩ (fun _ => 3) (fun _ => 5) 1 1 ⟨0, false⟩ 0).Runs stillTrace
        (.running, d) ∧
      d.screen = (imageLayer 4 3 ⟨.indexed, 1, 1, [9]⟩ 1 1).onto d₀.back := by
  have hsetUp : ∀ {d₀ : Panel}, SetUp (fun _ => 3) (fun _ => 5) 0x105 stillTrace d₀ →
      d₀.gpu.x_res.toNat = 4 ∧ d₀.gpu.y_res.toNat = 3 := by
    rintro d₀ ⟨reply, hasked, rfl⟩
    simp [stillTrace, granted] at hasked
    subst hasked
    exact ⟨rfl, rfl⟩
  constructor
  · obtain ⟨d, hrun⟩ : ∃ d, (videoTestPattern ⟨8, 0, 0, 0, 0, 0, 0, indexMode⟩ (fun _ => 3)
        (fun _ => 5) 0x105 2 1 1 ⟨0, false⟩ 0).Runs stillTrace (.running, d) := ⟨_, rfl⟩
    obtain ⟨-, hscreen⟩ := (stills_on_screen (fun _ => 3) (fun _ => 5) 0x105 ⟨0, false⟩ 0 stillTrace
      .running d).2.1 ⟨8, 0, 0, 0, 0, 0, 0, indexMode⟩ 2 1 1 rfl rfl (by decide)
      (by simp [stillTrace, granted]) hrun
    obtain ⟨d₀, hmode, hshown⟩ := hscreen (.inl rfl)
    obtain ⟨hx, hy⟩ := hsetUp hmode
    rw [hx, hy] at hshown
    exact ⟨d₀, d, hmode, hrun, hshown (by decide) (by decide)⟩
  · obtain ⟨d, hrun⟩ : ∃ d, (videoTestXpm ⟨.indexed, 1, 1, [9]⟩ (fun _ => 3) (fun _ => 5) 1 1
        ⟨0, false⟩ 0).Runs stillTrace (.running, d) := ⟨_, rfl⟩
    obtain ⟨-, hscreen⟩ := (stills_on_screen (fun _ => 3) (fun _ => 5) 0x105 ⟨0, false⟩ 0 stillTrace
      .running d).2.2 ⟨.indexed, 1, 1, [9]⟩ 1 1 (by decide) (by simp [stillTrace, granted]) hrun
    obtain ⟨d₀, hmode, hshown⟩ := hscreen (.inl rfl)
    obtain ⟨hx, hy⟩ := hsetUp hmode
    rw [hx, hy] at hshown
    exact ⟨d₀, d, hmode, hrun, hshown⟩

end Lab5
end Lcom

import Lcom.Proof.Drivers.Blit

/-!
# Where `gpu_draw_line` reads and writes

The early returns of `gpu_draw_line` let two empty lines through, one that starts directly behind
the right edge and one that ends directly before the left one. The arithmetic after them makes their
length zero: whatever is copied lies in the row, on both sides of the copy.
-/

namespace Lcom

open Lib

/-- The arguments of a `memcpy` into the back buffer: where it writes, where in the source it reads,
    and how many bytes. -/
structure Copy where
  location : Int
  skipped : Int
  length : Int
  deriving DecidableEq, Repr

namespace Gpu

/-- The copy that `gpu_draw_line` makes, if it makes one. -/
def lineCopy (g : Gpu) (position : Vec2) (pixelsc : Int) : Option Copy :=
  if position.x > g.W then none
  else if position.x + pixelsc < 0 then none
  else if position.y < 0 ∨ position.y ≥ g.H then none
  else
    let start := max position.x 0
    let stop := min (g.W - 1 : Int) (position.x + pixelsc - 1)
    some {
      location := (position.y * g.W + start) * g.bpp
      skipped := if position.x < 0 then -position.x else 0
      length := (stop - start + 1) * g.bpp }

/-- The copy, made. -/
def runCopy (g : Gpu) (bytes : List UInt8) (copy : Copy) : Except Fault Gpu := do
  let backbuffer ← memcpy g.backbuffer copy.location bytes copy.skipped copy.length
  pure { g with backbuffer }

/-- `gpu_draw_line` returns at once, or makes that copy. -/
theorem drawLine_eq (g : Gpu) (position : Vec2) (bytes : List UInt8) (pixelsc : Int) :
    g.drawLine position bytes pixelsc =
      match g.lineCopy position pixelsc with
      | none => .ok g
      | some copy => g.runCopy bytes copy := by
  unfold drawLine lineCopy
  change (if position.x > g.W then _ else if _ then _ else
    if position.y < 0 ∨ position.y ≥ g.H then _ else _) = _
  split
  · rfl
  · split
    · rfl
    · split
      · rfl
      · rfl

/-- The copy keeps to the pixels of row `position.y` and to the `pixelsc` pixels of the source. -/
structure CopyInside (g : Gpu) (position : Vec2) (pixelsc : Int) (copy : Copy) : Prop where
  length : 0 ≤ copy.length
  row : position.y * g.W * g.bpp ≤ copy.location
  rowEnd : copy.location + copy.length ≤ (position.y + 1) * g.W * g.bpp
  vram : 0 ≤ position.y ∧ (position.y + 1) * g.W * g.bpp ≤ g.vramSize.toNat
  source : 0 ≤ copy.skipped
  sourceEnd : copy.skipped + copy.length ≤ pixelsc * g.bpp

/-- Where the size of the buffer is computed without an overflow. -/
theorem toNat_vramSize {g : Gpu} (h : g.H * g.W * g.bpp ≤ 2147483647) :
    g.vramSize.toNat = g.H * g.W * g.bpp := by
  unfold vramSize
  rw [UInt32.toNat_mul, UInt32.toNat_mul, UInt16.toNat_toUInt32, UInt16.toNat_toUInt32,
    UInt8.toNat_toUInt32, Nat.mod_mul_mod, Nat.mul_comm g.gpu_res_info.x_res.toNat]
  exact Nat.mod_eq_of_lt (Nat.lt_of_le_of_lt h (by omega))

theorem row_inside_vram {g : Gpu} (h : g.H * g.W * g.bpp ≤ 2147483647) {y : Int} (hy : y < g.H) :
    (y + 1) * g.W * g.bpp ≤ g.vramSize.toNat := by
  rw [toNat_vramSize h]
  have hrow : (y + 1) * g.W ≤ g.H * g.W := Int.mul_le_mul_of_nonneg_right (by omega) (by omega)
  push_cast
  exact Int.mul_le_mul_of_nonneg_right hrow (by omega)

/-- What is skipped on the left and what is drawn is no longer than the line. -/
theorem skipped_add_le {skipped count p b : Int} (hb : 1 ≤ b) (hskipped : 0 ≤ skipped)
    (h : skipped + count ≤ p) : skipped + count * b ≤ p * b := by
  have hskip : skipped * 1 ≤ skipped * b := Int.mul_le_mul_of_nonneg_left hb hskipped
  have hall : (skipped + count) * b ≤ p * b := Int.mul_le_mul_of_nonneg_right h (by omega)
  rw [Int.add_mul] at hall
  omega

theorem copyInside_lineCopy {g : Gpu} (hb : 1 ≤ g.bpp) (hsize : g.H * g.W * g.bpp ≤ 2147483647)
    {position : Vec2} {pixelsc : Int} (hp : 0 ≤ pixelsc) {copy : Copy}
    (h : g.lineCopy position pixelsc = some copy) : g.CopyInside position pixelsc copy := by
  unfold lineCopy at h
  split at h
  · cases h
  · split at h
    · cases h
    · split at h
      · cases h
      · rename_i hright hleft hrow
        cases h
        have hb' : (0 : Int) ≤ g.bpp := by omega
        -- the columns that are drawn, from `start` up to and without `start + count`
        have hcount : 0 ≤ min ((g.W : Int) - 1) (position.x + pixelsc - 1) - max position.x 0 + 1 := by
          omega
        have hend : max position.x 0 +
            (min ((g.W : Int) - 1) (position.x + pixelsc - 1) - max position.x 0 + 1) ≤ g.W := by
          omega
        have hskipped : 0 ≤ if position.x < 0 then -position.x else 0 := by
          split
          · omega
          · exact le_refl _
        have hsource : (if position.x < 0 then -position.x else 0) +
            (min ((g.W : Int) - 1) (position.x + pixelsc - 1) - max position.x 0 + 1) ≤
              pixelsc := by
          split
          · omega
          · omega
        refine { length := ?_, row := ?_, rowEnd := ?_, vram := ?_, source := ?_, sourceEnd := ?_ }
        · exact Int.mul_nonneg hcount hb'
        · exact Int.mul_le_mul_of_nonneg_right (by omega) hb'
        · have hrowEnd : position.y * g.W + (max position.x 0 +
              (min ((g.W : Int) - 1) (position.x + pixelsc - 1) - max position.x 0 + 1)) ≤
              (position.y + 1) * g.W := by
            rw [Int.add_mul, Int.one_mul]
            omega
          rw [← Int.add_mul, Int.add_assoc]
          exact Int.mul_le_mul_of_nonneg_right hrowEnd hb'
        · exact ⟨by omega, row_inside_vram hsize (by omega)⟩
        · exact hskipped
        · exact skipped_add_le (by omega) hskipped hsource

/-- A copy that keeps to the row goes through, and only the row can change. -/
theorem runCopy_of_inside {g : Gpu} (hg : g.backbuffer.length = g.vramSize.toNat) {position : Vec2}
    {pixelsc : Int} {copy : Copy} (h : g.CopyInside position pixelsc copy) {bytes : List UInt8}
    (hbytes : pixelsc * g.bpp ≤ bytes.length) :
    ∃ g', g.runCopy bytes copy = .ok g' ∧ SameMode g g' ∧
      ∀ i : Nat, i < position.y * g.W * g.bpp ∨ (position.y + 1) * g.W * g.bpp ≤ i →
        g'.backbuffer[i]? = g.backbuffer[i]? := by
  have hrow0 : 0 ≤ position.y * g.W * g.bpp :=
    Int.mul_nonneg (Int.mul_nonneg h.vram.1 (by omega)) (by omega)
  have hlocation : 0 ≤ copy.location := hrow0.trans h.row
  have hdst : copy.location + copy.length ≤ g.backbuffer.length := by
    rw [hg]
    exact h.rowEnd.trans h.vram.2
  have hsrc : copy.skipped + copy.length ≤ bytes.length := h.sourceEnd.trans hbytes
  have hlength := h.length
  have hsource := h.source
  have hlen : ((bytes.drop copy.skipped.toNat).take copy.length.toNat).length =
      copy.length.toNat := by
    rw [List.length_take, List.length_drop]
    omega
  have hin : copy.location.toNat +
      ((bytes.drop copy.skipped.toNat).take copy.length.toNat).length ≤ g.backbuffer.length := by
    rw [hlen]
    omega
  have hcopy := memcpy_of_inside hlocation h.source h.length hdst hsrc
  refine ⟨_, bind_eq_ok.mpr ⟨_, hcopy, rfl⟩, ⟨rfl, rfl, length_splice hin⟩, fun i hi => ?_⟩
  have hrow := h.row
  have hrowEnd := h.rowEnd
  dsimp only
  rw [getElem?_splice hin, hlen, if_neg (by omega)]

/-- **`gpu_draw_line` stays inside**: it returns at once, or copies a number of bytes that is not
    negative, out of the `pixelsc` pixels of the source, into the row `position.y` of the back
    buffer. With the buffer that `gpu_init_mem_indexation` sets up the copy goes through, and no
    byte of another row changes. -/
theorem drawLine_inside {g : Gpu} (hb : 1 ≤ g.bpp) (hsize : g.H * g.W * g.bpp ≤ 2147483647)
    (position : Vec2) {pixelsc : Int} (hp : 0 ≤ pixelsc) :
    (∀ bytes, g.drawLine position bytes pixelsc = .ok g) ∨
      ∃ copy, g.lineCopy position pixelsc = some copy ∧ g.CopyInside position pixelsc copy ∧
        ∀ bytes, g.drawLine position bytes pixelsc = g.runCopy bytes copy ∧
          (g.backbuffer.length = g.vramSize.toNat → pixelsc * g.bpp ≤ bytes.length →
            ∃ g', g.drawLine position bytes pixelsc = .ok g' ∧ SameMode g g' ∧
              ∀ i : Nat, i < position.y * g.W * g.bpp ∨ (position.y + 1) * g.W * g.bpp ≤ i →
                g'.backbuffer[i]? = g.backbuffer[i]?) := by
  cases hcopy : g.lineCopy position pixelsc with
  | none =>
    refine .inl fun bytes => ?_
    rw [drawLine_eq, hcopy]
  | some copy =>
    have hinside := copyInside_lineCopy hb hsize hp hcopy
    refine .inr ⟨copy, rfl, hinside, fun bytes => ?_⟩
    have hrun : g.drawLine position bytes pixelsc = g.runCopy bytes copy := by
      rw [drawLine_eq, hcopy]
    refine ⟨hrun, fun hg hbytes => ?_⟩
    rw [hrun]
    exact runCopy_of_inside hg hinside hbytes

/-- A line of two pixels, the first of them to the left of the screen. -/
theorem drawLine_inside_cut :
    ∃ copy, lineCopy ⟨⟨2, 1⟩, 2, [0, 0, 0, 0]⟩ ⟨-1, 0⟩ 2 = some copy ∧
      CopyInside ⟨⟨2, 1⟩, 2, [0, 0, 0, 0]⟩ ⟨-1, 0⟩ 2 copy ∧ copy = ⟨0, 1, 2⟩ := by
  rcases @drawLine_inside ⟨⟨2, 1⟩, 2, [0, 0, 0, 0]⟩ (by decide) (by decide) ⟨-1, 0⟩ 2 (by decide)
    with h | ⟨copy, hcopy, hinside, -⟩
  · exact absurd (h [1, 1, 1, 1]) (by decide)
  · refine ⟨copy, hcopy, hinside, ?_⟩
    have hcut : lineCopy ⟨⟨2, 1⟩, 2, [0, 0, 0, 0]⟩ ⟨-1, 0⟩ 2 = some ⟨0, 1, 2⟩ := by decide
    rw [hcut] at hcopy
    exact (Option.some.inj hcopy).symm

end Gpu

end Lcom

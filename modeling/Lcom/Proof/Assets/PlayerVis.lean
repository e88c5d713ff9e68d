import Lcom.Proof.Assets.Image

/-!
# The countdown of `assets_manager_draw_player_vis`

A `uint8_t` is never negative, so the test `yi >= 0` stops nothing. After row 0 the loop goes on with
row 255, which the array does not have: the call faults there, and over any memory in which it does
not, it goes round and round.
-/

namespace Lcom

open Lib

namespace AssetsManager

/-- The call comes to an end, and has then visited each cell of the window once and nothing else. -/
def VisitsEachCell (manager : AssetsManager) (player : Player) (g : Gpu) : Prop :=
  ∃ fuel code visited g', manager.drawPlayerVis player fuel g = .ok (some (code, visited, g')) ∧
    visited.Nodup ∧ ∀ yi xi, (yi, xi) ∈ visited ↔
      yi < Player.visYsize.toNat ∧ 0 ≤ xi ∧ xi < Player.visXsize.toNat

variable {manager : AssetsManager} {visible_objects : Table} {g : Gpu}

/-! ## No draw call gives up -/

theorem drawImg_code {img : XpmImage} {posx posy : UInt16} {colors : List UInt8} {r : Int}
    {s : Nat × Gpu} (h : manager.drawImg img posx posy colors g = .ok (r, s)) : r = 0 := by
  rw [drawImg_eq] at h
  obtain ⟨s', -, heq⟩ := ok_of_map h
  exact (Prod.mk.inj heq).1.symm

theorem drawAsset_code {asset : UInt8} {posx posy : UInt16} {r : Int} {g' : Gpu}
    (h : manager.drawAsset asset posx posy g = .ok (r, g')) : r = 0 := by
  -- the same two statements after either image
  have hdone : ∀ {img : XpmImage} {colors : List UInt8},
      (manager.drawImg img posx posy colors g >>= fun p =>
        if p.1 ≠ 0 then pure (1, p.2.2) else pure (0, p.2.2)) = Except.ok (r, g') → r = 0 := by
    intro img colors h
    obtain ⟨⟨r', s⟩, hdraw, hret⟩ := bind_eq_ok.mp h
    rw [drawImg_code hdraw, if_neg (by simp)] at hret
    exact (Prod.mk.inj (Except.ok.inj hret)).1.symm
  unfold drawAsset at h
  split at h
  · exact hdone h
  · split at h
    · exact hdone h
    · exact (Prod.mk.inj (Except.ok.inj h)).1.symm

theorem drawVisCell_code {yi : UInt8} {xi : Int} {s s' : List (Nat × Int) × Gpu} {r : Int}
    (h : manager.drawVisCell visible_objects yi xi s = .ok (r, s')) : r = 0 := by
  obtain ⟨asset, -, h⟩ := bind_eq_ok.mp h
  obtain ⟨⟨r', g'⟩, hdraw, hret⟩ := bind_eq_ok.mp h
  rw [drawAsset_code hdraw] at hret
  exact (Prod.mk.inj (Except.ok.inj hret)).1.symm

/-! ## The outer loop -/

/-- The outer loop has no way out. -/
theorem drawVisRows_never (fuel : Nat) (yi : UInt8) (s : List (Nat × Int) × Gpu)
    (r : Int × (List (Nat × Int) × Gpu)) :
    manager.drawVisRows visible_objects fuel yi s ≠ .ok (some r) := by
  induction fuel generalizing yi s with
  | zero =>
    intro h
    cases h
  | succ fuel ih =>
    intro h
    have hpos : yi ≥ 0 := UInt8.le_iff_toNat_le.mpr (Nat.zero_le _)
    rw [drawVisRows, if_pos hpos] at h
    obtain ⟨⟨code, s'⟩, hrow, hrest⟩ := bind_eq_ok.mp h
    have hzero : code = 0 := forRangeCheck_code (fun xi s r s' => drawVisCell_code) hrow
    dsimp only at hrest
    rw [hzero, if_neg (by simp)] at hrest
    exact ih (yi - 1) s' hrest

/-- **`assets_manager_draw_player_vis` never comes to an end**, whatever the player sees. -/
theorem drawPlayerVis_never (manager : AssetsManager) (player : Player) (g : Gpu) :
    ¬ VisitsEachCell manager player g := by
  intro h
  obtain ⟨fuel, code, visited, g', hdraw, -⟩ := h
  exact drawVisRows_never fuel _ _ _ hdraw

/-- Nothing to see. -/
theorem drawPlayerVis_startup :
    ¬ ∀ manager player g, VisitsEachCell manager player g := by
  intro h
  obtain ⟨fuel, code, visited, g', hdraw, -⟩ := h twoTiles Player.startup ⟨⟨2, 2⟩, 1, [0, 0, 0, 0]⟩
  exact drawVisRows_never fuel _ _ _ hdraw

/-! ## Where it stops -/

/-- The images are long enough to be drawn. -/
structure Drawable (manager : AssetsManager) (g : Gpu) : Prop where
  sized : g.Sized
  oneByte : g.bpp = 1
  block : manager.block.img.height.toNat * manager.block.img.width.toNat ≤
    manager.block.colors.length
  player_sprite : manager.block.img.height.toNat * manager.block.img.width.toNat ≤
    manager.player_sprite.colors.length

theorem drawAsset_ok (h : Drawable manager g) (asset : UInt8) (posx posy : UInt16) {s : Gpu}
    (hs : Gpu.SameMode g s) :
    ∃ s', manager.drawAsset asset posx posy s = .ok (0, s') ∧ Gpu.SameMode g s' := by
  have hdraw : ∀ img colors, manager.block.img.height.toNat * manager.block.img.width.toNat ≤
      List.length colors →
      ∃ read s', manager.drawImg img posx posy colors s = .ok (0, (read, s')) ∧
        Gpu.SameMode g s' := by
    intro img colors hlen
    obtain ⟨s', hwalk, hmode, -⟩ := walk_spec posx posy (hs.sized h.sized)
      (hs.bpp.trans h.oneByte) hlen
    refine ⟨manager.block.img.height.toNat * manager.block.img.width.toNat, s', ?_,
      hs.trans hmode⟩
    rw [drawImg_eq, hwalk]
    rfl
  unfold drawAsset
  split
  · obtain ⟨read, s', hdraw, hmode⟩ := hdraw manager.block.img _ h.block
    exact ⟨s', by rw [hdraw]; rfl, hmode⟩
  · split
    · obtain ⟨read, s', hdraw, hmode⟩ := hdraw manager.player_sprite.img _ h.player_sprite
      exact ⟨s', by rw [hdraw]; rfl, hmode⟩
    · exact ⟨s, rfl, hs⟩

/-- A row of the window is drawn. -/
theorem drawVisRow_ok (h : Drawable manager g)
    (hsized : visible_objects.Sized Player.visYsize.toNat Player.visXsize.toNat) {yi : UInt8}
    (hyi : yi.toNat < Player.visYsize.toNat) {s : List (Nat × Int) × Gpu}
    (hs : Gpu.SameMode g s.2) :
    ∃ s', forRangeCheck 0 (Player.visXsize.toNat - 1) (manager.drawVisCell visible_objects yi) s =
        .ok (0, s') ∧ Gpu.SameMode g s'.2 := by
  refine forRangeCheck_keep (I := fun s : List (Nat × Int) × Gpu => Gpu.SameMode g s.2)
    (fun xi s hlo hhi hs => ?_) hs
  obtain ⟨asset, hload⟩ := hsized.load_ok_iff.mpr
    ⟨Int.natCast_nonneg yi.toNat, by exact_mod_cast hyi, hlo, by omega⟩
  obtain ⟨s', hdraw, hmode⟩ := drawAsset_ok h asset (UInt16.ofInt (xi * 64))
    (UInt16.ofInt (yi.toNat * 64)) hs
  refine ⟨(s.1 ++ [(yi.toNat, xi)], s'), ?_, hmode⟩
  unfold drawVisCell
  rw [hload, ok_bind, hdraw]
  rfl

/-- The row after row 0 is row 255, and the array does not have it. -/
theorem drawVisRows_outOfBounds (h : Drawable manager g)
    (hsized : visible_objects.Sized Player.visYsize.toNat Player.visXsize.toNat) (n : Nat)
    {fuel : Nat} (hfuel : n + 2 ≤ fuel) {yi : UInt8} (hyi : yi.toNat = n)
    (hn : n < Player.visYsize.toNat) {s : List (Nat × Int) × Gpu} (hs : Gpu.SameMode g s.2) :
    manager.drawVisRows visible_objects fuel yi s = .error .outOfBounds := by
  induction n generalizing fuel yi s with
  | zero =>
    obtain ⟨fuel, rfl⟩ : ∃ k, fuel = k + 2 := ⟨fuel - 2, by omega⟩
    obtain ⟨s', hrow, -⟩ := drawVisRow_ok h hsized (hyi ▸ hn) hs
    have hzero : yi = 0 := UInt8.toNat_inj.mp hyi
    have hload : visible_objects.load (0 - 1 : UInt8).toNat 0 = .error .outOfBounds :=
      hsized.load_outside (by decide)
    have hpos : (0 : UInt8) ≥ 0 := by decide
    have hlast : (0 - 1 : UInt8) ≥ 0 := by decide
    subst hzero
    rw [drawVisRows, if_pos hpos, hrow, ok_bind]
    dsimp only
    have hcell : manager.drawVisCell visible_objects (0 - 1) 0 s' = .error .outOfBounds := by
      unfold drawVisCell
      rw [hload]
      rfl
    rw [if_neg (by simp), drawVisRows, if_pos hlast, forRangeCheck_error (by decide) hcell]
    rfl
  | succ n ih =>
    obtain ⟨fuel, rfl⟩ : ∃ k, fuel = k + 1 := ⟨fuel - 1, by omega⟩
    obtain ⟨s', hrow, hs'⟩ := drawVisRow_ok h hsized (hyi ▸ hn) hs
    have hpos : yi ≥ 0 := UInt8.le_iff_toNat_le.mpr (Nat.zero_le _)
    have hnext : (yi - 1).toNat = n := by
      have hle : (1 : UInt8) ≤ yi := UInt8.le_iff_toNat_le.mpr (by rw [hyi]; simp)
      rw [UInt8.toNat_sub_of_le _ _ hle, hyi]
      rfl
    rw [drawVisRows, if_pos hpos, hrow, ok_bind]
    dsimp only
    rw [if_neg (by simp)]
    exact ih (by omega) hnext (by omega) hs'

/-- **With images to draw, the call reads `visible_objects[255]`** after the last row of the window. -/
theorem drawPlayerVis_outOfBounds (h : Drawable manager g) {player : Player}
    (hsized : player.visible_objects.Sized Player.visYsize.toNat Player.visXsize.toNat) {fuel : Nat}
    (hfuel : 15 ≤ fuel) : manager.drawPlayerVis player fuel g = .error .outOfBounds :=
  drawVisRows_outOfBounds h hsized 13 hfuel rfl (by decide) (Gpu.SameMode.refl g)

end AssetsManager

end Lcom

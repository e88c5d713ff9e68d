import Lcom.Lib.Fill
import Lcom.Screen.Screen
import Lcom.Proof.Grid.Load

/-!
# What fits into the window

The window reaches half its size to both sides of the centre. Over an even number of squares the
two halves and the centre make one square too many, which shows unless the grid ends inside the
window on one side at least.
-/

namespace Lcom

open Lib Table

/-- A grid that `grid_init` loaded. -/
structure GridInfo.Loaded (grid : GridInfo) : Prop where
  shape : grid.Shape
  empty : grid.objects = none → grid.y_size = 0

theorem gridInit_loaded {grid : GridInfo} {file : Text} {granted : Nat → Bool} {load : GridLoad}
    (h : gridInit grid (some file) granted = .ok load) (hcode : load.code = 0) :
    load.grid.Loaded := by
  rcases gridInit_cases h with ⟨hone, -⟩ | ⟨_, _, _, _, hone, -⟩ | ⟨-, hshape⟩
  · rw [hcode] at hone
    cases hone
  · rw [hcode] at hone
    cases hone
  · refine { shape := hshape, empty := fun hnone => ?_ }
    rcases header_cases file with ⟨x_size, y_size, hsizes⟩ | ⟨x_size, hwidth⟩ | hheader
    · rw [gridInit_of_sizes hsizes] at h
      rcases loadRows_eq_ok h with hload | ⟨hy, hload⟩
      · subst hload
        cases hnone
      · subst hload
        exact hy
    · rw [gridInit_of_width hwidth] at h
      cases h
      cases hcode
    · rw [gridInit_of_none hheader] at h
      cases h
      cases hcode

namespace Screen

/-- What `screen_init` has made of the window: all blank, and half its size to both sides. -/
structure Fresh (res : GpuResInfo) (x y : Int) (screen : Screen) : Prop where
  x_size : screen.x_size = screenSize res.x_res
  y_size : screen.y_size = screenSize res.y_res
  pos_x : screen.pos_x = x
  pos_y : screen.pos_y = y
  min_x : screen.min_x = -(screen.x_size.toNat / 2 : Nat)
  min_y : screen.min_y = -(screen.y_size.toNat / 2 : Nat)
  max_x : screen.max_x = (screen.x_size.toNat / 2 : Nat)
  max_y : screen.max_y = (screen.y_size.toNat / 2 : Nat)
  sized : Sized screen.objects screen.y_size.toNat screen.x_size.toNat
  blank : ∀ r k, r < screen.y_size.toNat → k < screen.x_size.toNat →
    cellAt screen.objects r k = some 32

theorem fresh_screenInit {res : GpuResInfo} {x y : Int} {granted : Nat → Bool} {screen : Screen}
    (h : screenInit res x y granted = .ok screen) : screen.Fresh res x y := by
  unfold screenInit at h
  dsimp only at h
  split at h
  · obtain ⟨objects, hobjects, hscreen⟩ := bind_eq_ok.mp h
    cases hscreen
    have hrows := mallocRows_eq_ok hobjects
    subst hrows
    exact {
      x_size := rfl
      y_size := rfl
      pos_x := rfl
      pos_y := rfl
      min_x := by dsimp only; omega
      min_y := by dsimp only; omega
      max_x := by dsimp only; omega
      max_y := by dsimp only; omega
      sized := Sized.replicate _ _ _
      blank := fun _ _ hr hk => cellAt_replicate hr hk 32 }
  · cases h

/-- What `screen_init` sets up for a display, and the updates leave alone. -/
structure Ready (res : GpuResInfo) (screen : Screen) : Prop where
  x_size : screen.x_size.toNat = res.x_res.toNat / gridSquareSize + 1
  y_size : screen.y_size.toNat = res.y_res.toNat / gridSquareSize + 1
  objects : Sized screen.objects screen.y_size.toNat screen.x_size.toNat
  min_x : screen.min_x = -(screen.x_size.toNat / 2 : Nat)
  min_y : screen.min_y = -(screen.y_size.toNat / 2 : Nat)
  max_x : screen.max_x = (screen.x_size.toNat / 2 : Nat)
  max_y : screen.max_y = (screen.y_size.toNat / 2 : Nat)

/-- The sizes computed for a display fit in the bytes they are stored in. -/
def SizesFit (res : GpuResInfo) : Prop :=
  res.x_res.toNat / gridSquareSize + 1 < 256 ∧ res.y_res.toNat / gridSquareSize + 1 < 256

instance (res : GpuResInfo) : Decidable (SizesFit res) := inferInstanceAs (Decidable (_ ∧ _))

theorem ready_screenInit {res : GpuResInfo} {x y : Int} {granted : Nat → Bool} {screen : Screen}
    (hfit : SizesFit res) (h : screenInit res x y granted = .ok screen) : screen.Ready res := by
  have hfresh := fresh_screenInit h
  exact {
    x_size := by rw [hfresh.x_size]; exact Nat.mod_eq_of_lt hfit.1
    y_size := by rw [hfresh.y_size]; exact Nat.mod_eq_of_lt hfit.2
    objects := hfresh.sized
    min_x := hfresh.min_x
    min_y := hfresh.min_y
    max_x := hfresh.max_x
    max_y := hfresh.max_y }

theorem Ready.withObjects {res : GpuResInfo} {screen : Screen} (h : screen.Ready res)
    {objects : Table} (hobjects : Sized objects screen.y_size.toNat screen.x_size.toNat) :
    Ready res { screen with objects } :=
  { h with objects := hobjects }

theorem ready_cleanup {res : GpuResInfo} {screen screen' : Screen} (h : screen.Ready res)
    (hclean : screen.cleanup = .ok screen') : screen'.Ready res := by
  obtain ⟨objects, hobjects, hscreen⟩ := bind_eq_ok.mp hclean
  cases hscreen
  refine h.withObjects
    (forRange_keep (I := fun rows => Sized rows screen.y_size.toNat screen.x_size.toNat)
      (fun y rows rows' hs hrow => ?_) h.objects hobjects)
  exact forRange_keep (I := fun rows => Sized rows screen.y_size.toNat screen.x_size.toNat)
    (fun x rows rows' hs hstore => Sized.store hs hstore) hs hrow

theorem sized_updateRow {screen : Screen} {grid : GridInfo} {y : Int} {rows rows' : Table}
    {height width : Nat} (h : Sized rows height width)
    (hrow : screen.updateRow grid y rows = .ok rows') : Sized rows' height width := by
  refine forRange_keep (I := fun rows => Sized rows height width)
    (fun x rows rows' hs hcell => ?_) h hrow
  obtain ⟨c, -, hstore⟩ := bind_eq_ok.mp hcell
  exact Sized.store hs hstore

theorem ready_update {res : GpuResInfo} {screen screen' : Screen} {grid : GridInfo}
    (h : screen.Ready res) (hupdate : screen.update grid = .ok screen') : screen'.Ready res := by
  obtain ⟨objects, hobjects, hscreen⟩ := bind_eq_ok.mp hupdate
  cases hscreen
  exact h.withObjects
    (forRange_keep (I := fun rows => Sized rows screen.y_size.toNat screen.x_size.toNat)
      (fun _ _ _ => sized_updateRow) h.objects hobjects)

/-! ## One direction -/

/-- The window lies beside the grid. -/
def Misses (pos : Int) (size grid_size : UInt8) : Prop :=
  grid_size = 0 ∨ grid_size.toNat ≤ pos - (size.toNat / 2 : Nat) ∨ pos + (size.toNat / 2 : Nat) < 0

/-- The part of the grid around the centre is no larger than the window. -/
def Fits (pos : Int) (size grid_size : UInt8) : Prop :=
  size.toNat % 2 = 1 ∨ pos < (size.toNat / 2 : Nat) ∨
    grid_size.toNat ≤ pos + (size.toNat / 2 : Nat)

section
variable {pos : Int} {size grid_size : UInt8}

theorem first_nonneg (pos min : Int) : 0 ≤ first pos min := by
  unfold first
  split
  · exact le_refl _
  · omega

theorem last_lt (pos max : Int) (size : UInt8) : last pos max size < size.toNat := by
  unfold last
  split
  · omega
  · omega

theorem misses_iff :
    Misses pos size grid_size ↔
      last pos (size.toNat / 2 : Nat) grid_size < first pos (-(size.toNat / 2 : Nat)) := by
  have hzero : grid_size = 0 ↔ grid_size.toNat = 0 := by
    rw [← UInt8.toNat_inj]
    rfl
  unfold Misses first last
  rw [hzero]
  split
  · split
    · omega
    · omega
  · split
    · omega
    · omega

theorem fits_iff :
    Fits pos size grid_size ↔ last pos (size.toNat / 2 : Nat) grid_size -
      first pos (-(size.toNat / 2 : Nat)) < size.toNat := by
  unfold Fits first last
  split
  · split
    · omega
    · omega
  · split
    · omega
    · omega

end

/-! ## Both directions -/

section
variable {res : GpuResInfo} {screen : Screen} {grid : GridInfo}

theorem loadGrid_ok_iff (hgrid : grid.Loaded) {y x : Int} :
    (∃ c, loadGrid grid y x = .ok c) ↔
      0 ≤ y ∧ y < grid.y_size.toNat ∧ 0 ≤ x ∧ x < grid.x_size.toNat := by
  unfold loadGrid
  cases hobjects : grid.objects with
  | none =>
    refine iff_of_false (fun h => nomatch h) fun hin => ?_
    rw [hgrid.empty hobjects] at hin
    have hlt : y < 0 := hin.2.1
    omega
  | some rows => exact (hgrid.shape rows hobjects).load_ok_iff

/-- The square `(y, x)` of the grid is there, and has a place in the window. -/
structure Inside (screen : Screen) (grid : GridInfo) (y x : Int) : Prop where
  load : 0 ≤ y ∧ y < grid.y_size.toNat ∧ 0 ≤ x ∧ x < grid.x_size.toNat
  store : 0 ≤ y - screen.i_min_y ∧ y - screen.i_min_y < screen.y_size.toNat ∧
    0 ≤ x - screen.i_min_x ∧ x - screen.i_min_x < screen.x_size.toNat

/-- The square can be read, and its place in the window be written. -/
structure Copied (screen : Screen) (grid : GridInfo) (y x : Int) : Prop where
  load : ∃ c, loadGrid grid y x = .ok c
  store : 0 ≤ y - screen.i_min_y ∧ y - screen.i_min_y < screen.y_size.toNat ∧
    0 ≤ x - screen.i_min_x ∧ x - screen.i_min_x < screen.x_size.toNat

theorem copied_iff_inside (hgrid : grid.Loaded) {y x : Int} :
    screen.Copied grid y x ↔ screen.Inside grid y x := by
  constructor
  · intro h
    exact ⟨(loadGrid_ok_iff hgrid).mp h.load, h.store⟩
  · intro h
    exact ⟨(loadGrid_ok_iff hgrid).mpr h.load, h.store⟩

theorem updateRow_ok_iff {rows : Table}
    (hrows : Sized rows screen.y_size.toNat screen.x_size.toNat) {y : Int} :
    (∃ rows', screen.updateRow grid y rows = .ok rows') ↔
      ∀ x, screen.i_min_x ≤ x → x ≤ screen.i_max_x grid → screen.Copied grid y x := by
  refine forRange_ok_iff (I := fun rows => Sized rows screen.y_size.toNat screen.x_size.toNat)
    (fun x rows rows' hs hcell => ?_) (fun x rows hs => ?_) hrows
  · obtain ⟨c, -, hstore⟩ := bind_eq_ok.mp hcell
    exact Sized.store hs hstore
  · constructor
    · intro h
      obtain ⟨rows', h⟩ := h
      obtain ⟨b, hb, hstore⟩ := bind_eq_ok.mp h
      exact ⟨⟨b, hb⟩, (Sized.store_ok_iff hs).mp ⟨rows', hstore⟩⟩
    · intro h
      obtain ⟨b, hb⟩ := h.load
      obtain ⟨rows', hstore⟩ := (Sized.store_ok_iff hs (c := b)).mpr h.store
      exact ⟨rows', bind_eq_ok.mpr ⟨b, hb, hstore⟩⟩

theorem update_ok_iff
    (hobjects : Sized screen.objects screen.y_size.toNat screen.x_size.toNat) :
    (∃ screen', screen.update grid = .ok screen') ↔ ∀ y, screen.i_min_y ≤ y →
      y ≤ screen.i_max_y grid → ∀ x, screen.i_min_x ≤ x → x ≤ screen.i_max_x grid →
        screen.Copied grid y x := by
  refine Iff.trans ?_ (forRange_ok_iff
    (I := fun rows => Sized rows screen.y_size.toNat screen.x_size.toNat)
    (P := fun y => ∀ x, screen.i_min_x ≤ x → x ≤ screen.i_max_x grid → screen.Copied grid y x)
    (fun _ _ _ => sized_updateRow) (fun y rows hs => updateRow_ok_iff hs) hobjects)
  constructor
  · intro h
    obtain ⟨screen', h⟩ := h
    obtain ⟨objects, hobjects, -⟩ := bind_eq_ok.mp h
    exact ⟨objects, hobjects⟩
  · intro h
    obtain ⟨objects, hobjects⟩ := h
    exact ⟨_, bind_eq_ok.mpr ⟨objects, hobjects, rfl⟩⟩

/-- **The window update stays inside both tables** exactly when nothing of the grid is drawn, or when
    what is drawn fits the window in both directions. -/
theorem update_inside_iff (hscreen : screen.Ready res) (hgrid : grid.Loaded) :
    (∃ screen', screen.update grid = .ok screen') ↔
      Misses screen.pos_x screen.x_size grid.x_size ∨
        Misses screen.pos_y screen.y_size grid.y_size ∨
        Fits screen.pos_x screen.x_size grid.x_size ∧
          Fits screen.pos_y screen.y_size grid.y_size := by
  have hx₀ : screen.i_min_x = first screen.pos_x (-(screen.x_size.toNat / 2 : Nat)) := by
    rw [i_min_x, hscreen.min_x]
  have hy₀ : screen.i_min_y = first screen.pos_y (-(screen.y_size.toNat / 2 : Nat)) := by
    rw [i_min_y, hscreen.min_y]
  have hx₁ : screen.i_max_x grid =
      last screen.pos_x (screen.x_size.toNat / 2 : Nat) grid.x_size := by
    rw [i_max_x, hscreen.max_x]
  have hy₁ : screen.i_max_y grid =
      last screen.pos_y (screen.y_size.toNat / 2 : Nat) grid.y_size := by
    rw [i_max_y, hscreen.max_y]
  rw [update_ok_iff hscreen.objects, misses_iff, misses_iff, fits_iff, fits_iff, ← hx₀, ← hy₀,
    ← hx₁, ← hy₁]
  simp only [copied_iff_inside hgrid]
  constructor
  · intro h
    by_cases hx : screen.i_max_x grid < screen.i_min_x
    · exact .inl hx
    by_cases hy : screen.i_max_y grid < screen.i_min_y
    · exact .inr (.inl hy)
    -- the last square that is drawn is the farthest one
    have hlast := h _ (not_lt.mp hy) (le_refl _) _ (not_lt.mp hx) (le_refl _)
    exact .inr (.inr ⟨hlast.store.2.2.2, hlast.store.2.1⟩)
  · intro h y hy hy' x hx hx'
    have hx0 : 0 ≤ screen.i_min_x := first_nonneg _ _
    have hy0 : 0 ≤ screen.i_min_y := first_nonneg _ _
    have hxlast : screen.i_max_x grid < grid.x_size.toNat := last_lt _ _ _
    have hylast : screen.i_max_y grid < grid.y_size.toNat := last_lt _ _ _
    rcases h with h | h | ⟨hxfit, hyfit⟩
    · omega
    · omega
    · exact ⟨by omega, by omega⟩

/-- A display of 64 by 64 pixels, two squares each way, with its centre at `(1, 1)`. -/
theorem screenInit_small :
    screenInit ⟨64, 64⟩ 1 1 (fun _ => true) =
      .ok ⟨2, 2, [[32, 32], [32, 32]], 1, 1, -1, -1, 1, 1⟩ := by decide +kernel

theorem sizesFit_small : SizesFit ⟨64, 64⟩ := by decide +kernel

theorem loaded_of_rows {x_size y_size : UInt8} {rows : Table}
    (h : Sized rows y_size.toNat x_size.toNat) : GridInfo.Loaded ⟨x_size, y_size, some rows⟩ where
  shape := by
    intro rows' hrows
    cases hrows
    exact h
  empty := fun h => nomatch h

/-- Over a grid of two squares each way the window is cut off on the right. -/
theorem update_inside_cut :
    ∃ screen', Screen.update ⟨2, 2, [[32, 32], [32, 32]], 1, 1, -1, -1, 1, 1⟩
      ⟨2, 2, some [[65, 65], [65, 65]]⟩ = .ok screen' :=
  (update_inside_iff (ready_screenInit sizesFit_small screenInit_small)
    (loaded_of_rows (Sized.replicate 2 2 65))).mpr
      (.inr (.inr ⟨.inr (.inr (by decide)), .inr (.inr (by decide))⟩))

/-- A larger grid gives it a third square. -/
theorem update_outside :
    ¬ ∀ res x y granted screen grid, 1 ≤ res.x_res.toNat → 1 ≤ res.y_res.toNat → SizesFit res →
      screenInit res x y granted = .ok screen → grid.Loaded →
      ∃ screen', screen.update grid = .ok screen' := by
  intro h
  obtain ⟨screen', hupdate⟩ := h ⟨64, 64⟩ 1 1 (fun _ => true) _
    ⟨3, 3, some (List.replicate 3 (List.replicate 3 65))⟩ (by decide) (by decide) sizesFit_small
      screenInit_small (loaded_of_rows (Sized.replicate 3 3 65))
  have hfault : Screen.update ⟨2, 2, [[32, 32], [32, 32]], 1, 1, -1, -1, 1, 1⟩
      ⟨3, 3, some (List.replicate 3 (List.replicate 3 65))⟩ = .error .outOfBounds := by
    decide +kernel
  rw [hfault] at hupdate
  cases hupdate

end

end Screen

end Lcom

import Lcom.Lib.Run
import Lcom.Proof.Screen.Window

/-!
# What the window shows

An update writes the squares that its part of the grid reaches, and no others: what an earlier level
has put into the others stays. The part of the grid it writes is moved to the top left corner of the
window, so the centre is not in the middle of the window where the grid is cut off above or to the
left of it.
-/

namespace Lcom

open Lib Table

namespace Screen

/-- What there is to see at `(y, x)`: the cell of the grid, and a blank outside. -/
def shown (grid : GridInfo) (y x : Int) : UInt8 :=
  match loadGrid grid y x with
  | .ok c => c
  | .error _ => 32

theorem shown_of_load {grid : GridInfo} {y x : Int} {c : UInt8} (h : loadGrid grid y x = .ok c) :
    shown grid y x = c := by rw [shown, h]

theorem shown_outside {grid : GridInfo} (hgrid : grid.Loaded) {y x : Int}
    (hout : ¬ (0 ≤ y ∧ y < grid.y_size.toNat ∧ 0 ≤ x ∧ x < grid.x_size.toNat)) :
    shown grid y x = 32 := by
  rw [← loadGrid_ok_iff hgrid] at hout
  unfold shown
  cases h : loadGrid grid y x with
  | error e => rfl
  | ok c => exact absurd ⟨c, h⟩ hout

/-- The update stores into the square `(r, k)` of the window. -/
def Written (screen : Screen) (grid : GridInfo) (r k : Nat) : Prop :=
  r + screen.i_min_y ≤ screen.i_max_y grid ∧ k + screen.i_min_x ≤ screen.i_max_x grid

instance (screen : Screen) (grid : GridInfo) (r k : Nat) : Decidable (screen.Written grid r k) :=
  inferInstanceAs (Decidable (_ ∧ _))

/-- What it stores there. -/
def drawn (screen : Screen) (grid : GridInfo) (r k : Nat) : UInt8 :=
  shown grid (r + screen.i_min_y) (k + screen.i_min_x)

section
variable {screen screen' : Screen} {grid : GridInfo}

theorem fills_updateRow (height width : Nat) (y : Int) :
    Fills height width (screen.updateRow grid y)
      (fun r k => (r : Int) = y - screen.i_min_y ∧ k + screen.i_min_x ≤ screen.i_max_x grid)
      (screen.drawn grid) := by
  refine (Fills.forRange (fun x => Fills.store fun c hc r k hr hk => ?_) _ _).congr fun r k => ?_
  · rw [drawn, hr, hk, Int.sub_add_cancel, Int.sub_add_cancel, shown_of_load hc]
  · constructor
    · intro h
      obtain ⟨x, -, hlast, hr, hk⟩ := h
      exact ⟨hr, by omega⟩
    · intro h
      exact ⟨k + screen.i_min_x, by omega, h.2, h.1, by omega⟩

theorem fills_update (height width : Nat) :
    Fills height width
      (forRange screen.i_min_y (screen.i_max_y grid) (screen.updateRow grid))
      (screen.Written grid) (screen.drawn grid) := by
  refine (Fills.forRange (fills_updateRow height width) _ _).congr fun r k => ?_
  constructor
  · intro h
    obtain ⟨y, -, hlast, hr, hk⟩ := h
    exact ⟨by omega, hk⟩
  · intro h
    exact ⟨r + screen.i_min_y, by omega, h.1, by omega, h.2⟩

/-- An update changes the table and nothing else, and the table where it writes. -/
theorem update_cells (hsized : Sized screen.objects screen.y_size.toNat screen.x_size.toNat)
    (h : screen.update grid = .ok screen') :
    screen' = { screen with objects := screen'.objects } ∧
      Sized screen'.objects screen.y_size.toNat screen.x_size.toNat ∧ ∀ r k,
        (screen.Written grid r k → cellAt screen'.objects r k = some (screen.drawn grid r k)) ∧
        (¬ screen.Written grid r k →
          cellAt screen'.objects r k = cellAt screen.objects r k) := by
  obtain ⟨objects, hobjects, hscreen⟩ := bind_eq_ok.mp h
  cases hscreen
  obtain ⟨hsized', hcells⟩ := fills_update _ _ _ _ hsized hobjects
  exact ⟨rfl, hsized', hcells⟩

theorem copied_withObjects {objects : Table} {y x : Int} :
    Copied { screen with objects } grid y x ↔ screen.Copied grid y x :=
  ⟨fun h => ⟨h.load, h.store⟩, fun h => ⟨h.load, h.store⟩⟩

/-- Whether an update goes through does not depend on what the squares hold. -/
theorem update_ok_iff_of_sized {objects : Table}
    (hsized : Sized screen.objects screen.y_size.toNat screen.x_size.toNat)
    (hobjects : Sized objects screen.y_size.toNat screen.x_size.toNat) :
    (∃ screen', Screen.update { screen with objects } grid = .ok screen') ↔
      ∃ screen', screen.update grid = .ok screen' := by
  rw [update_ok_iff hobjects, update_ok_iff hsized]
  simp only [copied_withObjects]
  exact Iff.rfl

end

/-! ## One update after others -/

/-- An update of the window for a level; one that faults does not return. -/
def step (screen : Screen) (grid : GridInfo) : Option Screen := (screen.update grid).toOption

/-- What the levels shown one after the other leave in a square that held `c` before. -/
def leftover (screen : Screen) (r k : Nat) (c : UInt8) (grids : List GridInfo) : UInt8 :=
  grids.foldl (fun c grid => if screen.Written grid r k then screen.drawn grid r k else c) c

theorem update_of_step {screen screen' : Screen} {grid : GridInfo}
    (h : step screen grid = some screen') : screen.update grid = .ok screen' := by
  unfold step at h
  cases hupdate : screen.update grid with
  | error e =>
    rw [hupdate] at h
    cases h
  | ok screen₁ =>
    rw [hupdate] at h
    cases h
    rfl

/-- A run of updates changes the table and nothing else, and every square holds what the levels have
    left in it. -/
theorem run_cells {screen screen' : Screen} {grids : List GridInfo}
    (hsized : Sized screen.objects screen.y_size.toNat screen.x_size.toNat)
    (hrun : run step screen grids = some screen') :
    screen' = { screen with objects := screen'.objects } ∧
      Sized screen'.objects screen.y_size.toNat screen.x_size.toNat ∧ ∀ r k c,
        cellAt screen.objects r k = some c →
          cellAt screen'.objects r k = some (screen.leftover r k c grids) := by
  induction grids generalizing screen with
  | nil =>
    cases hrun
    exact ⟨rfl, hsized, fun r k c hc => hc⟩
  | cons grid grids ih =>
    obtain ⟨screen₁, hstep, hrest⟩ := run_cons_eq_some.mp hrun
    obtain ⟨hsame, hsized₁, hcells⟩ := update_cells hsized (update_of_step hstep)
    rw [hsame] at hrest
    obtain ⟨hsame', hsized', hcells'⟩ := ih hsized₁ hrest
    refine ⟨hsame', hsized', fun r k c hc => hcells' r k _ ?_⟩
    -- what the first level leaves in the square is what the rest of the run starts from
    show cellAt screen₁.objects r k =
      some (if screen.Written grid r k then screen.drawn grid r k else c)
    by_cases hwritten : screen.Written grid r k
    · rw [if_pos hwritten]
      exact (hcells r k).1 hwritten
    · rw [if_neg hwritten, ← hc]
      exact (hcells r k).2 hwritten

/-- **The window forgets the earlier levels** exactly when every square that the update does not reach
    was left blank by them. -/
theorem update_forgets_iff {res : GpuResInfo} {x y : Int} {granted : Nat → Bool}
    {fresh screen screen' : Screen} {grids : List GridInfo} {grid : GridInfo}
    (hfresh : screenInit res x y granted = .ok fresh) (hrun : run step fresh grids = some screen)
    (hupdate : screen.update grid = .ok screen') :
    ∃ fresh', fresh.update grid = .ok fresh' ∧
      (screen'.objects = fresh'.objects ↔
        ∀ r k, r < fresh.y_size.toNat → k < fresh.x_size.toNat →
          fresh.Written grid r k ∨ fresh.leftover r k 32 grids = 32) := by
  have hstart := fresh_screenInit hfresh
  obtain ⟨hsame, hsized, hcells⟩ := run_cells hstart.sized hrun
  rw [hsame] at hupdate
  obtain ⟨fresh', hfresh'⟩ := (update_ok_iff_of_sized hstart.sized hsized).mp ⟨screen', hupdate⟩
  refine ⟨fresh', hfresh', ?_⟩
  obtain ⟨-, hsized₁, hcells₁⟩ := update_cells hsized hupdate
  obtain ⟨-, hsized₂, hcells₂⟩ := update_cells hstart.sized hfresh'
  -- a square the update does not reach: what the run left in it, and a blank
  have hkept : ∀ r k, r < fresh.y_size.toNat → k < fresh.x_size.toNat →
      ¬ fresh.Written grid r k →
        cellAt screen'.objects r k = some (fresh.leftover r k 32 grids) ∧
          cellAt fresh'.objects r k = some 32 := by
    intro r k hr hk hnot
    have hblank := hstart.blank r k hr hk
    exact ⟨((hcells₁ r k).2 hnot).trans (hcells r k 32 hblank),
      ((hcells₂ r k).2 hnot).trans hblank⟩
  constructor
  · intro heq r k hr hk
    by_cases hwritten : fresh.Written grid r k
    · exact .inl hwritten
    · obtain ⟨hleft, hblank⟩ := hkept r k hr hk hwritten
      rw [heq, hblank] at hleft
      exact .inr (Option.some.inj hleft).symm
  · intro hblanks
    refine Sized.ext hsized₁ hsized₂ fun r k hr hk => ?_
    by_cases hwritten : fresh.Written grid r k
    · rw [(hcells₂ r k).1 hwritten]
      exact (hcells₁ r k).1 hwritten
    · obtain ⟨hleft, hblank⟩ := hkept r k hr hk hwritten
      rw [hleft, hblank, (hblanks r k hr hk).resolve_left hwritten]

/-! A display of 128 by 128 pixels, three squares each way, with its centre in the corner of the
grid: the window reaches one square to the right and down. -/

theorem screenInit_corner :
    screenInit ⟨128, 128⟩ 0 0 (fun _ => true) =
      .ok ⟨3, 3, List.replicate 3 (List.replicate 3 32), 0, 0, -1, -1, 1, 1⟩ := by decide +kernel

/-- The level file `1 1`, `B`. -/
theorem gridInit_oneSquare :
    gridInit .startup (some [49, 32, 49, 10, 66]) (fun _ => true) =
      .ok { code := 0, grid := ⟨1, 1, some [[66]]⟩, stores := [⟨0, 0, 66⟩] } := by decide +kernel

/-- The level file `2 1`, `AB`. -/
theorem gridInit_twoSquares :
    gridInit .startup (some [50, 32, 49, 10, 65, 66]) (fun _ => true) =
      .ok { code := 0, grid := ⟨2, 1, some [[65, 66]]⟩,
            stores := [⟨0, 0, 65⟩, ⟨0, 1, 66⟩] } := by decide +kernel

/-- The second level reaches all that the first one did. -/
theorem update_forgets_wider :
    ∃ fresh', Screen.update ⟨3, 3, List.replicate 3 (List.replicate 3 32), 0, 0, -1, -1, 1, 1⟩
      ⟨2, 1, some [[65, 66]]⟩ = .ok fresh' ∧
        ([[65, 66, 32], [32, 32, 32], [32, 32, 32]] = fresh'.objects ↔
          ∀ r k, r < 3 → k < 3 →
            Screen.Written ⟨3, 3, List.replicate 3 (List.replicate 3 32), 0, 0, -1, -1, 1, 1⟩
                ⟨2, 1, some [[65, 66]]⟩ r k ∨
              Screen.leftover ⟨3, 3, List.replicate 3 (List.replicate 3 32), 0, 0, -1, -1, 1, 1⟩
                r k 32 [⟨1, 1, some [[66]]⟩] = 32) :=
  @update_forgets_iff ⟨128, 128⟩ 0 0 (fun _ => true) _
    ⟨3, 3, [[66, 32, 32], [32, 32, 32], [32, 32, 32]], 0, 0, -1, -1, 1, 1⟩
    ⟨3, 3, [[65, 66, 32], [32, 32, 32], [32, 32, 32]], 0, 0, -1, -1, 1, 1⟩
    [⟨1, 1, some [[66]]⟩] _ screenInit_corner (by decide +kernel) (by decide +kernel)

/-- After the wider level the narrow one leaves its second square standing. -/
theorem update_stale :
    ¬ ∀ res x y granted fresh grids screen grid screen' fresh',
      (∀ level ∈ grid :: grids, ∃ before file granted load,
        gridInit before (some file) granted = .ok load ∧ load.code = 0 ∧ load.grid = level) →
      screenInit res x y granted = .ok fresh → run step fresh grids = some screen →
      screen.update grid = .ok screen' → fresh.update grid = .ok fresh' →
      screen'.objects = fresh'.objects := by
  intro h
  have hlevels : ∀ level ∈ [⟨1, 1, some [[66]]⟩, ⟨2, 1, some [[65, 66]]⟩],
      ∃ before file granted load, gridInit before (some file) granted = .ok load ∧
        load.code = 0 ∧ load.grid = level := by
    intro level hlevel
    rcases List.mem_pair.mp hlevel with rfl | rfl
    · exact ⟨_, _, _, _, gridInit_oneSquare, rfl, rfl⟩
    · exact ⟨_, _, _, _, gridInit_twoSquares, rfl, rfl⟩
  have hsame := h ⟨128, 128⟩ 0 0 (fun _ => true) _ _
    ⟨3, 3, [[65, 66, 32], [32, 32, 32], [32, 32, 32]], 0, 0, -1, -1, 1, 1⟩ _
    ⟨3, 3, [[66, 66, 32], [32, 32, 32], [32, 32, 32]], 0, 0, -1, -1, 1, 1⟩
    ⟨3, 3, [[66, 32, 32], [32, 32, 32], [32, 32, 32]], 0, 0, -1, -1, 1, 1⟩
    hlevels screenInit_corner (by decide +kernel) (by decide +kernel) (by decide +kernel)
  exact absurd hsame (by decide)

/-! ## Where the centre is shown -/

/-- The cell that belongs into the square `(r, k)`, with the centre in the middle of the window. -/
def centred (screen : Screen) (grid : GridInfo) (r k : Nat) : UInt8 :=
  shown grid (screen.pos_y - (screen.y_size.toNat / 2 : Nat) + r)
    (screen.pos_x - (screen.x_size.toNat / 2 : Nat) + k)

/-- How many columns, or rows, of the window lie before the first one of the grid. -/
def cutOff (pos : Int) (size : UInt8) : Nat := ((size.toNat / 2 : Nat) - pos).toNat

theorem cutOff_eq_zero_iff {pos : Int} {size : UInt8} :
    cutOff pos size = 0 ↔ (size.toNat / 2 : Nat) ≤ pos := by
  unfold cutOff
  omega

theorem first_eq_cutOff (pos : Int) (size : UInt8) :
    first pos (-(size.toNat / 2 : Nat)) = pos - (size.toNat / 2 : Nat) + cutOff pos size := by
  unfold first cutOff
  split
  · omega
  · omega

/-- With an odd number of squares, the last one that is drawn is the last one of the window, or that
    of the grid. -/
theorem le_last_iff {pos : Int} {size grid_size : UInt8} (hodd : size.toNat % 2 = 1) (r : Nat) :
    r + first pos (-(size.toNat / 2 : Nat)) ≤ last pos (size.toNat / 2 : Nat) grid_size ↔
      r + cutOff pos size < size.toNat ∧
        pos - (size.toNat / 2 : Nat) + (r + cutOff pos size : Nat) < grid_size.toNat := by
  rw [first_eq_cutOff]
  unfold last
  split
  · omega
  · omega

section
variable {res : GpuResInfo} {x y : Int} {fresh screen : Screen} {grid : GridInfo}

theorem drawn_eq_centred (hfresh : fresh.Fresh res x y) (r k : Nat) :
    fresh.drawn grid r k = fresh.centred grid (r + cutOff fresh.pos_y fresh.y_size)
      (k + cutOff fresh.pos_x fresh.x_size) := by
  unfold drawn centred i_min_y i_min_x
  rw [hfresh.min_y, hfresh.min_x, first_eq_cutOff, first_eq_cutOff]
  push_cast
  congr 1
  · omega
  · omega

theorem written_iff (hfresh : fresh.Fresh res x y) (hodd_x : fresh.x_size.toNat % 2 = 1)
    (hodd_y : fresh.y_size.toNat % 2 = 1) (r k : Nat) :
    fresh.Written grid r k ↔
      (r + cutOff fresh.pos_y fresh.y_size < fresh.y_size.toNat ∧
        fresh.pos_y - (fresh.y_size.toNat / 2 : Nat) + (r + cutOff fresh.pos_y fresh.y_size : Nat)
          < grid.y_size.toNat) ∧
      k + cutOff fresh.pos_x fresh.x_size < fresh.x_size.toNat ∧
        fresh.pos_x - (fresh.x_size.toNat / 2 : Nat) + (k + cutOff fresh.pos_x fresh.x_size : Nat)
          < grid.x_size.toNat := by
  unfold Written i_min_y i_min_x i_max_y i_max_x
  rw [hfresh.min_y, hfresh.min_x, hfresh.max_y, hfresh.max_x, le_last_iff hodd_y,
    le_last_iff hodd_x]

/-- The picture an update makes: the one that was wanted, moved to the top left corner. -/
theorem cellAt_update_fresh (hfresh : fresh.Fresh res x y) (hodd_x : fresh.x_size.toNat % 2 = 1)
    (hodd_y : fresh.y_size.toNat % 2 = 1) (hgrid : grid.Loaded)
    (hupdate : fresh.update grid = .ok screen) {r k : Nat} (hr : r < fresh.y_size.toNat)
    (hk : k < fresh.x_size.toNat) :
    cellAt screen.objects r k =
      some (if r + cutOff fresh.pos_y fresh.y_size < fresh.y_size.toNat ∧
          k + cutOff fresh.pos_x fresh.x_size < fresh.x_size.toNat then
        fresh.centred grid (r + cutOff fresh.pos_y fresh.y_size)
          (k + cutOff fresh.pos_x fresh.x_size) else 32) := by
  obtain ⟨-, -, hcells⟩ := update_cells hfresh.sized hupdate
  by_cases hwritten : fresh.Written grid r k
  · rw [(hcells r k).1 hwritten, drawn_eq_centred hfresh]
    rw [written_iff hfresh hodd_x hodd_y] at hwritten
    rw [if_pos ⟨hwritten.1.1, hwritten.2.1⟩]
  · rw [(hcells r k).2 hwritten, hfresh.blank r k hr hk]
    rw [written_iff hfresh hodd_x hodd_y] at hwritten
    split
    · -- the square is left blank because the grid ends before it
      rename_i hin
      rw [centred, shown_outside hgrid fun hinside => hwritten
        ⟨⟨hin.1, hinside.2.1⟩, hin.2, hinside.2.2.2⟩]
    · rfl

/-- Over an odd number of squares each way the update goes through. -/
theorem update_ok_of_odd (hfresh : fresh.Fresh res x y) (hodd_x : fresh.x_size.toNat % 2 = 1)
    (hodd_y : fresh.y_size.toNat % 2 = 1) (hgrid : grid.Loaded) :
    ∃ screen, fresh.update grid = .ok screen := by
  refine (update_ok_iff hfresh.sized).mpr fun i hi hi' j hj hj' => ?_
  rw [copied_iff_inside hgrid]
  have hwritten : fresh.Written grid (i - fresh.i_min_y).toNat (j - fresh.i_min_x).toNat :=
    ⟨by omega, by omega⟩
  rw [written_iff hfresh hodd_x hodd_y] at hwritten
  have hi0 : 0 ≤ fresh.i_min_y := first_nonneg _ _
  have hj0 : 0 ≤ fresh.i_min_x := first_nonneg _ _
  have hilast : fresh.i_max_y grid < grid.y_size.toNat := last_lt _ _ _
  have hjlast : fresh.i_max_x grid < grid.x_size.toNat := last_lt _ _ _
  exact ⟨by omega, by omega⟩

/-- **The window is centred** exactly when it is not cut off above or to the left of the centre, or
    when there is nothing to see in it. -/
theorem update_centred_iff {granted : Nat → Bool}
    (hinit : screenInit res x y granted = .ok fresh) (hodd_x : fresh.x_size.toNat % 2 = 1)
    (hodd_y : fresh.y_size.toNat % 2 = 1) (hgrid : grid.Loaded) :
    ∃ screen, fresh.update grid = .ok screen ∧
      ((∀ r k, r < fresh.y_size.toNat → k < fresh.x_size.toNat →
          cellAt screen.objects r k = some (fresh.centred grid r k)) ↔
        ((fresh.x_size.toNat / 2 : Nat) ≤ x ∧ (fresh.y_size.toNat / 2 : Nat) ≤ y) ∨
          ∀ r k, r < fresh.y_size.toNat → k < fresh.x_size.toNat →
            fresh.centred grid r k = 32) := by
  have hfresh := fresh_screenInit hinit
  obtain ⟨screen, hupdate⟩ := update_ok_of_odd hfresh hodd_x hodd_y hgrid
  refine ⟨screen, hupdate, ?_⟩
  have hcells := fun r k (hr : r < fresh.y_size.toNat) (hk : k < fresh.x_size.toNat) =>
    cellAt_update_fresh hfresh hodd_x hodd_y hgrid hupdate hr hk
  have hshown : (∀ r k, r < fresh.y_size.toNat → k < fresh.x_size.toNat →
      cellAt screen.objects r k = some (fresh.centred grid r k)) ↔
      ∀ r k, r < fresh.y_size.toNat → k < fresh.x_size.toNat →
        (if r + cutOff fresh.pos_y fresh.y_size < fresh.y_size.toNat ∧
            k + cutOff fresh.pos_x fresh.x_size < fresh.x_size.toNat then
          fresh.centred grid (r + cutOff fresh.pos_y fresh.y_size)
            (k + cutOff fresh.pos_x fresh.x_size) else 32) = fresh.centred grid r k := by
    refine forall₄_congr fun r k hr hk => ?_
    rw [hcells r k hr hk, Option.some_inj]
  rw [hshown, ← hfresh.pos_x, ← hfresh.pos_y]
  by_cases hcut : cutOff fresh.pos_y fresh.y_size = 0 ∧ cutOff fresh.pos_x fresh.x_size = 0
  · refine iff_of_true (fun r k hr hk => ?_)
      (.inl ⟨cutOff_eq_zero_iff.mp hcut.2, cutOff_eq_zero_iff.mp hcut.1⟩)
    rw [hcut.1, hcut.2, if_pos ⟨hr, hk⟩, Nat.add_zero, Nat.add_zero]
  · rw [moved_eq_self_iff (by omega), ← cutOff_eq_zero_iff, ← cutOff_eq_zero_iff,
      or_iff_right fun hzero => hcut hzero.symm]

/-- One square down and to the right of the corner, nothing is cut off. -/
theorem update_centred_interior :
    ∃ screen, Screen.update ⟨3, 3, List.replicate 3 (List.replicate 3 32), 1, 1, -1, -1, 1, 1⟩
      ⟨2, 1, some [[65, 66]]⟩ = .ok screen ∧
        ((∀ r k, r < 3 → k < 3 → cellAt screen.objects r k =
            some (Screen.centred ⟨3, 3, List.replicate 3 (List.replicate 3 32), 1, 1, -1, -1, 1, 1⟩
              ⟨2, 1, some [[65, 66]]⟩ r k)) ↔
          ((1 : Int) ≤ 1 ∧ (1 : Int) ≤ 1) ∨ ∀ r k, r < 3 → k < 3 →
            Screen.centred ⟨3, 3, List.replicate 3 (List.replicate 3 32), 1, 1, -1, -1, 1, 1⟩
              ⟨2, 1, some [[65, 66]]⟩ r k = 32) :=
  @update_centred_iff ⟨128, 128⟩ 1 1 _ _ (fun _ => true) (by decide +kernel) (by decide) (by decide)
    (loaded_of_rows ⟨rfl, by decide⟩)

/-- With the centre in the corner of the grid, its cell is shown in the corner of the window. -/
theorem update_off_centre :
    ¬ ∀ res x y granted fresh file load screen, screenInit res x y granted = .ok fresh →
      fresh.x_size.toNat % 2 = 1 → fresh.y_size.toNat % 2 = 1 →
      gridInit .startup (some file) granted = .ok load → load.code = 0 →
      0 ≤ x ∧ x < load.grid.x_size.toNat → 0 ≤ y ∧ y < load.grid.y_size.toNat →
      fresh.update load.grid = .ok screen →
      ∀ r k, r < fresh.y_size.toNat → k < fresh.x_size.toNat →
        cellAt screen.objects r k = some (fresh.centred load.grid r k) := by
  intro h
  have hmiddle := h ⟨128, 128⟩ 0 0 (fun _ => true) _ _ _
    ⟨3, 3, [[65, 66, 32], [32, 32, 32], [32, 32, 32]], 0, 0, -1, -1, 1, 1⟩ screenInit_corner
    (by decide) (by decide) gridInit_twoSquares rfl (by decide) (by decide) (by decide +kernel) 1 1
    (by decide) (by decide)
  exact absurd hmiddle (by decide)

end

end Screen

end Lcom

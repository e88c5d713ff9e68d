import Lcom.Lib.Fill
import Lcom.Player.Player
import Lcom.Proof.Screen.Contents

/-!
# What the player is shown

The window around the player is filled column by column, and whether a column is inside the grid is
asked of the player's row. Where the two questions have different answers, a column of the grid is
missing from the window, or one is read that the grid does not have.
-/

namespace Lcom

open Lib Table

namespace Player

/-- The row at `yi` from the player is in the grid. -/
def RowIn (player : Player) (grid : GridInfo) (yi : Int) : Prop :=
  0 ≤ player.player_posy.toNat + yi ∧ player.player_posy.toNat + yi < grid.y_size.toNat

/-- The column at `xi` from the player is in the grid. -/
def ColumnIn (player : Player) (grid : GridInfo) (xi : Int) : Prop :=
  0 ≤ player.player_posx.toNat + xi ∧ player.player_posx.toNat + xi < grid.x_size.toNat

/-- What `player_set_visible` asks of the column instead. -/
def ColumnTaken (player : Player) (grid : GridInfo) (xi : Int) : Prop :=
  0 ≤ player.player_posy.toNat + xi ∧ player.player_posy.toNat + xi < grid.x_size.toNat

/-- The cell of the grid at `(yi, xi)` from the player, a blank outside. -/
def seen (player : Player) (grid : GridInfo) (yi xi : Int) : UInt8 :=
  Screen.shown grid (player.player_posy.toNat + yi) (player.player_posx.toNat + xi)

section
variable {player : Player} {grid : GridInfo}

theorem seen_outside (hgrid : grid.Loaded) {yi xi : Int}
    (hout : ¬ (player.RowIn grid yi ∧ player.ColumnIn grid xi)) : player.seen grid yi xi = 32 :=
  Screen.shown_outside hgrid fun hin => hout ⟨⟨hin.1, hin.2.1⟩, hin.2.2⟩

/-! ## What is written -/

theorem fills_resetVisible :
    Fills maxYsize maxXsize
      (forRange 0 (visYsize.toNat - 1) fun yi objects =>
        forRange 0 (visXsize.toNat - 1) (fun xi objects => objects.store yi xi 32) objects)
      (fun r k => r < maxYsize ∧ k < maxXsize) (fun _ _ => 32) := by
  refine (Fills.forRange (fun yi => Fills.forRange (fun xi => Fills.put fun _ _ _ _ => rfl) _ _)
    _ _).congr fun r k => ?_
  simp only [visYsize_toNat, visXsize_toNat, maxYsize, maxXsize]
  constructor
  · intro h
    obtain ⟨yi, -, hyi, xi, -, hxi, hr, hk⟩ := h
    exact ⟨by omega, by omega⟩
  · intro h
    exact ⟨r, by omega, by omega, k, by omega, by omega, rfl, rfl⟩

theorem rowIn_iff (yi : Int) :
    player.RowIn grid yi ↔ ¬ (player.player_posy.toNat + yi < 0 ∨
      player.player_posy.toNat + yi ≥ grid.y_size.toNat) := by
  unfold RowIn
  omega

theorem columnTaken_iff (xi : Int) :
    player.ColumnTaken grid xi ↔ ¬ (player.player_posy.toNat + xi < 0 ∨
      player.player_posy.toNat + xi ≥ grid.x_size.toNat) := by
  unfold ColumnTaken
  omega

theorem fills_setVisibleCell (yi xi : Int) :
    Fills maxYsize maxXsize (player.setVisibleCell grid yi xi)
      (fun r k => player.ColumnTaken grid xi ∧ (r : Int) = yi + maxy ∧ (k : Int) = xi + maxx)
      (fun r k => player.seen grid (r - maxy) (k - maxx)) := by
  simp only [columnTaken_iff]
  refine Fills.skip fun _ => Fills.store fun c hc r k hr hk => ?_
  rw [seen, hr, hk, Int.add_sub_cancel, Int.add_sub_cancel, Screen.shown_of_load hc]

theorem fills_setVisibleRow (yi : Int) :
    Fills maxYsize maxXsize (player.setVisibleRow grid yi)
      (fun r k => player.RowIn grid yi ∧ (r : Int) = yi + maxy ∧ k < maxXsize ∧
        player.ColumnTaken grid (k - maxx))
      (fun r k => player.seen grid (r - maxy) (k - maxx)) := by
  simp only [rowIn_iff]
  refine Fills.skip fun _ => (Fills.forRange (fills_setVisibleCell yi) _ _).congr fun r k => ?_
  simp only [ColumnTaken, minx_eq, maxx_eq, maxXsize]
  constructor
  · intro h
    obtain ⟨xi, hxi, hxi', htaken, hr, hk⟩ := h
    exact ⟨hr, by omega, by omega⟩
  · intro h
    obtain ⟨hr, hk, htaken⟩ := h
    exact ⟨k - 9, by omega, by omega, htaken, hr, by omega⟩

/-- What the loops over the grid write: the rows and columns they take, each cell where it belongs. -/
theorem fills_setVisibleRows :
    Fills maxYsize maxXsize (forRange miny (maxy - 1) (player.setVisibleRow grid))
      (fun r k => (r < maxYsize ∧ player.RowIn grid (r - maxy)) ∧
        k < maxXsize ∧ player.ColumnTaken grid (k - maxx))
      (fun r k => player.seen grid (r - maxy) (k - maxx)) := by
  refine (Fills.forRange fills_setVisibleRow _ _).congr fun r k => ?_
  simp only [RowIn, miny_eq, maxy_eq, maxYsize]
  constructor
  · intro h
    obtain ⟨yi, hyi, hyi', hrow, hr, htaken⟩ := h
    exact ⟨⟨by omega, by omega⟩, htaken⟩
  · intro h
    obtain ⟨⟨hr, hrow⟩, htaken⟩ := h
    exact ⟨r - 7, by omega, by omega, hrow, by omega, htaken⟩

/-! ## When it goes through -/

theorem resetVisible_blank (hvisible : Sized player.visible_objects maxYsize maxXsize) :
    ∃ blank, player.resetVisible = .ok { player with visible_objects := blank } ∧
      Sized blank maxYsize maxXsize ∧
      ∀ r k, r < maxYsize → k < maxXsize → cellAt blank r k = some 32 := by
  have hloop : ∃ blank, forRange 0 (visYsize.toNat - 1) (fun yi objects =>
      forRange 0 (visXsize.toNat - 1) (fun xi objects => objects.store yi xi 32) objects)
        player.visible_objects = .ok blank ∧ Sized blank maxYsize maxXsize := by
    refine forRange_spec (I := fun _ objects => Sized objects maxYsize maxXsize) (by decide)
      hvisible fun yi objects hyi hyi' hsized => ?_
    refine forRange_spec (I := fun _ objects => Sized objects maxYsize maxXsize) (by decide)
      hsized fun xi objects hxi hxi' hsized => ?_
    simp only [visYsize_toNat] at hyi'
    simp only [visXsize_toNat] at hxi'
    obtain ⟨objects', hstore⟩ := (hsized.store_ok_iff (y := yi) (x := xi) (c := 32)).mpr
      ⟨hyi, by unfold maxYsize; omega, hxi, by unfold maxXsize; omega⟩
    exact ⟨objects', hstore, hsized.store hstore⟩
  obtain ⟨blank, hblank, hsized⟩ := hloop
  obtain ⟨-, hcells⟩ := fills_resetVisible _ _ hvisible hblank
  exact ⟨blank, bind_eq_ok.mpr ⟨blank, hblank, rfl⟩, hsized,
    fun r k hr hk => (hcells r k).1 ⟨hr, hk⟩⟩

/-- The loops over the grid start from a blank window. -/
theorem setVisible_eq_ok (hvisible : Sized player.visible_objects maxYsize maxXsize) :
    ∃ blank, Sized blank maxYsize maxXsize ∧
      (∀ r k, r < maxYsize → k < maxXsize → cellAt blank r k = some 32) ∧
      ∀ player', player.setVisible grid = .ok player' ↔ ∃ objects,
        forRange miny (maxy - 1) (player.setVisibleRow grid) blank = .ok objects ∧
          player' = { player with visible_objects := objects } := by
  obtain ⟨blank, hreset, hsized, hcells⟩ := resetVisible_blank hvisible
  refine ⟨blank, hsized, hcells, fun player' => ?_⟩
  unfold setVisible
  rw [hreset, ok_bind, bind_eq_ok]
  constructor
  · intro h
    obtain ⟨objects, hobjects, hplayer⟩ := h
    exact ⟨objects, hobjects, (Except.ok.inj hplayer).symm⟩
  · intro h
    obtain ⟨objects, hobjects, hplayer⟩ := h
    exact ⟨objects, hobjects, congrArg Except.ok hplayer.symm⟩

theorem setVisibleCell_ok_iff (hgrid : grid.Loaded) {objects : Table}
    (hsized : Sized objects maxYsize maxXsize) (yi xi : Int) :
    (∃ objects', player.setVisibleCell grid yi xi objects = .ok objects') ↔
      (player.ColumnTaken grid xi → (player.RowIn grid yi ∧ player.ColumnIn grid xi) ∧
        (miny ≤ yi ∧ yi < maxy) ∧ minx ≤ xi ∧ xi < maxx) := by
  unfold setVisibleCell
  rw [skip_ok_iff, ← columnTaken_iff]
  refine imp_congr_right fun _ => ?_
  simp only [bind_eq_ok]
  have hload := Screen.loadGrid_ok_iff hgrid (y := player.player_posy.toNat + yi)
    (x := player.player_posx.toNat + xi)
  have hstore := fun c => hsized.store_ok_iff (y := yi + maxy) (x := xi + maxx) (c := c)
  simp only [RowIn, ColumnIn, miny_eq, maxy_eq, minx_eq, maxx_eq, maxYsize, maxXsize] at *
  constructor
  · intro h
    obtain ⟨objects', c, hc, hobjects'⟩ := h
    have hin := hload.mp ⟨c, hc⟩
    have hplace := (hstore c).mp ⟨objects', hobjects'⟩
    exact ⟨⟨⟨hin.1, hin.2.1⟩, hin.2.2⟩, by omega, by omega⟩
  · intro h
    obtain ⟨⟨hrow, hcolumn⟩, hyi, hxi⟩ := h
    obtain ⟨c, hc⟩ := hload.mpr ⟨hrow.1, hrow.2, hcolumn⟩
    obtain ⟨objects', hobjects'⟩ := (hstore c).mpr (by omega)
    exact ⟨objects', c, hc, hobjects'⟩

theorem setVisibleRows_ok_iff (hgrid : grid.Loaded) {objects : Table}
    (hsized : Sized objects maxYsize maxXsize) :
    (∃ objects', forRange miny (maxy - 1) (player.setVisibleRow grid) objects = .ok objects') ↔
      ∀ yi, miny ≤ yi → yi ≤ maxy - 1 → player.RowIn grid yi →
        ∀ xi, minx ≤ xi → xi ≤ maxx - 1 → player.ColumnTaken grid xi →
          player.ColumnIn grid xi := by
  rw [forRange_ok_iff (I := fun objects => Sized objects maxYsize maxXsize)
    (fun yi _ _ hsized hrow => (fills_setVisibleRow yi _ _ hsized hrow).1)
    (fun yi objects hsized => skip_ok_iff.trans (imp_congr_right fun _ =>
      forRange_ok_iff (I := fun objects => Sized objects maxYsize maxXsize)
        (fun xi _ _ hsized hcell => (fills_setVisibleCell yi xi _ _ hsized hcell).1)
        (fun xi objects hsized => setVisibleCell_ok_iff hgrid hsized yi xi) hsized)) hsized]
  simp only [← rowIn_iff]
  constructor
  · intro h yi hyi hyi' hrow xi hxi hxi' htaken
    exact (h yi hyi hyi' hrow xi hxi hxi' htaken).1.2
  · intro h yi hyi hyi' hrow xi hxi hxi' htaken
    exact ⟨⟨hrow, h yi hyi hyi' hrow xi hxi hxi' htaken⟩, ⟨hyi, by omega⟩, hxi, by omega⟩

/-! ## The window -/

/-- What a call that goes through leaves: the cells of the rows and columns it takes, blanks
    elsewhere. -/
theorem setVisible_cells (hvisible : Sized player.visible_objects maxYsize maxXsize)
    {player' : Player} (h : player.setVisible grid = .ok player') {yi xi : Int}
    (hyi : miny ≤ yi ∧ yi < maxy) (hxi : minx ≤ xi ∧ xi < maxx) :
    (player.RowIn grid yi ∧ player.ColumnTaken grid xi →
      cellAt player'.visible_objects (yi + maxy).toNat (xi + maxx).toNat =
        some (player.seen grid yi xi)) ∧
    (¬ (player.RowIn grid yi ∧ player.ColumnTaken grid xi) →
      cellAt player'.visible_objects (yi + maxy).toNat (xi + maxx).toNat = some 32) := by
  obtain ⟨blank, hsized, hblank, hset⟩ := setVisible_eq_ok hvisible
  obtain ⟨objects, hobjects, rfl⟩ := (hset player').mp h
  obtain ⟨-, hcells⟩ := fills_setVisibleRows _ _ hsized hobjects
  have hplace : (yi + maxy).toNat < maxYsize ∧ (xi + maxx).toNat < maxXsize := by
    simp only [miny_eq, maxy_eq, minx_eq, maxx_eq, maxYsize, maxXsize] at *
    omega
  have hyi' : ((yi + maxy).toNat : Int) - maxy = yi := by
    simp only [miny_eq, maxy_eq] at *
    omega
  have hxi' : ((xi + maxx).toNat : Int) - maxx = xi := by
    simp only [minx_eq, maxx_eq] at *
    omega
  have hcell := hcells (yi + maxy).toNat (xi + maxx).toNat
  simp only [hyi', hxi', hblank _ _ hplace.1 hplace.2] at hcell
  constructor
  · intro hboth
    exact hcell.1 ⟨⟨hplace.1, hboth.1⟩, hplace.2, hboth.2⟩
  · intro hnot
    exact hcell.2 fun hin => hnot ⟨hin.1.2, hin.2.2⟩

theorem setVisible_ok_iff (hvisible : Sized player.visible_objects maxYsize maxXsize)
    (hgrid : grid.Loaded) :
    (∃ player', player.setVisible grid = .ok player') ↔
      ∀ yi, miny ≤ yi → yi ≤ maxy - 1 → player.RowIn grid yi →
        ∀ xi, minx ≤ xi → xi ≤ maxx - 1 → player.ColumnTaken grid xi →
          player.ColumnIn grid xi := by
  obtain ⟨blank, hsized, -, hset⟩ := setVisible_eq_ok hvisible
  rw [← setVisibleRows_ok_iff hgrid hsized]
  constructor
  · intro h
    obtain ⟨player', h⟩ := h
    obtain ⟨objects, hobjects, -⟩ := (hset player').mp h
    exact ⟨objects, hobjects⟩
  · intro h
    obtain ⟨objects, hobjects⟩ := h
    exact ⟨_, (hset _).mpr ⟨objects, hobjects, rfl⟩⟩

/-- **The player sees the grid around them** exactly when no column is taken that the grid does not
    have, and the columns of the grid that are not taken are blank in the rows of the window. -/
theorem setVisible_shown_iff (hvisible : Sized player.visible_objects maxYsize maxXsize)
    (hgrid : grid.Loaded) (hy : player.player_posy < grid.y_size) :
    (∃ player', player.setVisible grid = .ok player' ∧
      ∀ yi xi, miny ≤ yi ∧ yi < maxy → minx ≤ xi ∧ xi < maxx →
        cellAt player'.visible_objects (yi + maxy).toNat (xi + maxx).toNat =
          some (player.seen grid yi xi)) ↔
      ∀ xi, minx ≤ xi ∧ xi < maxx →
        (player.ColumnTaken grid xi → player.ColumnIn grid xi) ∧
        (player.ColumnIn grid xi → ¬ player.ColumnTaken grid xi →
          ∀ yi, miny ≤ yi ∧ yi < maxy → player.seen grid yi xi = 32) := by
  have hhere : player.RowIn grid 0 := by
    have hlt : player.player_posy.toNat < grid.y_size.toNat := hy
    unfold RowIn
    omega
  constructor
  · intro h xi hxi
    obtain ⟨player', hset, hshown⟩ := h
    constructor
    · intro htaken
      exact (setVisible_ok_iff hvisible hgrid).mp ⟨player', hset⟩ 0 (by decide) (by decide) hhere
        xi hxi.1 (by omega) htaken
    · intro hin hnot yi hyi
      have hcell := (setVisible_cells hvisible hset hyi hxi).2 fun hboth => hnot hboth.2
      rw [hshown yi xi hyi hxi] at hcell
      exact Option.some.inj hcell
  · intro h
    obtain ⟨player', hset⟩ := (setVisible_ok_iff hvisible hgrid).mpr
      fun yi _ _ _ xi hxi hxi' => (h xi ⟨hxi, by omega⟩).1
    refine ⟨player', hset, fun yi xi hyi hxi => ?_⟩
    have hcell := setVisible_cells hvisible hset hyi hxi
    by_cases hboth : player.RowIn grid yi ∧ player.ColumnTaken grid xi
    · exact hcell.1 hboth
    rw [hcell.2 hboth]
    by_cases hin : player.RowIn grid yi ∧ player.ColumnIn grid xi
    · rw [(h xi hxi).2 hin.2 (fun htaken => hboth ⟨hin.1, htaken⟩) yi hyi]
    · rw [seen_outside hgrid hin]

/-- On the diagonal of the grid the two questions are the same one. -/
theorem setVisible_shown_corner :
    ∃ player', Player.startup.setVisible ⟨2, 1, some [[65, 66]]⟩ = .ok player' ∧
      ∀ yi xi, miny ≤ yi ∧ yi < maxy → minx ≤ xi ∧ xi < maxx →
        cellAt player'.visible_objects (yi + maxy).toNat (xi + maxx).toNat =
          some (Player.startup.seen ⟨2, 1, some [[65, 66]]⟩ yi xi) :=
  (setVisible_shown_iff (Sized.replicate _ _ _) (Screen.loaded_of_rows ⟨rfl, by decide⟩)
    (by decide)).mpr fun _ _ => ⟨id, fun hin hnot => absurd hin hnot⟩

/-- One column further right, on a grid of two, the third one is read. -/
theorem setVisible_outside :
    ¬ ∀ player file granted load, gridInit .startup (some file) granted = .ok load →
      load.code = 0 → Sized (Player.visible_objects player) maxYsize maxXsize →
      player.player_posx < load.grid.x_size → player.player_posy < load.grid.y_size →
      ∃ player', player.setVisible load.grid = .ok player' ∧
        ∀ yi xi, miny ≤ yi ∧ yi < maxy → minx ≤ xi ∧ xi < maxx →
          cellAt player'.visible_objects (yi + maxy).toNat (xi + maxx).toNat =
            some (player.seen load.grid yi xi) := by
  intro h
  obtain ⟨player', hset, -⟩ := h { Player.startup with player_posx := 1 } _ _ _
    Screen.gridInit_twoSquares rfl (Sized.replicate _ _ _) (by decide) (by decide)
  have hfault : setVisible { Player.startup with player_posx := 1 } ⟨2, 1, some [[65, 66]]⟩ =
      .error .outOfBounds := by decide +kernel
  rw [hfault] at hset
  cases hset

/-! ## Starting a level -/

theorem sized_setVisible (hvisible : Sized player.visible_objects maxYsize maxXsize)
    {player' : Player} (h : player.setVisible grid = .ok player') :
    Sized player'.visible_objects maxYsize maxXsize := by
  obtain ⟨blank, hsized, -, hset⟩ := setVisible_eq_ok hvisible
  obtain ⟨objects, hobjects, rfl⟩ := (hset player').mp h
  exact (fills_setVisibleRows _ _ hsized hobjects).1

/-- A player who is let in stands in the middle of what `player_set_visible` shows. -/
theorem init_cells (hvisible : Sized player.visible_objects maxYsize maxXsize) {x y : UInt8}
    {code : Int} {player' : Player} (h : player.init x y grid = .ok (code, player'))
    (hin : x ≤ grid.x_size ∧ y ≤ grid.y_size) :
    ∃ shown, setVisible { player with player_posx := x, player_posy := y } grid = .ok shown ∧
      Sized player'.visible_objects maxYsize maxXsize ∧ ∀ r k : Nat,
        cellAt player'.visible_objects r k =
          if (r : Int) = midy ∧ (k : Int) = midx then some 112
          else cellAt shown.visible_objects r k := by
  unfold init at h
  rw [if_neg (by simp only [gt_iff_lt, not_or, UInt8.not_lt]; exact hin)] at h
  obtain ⟨shown, hshown, hrest⟩ := bind_eq_ok.mp h
  obtain ⟨objects, hobjects, hplayer⟩ := bind_eq_ok.mp hrest
  cases hplayer
  have hsized := @sized_setVisible { player with player_posx := x, player_posy := y } grid hvisible
    shown hshown
  exact ⟨shown, hshown, hsized.store hobjects, cellAt_store hobjects⟩

end

end Player

end Lcom

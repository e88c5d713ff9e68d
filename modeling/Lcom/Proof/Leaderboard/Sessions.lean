import Lcom.Proof.Leaderboard.Reload

/-!
# The stored table, session after session

A session loads the file, adds what was played, and saves. A load moves every date by 2000 years
(`reload_toInt`), so what lasts is the names and the times, and those are followed here: `Holds` says
what a file stores, `Best` what a table in memory holds, and each of the three parts of a session
takes the one to the other.

A save prints whatever lies behind the table (`roundTrips_iff`), so a table is stored as it is from the
moment it is full. From then on nothing is forgotten: after any number of sessions the file holds the
best three of everything that was ever added (`sessions_keep_best`).
-/

namespace Lcom

open Lib

/-- A use of the stored table; `memory` is what its `Leaderboard` holds before the load. -/
structure Session where
  memory : Leaderboard
  calls : List AddCall

/-- What an addition adds, its date aside. -/
def AddCall.score (c : AddCall) : Text × Int64 := (cString c.name, c.time_entry)

def scoreTime (score : Text × Int64) : Int := score.2.toInt

/-- The scores that are kept of those added. -/
def bestThree (scores : List (Text × Int64)) : List (Text × Int64) :=
  (stableSort scoreTime scores).take 3

namespace Session

def scores (s : Session) : List (Text × Int64) := s.calls.map AddCall.score

/-- One session: the file after it. -/
def play (s : Session) (file : Text) : Except Fault Text := do
  let (_, lb) ← s.memory.readFile (some file)
  let lb ← lb.addAll s.calls
  let (_, saved) ← lb.writeFile true
  pure (saved.getD file)

/-- One session after the other. -/
def playAll (sessions : List Session) (file : Text) : Except Fault Text :=
  sessions.foldlM (fun file s => s.play file) file

end Session

/-! ## What is kept -/

/-- The file can be loaded, and its rows are the best of the scores. -/
structure Holds (file : Text) (scores : List (Text × Int64)) : Prop where
  no_nul : 0 ∉ file
  calls : ∀ a ∈ attempts 3 file, a.Fits ∧ ¬ a.Crashes
  rows : (completeRows (attempts 3 file)).map (fun row => (row.name, row.time)) = bestThree scores

/-- The table can be saved, and its rows are the best of the scores. -/
structure Leaderboard.Best (lb : Leaderboard) (scores : List (Text × Int64)) : Prop where
  presentable : lb.Presentable
  ranking : lb.ranking = bestThree scores

theorem length_bestThree (scores : List (Text × Int64)) :
    (bestThree scores).length = min 3 scores.length := by
  unfold bestThree stableSort
  rw [List.length_take, List.length_mergeSort]

theorem bestThree_concat (scores : List (Text × Int64)) (score : Text × Int64) :
    bestThree (scores ++ [score]) = (insertAfter scoreTime score (bestThree scores)).take 3 :=
  top_concat scoreTime scores score 3

theorem Leaderboard.Best.count {lb : Leaderboard} {scores : List (Text × Int64)}
    (h : lb.Best scores) : lb.entry_count.toNat = min 3 scores.length := by
  have hlength := congrArg List.length h.ranking
  unfold Leaderboard.ranking at hlength
  rwa [List.length_map, length_table h.presentable.count, length_bestThree] at hlength

/-- An empty file holds nothing yet. -/
theorem holds_nil : Holds [] [] where
  no_nul := List.not_mem_nil
  calls := fun a ha => absurd ha List.not_mem_nil
  rows := by
    unfold bestThree
    rw [stableSort_nil]
    rfl

/-! ## Loading -/

theorem ranking_of_rows {new : List LeaderboardEntry} {rows : List FileRow}
    (hnul : ∀ row ∈ rows, 0 ∉ row.name) (h : List.Forall₂ LeaderboardEntry.ReadFrom new rows) :
    (new.map fun e => (e.text, e.time_entry)) = rows.map fun row => (row.name, row.time) := by
  induction h with
  | nil => rfl
  | cons he _ ih =>
    obtain ⟨hhead, htail⟩ := List.forall_mem_cons.mp hnul
    rw [List.map_cons, List.map_cons, ih htail, he.text_eq_name hhead, he.time]

theorem Holds.load {file : Text} {scores : List (Text × Int64)} (h : Holds file scores)
    (memory : Leaderboard) :
    ∃ lb, memory.readFile (some file) = .ok (0, lb) ∧ lb.Best scores := by
  obtain ⟨lb, hread⟩ := readFile_returns memory h.calls
  obtain ⟨-, hentries, -⟩ := readFile_done hread
  refine ⟨lb, hread, presentable_of_readFile h.no_nul hread, ?_⟩
  have hnul : ∀ row ∈ completeRows (attempts 3 file), 0 ∉ row.name := by
    intro row hrow hzero
    obtain ⟨a, ha, htoken, -⟩ := mem_completeRows.mp hrow
    rw [← htoken] at hzero
    exact h.no_nul ((attempts_token ha).2.2 0 hzero)
  rw [← h.rows]
  exact ranking_of_rows hnul hentries

/-! ## Adding -/

theorem Leaderboard.Best.addEntry {lb : Leaderboard} {scores : List (Text × Int64)}
    (h : lb.Best scores) {c : AddCall} (hname : c.NameClean) :
    ∃ lb', lb.addEntry c.name c.dt_of_entry c.time_entry c.new_entry = .ok lb' ∧
      lb'.Best (scores ++ [c.score]) := by
  obtain ⟨lb', e, hadd, hrow, hcount, htable⟩ := addEntry_table h.presentable.count hname.fits
  have htext : e.text = cString c.name := congrArg Row.name hrow
  have hscore : (e.text, e.time_entry) = c.score := by
    have htime : e.time_entry = c.time_entry := congrArg Row.time_entry hrow
    rw [htext, htime]
    rfl
  -- every entry is the new one or was there before
  have hmem : ∀ e' ∈ lb'.table, e' = e ∨ e' ∈ lb.table := by
    intro e' he'
    rw [htable] at he'
    exact (List.mem_orderedInsert _).mp (List.mem_of_mem_take he')
  refine ⟨lb', hadd, ⟨by omega, fun e' he' => ?_, fun e' he' => ?_, fun e' he' => ?_⟩, ?_⟩
  · rcases hmem e' he' with rfl | hold
    · rw [htext]
      exact hname.ne_nil
    · exact h.presentable.ne_nil e' hold
  · rcases hmem e' he' with rfl | hold
    · rw [htext]
      exact hname.no_space
    · exact h.presentable.no_space e' hold
  · rcases hmem e' he' with rfl | hold
    · rw [htext]
      exact hname.fits.2
    · exact h.presentable.length e' hold
  · have hinsert := map_insertAfter scoreTime (fun e : LeaderboardEntry => (e.text, e.time_entry)) e
      lb.table
    rw [bestThree_concat, ← h.ranking, ← hscore]
    unfold Leaderboard.ranking
    rw [← hinsert, htable, List.map_take]
    rfl

theorem Leaderboard.Best.addAll {lb : Leaderboard} {scores : List (Text × Int64)}
    (h : lb.Best scores) {calls : List AddCall} (hnames : ∀ c ∈ calls, c.NameClean) :
    ∃ lb', lb.addAll calls = .ok lb' ∧ lb'.Best (scores ++ calls.map AddCall.score) := by
  induction calls generalizing lb scores with
  | nil => exact ⟨lb, rfl, by rwa [List.map_nil, List.append_nil]⟩
  | cons c calls ih =>
    obtain ⟨hname, hothers⟩ := List.forall_mem_cons.mp hnames
    obtain ⟨lb₁, hadd, hbest⟩ := h.addEntry hname
    obtain ⟨lb', hrest, hbest'⟩ := ih hbest hothers
    refine ⟨lb', ?_, ?_⟩
    · unfold Leaderboard.addAll at hrest ⊢
      rw [List.foldlM_cons, hadd]
      exact hrest
    · rwa [List.map_cons, List.append_cons]

/-! ## Saving -/

/-- A full table is stored as it is. -/
theorem Leaderboard.Best.save {lb : Leaderboard} {scores : List (Text × Int64)} (h : lb.Best scores)
    (hfull : 3 ≤ scores.length) :
    ∃ file, lb.writeFile true = .ok (0, some file) ∧ Holds file scores := by
  have hthree : lb.entry_count.toNat = 3 := by
    rw [h.count]
    omega
  obtain ⟨hleft, hnil⟩ := (Leaderboard.survives_of_full hthree).attempts
  have hterminated := h.presentable.terminated (Leaderboard.survives_of_full hthree).1
  refine ⟨_, writeFile_eq_ok_iff.mpr ⟨hterminated, rfl⟩, zero_not_mem_entriesText _, ?_, ?_⟩
  · rw [h.presentable.attempts_file]
    intro a ha
    rcases List.mem_append.mp ha with hrow | hrest
    · exact h.presentable.calls a hrow
    · exact hleft a hrest
  · rw [h.presentable.completeRows_file, hnil, List.append_nil, List.map_map, ← h.ranking]
    rfl

/-! ## Sessions -/

namespace Session

theorem play_holds {s : Session} {file : Text} {scores : List (Text × Int64)} (h : Holds file scores)
    (hnames : ∀ c ∈ s.calls, c.NameClean) (hfull : 3 ≤ (scores ++ s.scores).length) :
    ∃ file', s.play file = .ok file' ∧ Holds file' (scores ++ s.scores) := by
  obtain ⟨lb, hread, hbest⟩ := h.load s.memory
  obtain ⟨lb', hadd, hbest'⟩ := hbest.addAll hnames
  obtain ⟨file', hwrite, hholds⟩ := hbest'.save hfull
  refine ⟨file', ?_, hholds⟩
  unfold play
  rw [hread, ok_bind]
  dsimp only
  rw [hadd, ok_bind, hwrite]
  rfl

theorem playAll_holds {sessions : List Session} {file : Text} {scores : List (Text × Int64)}
    (h : Holds file scores) (hfull : 3 ≤ scores.length)
    (hnames : ∀ s ∈ sessions, ∀ c ∈ s.calls, c.NameClean) :
    ∃ file', playAll sessions file = .ok file' ∧
      Holds file' (scores ++ sessions.flatMap Session.scores) := by
  induction sessions generalizing file scores with
  | nil => exact ⟨file, rfl, by rwa [List.flatMap_nil, List.append_nil]⟩
  | cons s sessions ih =>
    obtain ⟨hname, hothers⟩ := List.forall_mem_cons.mp hnames
    have hlong : 3 ≤ (scores ++ s.scores).length := by
      rw [List.length_append]
      omega
    obtain ⟨file₁, hplay, hholds⟩ := play_holds h hname hlong
    obtain ⟨file', hrest, hholds'⟩ := ih hholds hlong hothers
    refine ⟨file', ?_, ?_⟩
    · unfold playAll at hrest ⊢
      rw [List.foldlM_cons, hplay]
      exact hrest
    · rwa [List.flatMap_cons, ← List.append_assoc]

/-- From an empty file on: the first session fills the table. -/
theorem playAll_nil {first : Session} {later : List Session} (hthree : 3 ≤ first.calls.length)
    (hnames : ∀ s ∈ first :: later, ∀ c ∈ s.calls, c.NameClean) :
    ∃ file, playAll (first :: later) [] = .ok file ∧
      Holds file ((first :: later).flatMap Session.scores) := by
  obtain ⟨hname, hothers⟩ := List.forall_mem_cons.mp hnames
  have hlong : 3 ≤ ([] ++ first.scores).length := by
    rw [List.nil_append, scores, List.length_map]
    exact hthree
  obtain ⟨file₁, hplay, hholds⟩ := play_holds holds_nil hname hlong
  obtain ⟨file, hrest, hholds'⟩ := playAll_holds hholds hlong hothers
  refine ⟨file, ?_, hholds'⟩
  unfold playAll at hrest ⊢
  rw [List.foldlM_cons, hplay]
  exact hrest

end Session

/-- **The store forgets nothing that counts.** -/
theorem sessions_keep_best (first : Session) (later : List Session)
    (hthree : 3 ≤ first.calls.length)
    (hnames : ∀ s ∈ first :: later, ∀ c ∈ s.calls, c.NameClean) :
    ∃ file, Session.playAll (first :: later) [] = .ok file ∧
      ∀ memory : Leaderboard, ∃ lb, memory.readFile (some file) = .ok (0, lb) ∧
        lb.entry_count = 3 ∧
        lb.ranking = bestThree ((first :: later).flatMap Session.scores) := by
  obtain ⟨file, hplay, hholds⟩ := Session.playAll_nil hthree hnames
  refine ⟨file, hplay, fun memory => ?_⟩
  obtain ⟨lb, hread, hbest⟩ := hholds.load memory
  have hcount := hbest.count
  have hscores : first.scores.length = first.calls.length := List.length_map _
  rw [List.flatMap_cons, List.length_append, Nat.min_eq_left (by omega)] at hcount
  exact ⟨lb, hread, UInt8.toNat_inj.mp hcount, hbest.ranking⟩

/-- A table of three, and a fourth player whose session loads it into a stale table. -/
def threeGames : Session := ⟨Leaderboard.cleared, [addCallOn 1 65 20, addCallOn 2 66 90, addCallOn 3 67 20]⟩

def fourthGame : Session := ⟨Leaderboard.stale, [addCallOn 4 68 10]⟩

theorem games_clean : ∀ s ∈ [threeGames, fourthGame], ∀ c ∈ s.calls, c.NameClean := by
  have hclean : ∀ day time, ∀ name ∈ ([65, 66, 67, 68] : List UInt8),
      (addCallOn day name time).NameClean := by
    intro day time name hname
    have hfield : ∀ name ∈ ([65, 66, 67, 68] : List UInt8), name ≠ 0 ∧ isSpace name = false := by
      decide +kernel
    exact addCallOn_clean (hfield name hname).1 (hfield name hname).2
  simp [threeGames, fourthGame, hclean]

theorem bestThree_games : bestThree ([threeGames, fourthGame].flatMap Session.scores) =
    [([68], 10), ([65], 20), ([67], 20)] := by
  simp only [threeGames, fourthGame, bestThree, Session.scores, List.flatMap_cons, List.flatMap_nil,
    List.map_cons, List.map_nil, List.append_nil, List.cons_append, List.nil_append,
    stableSort_cons, stableSort_nil, List.orderedInsert_nil]
  decide

theorem sessions_keep_best_games :
    ∃ file, Session.playAll [threeGames, fourthGame] [] = .ok file ∧
      ∀ memory : Leaderboard, ∃ lb, memory.readFile (some file) = .ok (0, lb) ∧
        lb.ranking = [([68], 10), ([65], 20), ([67], 20)] := by
  obtain ⟨file, hplay, hload⟩ :=
    sessions_keep_best threeGames [fourthGame] (le_refl 3) games_clean
  refine ⟨file, hplay, fun memory => ?_⟩
  obtain ⟨lb, hread, -, hranking⟩ := hload memory
  exact ⟨lb, hread, hranking.trans bestThree_games⟩

end Lcom

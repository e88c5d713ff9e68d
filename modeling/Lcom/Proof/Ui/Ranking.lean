import Lcom.Proof.Leaderboard.Sessions
import Lcom.Proof.Ui.Glyphs
import Lcom.Proof.Ui.Times

/-!
# What the leaderboard menu tells

The file is loaded, the table is printed row by row, and every character becomes an element with a
glyph. `createRows_tells` follows the rows; with what a file of many sessions holds
(`Proof/Leaderboard/Sessions.lean`) it says what is to be read on the screen: the best three of
everything that was ever added, with their places, names and times.
-/

namespace Lcom

open Lib

/-- A score the menu can show: a time of less than a day, and a name with glyphs. -/
structure Showable (score : Text × Int64) : Prop where
  nonneg : 0 ≤ score.2.toInt
  day : score.2.toInt < 86400
  glyphs : ∀ b ∈ score.1, b ∈ alphabet

/-- `hh:mm:ss`. -/
def clockText (seconds : Nat) : Text :=
  Menu.printPadded 2 (seconds / 3600) ++ [58] ++ Menu.printPadded 2 (seconds / 60 % 60) ++ [58] ++
    Menu.printPadded 2 (seconds % 60)

/-- `i.name|hh:mm:ss`, counted from one. -/
def scoreLine (i : Nat) (score : Text × Int64) : Text :=
  Menu.lineHead i score.1 ++ clockText score.2.toInt.toNat

/-- `dd/mm/yyyy, hh:mm:ss`. -/
def dateText (dt : RtcDateTime) : Text :=
  Menu.printPadded 2 dt.rtc_day.toNat ++ [47] ++ Menu.printPadded 2 dt.rtc_month.toNat ++ [47] ++
    Menu.printPadded 4 dt.rtc_year.toNat ++ [44, 32] ++ Menu.printPadded 2 dt.rtc_hours.toNat ++
    [58] ++ Menu.printPadded 2 dt.rtc_minutes.toNat ++ [58] ++
    Menu.printPadded 2 dt.rtc_seconds.toNat

/-- The date of some moment, as the converter gives it. -/
def RtcDateTime.OfStamp (dt : RtcDateTime) : Prop :=
  ∃ stamp old, unixToRtcDateTime stamp old = .ok dt

/-- The elements show the date at `(118, y)`. The buffer has room for 20 characters, one less than
    a year of five digits needs. -/
def TellsDate (assets : Assets) (y : Int) (elements : List UiElement) : Prop :=
  ∃ dt : RtcDateTime, dt.OfStamp ∧
    elements.map UiElement.look = textElements assets ((dateText dt).take 20) 118 y

/-- From place `i` on: a line of text for each score, and under it the line with the date. -/
def Tells (assets : Assets) : Nat → List (Text × Int64) → List UiElement → Prop
  | _, [], elements => elements = []
  | i, score :: ranking, elements =>
    ∃ line date rest, elements = line ++ (date ++ rest) ∧
      Spells (scoreLine i score) 30 (240 + i * 170) line ∧
      TellsDate assets (240 + i * 170 + 80) date ∧
      Tells assets (i + 1) ranking rest

/-! ## The characters of a line -/

theorem mem_alphabet_of_isDigit {b : UInt8} (h : isDigit b = true) : b ∈ alphabet := by
  have hall : ∀ n < 256, isDigit (UInt8.ofNat n) = true → UInt8.ofNat n ∈ alphabet := by
    decide +kernel
  have hb := hall b.toNat b.toNat_lt
  rw [UInt8.ofNat_toNat] at hb
  exact hb h

theorem mem_alphabet_printNat (n : Nat) : ∀ b ∈ printNat n, b ∈ alphabet :=
  fun b hb => mem_alphabet_of_isDigit (digits_printNat n b hb)

theorem mem_alphabet_printPadded (width n : Nat) : ∀ b ∈ Menu.printPadded width n, b ∈ alphabet := by
  intro b hb
  unfold Menu.printPadded at hb
  rcases List.mem_append.mp hb with hzero | hdigit
  · rw [List.eq_of_mem_replicate hzero]
    decide +kernel
  · exact mem_alphabet_printNat n b hdigit

theorem mem_alphabet_clockText (seconds : Nat) : ∀ b ∈ clockText seconds, b ∈ alphabet := by
  have hcolon : ∀ b ∈ ([58] : Text), b ∈ alphabet := by decide +kernel
  unfold clockText
  simp only [List.forall_mem_append]
  exact ⟨⟨⟨⟨mem_alphabet_printPadded _ _, hcolon⟩, mem_alphabet_printPadded _ _⟩, hcolon⟩,
    mem_alphabet_printPadded _ _⟩

theorem Showable.line {score : Text × Int64} (h : Showable score) (i : Nat) :
    ∀ b ∈ scoreLine i score, b ∈ alphabet := by
  have hdot : ∀ b ∈ ([46] : Text), b ∈ alphabet := by decide +kernel
  have hbar : ∀ b ∈ ([124] : Text), b ∈ alphabet := by decide +kernel
  unfold scoreLine Menu.lineHead
  simp only [List.forall_mem_append]
  exact ⟨⟨⟨⟨mem_alphabet_printNat _, hdot⟩, h.glyphs⟩, hbar⟩, mem_alphabet_clockText _⟩

/-- Within a day the converter gives the hours, minutes and seconds of a duration. -/
theorem printTime_eq_clockText {t : Int64} {rdt date : RtcDateTime} (h0 : 0 ≤ t.toInt)
    (hday : t.toInt < 86400) (h : unixToRtcDateTime t rdt = .ok date) :
    Menu.printTime date = clockText t.toInt.toNat := by
  obtain ⟨hh, hm, hs, htime⟩ := Menu.unixToRtcDateTime_time h
  have hhours : t.toInt.toNat / 3600 = date.rtc_hours.toNat := by omega
  have hminutes : t.toInt.toNat / 60 % 60 = date.rtc_minutes.toNat := by omega
  have hseconds : t.toInt.toNat % 60 = date.rtc_seconds.toNat := by omega
  unfold clockText
  rw [hhours, hminutes, hseconds]
  rfl

namespace Menu

theorem look_stringElements (assets : Assets) (fresh : Nat → Bool) (k : Nat) (str : Text)
    (x y : Int) :
    (stringElements assets fresh k str x y).map UiElement.look = textElements assets str x y := by
  induction str generalizing k x with
  | nil => rfl
  | cons c str ih =>
    rw [stringElements, List.map_cons, ih, textElements]
    rfl

theorem secondLine_eq_take_dateText (dt : RtcDateTime) : secondLine dt = (dateText dt).take 20 := by
  unfold secondLine dateText printTime
  simp only [List.append_assoc]

/-! ## The rows -/

/-- The row of an entry: its line is spelled, and the date is under it. -/
theorem createRow_tells {entry : LeaderboardEntry} {i : Nat} (hi : i < 3)
    (hname : Terminated entry.name.toList) (hshow : Showable (entry.text, entry.time_entry))
    (hstamp : entry.dt_of_entry.OfStamp) (assets : Assets) (fresh : Nat → Bool) (rdt : RtcDateTime)
    (menu : Menu) :
    ∃ row line date, createRow assets fresh i entry rdt menu = .ok row ∧
      row.2.element = menu.element ++ (line ++ date) ∧
      Spells (scoreLine i (entry.text, entry.time_entry)) 30 (240 + i * 170) line ∧
      TellsDate assets (240 + i * 170 + 80) date := by
  obtain ⟨date, hdate⟩ := unixToRtcDateTime_firstDay hshow.nonneg hshow.day rdt
  have hhas : entry.HasRow := by
    refine ⟨fun hnone => ?_, hname⟩
    rw [unixToRtcDateTime_of_none hnone] at hdate
    cases hdate
  obtain ⟨row, hrow⟩ := createRow_hasRow hhas assets fresh i rdt menu
  obtain ⟨line, hline, hmenu⟩ := createRow_firstLine hrow
  obtain ⟨-, hwhole, -, -⟩ := entryLine_time hi hname hdate
  have hscore : line = scoreLine i (entry.text, entry.time_entry) := by
    rw [hline, Except.ok.injEq, printTime_eq_clockText hshow.nonneg hshow.day hdate] at hwhole
    exact hwhole
  have helement := congrArg Menu.element hmenu
  rw [hscore, element_createUiFromString, element_createUiFromString, List.append_assoc] at helement
  refine ⟨row, _, _, hrow, helement, spells_stringElements (hshow.line i), entry.dt_of_entry, hstamp,
    ?_⟩
  rw [look_stringElements, secondLine_eq_take_dateText]

/-- **The rows tell the entries.** The loop is followed from place `i` on, with `todo` rounds left. -/
theorem createRows_tells (assets : Assets) (fresh : Nat → Bool) (lb : Leaderboard) (todo i : Nat)
    (hi : i + todo ≤ 3)
    (hgood : ∀ entry ∈ (lb.entries.toList.drop i).take todo,
      Terminated entry.name.toList ∧ Showable (entry.text, entry.time_entry) ∧
        entry.dt_of_entry.OfStamp)
    (rdt : RtcDateTime) (menu : Menu) (acc : List Nat) :
    ∃ menu' rows, (createRows assets fresh lb todo i rdt menu acc).result = .ok menu' ∧
      menu'.element = menu.element ++ rows ∧
      Tells assets i (((lb.entries.toList.drop i).take todo).map fun e => (e.text, e.time_entry))
        rows := by
  induction todo generalizing i rdt menu acc with
  | zero => exact ⟨menu, [], rfl, (List.append_nil _).symm, rfl⟩
  | succ todo ih =>
    have hlt : i < 3 := by omega
    have hcons : (lb.entries.toList.drop i).take (todo + 1) =
        lb.entries[i] :: (lb.entries.toList.drop (i + 1)).take todo := by
      rw [List.drop_eq_getElem_cons (by simpa using hlt), List.take_succ_cons, Vector.getElem_toList]
    rw [hcons] at hgood ⊢
    obtain ⟨⟨hname, hshow, hstamp⟩, hothers⟩ := List.forall_mem_cons.mp hgood
    obtain ⟨row, line, date, hrow, helement, hline, hdate⟩ :=
      createRow_tells hlt hname hshow hstamp assets fresh rdt menu
    obtain ⟨menu', rows, hrest, helements, htells⟩ :=
      ih (i + 1) (by omega) hothers row.1 row.2 (acc ++ [i])
    refine ⟨menu', line ++ (date ++ rows), ?_, ?_, line, date, rows, rfl, hline, hdate, htells⟩
    · rw [createRows, load_of_lt hlt, ok_bind, hrow]
      exact hrest
    · rw [helements, helement, List.append_assoc, List.append_assoc]

end Menu

/-- The table is printed as it is. -/
theorem Leaderboard.Best.menu {lb : Leaderboard} {scores : List (Text × Int64)} (h : lb.Best scores)
    (hshow : ∀ score ∈ scores, Showable score)
    (hstamps : ∀ entry ∈ lb.table, entry.dt_of_entry.OfStamp) (assets : Assets) (fresh : Nat → Bool)
    (rdt : RtcDateTime) :
    ∃ menu rows, (Menu.createLeaderboard assets fresh lb rdt).result = .ok menu ∧
      menu.element = (Menu.leaderboardHead assets fresh).element ++ rows ∧
      Tells assets 0 (bestThree scores) rows := by
  have hcount := h.presentable.count
  have hgood : ∀ entry ∈ lb.table, Terminated entry.name.toList ∧
      Showable (entry.text, entry.time_entry) ∧ entry.dt_of_entry.OfStamp := by
    intro entry hmem
    refine ⟨terminated_iff.mpr (h.presentable.length entry hmem), hshow _ ?_, hstamps entry hmem⟩
    have hrow : (entry.text, entry.time_entry) ∈ lb.ranking := List.mem_map_of_mem hmem
    rw [h.ranking] at hrow
    exact (List.mergeSort_perm _ _).mem_iff.mp (List.mem_of_mem_take hrow)
  rw [← h.ranking]
  exact Menu.createRows_tells assets fresh lb lb.entry_count.toNat 0 (by omega) hgood rdt _ []

/-- **The menu tells the best three of all sessions.** -/
theorem leaderboard_menu_tells (first : Session) (later : List Session)
    (hthree : 3 ≤ first.calls.length)
    (hnames : ∀ s ∈ first :: later, ∀ c ∈ s.calls, c.NameClean ∧ Showable c.score) :
    ∃ file, Session.playAll (first :: later) [] = .ok file ∧
      ∀ (g : GamestateManager) (assets : Assets) (memory : InitMemory), ∃ menus rows,
        (g.init assets memory (some file)).result = .ok (menus, g.mainMenu) ∧
        (menus .leaderboard_menu).element =
          (Menu.leaderboardHead assets memory.leaderboard_fresh).element ++ rows ∧
        Tells assets 0 (bestThree ((first :: later).flatMap Session.scores)) rows := by
  obtain ⟨file, hplay, hholds⟩ := Session.playAll_nil hthree fun s hs c hc => (hnames s hs c hc).1
  have hshow : ∀ score ∈ (first :: later).flatMap Session.scores, Showable score := by
    intro score hscore
    obtain ⟨s, hs, hin⟩ := List.mem_flatMap.mp hscore
    obtain ⟨c, hc, rfl⟩ := List.mem_map.mp hin
    exact (hnames s hs c hc).2
  refine ⟨file, hplay, fun g assets memory => ?_⟩
  obtain ⟨lb, hread, hbest⟩ := hholds.load memory.theLeaderboard
  have hstamps : ∀ entry ∈ lb.table, entry.dt_of_entry.OfStamp := by
    intro entry hmem
    obtain ⟨row, -, hfrom⟩ := exists_of_mem_forall₂ (readFile_done hread).2.1 hmem
    exact ⟨row.stamp, hfrom.date⟩
  obtain ⟨menu, rows, hmenu, helement, htells⟩ := hbest.menu hshow hstamps assets
    memory.leaderboard_fresh memory.rdt
  obtain ⟨menus, hinit, hshown⟩ : ∃ menus,
      (g.init assets memory (some file)).result = .ok (menus, g.mainMenu) ∧
        menus .leaderboard_menu = menu := by
    unfold GamestateManager.init
    rw [hread]
    dsimp only
    rw [hmenu]
    exact ⟨_, rfl, rfl⟩
  exact ⟨menus, rows, hinit, by rw [hshown, helement], htells⟩

/-- `1.D|00:00:10`, `2.A|00:00:20` and `3.C|00:00:20`. -/
theorem leaderboard_menu_tells_games :
    ∃ file, Session.playAll [threeGames, fourthGame] [] = .ok file ∧
      ∃ menus rows, (GamestateManager.startup.init noAssets (staleMemory 200) (some file)).result =
          .ok (menus, GamestateManager.startup.mainMenu) ∧
        (menus .leaderboard_menu).element =
          (Menu.leaderboardHead noAssets fun _ => false).element ++ rows ∧
        Tells noAssets 0 [([68], 10), ([65], 20), ([67], 20)] rows := by
  have hshow : ∀ s ∈ [threeGames, fourthGame], ∀ c ∈ s.calls, Showable c.score := by
    have hscores : ∀ s ∈ [threeGames, fourthGame], ∀ c ∈ s.calls,
        0 ≤ c.score.2.toInt ∧ c.score.2.toInt < 86400 ∧ ∀ b ∈ c.score.1, b ∈ alphabet := by
      decide +kernel
    intro s hs c hc
    obtain ⟨h0, hday, hglyphs⟩ := hscores s hs c hc
    exact ⟨h0, hday, hglyphs⟩
  obtain ⟨file, hplay, htells⟩ := leaderboard_menu_tells threeGames [fourthGame] (le_refl 3)
    fun s hs c hc => ⟨games_clean s hs c hc, hshow s hs c hc⟩
  rw [bestThree_games] at htells
  exact ⟨file, hplay, htells GamestateManager.startup noAssets (staleMemory 200)⟩

end Lcom

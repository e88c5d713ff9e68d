import Lcom.Proof.Leaderboard.File
import Lcom.Ui.Menu

/-!
# The rows of the leaderboard menu

`Gamestate_init` hands `Menu_create_leaderboard` a local `Leaderboard` that nothing has initialised.
When the file opens, `Leaderboard_read_file` sets `entry_count` and the rows are the file's. When it
does not, the function returns before it touches the structure, nobody looks at the code it returns,
and the menu is built from whatever the stack held.

What the menu should show is said here from the file alone: `FileRow.elements` is the row of the
menu that a row of the file stands for. A build that faults on the way has no such menu, whether the
C goes on with overwritten memory after it (a name without room for its NUL) or not.
-/

namespace Lcom

open Lib

/-! ## What a menu shows -/

/-- An element without the flag that `Sprite_init` leaves to chance. -/
def UiElement.look (element : UiElement) : UiElement :=
  { element with sprite := { element.sprite with transparent := false } }

def Menu.looks (menu : Menu) : List UiElement := menu.element.map UiElement.look

/-- A string as elements, from a position on. -/
def textElements (assets : Assets) : Text → Int → Int → List UiElement
  | [], _, _ => []
  | c :: str, x, y =>
    Menu.singleFrame ⟨⟨x, y⟩, ⟨60, 80⟩⟩ assets.alphabet_sprites
        ⟨(calculateCharCoord c).x, (calculateCharCoord c).y⟩
        ⟨(calculateCharCoord c).width, (calculateCharCoord c).height⟩ none false ::
      textElements assets str (x + (calculateCharCoord c).width) y

/-- Any date: the converter overwrites all of it but the weekday. -/
def blankDate : RtcDateTime := ⟨0, 0, 0, 0, 0, 0, 0⟩

/-- The two lines that stand for a row of the file, at the `i`-th place. -/
def FileRow.elements (assets : Assets) (i : Nat) (row : FileRow) :
    Except Fault (List UiElement) := do
  let time ← unixToRtcDateTime row.time blankDate
  let date ← unixToRtcDateTime row.stamp blankDate
  pure (textElements assets (Menu.firstLine i (cString row.name) time) 30 (240 + i * 170) ++
    textElements assets (Menu.secondLine date) 118 (240 + i * 170 + 80))

/-- The rows, from the `i`-th place on. -/
def rowsElements (assets : Assets) : Nat → List FileRow → Except Fault (List UiElement)
  | _, [] => pure []
  | i, row :: rows => do
    let first ← row.elements assets i
    let others ← rowsElements assets (i + 1) rows
    pure (first ++ others)

/-- The rows a load reads from the file: none when it cannot be opened. -/
def rowsRead : Option Text → List FileRow
  | none => []
  | some file => completeRows (attempts 3 file)

/-- The leaderboard menu is built, it has rows for the entries of the file and no others, and its
    table was indexed inside its bounds. -/
structure RowsMatch (assets : Assets) (file : Option Text)
    (build : Menu.Build ((MenuPtr → Menu) × GamestateManager)) : Prop where
  inside : ∀ i ∈ build.accessed, i < 3
  rows : ∃ menus g rows, build.result = .ok (menus, g) ∧
    rowsElements assets 0 (rowsRead file) = .ok rows ∧
    (menus .leaderboard_menu).looks = (Menu.leaderboardHead assets fun _ => false).looks ++ rows

/-- The entry has a row: its time is one `gmtime` converts, and its name ends inside its field. -/
structure LeaderboardEntry.HasRow (entry : LeaderboardEntry) : Prop where
  time : gmtime entry.time_entry ≠ none
  name : Terminated entry.name.toList

/-- `gmtime` converts both numbers of the row. -/
def Attempt.Dated (a : Attempt) : Prop :=
  ∀ stamp time, a.numbers = some (stamp, time) → gmtime stamp ≠ none ∧ gmtime time ≠ none

/-! ## One row -/

theorem Menu.looks_createUiFromString (assets : Assets) (fresh : Nat → Bool) (str : Text)
    (x y : Int) (menu : Menu) :
    (createUiFromString assets fresh str x y menu).looks =
      menu.looks ++ textElements assets str x y := by
  induction str generalizing x menu with
  | nil => exact (List.append_nil _).symm
  | cons c str ih =>
    rw [createUiFromString, ih, textElements]
    simp only [looks, append, List.map_append, List.append_assoc]
    rfl

theorem textElements_length (assets : Assets) (str : Text) (x y : Int) :
    (textElements assets str x y).length = str.length := by
  induction str generalizing x with
  | nil => rfl
  | cons c str ih => rw [textElements, List.length_cons, ih, List.length_cons]

theorem Menu.length_createUiFromString (assets : Assets) (fresh : Nat → Bool) (str : Text)
    (x y : Int) (menu : Menu) :
    (createUiFromString assets fresh str x y menu).element.length =
      menu.element.length + str.length := by
  have h := congrArg List.length (looks_createUiFromString assets fresh str x y menu)
  rwa [looks, looks, List.length_append, List.length_map, List.length_map,
    textElements_length] at h

theorem Menu.firstLine_length_pos (i : Nat) (name : Text) (rdt : RtcDateTime) :
    0 < (firstLine i name rdt).length := by
  simp [firstLine, List.length_take]

theorem unixToRtcDateTime_of_none {t : Int64} (h : gmtime t = none) (rdt : RtcDateTime) :
    unixToRtcDateTime t rdt = .error .nullDereference := by
  unfold unixToRtcDateTime
  rw [h]

theorem unixToRtcDateTime_of_some {t : Int64} (h : gmtime t ≠ none) (rdt : RtcDateTime) :
    ∃ date, unixToRtcDateTime t rdt = .ok date := by
  unfold unixToRtcDateTime
  cases hg : gmtime t with
  | none => exact absurd hg h
  | some tm => exact ⟨_, rfl⟩

/-- The lines of a row do not depend on the weekday that was there before. -/
theorem unixToRtcDateTime_lines {t : Int64} {old date : RtcDateTime}
    (h : unixToRtcDateTime t old = .ok date) :
    ∃ date', unixToRtcDateTime t blankDate = .ok date' ∧
      Menu.printTime date = Menu.printTime date' ∧
      Menu.secondLine date = Menu.secondLine date' := by
  unfold unixToRtcDateTime at h ⊢
  cases hg : gmtime t with
  | none =>
    rw [hg] at h
    cases h
  | some tm =>
    rw [hg] at h
    cases h
    exact ⟨_, rfl, rfl, rfl⟩

namespace Menu

theorem createRow_hasRow {entry : LeaderboardEntry} (h : entry.HasRow)
    (assets : Assets) (fresh : Nat → Bool) (i : Nat) (rdt : RtcDateTime) (menu : Menu) :
    ∃ row, createRow assets fresh i entry rdt menu = .ok row := by
  obtain ⟨date, hdate⟩ := unixToRtcDateTime_of_some h.time rdt
  rw [createRow, hdate, ok_bind, loadString, if_pos h.name, ok_bind]
  exact ⟨_, rfl⟩

/-- Every row that is made adds elements to the menu. -/
theorem createRow_grows {assets : Assets} {fresh : Nat → Bool} {i : Nat} {entry : LeaderboardEntry}
    {rdt : RtcDateTime} {menu : Menu} {made : RtcDateTime × Menu}
    (h : createRow assets fresh i entry rdt menu = .ok made) :
    menu.element.length < made.2.element.length := by
  obtain ⟨date, -, h⟩ := bind_eq_ok.mp h
  obtain ⟨name, -, h⟩ := bind_eq_ok.mp h
  cases h
  have hpos := firstLine_length_pos i name date
  dsimp only
  rw [length_createUiFromString, length_createUiFromString]
  omega

/-- The row of an entry that was read from the file is the row of the file. -/
theorem createRow_readFrom {entry : LeaderboardEntry} {row : FileRow} (hread : entry.ReadFrom row)
    {assets : Assets} {fresh : Nat → Bool} {i : Nat} {rdt : RtcDateTime} {menu : Menu}
    {made : RtcDateTime × Menu} (h : createRow assets fresh i entry rdt menu = .ok made) :
    ∃ elements, row.elements assets i = .ok elements ∧
      made.2.looks = menu.looks ++ elements := by
  obtain ⟨rest, hname⟩ := hread.name
  obtain ⟨old, hold⟩ := hread.date
  obtain ⟨time, htime, h⟩ := bind_eq_ok.mp h
  obtain ⟨name, hload, h⟩ := bind_eq_ok.mp h
  obtain ⟨time', htime', hlines, -⟩ := unixToRtcDateTime_lines htime
  obtain ⟨date', hdate', -, hsecond⟩ := unixToRtcDateTime_lines hold
  have hname' : name = cString row.name := by
    rw [loadString] at hload
    split at hload
    · cases hload
      rw [hname]
      exact cString_append_nul row.name rest
    · cases hload
  cases h
  subst hname'
  rw [hread.time] at htime'
  refine ⟨_, by rw [FileRow.elements, htime', ok_bind, hdate', ok_bind]; rfl, ?_⟩
  dsimp only
  rw [looks_createUiFromString, looks_createUiFromString, hsecond, List.append_assoc, firstLine,
    firstLine, hlines]

/-! ## The rows

The loop is followed from any place `i` on, with `todo` rounds left. -/

variable (assets : Assets) (fresh : Nat → Bool) (lb : Leaderboard)

/-- A round puts its index on the record. -/
theorem indices_push {acc indices : List Nat} {i bound : Nat} (hi : i < bound)
    (h : ∀ j ∈ indices, j ∈ acc ++ [i] ∨ j < bound) : ∀ j ∈ indices, j ∈ acc ∨ j < bound := by
  intro j hj
  rcases h j hj with hacc | hlt
  · rcases List.mem_append.mp hacc with hold | hnew
    · exact .inl hold
    · rw [List.mem_singleton] at hnew
      exact .inr (by rwa [hnew])
  · exact .inr hlt

/-- No round reads at an index past the last one. -/
theorem createRows_accessed (todo i : Nat) (rdt : RtcDateTime) (menu : Menu) (acc : List Nat) :
    ∀ j ∈ (createRows assets fresh lb todo i rdt menu acc).accessed, j ∈ acc ∨ j < i + todo := by
  induction todo generalizing i rdt menu acc with
  | zero => exact fun j hj => .inl hj
  | succ todo ih =>
    apply indices_push (show i < i + (todo + 1) by omega)
    rw [createRows]
    split
    · exact fun j hj => .inl hj
    · next row _ =>
      have h := ih (i + 1) row.1 row.2 (acc ++ [i])
      rwa [Nat.add_right_comm, Nat.add_assoc] at h

/-- Entries with rows get them. -/
theorem createRows_hasRow (todo i : Nat) (hfit : i + todo ≤ 3)
    (hgood : ∀ j (hj : j < 3), i ≤ j → j < i + todo → lb.entries[j].HasRow)
    (rdt : RtcDateTime) (menu : Menu) (acc : List Nat) :
    ∃ menu', (createRows assets fresh lb todo i rdt menu acc).result = .ok menu' := by
  induction todo generalizing i rdt menu acc with
  | zero => exact ⟨menu, rfl⟩
  | succ todo ih =>
    have hlt : i < 3 := by omega
    obtain ⟨row, hrow⟩ := createRow_hasRow (hgood i hlt (le_refl _) (by omega))
      assets fresh i rdt menu
    rw [createRows, load_of_lt hlt, ok_bind, hrow]
    exact ih (i + 1) (by omega) (fun j hj hle hlt => hgood j hj (by omega) (by omega))
      row.1 row.2 (acc ++ [i])

/-- A loop that ends has made a row in every round. -/
theorem createRows_grows (todo i : Nat) (rdt : RtcDateTime) (menu menu' : Menu) (acc : List Nat)
    (h : (createRows assets fresh lb todo i rdt menu acc).result = .ok menu') :
    menu.element.length + todo ≤ menu'.element.length := by
  induction todo generalizing i rdt menu acc with
  | zero =>
    cases h
    exact le_refl _
  | succ todo ih =>
    rw [createRows] at h
    split at h
    · cases h
    · next row hrow =>
      obtain ⟨entry, -, hmade⟩ := bind_eq_ok.mp hrow
      have hfirst := createRow_grows hmade
      have hothers := ih _ _ _ _ h
      omega

/-- Entries that were read from the file make the rows of the file. -/
theorem createRows_readFrom (todo i : Nat) (rows : List FileRow)
    (hread : List.Forall₂ LeaderboardEntry.ReadFrom
      ((lb.entries.toList.drop i).take todo) rows)
    (rdt : RtcDateTime) (menu menu' : Menu) (acc : List Nat)
    (h : (createRows assets fresh lb todo i rdt menu acc).result = .ok menu') :
    ∃ elements, rowsElements assets i rows = .ok elements ∧
      menu'.looks = menu.looks ++ elements := by
  induction todo generalizing i rows rdt menu acc with
  | zero =>
    rw [List.take_zero] at hread
    cases hread
    cases h
    exact ⟨[], rfl, (List.append_nil _).symm⟩
  | succ todo ih =>
    rw [createRows] at h
    split at h
    · cases h
    · next made hmade =>
      obtain ⟨entry, hload, hmade⟩ := bind_eq_ok.mp hmade
      have hi : i < 3 := by
        by_contra hge
        rw [load, dif_neg hge] at hload
        cases hload
      rw [load_of_lt hi] at hload
      have hentry : lb.entries[i] = entry := Except.ok.inj hload
      rw [List.drop_eq_getElem_cons (by simpa using hi), List.take_succ_cons,
        Vector.getElem_toList, hentry] at hread
      cases hread with
      | @cons _ row _ rows hfirst hothers =>
        obtain ⟨first, hfirst, hlooks⟩ := createRow_readFrom hfirst hmade
        obtain ⟨others, hothers, hlooks'⟩ := ih (i + 1) rows hothers _ _ _ h
        refine ⟨first ++ others, ?_, ?_⟩
        · rw [rowsElements, hfirst, ok_bind, hothers, ok_bind]
          rfl
        · rw [hlooks', hlooks, List.append_assoc]

end Menu

/-- Rows that are made have dates. -/
theorem rowsElements_dated {assets : Assets} {i : Nat} {rows : List FileRow}
    {elements : List UiElement} (h : rowsElements assets i rows = .ok elements) :
    ∀ row ∈ rows, gmtime row.stamp ≠ none ∧ gmtime row.time ≠ none := by
  induction rows generalizing i elements with
  | nil => exact fun row hrow => absurd hrow List.not_mem_nil
  | cons row rows ih =>
    obtain ⟨first, hfirst, h⟩ := bind_eq_ok.mp h
    obtain ⟨others, hothers, -⟩ := bind_eq_ok.mp h
    obtain ⟨time, htime, hfirst⟩ := bind_eq_ok.mp hfirst
    obtain ⟨date, hdate, -⟩ := bind_eq_ok.mp hfirst
    refine List.forall_mem_cons.mpr ⟨⟨fun hnone => ?_, fun hnone => ?_⟩, ih hothers⟩
    · rw [unixToRtcDateTime_of_none hnone] at hdate
      cases hdate
    · rw [unixToRtcDateTime_of_none hnone] at htime
      cases htime

/-- The calls with dates are those whose rows have them. -/
theorem forall_dated_iff {as : List Attempt} :
    (∀ a ∈ as, a.Dated) ↔
      ∀ row ∈ completeRows as, gmtime row.stamp ≠ none ∧ gmtime row.time ≠ none := by
  constructor
  · intro h row hrow
    obtain ⟨a, ha, -, hnumbers⟩ := mem_completeRows.mp hrow
    exact h a ha _ _ hnumbers
  · intro h a ha stamp time hnumbers
    exact h ⟨a.token, stamp, time⟩ (mem_completeRows.mpr ⟨a, ha, rfl, hnumbers⟩)

theorem Attempt.Dated.not_crashes {a : Attempt} (h : a.Dated) : ¬ a.Crashes := by
  rintro ⟨stamp, time, hnumbers, hnone⟩
  exact (h stamp time hnumbers).1 hnone

/-- An entry read from a row with a date has a row of the menu. -/
theorem LeaderboardEntry.ReadFrom.hasRow {entry : LeaderboardEntry} {row : FileRow}
    (h : entry.ReadFrom row) (htime : gmtime row.time ≠ none) : entry.HasRow := by
  obtain ⟨rest, hname⟩ := h.name
  refine ⟨by rwa [h.time], ?_⟩
  rw [Terminated, hname]
  exact List.mem_append_right _ List.mem_cons_self

/-! ## The menu of `Gamestate_init` -/

section

variable (g : GamestateManager) (assets : Assets) (memory : InitMemory)

theorem mem_table {lb : Leaderboard} {entry : LeaderboardEntry} :
    entry ∈ lb.table ↔
      ∃ k, ∃ hk : k < 3, k < lb.entry_count.toNat ∧ lb.entries[k] = entry := by
  rw [Leaderboard.table, List.mem_take_iff_getElem]
  constructor
  · intro h
    rcases h with ⟨k, hk, heq⟩
    rw [Vector.length_toList] at hk
    exact ⟨k, by omega, by omega, by simpa using heq⟩
  · intro h
    rcases h with ⟨k, hk, hlt, heq⟩
    exact ⟨k, by rw [Vector.length_toList]; omega, by simpa using heq⟩

/-- The head of the menu looks the same whatever the fresh blocks held. -/
theorem looks_leaderboardHead (fresh : Nat → Bool) :
    (Menu.leaderboardHead assets fresh).looks =
      (Menu.leaderboardHead assets fun _ => false).looks := rfl

/-- A file whose names fit and whose rows have dates: the count is set, and each row of the menu is
    one of the file. -/
theorem init_opened_rowsMatch {file : Text} (hfits : ∀ a ∈ attempts 3 file, a.Fits)
    (hdated : ∀ a ∈ attempts 3 file, a.Dated) :
    RowsMatch assets (some file) (g.init assets memory (some file)) := by
  obtain ⟨lb, hread⟩ := readFile_returns memory.theLeaderboard
    fun a ha => ⟨hfits a ha, (hdated a ha).not_crashes⟩
  obtain ⟨-, hrows, hcount⟩ := readFile_done hread
  have hlen : lb.entry_count.toNat ≤ 3 := by
    rw [hcount, hrows.length_eq]
    exact length_completeRows_attempts 3 file
  have hgood : ∀ entry ∈ lb.table, entry.HasRow := by
    intro entry hmem
    obtain ⟨row, hrow, hfrom⟩ := exists_of_mem_forall₂ hrows hmem
    exact hfrom.hasRow (forall_dated_iff.mp hdated row hrow).2
  obtain ⟨menu, hmenu⟩ := Menu.createRows_hasRow assets memory.leaderboard_fresh lb
    lb.entry_count.toNat 0 (by omega)
    (fun j hj _ hlt => hgood _ (mem_table.mpr ⟨j, hj, by omega, rfl⟩)) memory.rdt
    (Menu.leaderboardHead assets memory.leaderboard_fresh) []
  obtain ⟨rows, helements, hlooks⟩ := Menu.createRows_readFrom assets memory.leaderboard_fresh lb
    _ 0 _ hrows _ _ _ _ hmenu
  rw [GamestateManager.init, hread]
  refine ⟨fun i hi => ?_, _, g.mainMenu, rows, congrArg (Except.map _) hmenu, helements, ?_⟩
  · rcases Menu.createRows_accessed assets _ _ _ _ _ _ _ i hi with hnil | hlt
    · exact absurd hnil List.not_mem_nil
    · change i < 0 + lb.entry_count.toNat at hlt
      omega
  · rw [← looks_leaderboardHead assets memory.leaderboard_fresh]
    exact hlooks

/-- Any other file: the name that is stored overflows its field, or `gmtime` gives NULL. -/
theorem RowsMatch.opened {file : Text}
    (h : RowsMatch assets (some file) (g.init assets memory (some file))) :
    ∀ a ∈ attempts 3 file, a.Fits ∧ a.Dated := by
  obtain ⟨menus, g', rows, hinit, helements, -⟩ := h.rows
  have hdated := forall_dated_iff.mpr (rowsElements_dated helements)
  rw [GamestateManager.init] at hinit
  cases hread : memory.theLeaderboard.readFile (some file) with
  | error f =>
    rw [hread] at hinit
    cases hinit
  | ok read => exact fun a ha => ⟨((readFile_done hread).1 a ha).1, hdated a ha⟩

/-- A count of zero on the stack: no rows. -/
theorem init_closed_zero (hzero : memory.theLeaderboard.entry_count = 0) :
    RowsMatch assets none (g.init assets memory none) := by
  have hnone : Menu.createLeaderboard assets memory.leaderboard_fresh memory.theLeaderboard
      memory.rdt = ⟨[], .ok (Menu.leaderboardHead assets memory.leaderboard_fresh)⟩ := by
    rw [Menu.createLeaderboard, hzero]
    rfl
  refine ⟨fun i hi => ?_, _, g.mainMenu, [],
    congrArg (Except.map _) (congrArg Menu.Build.result hnone), rfl, ?_⟩
  · change i ∈ (Menu.createLeaderboard _ _ _ _).accessed at hi
    rw [hnone] at hi
    exact absurd hi List.not_mem_nil
  · exact (looks_leaderboardHead assets memory.leaderboard_fresh).trans (List.append_nil _).symm

/-- Any other count makes rows of what the stack held, if it does not fault. -/
theorem RowsMatch.closed (h : RowsMatch assets none (g.init assets memory none)) :
    memory.theLeaderboard.entry_count = 0 := by
  obtain ⟨menus, g', rows, hinit, hrows, hlooks⟩ := h.rows
  obtain ⟨menu, hmenu, heq⟩ := ok_of_map hinit
  cases heq
  cases hrows
  have hgrows := Menu.createRows_grows assets memory.leaderboard_fresh memory.theLeaderboard _ _ _ _
    _ _ hmenu
  have hlength := congrArg List.length hlooks
  rw [List.append_nil, Menu.looks, Menu.looks, List.length_map, List.length_map] at hlength
  change menu.element.length = 2 at hlength
  change 2 + memory.theLeaderboard.entry_count.toNat ≤ _ at hgrows
  exact UInt8.toNat_inj.mp (show memory.theLeaderboard.entry_count.toNat = 0 by omega)

/-- **The menu has the rows of the file exactly when every name fits and every row has its dates,
    or the file does not open and the count on the stack happens to be zero.** -/
theorem leaderboard_rows_iff (file : Option Text) :
    RowsMatch assets file (g.init assets memory file) ↔
      (∃ text, file = some text ∧ ∀ a ∈ attempts 3 text, a.Fits ∧ a.Dated) ∨
        file = none ∧ memory.theLeaderboard.entry_count = 0 := by
  cases file with
  | none =>
    constructor
    · exact fun h => .inr ⟨rfl, h.closed⟩
    · rintro (⟨text, hsome, -⟩ | ⟨-, hzero⟩)
      · cases hsome
      · exact init_closed_zero g assets memory hzero
  | some file =>
    constructor
    · exact fun h => .inl ⟨file, rfl, h.opened⟩
    · rintro (⟨text, hsome, hall⟩ | ⟨hnone, -⟩)
      · cases hsome
        exact init_opened_rowsMatch g assets memory (fun a ha => (hall a ha).1)
          fun a ha => (hall a ha).2
      · cases hnone

end

/-- A stack with zeros where the entries are, and another number behind them. -/
def staleMemory (entry_count : UInt8) : InitMemory where
  main_fresh := fun _ => false
  leaderboard_fresh := fun _ => false
  theLeaderboard := ⟨.replicate 3 clearedEntry, entry_count⟩
  rdt := blankDate

/-- No file, and a count of four on the stack: the fourth entry is read from behind the table. -/
theorem leaderboard_rows_garbage :
    ¬ RowsMatch noAssets none
      (GamestateManager.startup.init noAssets (staleMemory 4) none) := by
  intro h
  have hfour : 3 ∈ (GamestateManager.startup.init noAssets (staleMemory 4) none).accessed := by
    decide +kernel
  exact absurd (h.inside 3 hfour) (lt_irrefl 3)

end Lcom

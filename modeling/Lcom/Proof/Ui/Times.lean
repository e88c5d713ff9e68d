import Lcom.Proof.Leaderboard.Dates
import Lcom.Proof.Ui.Rows

/-!
# The times in the leaderboard menu

`time_entry` is how long a game took. The menu shows it with the converter for dates, as the time of
day so many seconds after midnight of 1 January 1970: whole days disappear, and a game of a day and
a second is shown as one of a second.
-/

namespace Lcom

open Lib

/-! ## Reading a line -/

/-- The number two digits write. -/
def twoDigits (d₁ d₀ : UInt8) : Option Nat :=
  if isDigit d₁ && isDigit d₀ then some (digitsValue [d₁, d₀]) else none

/-- `hh:mm:ss`, read back in seconds. -/
def readTime : Text → Option Nat
  | [h₁, h₀, c, m₁, m₀, c', s₁, s₀] => do
    let hh ← twoDigits h₁ h₀
    let mm ← twoDigits m₁ m₀
    let ss ← twoDigits s₁ s₀
    if c = 58 ∧ c' = 58 then pure (hh * 3600 + mm * 60 + ss) else none
  | _ => none

namespace Menu

/-- What stands in front of the time in the first line of row `i`. -/
def lineHead (i : Nat) (name : Text) : Text := printNat (i + 1) ++ [46] ++ name ++ [124]

/-- The first line of an entry: the part of `createRow` that makes it. -/
def entryLine (i : Nat) (entry : LeaderboardEntry) (rdt : RtcDateTime) : Except Fault Text := do
  let rdt ← unixToRtcDateTime entry.time_entry rdt
  let name ← loadString entry.name.toList
  pure (firstLine i name rdt)

/-- The time in a first line. -/
def shownTime (i : Nat) (entry : LeaderboardEntry) (line : Text) : Option Nat :=
  readTime (line.drop (lineHead i (cString entry.name.toList)).length)

/-- The first line of the entry is whole, and shows its time. -/
def ShowsTime (i : Nat) (entry : LeaderboardEntry) (rdt : RtcDateTime) : Prop :=
  ∃ date line, unixToRtcDateTime entry.time_entry rdt = .ok date ∧
    entryLine i entry rdt = .ok line ∧
    line = lineHead i (cString entry.name.toList) ++ printTime date ∧
    (shownTime i entry line).map Int.ofNat = some entry.time_entry.toInt

/-- Every entry of the table shows its time, and the times shown are in the order of the times. -/
structure TimesShown (lb : Leaderboard) (rdt : RtcDateTime) : Prop where
  each : ∀ i entry, lb.table[i]? = some entry → ShowsTime i entry rdt
  order : ∀ i j entry entry', lb.table[i]? = some entry → lb.table[j]? = some entry' →
    ∀ line line' s s', entryLine i entry rdt = .ok line → entryLine j entry' rdt = .ok line' →
      shownTime i entry line = some s → shownTime j entry' line' = some s' →
      (s ≤ s' ↔ entry.time_entry ≤ entry'.time_entry)

/-- The times are durations, and the names are strings in their arrays. -/
def Printable (lb : Leaderboard) : Prop :=
  ∀ entry ∈ lb.table, 0 ≤ entry.time_entry.toInt ∧ Terminated entry.name.toList

/-- The row of an entry shows this line first. -/
theorem createRow_firstLine {assets : Assets} {fresh : Nat → Bool} {i : Nat}
    {entry : LeaderboardEntry} {rdt : RtcDateTime} {menu : Menu} {row : RtcDateTime × Menu}
    (h : createRow assets fresh i entry rdt menu = .ok row) :
    ∃ line, entryLine i entry rdt = .ok line ∧
      row.2 = createUiFromString assets fresh (secondLine entry.dt_of_entry) 118
        (240 + i * 170 + 80) (createUiFromString assets fresh line 30 (240 + i * 170) menu) := by
  obtain ⟨date, hdate, h⟩ := bind_eq_ok.mp h
  obtain ⟨name, hname, h⟩ := bind_eq_ok.mp h
  refine ⟨firstLine i name date, ?_, ?_⟩
  · unfold entryLine
    rw [hdate, ok_bind, hname]
    rfl
  · rw [← Except.ok.inj h]

/-! ## The time of day -/

theorem printPadded_two {n : Nat} (h : n < 100) :
    printPadded 2 n = [48 + UInt8.ofNat (n / 10), 48 + UInt8.ofNat (n % 10)] := by
  have hall : ∀ n < 100, printPadded 2 n = [48 + UInt8.ofNat (n / 10), 48 + UInt8.ofNat (n % 10)] := by
    decide +kernel
  exact hall n h

theorem twoDigits_print {n : Nat} (h : n < 100) :
    twoDigits (48 + UInt8.ofNat (n / 10)) (48 + UInt8.ofNat (n % 10)) = some n := by
  have hall : ∀ n < 100,
      twoDigits (48 + UInt8.ofNat (n / 10)) (48 + UInt8.ofNat (n % 10)) = some n := by
    decide +kernel
  exact hall n h

/-- A printed time is read back. -/
theorem readTime_printTime {date : RtcDateTime} (hh : date.rtc_hours.toNat < 100)
    (hm : date.rtc_minutes.toNat < 100) (hs : date.rtc_seconds.toNat < 100) :
    readTime (printTime date) = some
      (date.rtc_hours.toNat * 3600 + date.rtc_minutes.toNat * 60 + date.rtc_seconds.toNat) := by
  unfold printTime
  rw [printPadded_two hh, printPadded_two hm, printPadded_two hs]
  simp only [List.cons_append, List.nil_append]
  unfold readTime
  dsimp only
  rw [twoDigits_print hh, twoDigits_print hm, twoDigits_print hs]
  rfl

/-- The converter keeps the time of day. -/
theorem unixToRtcDateTime_time {t : Int64} {rdt date : RtcDateTime}
    (h : unixToRtcDateTime t rdt = .ok date) :
    date.rtc_hours.toNat < 24 ∧ date.rtc_minutes.toNat < 60 ∧ date.rtc_seconds.toNat < 60 ∧
      ((date.rtc_hours.toNat * 3600 + date.rtc_minutes.toNat * 60 + date.rtc_seconds.toNat : Nat) :
        Int) = t.toInt % 86400 := by
  unfold unixToRtcDateTime at h
  split at h
  · cases h
  · rename_i tm htm
    unfold gmtime at htm
    dsimp only at htm
    split at htm
    · cases htm
      cases h
      dsimp only
      have hhours := toNat_ofInt_uint8 (n := t.toInt % 86400 / 3600) (by omega) (by omega)
      have hminutes := toNat_ofInt_uint8 (n := t.toInt % 86400 / 60 % 60) (by omega) (by omega)
      have hseconds := toNat_ofInt_uint8 (n := t.toInt % 86400 % 60) (by omega) (by omega)
      refine ⟨by omega, by omega, by omega, ?_⟩
      push_cast
      rw [hhours, hminutes, hseconds]
      omega
    · cases htm

/-- No time of the first day is out of the converter's range. -/
theorem unixToRtcDateTime_firstDay {t : Int64} (h0 : 0 ≤ t.toInt) (h : t.toInt < 86400)
    (rdt : RtcDateTime) : ∃ date, unixToRtcDateTime t rdt = .ok date := by
  refine unixToRtcDateTime_of_some ?_ rdt
  have hday : t.toInt / 86400 = 0 := by omega
  have hyear : -2 ^ 31 ≤ (civilFromDays 0).year - 1900 ∧ (civilFromDays 0).year - 1900 < 2 ^ 31 := by
    decide +kernel
  unfold gmtime
  dsimp only
  rw [hday, if_pos hyear]
  exact Option.some_ne_none _

/-- A short name and one digit leave room for the time: the line is whole. -/
theorem firstLine_whole {i : Nat} (hi : i < 9) {name : Text} (hname : name.length ≤ 3)
    {date : RtcDateTime} (hh : date.rtc_hours.toNat < 100) (hm : date.rtc_minutes.toNat < 100)
    (hs : date.rtc_seconds.toNat < 100) :
    firstLine i name date = lineHead i name ++ printTime date := by
  have hdigit : (printNat (i + 1)).length = 1 := by
    have hall : ∀ i < 9, (printNat (i + 1)).length = 1 := by decide +kernel
    exact hall i hi
  have htime : (printTime date).length = 8 := by
    unfold printTime
    rw [printPadded_two hh, printPadded_two hm, printPadded_two hs]
    rfl
  unfold firstLine lineHead
  refine List.take_of_length_le ?_
  simp only [List.length_append, List.length_cons, List.length_nil, hdigit, htime]
  omega

/-! ## One entry -/

theorem entryLine_eq {i : Nat} {entry : LeaderboardEntry} (hname : Terminated entry.name.toList)
    {rdt date : RtcDateTime} (hdate : unixToRtcDateTime entry.time_entry rdt = .ok date) :
    entryLine i entry rdt = .ok (firstLine i (cString entry.name.toList) date) := by
  unfold entryLine loadString
  rw [hdate, ok_bind, if_pos hname]
  rfl

/-- The line of an entry of the table shows the time of day. -/
theorem entryLine_time {i : Nat} (hi : i < 3) {entry : LeaderboardEntry}
    (hname : Terminated entry.name.toList) {rdt date : RtcDateTime}
    (hdate : unixToRtcDateTime entry.time_entry rdt = .ok date) :
    ∃ s : Nat, entryLine i entry rdt =
        .ok (lineHead i (cString entry.name.toList) ++ printTime date) ∧
      shownTime i entry (lineHead i (cString entry.name.toList) ++ printTime date) = some s ∧
      (s : Int) = entry.time_entry.toInt % 86400 := by
  obtain ⟨hh, hm, hs, htime⟩ := unixToRtcDateTime_time hdate
  have hshort : (cString entry.name.toList).length ≤ 3 := by
    have hlt := terminated_iff_length_lt.mp hname
    rw [Vector.length_toList] at hlt
    omega
  refine ⟨_, ?_, ?_, htime⟩
  · rw [entryLine_eq hname hdate,
      firstLine_whole (by omega) hshort (by omega) (by omega) (by omega)]
  · unfold shownTime
    rw [List.drop_left, readTime_printTime (by omega) (by omega) (by omega)]

/-- **An entry's line shows its time exactly when the time is less than a day.** -/
theorem showsTime_iff {i : Nat} (hi : i < 3) {entry : LeaderboardEntry}
    (hname : Terminated entry.name.toList) (h0 : 0 ≤ entry.time_entry.toInt) (rdt : RtcDateTime) :
    ShowsTime i entry rdt ↔ entry.time_entry.toInt < 86400 := by
  constructor
  · intro h
    obtain ⟨date, line, hdate, hline, rfl, hshown⟩ := h
    obtain ⟨s, -, hs, htime⟩ := entryLine_time hi hname hdate
    rw [hs, Option.map_some, Option.some.injEq] at hshown
    change (s : Int) = _ at hshown
    omega
  · intro hday
    obtain ⟨date, hdate⟩ := unixToRtcDateTime_firstDay h0 hday rdt
    obtain ⟨s, hline, hs, htime⟩ := entryLine_time hi hname hdate
    refine ⟨date, _, hdate, hline, rfl, ?_⟩
    rw [hs, Option.map_some, Option.some.injEq]
    change (s : Int) = _
    omega

theorem lt_of_table {lb : Leaderboard} {i : Nat} {entry : LeaderboardEntry}
    (h : lb.table[i]? = some entry) : i < 3 := by
  obtain ⟨hlt, -⟩ := List.getElem?_eq_some_iff.mp h
  rw [Leaderboard.table, List.length_take, Vector.length_toList] at hlt
  omega

/-- Within the first day, the seconds shown are the time. -/
theorem shownTime_eq {i : Nat} (hi : i < 3) {entry : LeaderboardEntry} {rdt : RtcDateTime}
    (hname : Terminated entry.name.toList) (h0 : 0 ≤ entry.time_entry.toInt)
    (hday : entry.time_entry.toInt < 86400) {line : Text} {s : Nat}
    (hline : entryLine i entry rdt = .ok line) (hs : shownTime i entry line = some s) :
    (s : Int) = entry.time_entry.toInt := by
  obtain ⟨date, hdate⟩ := unixToRtcDateTime_firstDay h0 hday rdt
  obtain ⟨s', hline', hs', htime⟩ := entryLine_time hi hname hdate
  rw [hline', Except.ok.injEq] at hline
  rw [← hline, hs', Option.some.injEq] at hs
  omega

/-- **The menu shows the times of the table exactly when all of them are less than a day.** -/
theorem timesShown_iff {lb : Leaderboard} (hlb : Printable lb) (rdt : RtcDateTime) :
    TimesShown lb rdt ↔ ∀ entry ∈ lb.table, entry.time_entry.toInt < 86400 := by
  constructor
  · intro h entry hmem
    obtain ⟨i, hi⟩ := List.mem_iff_getElem?.mp hmem
    obtain ⟨h0, hname⟩ := hlb entry hmem
    exact (showsTime_iff (lt_of_table hi) hname h0 rdt).mp (h.each i entry hi)
  · intro h
    refine ⟨fun i entry hi => ?_, fun i j entry entry' hi hj line line' s s' hline hline' hs hs' => ?_⟩
    · have hmem := List.mem_of_getElem? hi
      obtain ⟨h0, hname⟩ := hlb entry hmem
      exact (showsTime_iff (lt_of_table hi) hname h0 rdt).mpr (h entry hmem)
    · have hmem := List.mem_of_getElem? hi
      have hmem' := List.mem_of_getElem? hj
      obtain ⟨h0, hname⟩ := hlb entry hmem
      obtain ⟨h0', hname'⟩ := hlb entry' hmem'
      have htime := shownTime_eq (lt_of_table hi) hname h0 (h entry hmem) hline hs
      have htime' := shownTime_eq (lt_of_table hj) hname' h0' (h entry' hmem') hline' hs'
      rw [Int64.le_iff_toInt_le]
      omega

end Menu

/-- A table of one entry, "AB" with a time. -/
def oneTime (time : Int64) : Leaderboard where
  entries := #v[⟨#v[65, 66, 0, 0], blankDate, time⟩, clearedEntry, clearedEntry]
  entry_count := 1

theorem table_oneTime (time : Int64) :
    (oneTime time).table = [⟨#v[65, 66, 0, 0], blankDate, time⟩] := rfl

theorem printable_oneTime {time : Int64} (h : 0 ≤ time.toInt) : Menu.Printable (oneTime time) := by
  intro entry hmem
  rw [table_oneTime, List.mem_singleton] at hmem
  subst hmem
  have hname : Terminated [65, 66, 0, 0] := by decide
  exact ⟨h, hname⟩

/-- A game of an hour, a minute and a second. -/
theorem timesShown_hour : Menu.TimesShown (oneTime 3661) blankDate := by
  refine (Menu.timesShown_iff (printable_oneTime (by decide)) blankDate).mpr ?_
  intro entry hmem
  rw [table_oneTime, List.mem_singleton] at hmem
  subst hmem
  decide

/-- A game of a day and a second is shown as `00:00:01`. -/
theorem timesShown_day : ¬ ∀ lb rdt, Menu.Printable lb → Menu.TimesShown lb rdt := by
  intro h
  have hshown := (h (oneTime 86401) blankDate (printable_oneTime (by decide))).each 0 _ rfl
  obtain ⟨date, line, -, hline, -, htime⟩ := hshown
  have hprinted : Menu.entryLine 0 ⟨#v[65, 66, 0, 0], blankDate, 86401⟩ blankDate =
      .ok [49, 46, 65, 66, 124, 48, 48, 58, 48, 48, 58, 48, 49] := by decide +kernel
  have hsame := hline.symm.trans hprinted
  rw [Except.ok.inj hsame] at htime
  exact absurd htime (by decide +kernel)

end Lcom

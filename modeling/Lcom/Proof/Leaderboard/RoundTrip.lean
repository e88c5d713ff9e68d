import Lcom.Proof.Leaderboard.Dates
import Lcom.Proof.Leaderboard.File

/-!
# Saving and loading

The writer prints three rows whatever `entry_count` is, and the reader counts the rows it can
read. A row that stands for an entry in use is always read back (`attempts_row`), so a full table
survives; a partly filled one survives only if the first row *behind* the table happens to be one
the reader stops at. `stopsReader_iff` says which leftover bytes do that, and `roundTrips_iff`
that nothing else is needed.
-/

namespace Lcom

open Lib

/-! ## The text of a table -/

/-- One line of the file. -/
def rowText (row : FileRow) : Text :=
  row.name ++ [32] ++ printInt row.stamp.toInt ++ [32] ++ printInt row.time.toInt ++ [10]

/-- The row an entry is printed as. -/
def LeaderboardEntry.fileRow (e : LeaderboardEntry) : FileRow :=
  ⟨cString e.name.toList, rtcDateTimeToUnix e.dt_of_entry, e.time_entry⟩

def entriesText (es : List LeaderboardEntry) : Text := es.flatMap fun e => rowText e.fileRow

theorem printEntry_of_terminated {e : LeaderboardEntry} (h : Terminated e.name.toList) :
    Leaderboard.printEntry e = .ok (rowText e.fileRow) := by
  rw [Leaderboard.printEntry, loadString, if_pos h]
  rfl

theorem printEntry_of_not_terminated {e : LeaderboardEntry} (h : ¬ Terminated e.name.toList) :
    Leaderboard.printEntry e = .error .outOfBounds := by
  rw [Leaderboard.printEntry, loadString, if_neg h]
  rfl

theorem printEntries_eq_ok_iff {es : List LeaderboardEntry} {text : Text} :
    Leaderboard.printEntries es = .ok text ↔
      (∀ e ∈ es, Terminated e.name.toList) ∧ text = entriesText es := by
  induction es generalizing text with
  | nil =>
    rw [Leaderboard.printEntries]
    simp [entriesText, pure, Except.pure, eq_comm]
  | cons e es ih =>
    rw [Leaderboard.printEntries]
    by_cases hterm : Terminated e.name.toList
    · rw [printEntry_of_terminated hterm, ok_bind]
      constructor
      · intro h
        obtain ⟨rest, hrest, hret⟩ := bind_eq_ok.mp h
        cases hret
        obtain ⟨hall, rfl⟩ := ih.mp hrest
        exact ⟨List.forall_mem_cons.mpr ⟨hterm, hall⟩, rfl⟩
      · intro hex
        rcases hex with ⟨hall, rfl⟩
        have hrest := ih.mpr ⟨fun e' he' => hall e' (List.mem_cons_of_mem _ he'), rfl⟩
        exact bind_eq_ok.mpr ⟨_, hrest, rfl⟩
    · -- one name without a NUL, and nothing is written
      rw [printEntry_of_not_terminated hterm]
      constructor
      · intro h
        exact absurd h (by simp [bind, Except.bind])
      · intro hex
        rcases hex with ⟨hall, -⟩
        exact absurd (hall e List.mem_cons_self) hterm

/-! ## Rows that are read back -/

/-- A row whose name is one field. -/
structure FileRow.Clean (row : FileRow) : Prop where
  ne_nil : row.name ≠ []
  no_space : ∀ b ∈ row.name, isSpace b = false
  stamp : gmtime row.stamp ≠ none

def FileRow.attempt (row : FileRow) : Attempt := ⟨row.name, some (row.stamp, row.time)⟩

theorem blank_space : Blank [32] := by
  intro b hb
  obtain rfl := List.mem_singleton.mp hb
  decide

theorem blank_newline : Blank [10] := by
  intro b hb
  obtain rfl := List.mem_singleton.mp hb
  decide

theorem scanString_space (s : Text) : scanString (32 :: s) = scanString s :=
  scanString_blank blank_space s

theorem scanInt_blank_cons {w : UInt8} (hw : isSpace w = true) (s : Text) :
    scanInt (w :: s) = scanInt s :=
  scanInt_blank (List.forall_mem_singleton.mpr hw) s

theorem scanInt_space (s : Text) : scanInt (32 :: s) = scanInt s := scanInt_blank blank_space s

theorem endsField_space (s : Text) : EndsField (32 :: s) := by
  intro b hb
  cases hb
  decide

theorem endsNumber_space (s : Text) : EndsNumber (32 :: s) := by
  intro b hb
  cases hb
  decide

theorem endsNumber_newline (s : Text) : EndsNumber (10 :: s) := by
  intro b hb
  cases hb
  decide

theorem scanNumbers_print {ws : Text} (hws : Blank ws) (stamp time : Int64) (s : Text) :
    scanNumbers (ws ++ (printInt stamp.toInt ++ 32 :: (printInt time.toInt ++ 10 :: s))) =
      some (stamp.toInt, time.toInt, 10 :: s) := by
  rw [scanNumbers, scanInt_blank hws, scanInt_print _ (endsNumber_space _), Option.bind_some]
  dsimp only
  rw [scanInt_space, scanInt_print _ (endsNumber_newline _), Option.map_some]

theorem attempts_blank {ws : Text} (hws : Blank ws) (n : Nat) (s : Text) :
    attempts n (ws ++ s) = attempts n s := by
  cases n with
  | zero => rfl
  | succ n => rw [attempts, scanString_blank hws, attempts]

theorem scanNumbers_space_print (stamp time : Int64) (s : Text) :
    scanNumbers (32 :: (printInt stamp.toInt ++ 32 :: (printInt time.toInt ++ 10 :: s))) =
      some (stamp.toInt, time.toInt, 10 :: s) :=
  scanNumbers_print blank_space stamp time s

theorem attempts_newline (n : Nat) (s : Text) : attempts n (10 :: s) = attempts n s :=
  attempts_blank blank_newline n s

theorem rowText_append (row : FileRow) (s : Text) :
    rowText row ++ s =
      row.name ++ 32 :: (printInt row.stamp.toInt ++ 32 :: (printInt row.time.toInt ++ 10 :: s)) := by
  simp [rowText]

theorem attempts_row {row : FileRow} (h : row.Clean) (n : Nat) (s : Text) :
    attempts (n + 1) (rowText row ++ s) = row.attempt :: attempts n s := by
  rw [rowText_append, attempts, scanString_print h.ne_nil h.no_space (endsField_space _)]
  dsimp only
  rw [scanNumbers_space_print]
  dsimp only
  rw [saturate_toInt, saturate_toInt, if_neg h.stamp, attempts_newline, FileRow.attempt]

theorem attempts_rows {rows : List FileRow} (h : ∀ row ∈ rows, row.Clean) (n : Nat) (s : Text) :
    attempts (rows.length + n) (rows.flatMap rowText ++ s) =
      rows.map FileRow.attempt ++ attempts n s := by
  induction rows with
  | nil => simp
  | cons row rows ih =>
    rw [List.length_cons, show rows.length + 1 + n = rows.length + n + 1 by omega,
      List.flatMap_cons, List.append_assoc, attempts_row (h row List.mem_cons_self),
      ih fun r hr => h r (List.mem_cons_of_mem _ hr)]
    rfl

/-! ## The row the reader stops at -/

/-- The name an entry's memory holds. -/
def LeaderboardEntry.text (e : LeaderboardEntry) : Text := cString e.name.toList

/-- The first call on this text stores a name that fits, and does not find two numbers. -/
def StopsReader (text : Text) : Prop :=
  ∃ token rest, scanString text = some (token, rest) ∧ token.length ≤ 3 ∧ scanNumbers rest = none

/-- Three bytes, the middle one whitespace, the last one no digit: the reader looks for the stamp
    in the last byte. -/
def HidesNumber (c : Text) : Prop :=
  ∃ x w y, c = [x, w, y] ∧ isSpace x = false ∧ isSpace w = true ∧ isSpace y = false ∧
    isDigit y = false

theorem entriesText_cons (e : LeaderboardEntry) (rest : List LeaderboardEntry) :
    entriesText (e :: rest) =
      e.text ++ 32 :: (printInt e.fileRow.stamp.toInt ++
        32 :: (printInt e.time_entry.toInt ++ 10 :: entriesText rest)) := by
  rw [entriesText, List.flatMap_cons]
  exact rowText_append _ _

/-- The text behind a leftover name: the stamp, the time, and the rows after it. -/
def behindName (e : LeaderboardEntry) (rest : List LeaderboardEntry) : Text :=
  printInt e.fileRow.stamp.toInt ++ 32 :: (printInt e.time_entry.toInt ++ 10 :: entriesText rest)

theorem stopsReader_of_scan {text token rest : Text} (h : scanString text = some (token, rest))
    (hfit : token.length ≤ 3) : StopsReader text ↔ scanNumbers rest = none := by
  constructor
  · intro hex
    rcases hex with ⟨token', rest', hscan, -, hnone⟩
    rw [h] at hscan
    cases hscan
    exact hnone
  · intro hnone
    exact ⟨token, rest, h, hfit, hnone⟩

/-- A stamp has nine digits at least. -/
theorem length_printInt_stamp (dt : RtcDateTime) :
    3 < (printInt (rtcDateTimeToUnix dt).toInt).length := by
  obtain ⟨-, hlate, -⟩ := rtcDateTimeToUnix_toInt dt
  have hdigits : 3 < (Nat.digits 10 (rtcDateTimeToUnix dt).toInt.natAbs).length :=
    (Nat.lt_digits_length_iff (by decide) _).mpr (by omega)
  rw [printInt, if_neg (by omega), printNat, if_neg (by omega), List.length_map, List.length_reverse]
  exact hdigits

/-- A blank name: the stamp is taken for it, and does not fit. -/
theorem stopsReader_blank {e : LeaderboardEntry} {rest : List LeaderboardEntry}
    (hblank : Blank e.text) : ¬ StopsReader (entriesText (e :: rest)) := by
  obtain ⟨b, s, hbs, -⟩ := printInt_cons e.fileRow.stamp.toInt
  have hne : printInt e.fileRow.stamp.toInt ≠ [] := by simp [hbs]
  have hscan : scanString (entriesText (e :: rest)) = some (printInt e.fileRow.stamp.toInt,
      32 :: (printInt e.time_entry.toInt ++ 10 :: entriesText rest)) := by
    rw [entriesText_cons, scanString_blank hblank, scanString_space]
    exact scanString_print hne (printInt_no_space _) (endsField_space _)
  rintro ⟨token, r, h, hfit, -⟩
  rw [hscan] at h
  cases h
  exact absurd (length_printInt_stamp e.dt_of_entry) (Nat.not_lt.mpr hfit)

/-- A name of one field: the numbers behind it are found. -/
theorem stopsReader_one_field {e : LeaderboardEntry} {rest : List LeaderboardEntry} {token r : Text}
    (hscan : scanString e.text = some (token, r)) (hfit : token.length ≤ 3) (hr : Blank r) :
    ¬ StopsReader (entriesText (e :: rest)) := by
  have hwhole := scanString_append hscan (endsField_space (behindName e rest))
  rw [entriesText_cons]
  rw [behindName] at hwhole
  rw [stopsReader_of_scan hwhole hfit]
  have hblank : Blank (r ++ [32]) := by
    intro b hb
    rcases List.mem_append.mp hb with hb | hb
    · exact hr b hb
    · exact blank_space b hb
  rw [show ∀ t : Text, r ++ 32 :: t = (r ++ [32]) ++ t from fun t => by simp,
    scanNumbers_print hblank]
  simp

/-- A name of two fields: the second one is where the stamp is looked for. -/
theorem stopsReader_two_fields {e : LeaderboardEntry} {rest : List LeaderboardEntry}
    {x w y : UInt8} (htext : e.text = [x, w, y]) (hx : isSpace x = false) (hw : isSpace w = true)
    (hy : isSpace y = false) :
    StopsReader (entriesText (e :: rest)) ↔ isDigit y = false := by
  have hscan : scanString e.text = some ([x], [w, y]) := by
    rw [htext]
    simp [scanString, hx, hw]
  have hwhole := scanString_append hscan (endsField_space (behindName e rest))
  rw [entriesText_cons]
  rw [behindName] at hwhole
  rw [stopsReader_of_scan hwhole (by simp)]
  have hblank : ¬ Blank [w, y] := by
    intro h
    rw [h y (by simp)] at hy
    exact absurd hy (by simp)
  constructor
  · intro hnone
    -- a digit would be the stamp, and the stamp the time
    by_contra hdigit
    rw [Bool.not_eq_false] at hdigit
    rw [scanNumbers, List.cons_append, List.singleton_append, scanInt_blank_cons hw,
      scanInt_digit hdigit (endsNumber_space _), Option.bind_some] at hnone
    dsimp only at hnone
    rw [scanInt_space, scanInt_print _ (endsNumber_space _)] at hnone
    simp at hnone
  · intro hdigit
    have hstarts : ¬ StartsNumber ([w, y] ++ 32 :: behindName e rest) := by
      rw [startsNumber_append hblank (endsField_space _)]
      simp [StartsNumber, hw, hy, hdigit]
    rw [← scanInt_isSome_iff, Option.not_isSome_iff_eq_none, behindName] at hstarts
    rw [scanNumbers, hstarts]
    rfl

/-- A second field within three bytes leaves room for one byte of each part. -/
theorem three_bytes_of_two_fields {s token r : Text} (hlen : s.length ≤ 3)
    (hscan : scanString s = some (token, r)) (hr : ¬ Blank r) :
    ∃ x w y, s = [x, w, y] ∧ isSpace x = false ∧ isSpace w = true ∧ isSpace y = false := by
  obtain ⟨ws, rfl, hws, hne, htoken, hends⟩ := scanString_parts hscan
  obtain ⟨x, token', rfl⟩ := List.exists_cons_of_ne_nil hne
  obtain ⟨w, r', rfl⟩ : ∃ w r', r = w :: r' :=
    List.exists_cons_of_ne_nil fun h => hr (h ▸ by intro b hb; simp at hb)
  have hw : isSpace w = true := hends w rfl
  obtain ⟨y, r'', rfl⟩ : ∃ y r'', r' = y :: r'' :=
    List.exists_cons_of_ne_nil fun h => hr (h ▸ List.forall_mem_singleton.mpr hw)
  simp only [List.length_append, List.length_cons] at hlen
  obtain rfl := List.eq_nil_of_length_eq_zero (show ws.length = 0 by omega)
  obtain rfl := List.eq_nil_of_length_eq_zero (show token'.length = 0 by omega)
  obtain rfl := List.eq_nil_of_length_eq_zero (show r''.length = 0 by omega)
  refine ⟨x, w, y, rfl, htoken x List.mem_cons_self, hw, ?_⟩
  by_contra hspace
  rw [Bool.not_eq_false] at hspace
  refine hr fun b hb => ?_
  rcases List.mem_cons.mp hb with rfl | hb
  · exact hw
  · exact List.mem_singleton.mp hb ▸ hspace

/-- **What the reader stops at.** -/
theorem stopsReader_iff {e : LeaderboardEntry} {rest : List LeaderboardEntry}
    (hlen : e.text.length ≤ 3) : StopsReader (entriesText (e :: rest)) ↔ HidesNumber e.text := by
  by_cases hblank : Blank e.text
  · refine iff_of_false (stopsReader_blank hblank) fun hex => ?_
    rcases hex with ⟨x, w, y, htext, hx, -, -, -⟩
    rw [hblank x (by simp [htext])] at hx
    exact absurd hx (by simp)
  · cases hscan : scanString e.text with
    | none => exact absurd (scanString_eq_none_iff.mp hscan) hblank
    | some p =>
      obtain ⟨token, r⟩ := p
      by_cases hr : Blank r
      · -- one field: the numbers behind it are found, and it hides none
        have hfit : token.length ≤ 3 := by
          obtain ⟨ws, heq, -⟩ := scanString_parts hscan
          rw [heq, List.length_append, List.length_append] at hlen
          omega
        refine iff_of_false (stopsReader_one_field hscan hfit hr) ?_
        intro hex
        rcases hex with ⟨x, w, y, htext, hx, hw, hy, -⟩
        rw [htext] at hscan
        simp [scanString, hx, hw] at hscan
        rw [hr y (by simp [← hscan.2])] at hy
        exact absurd hy (by simp)
      · obtain ⟨x, w, y, htext, hx, hw, hy⟩ := three_bytes_of_two_fields hlen hscan hr
        rw [stopsReader_two_fields htext hx hw hy]
        constructor
        · intro hdigit
          exact ⟨x, w, y, htext, hx, hw, hy, hdigit⟩
        · intro hex
          rcases hex with ⟨x', w', y', htext', -, -, -, hdigit⟩
          rw [htext] at htext'
          cases htext'
          exact hdigit

theorem entriesText_cons_not_blank (e : LeaderboardEntry) (rest : List LeaderboardEntry) :
    ¬ Blank (entriesText (e :: rest)) := by
  intro h
  obtain ⟨b, s, hbs, -⟩ := printInt_cons e.fileRow.stamp.toInt
  have hb := printInt_no_space e.fileRow.stamp.toInt b (by simp [hbs])
  rw [h b (by rw [entriesText_cons, hbs]; simp)] at hb
  exact absurd hb (by simp)

theorem completeRows_append (as as' : List Attempt) :
    completeRows (as ++ as') = completeRows as ++ completeRows as' := List.filterMap_append

theorem completeRows_attempt (rows : List FileRow) : completeRows (rows.map FileRow.attempt) = rows := by
  rw [completeRows, List.filterMap_map]
  exact List.filterMap_some

/-- In terms of the calls: one call is made, its token fits and its row is not completed. -/
theorem stopsReader_iff_attempts {text : Text} (h : ¬ Blank text) (m : Nat) :
    StopsReader text ↔
      (∀ a ∈ attempts (m + 1) text, a.Fits) ∧ completeRows (attempts (m + 1) text) = [] := by
  rw [attempts]
  cases hscan : scanString text with
  | none => exact absurd (scanString_eq_none_iff.mp hscan) h
  | some p =>
    obtain ⟨token, rest⟩ := p
    dsimp only
    cases hnumbers : scanNumbers rest with
    | none =>
      constructor
      · intro hex
        rcases hex with ⟨token', rest', heq, hfit, -⟩
        rw [hscan] at heq
        cases heq
        exact ⟨List.forall_mem_singleton.mpr hfit, rfl⟩
      · intro hex
        rcases hex with ⟨hfits, -⟩
        exact ⟨token, rest, hscan, hfits _ (List.mem_singleton_self _), hnumbers⟩
    | some q =>
      constructor
      · intro hex
        rcases hex with ⟨token', rest', heq, -, hnone⟩
        rw [hscan] at heq
        cases heq
        rw [hnumbers] at hnone
        exact absurd hnone (by simp)
      · intro hex
        rcases hex with ⟨-, hrows⟩
        exact absurd hrows (by simp [completeRows])

theorem StopsReader.no_crash {text : Text} (h : StopsReader text) (m : Nat) :
    ∀ a ∈ attempts (m + 1) text, ¬ a.Crashes := by
  obtain ⟨token, rest, hscan, -, hnone⟩ := h
  rw [attempts, hscan]
  dsimp only
  rw [hnone]
  refine List.forall_mem_singleton.mpr ?_
  intro hex
  rcases hex with ⟨_, _, heq, -⟩
  cases heq

/-! ## The round trip -/

namespace Leaderboard

/-- The entries not in use. -/
def leftover (lb : Leaderboard) : List LeaderboardEntry :=
  lb.entries.toList.drop lb.entry_count.toNat

/-- The names and times in use. -/
def ranking (lb : Leaderboard) : List (Text × Int64) :=
  lb.table.map fun e => (e.text, e.time_entry)

/-- Writing `lb` and reading the file into `dst` gives the ranking back. -/
def RoundTrips (lb dst : Leaderboard) : Prop :=
  ∃ file lb', lb.writeFile true = .ok (0, some file) ∧ dst.readFile (some file) = .ok (0, lb') ∧
    lb'.entry_count = lb.entry_count ∧ lb'.ranking = lb.ranking

/-- The memory behind the table is printed as nothing the reader takes for an entry. -/
def Survives (lb : Leaderboard) : Prop :=
  (∀ e ∈ lb.leftover, Terminated e.name.toList) ∧
    ∀ e ∈ lb.leftover.head?, HidesNumber e.text

/-- A table as additions leave it: each name in use is one field, and leaves room for its NUL. -/
structure Presentable (lb : Leaderboard) : Prop where
  count : lb.entry_count.toNat ≤ 3
  ne_nil : ∀ e ∈ lb.table, e.text ≠ []
  no_space : ∀ e ∈ lb.table, ∀ b ∈ e.text, isSpace b = false
  length : ∀ e ∈ lb.table, e.text.length ≤ 3

end Leaderboard

/-- The four bytes of a name hold a string exactly when it is not all of them. -/
theorem terminated_iff {e : LeaderboardEntry} :
    Terminated e.name.toList ↔ e.text.length ≤ 3 := by
  rw [terminated_iff_length_lt, Vector.length_toList, LeaderboardEntry.text]
  omega

theorem Leaderboard.Presentable.clean {lb : Leaderboard} (h : lb.Presentable) :
    ∀ row ∈ lb.table.map LeaderboardEntry.fileRow, row.Clean := by
  intro row hrow
  obtain ⟨e, he, rfl⟩ := List.mem_map.mp hrow
  exact ⟨h.ne_nil e he, h.no_space e he, gmtime_rtcDateTimeToUnix _⟩

theorem Leaderboard.Presentable.attempts_file {lb : Leaderboard} (h : lb.Presentable) :
    attempts 3 (entriesText lb.entries.toList) =
      (lb.table.map LeaderboardEntry.fileRow).map FileRow.attempt ++
        attempts (3 - lb.entry_count.toNat) (entriesText lb.leftover) := by
  have hrows := attempts_rows h.clean (3 - lb.entry_count.toNat) (entriesText lb.leftover)
  have hlen := length_table h.count
  have hcount := h.count
  rw [List.length_map, hlen, Nat.add_sub_cancel' hcount] at hrows
  rw [← hrows, ← List.take_append_drop lb.entry_count.toNat lb.entries.toList]
  congr 1
  rw [entriesText, List.flatMap_append, List.flatMap_map]
  rfl

theorem Leaderboard.Presentable.completeRows_file {lb : Leaderboard} (h : lb.Presentable) :
    completeRows (attempts 3 (entriesText lb.entries.toList)) =
      lb.table.map LeaderboardEntry.fileRow ++
        completeRows (attempts (3 - lb.entry_count.toNat) (entriesText lb.leftover)) := by
  rw [h.attempts_file, completeRows_append, completeRows_attempt]

theorem writeFile_eq_ok_iff {lb : Leaderboard} {file : Text} :
    lb.writeFile true = .ok (0, some file) ↔
      (∀ e ∈ lb.entries.toList, Terminated e.name.toList) ∧
        file = entriesText lb.entries.toList := by
  rw [← printEntries_eq_ok_iff, Leaderboard.writeFile, if_pos rfl]
  constructor
  · intro h
    obtain ⟨file', hprint, hret⟩ := bind_eq_ok.mp h
    cases hret
    exact hprint
  · intro h
    exact bind_eq_ok.mpr ⟨file, h, rfl⟩

theorem LeaderboardEntry.ReadFrom.text_eq {e e' : LeaderboardEntry} (h : e.ReadFrom e'.fileRow) :
    e.text = e'.text := by
  obtain ⟨rest, hname⟩ := h.name
  rw [LeaderboardEntry.text, hname]
  exact cString_append_zero (zero_not_mem_cString _) rest

theorem ranking_of_readFrom {new es : List LeaderboardEntry}
    (h : List.Forall₂ LeaderboardEntry.ReadFrom new (es.map LeaderboardEntry.fileRow)) :
    (new.map fun e => (e.text, e.time_entry)) = es.map fun e => (e.text, e.time_entry) := by
  induction es generalizing new with
  | nil =>
    cases h
    rfl
  | cons e es ih =>
    cases h with
    | cons he hrest =>
      rw [List.map_cons, List.map_cons, ih hrest, he.text_eq, he.time]
      rfl

theorem Leaderboard.leftover_cons {lb : Leaderboard} {e : LeaderboardEntry}
    {rest : List LeaderboardEntry} (h : lb.leftover = e :: rest) :
    3 - lb.entry_count.toNat = rest.length + 1 := by
  have hlen := congrArg List.length h
  rw [leftover, List.length_drop, Vector.length_toList] at hlen
  exact hlen

theorem hidesNumber_iff_attempts {e : LeaderboardEntry} {rest : List LeaderboardEntry}
    (hterm : Terminated e.name.toList) (m : Nat) :
    HidesNumber e.text ↔
      (∀ a ∈ attempts (m + 1) (entriesText (e :: rest)), a.Fits) ∧
        completeRows (attempts (m + 1) (entriesText (e :: rest))) = [] := by
  rw [← stopsReader_iff (terminated_iff.mp hterm)]
  exact stopsReader_iff_attempts (entriesText_cons_not_blank e rest) m

theorem Leaderboard.Survives.attempts {lb : Leaderboard} (h : lb.Survives) :
    (∀ a ∈ Lcom.attempts (3 - lb.entry_count.toNat) (entriesText lb.leftover),
      a.Fits ∧ ¬ a.Crashes) ∧
      completeRows (Lcom.attempts (3 - lb.entry_count.toNat) (entriesText lb.leftover)) = [] := by
  cases hleft : lb.leftover with
  | nil =>
    have hnone : Lcom.attempts (3 - lb.entry_count.toNat) (entriesText []) = [] := by
      cases 3 - lb.entry_count.toNat <;> rfl
    rw [hnone]
    exact ⟨by simp, rfl⟩
  | cons e rest =>
    have hterm := h.1 e (by simp [hleft])
    have hun := h.2 e (by simp [hleft])
    have hstop : StopsReader (entriesText (e :: rest)) :=
      (stopsReader_iff (terminated_iff.mp hterm)).mpr hun
    obtain ⟨hfits, hrows⟩ := (hidesNumber_iff_attempts hterm rest.length).mp hun
    rw [leftover_cons hleft]
    exact ⟨fun a ha => ⟨hfits a ha, hstop.no_crash rest.length a ha⟩, hrows⟩

theorem Leaderboard.Presentable.calls {lb : Leaderboard} (h : lb.Presentable) :
    ∀ a ∈ (lb.table.map LeaderboardEntry.fileRow).map FileRow.attempt, a.Fits ∧ ¬ a.Crashes := by
  intro a ha
  obtain ⟨row, hrow, rfl⟩ := List.mem_map.mp ha
  obtain ⟨e, he, rfl⟩ := List.mem_map.mp hrow
  refine ⟨h.length e he, ?_⟩
  intro hex
  rcases hex with ⟨_, _, heq, hnone⟩
  cases heq
  exact gmtime_rtcDateTimeToUnix _ hnone

theorem Leaderboard.Presentable.terminated {lb : Leaderboard} (h : lb.Presentable)
    (hleft : ∀ e ∈ lb.leftover, Terminated e.name.toList) :
    ∀ e ∈ lb.entries.toList, Terminated e.name.toList := by
  intro e he
  rw [← List.take_append_drop lb.entry_count.toNat lb.entries.toList] at he
  rcases List.mem_append.mp he with htable | hdrop
  · exact terminated_iff.mpr (h.length e htable)
  · exact hleft e hdrop

/-- The file brings back as many rows as the table has entries, so none is a leftover entry's. -/
theorem Leaderboard.RoundTrips.survives {lb dst : Leaderboard} (h : lb.Presentable)
    (htrip : lb.RoundTrips dst) : lb.Survives := by
  obtain ⟨file, lb', hwrite, hread, hcount, -⟩ := htrip
  obtain ⟨hterm, rfl⟩ := writeFile_eq_ok_iff.mp hwrite
  have hleftterm : ∀ e ∈ lb.leftover, Terminated e.name.toList :=
    fun e he => hterm e (List.mem_of_mem_drop he)
  refine ⟨hleftterm, fun e he => ?_⟩
  obtain ⟨rest, hleft⟩ := List.head?_eq_some_iff.mp he
  obtain ⟨hcalls, hentries, hlen⟩ := readFile_done hread
  have hnew := hentries.length_eq
  rw [← hlen, hcount, h.completeRows_file, List.length_append, List.length_map,
    Leaderboard.length_table h.count] at hnew
  have hnil := List.eq_nil_of_length_eq_zero (show (completeRows (Lcom.attempts
    (3 - lb.entry_count.toNat) (entriesText lb.leftover))).length = 0 by omega)
  have hfits : ∀ a ∈ Lcom.attempts (3 - lb.entry_count.toNat) (entriesText lb.leftover),
      a.Fits := by
    intro a ha
    refine (hcalls a ?_).1
    rw [h.attempts_file]
    exact List.mem_append_right _ ha
  rw [hleft, Leaderboard.leftover_cons hleft] at hnil hfits
  exact (hidesNumber_iff_attempts (hleftterm e (by simp [hleft])) rest.length).mpr ⟨hfits, hnil⟩

/-- The calls on the entries in use succeed, and those on the leftover entries complete no row. -/
theorem Leaderboard.Survives.roundTrips {lb : Leaderboard} (h : lb.Presentable)
    (hsurvives : lb.Survives) (dst : Leaderboard) : lb.RoundTrips dst := by
  obtain ⟨hleft, hnil⟩ := hsurvives.attempts
  have hcalls : ∀ a ∈ Lcom.attempts 3 (entriesText lb.entries.toList), a.Fits ∧ ¬ a.Crashes := by
    rw [h.attempts_file]
    intro a ha
    rcases List.mem_append.mp ha with ha | ha
    · exact h.calls a ha
    · exact hleft a ha
  obtain ⟨lb', hread⟩ := readFile_returns dst hcalls
  obtain ⟨-, hentries, hcount⟩ := readFile_done hread
  rw [h.completeRows_file, hnil, List.append_nil] at hentries
  refine ⟨_, lb', writeFile_eq_ok_iff.mpr ⟨h.terminated hsurvives.1, rfl⟩, hread, ?_, ?_⟩
  · rw [← UInt8.toNat_inj, hcount, hentries.length_eq, List.length_map, length_table h.count]
  · exact ranking_of_readFrom hentries

/-- **A presentable table survives exactly when its leftover memory does no harm.** -/
theorem roundTrips_iff {lb : Leaderboard} (h : lb.Presentable) (dst : Leaderboard) :
    lb.RoundTrips dst ↔ lb.Survives := by
  constructor
  · intro htrip
    exact htrip.survives h
  · intro hsurvives
    exact hsurvives.roundTrips h dst

/-! ## Tables reached by additions -/

/-- The caller's name is one field of at most three bytes. -/
structure AddCall.NameClean (c : AddCall) : Prop where
  fits : c.NameFits
  ne_nil : cString c.name ≠ []
  no_space : ∀ b ∈ cString c.name, isSpace b = false

theorem presentable_of_addAll {lb₀ lb : Leaderboard} {calls : List AddCall}
    (hempty : lb₀.entry_count = 0) (hnames : ∀ c ∈ calls, c.NameClean)
    (hadd : lb₀.addAll calls = .ok lb) : lb.Presentable := by
  obtain ⟨lb', hadd', hranks⟩ :=
    Leaderboard.ranks_addAll hempty fun c hc => (hnames c hc).fits
  obtain rfl := Except.ok.inj (hadd.symm.trans hadd')
  have hcount := hranks.count
  have hmem : ∀ e ∈ lb.table, ∃ c ∈ calls, e.text = cString c.name := by
    intro e he
    have hrow : e.row ∈ lb.rows := List.mem_map_of_mem he
    rw [hranks.rows] at hrow
    have hsort := (List.mergeSort_perm _ _).mem_iff.mp (List.mem_of_mem_take hrow)
    obtain ⟨c, hc, hce⟩ := List.mem_map.mp hsort
    exact ⟨c, hc, (congrArg Row.name hce).symm⟩
  refine ⟨by omega, fun e he => ?_, fun e he => ?_, fun e he => ?_⟩
  · obtain ⟨c, hc, htext⟩ := hmem e he
    exact htext ▸ (hnames c hc).ne_nil
  · obtain ⟨c, hc, htext⟩ := hmem e he
    exact htext ▸ (hnames c hc).no_space
  · obtain ⟨c, hc, htext⟩ := hmem e he
    exact htext ▸ (hnames c hc).fits.2

theorem Leaderboard.survives_of_full {lb : Leaderboard} (h : lb.entry_count.toNat = 3) :
    lb.Survives := by
  have hnone : lb.leftover = [] := by
    rw [leftover, h]
    exact List.drop_eq_nil_of_le (by simp)
  constructor
  · intro e he
    rw [hnone] at he
    simp at he
  · intro e he
    rw [hnone] at he
    simp at he

/-- **A table reached by additions survives exactly when its leftover memory does no harm.** A
    full table always does; a partly filled one only if its first leftover entry is one the reader
    stops at. -/
theorem leaderboard_roundTrips_iff (lb₀ lb dst : Leaderboard) (calls : List AddCall)
    (hempty : lb₀.entry_count = 0) (hnames : ∀ c ∈ calls, c.NameClean)
    (hadd : lb₀.addAll calls = .ok lb) : lb.RoundTrips dst ↔ lb.Survives := by
  have hpresentable := presentable_of_addAll hempty hnames hadd
  exact roundTrips_iff hpresentable dst

theorem addCallOn_clean {day name : UInt8} {time_entry : Int64} (h0 : name ≠ 0)
    (hspace : isSpace name = false) : (addCallOn day name time_entry).NameClean := by
  have htext : cString (addCallOn day name time_entry).name = [name] := by
    simp [addCallOn, cString, h0]
  refine ⟨⟨by simp [addCallOn, Terminated], by simp [htext]⟩, by simp [htext], ?_⟩
  rw [htext]
  exact List.forall_mem_singleton.mpr hspace

theorem leaderboard_roundTrips_full :
    ∃ lb, Leaderboard.cleared.addAll [addCallOn 1 65 20, addCallOn 2 66 90, addCallOn 3 67 10] =
        .ok lb ∧ lb.RoundTrips Leaderboard.cleared := by
  have hnames : ∀ c ∈ [addCallOn 1 65 20, addCallOn 2 66 90, addCallOn 3 67 10], c.NameClean := by
    simp only [List.forall_mem_cons]
    exact ⟨addCallOn_clean (by decide) (by decide), addCallOn_clean (by decide) (by decide),
      addCallOn_clean (by decide) (by decide), by simp⟩
  obtain ⟨lb, hadd, hranks⟩ : ∃ lb, Leaderboard.cleared.addAll _ = .ok lb ∧ lb.Ranks _ :=
    Leaderboard.ranks_addAll rfl fun c hc => (hnames c hc).fits
  have hfull : lb.entry_count.toNat = 3 := hranks.count
  refine ⟨lb, hadd, ?_⟩
  exact (leaderboard_roundTrips_iff Leaderboard.cleared lb Leaderboard.cleared _ rfl hnames
    hadd).mpr (Leaderboard.survives_of_full hfull)

/-- A table whose three entries are no longer in use. -/
def Leaderboard.stale : Leaderboard :=
  ⟨#v[⟨#v[65, 65, 65, 0], ⟨0, 0, 0, 1, 1, 1, 26⟩, 100⟩, ⟨#v[66, 66, 66, 0], ⟨0, 0, 0, 1, 1, 1, 26⟩, 120⟩,
    ⟨#v[67, 67, 67, 0], ⟨0, 0, 0, 1, 1, 1, 26⟩, 200⟩], 0⟩

/-- One entry is added to the stale table; the file brings back two of the old ones with it. -/
theorem partial_table_does_not_roundTrip :
    ¬ ∀ (lb₀ lb dst : Leaderboard) (calls : List AddCall), lb₀.entry_count = 0 →
      (∀ c ∈ calls, c.NameClean) → lb₀.addAll calls = .ok lb → lb.RoundTrips dst := by
  intro h
  have hnames : ∀ c ∈ [addCallOn 1 68 10], c.NameClean :=
    List.forall_mem_singleton.mpr (addCallOn_clean (by decide) (by decide))
  have hadd : Leaderboard.stale.addAll [addCallOn 1 68 10] = .ok _ := rfl
  have hroundTrips := h Leaderboard.stale _ Leaderboard.cleared [addCallOn 1 68 10] rfl hnames hadd
  obtain ⟨-, hun⟩ := (roundTrips_iff (presentable_of_addAll rfl hnames hadd) _).mp hroundTrips
  obtain ⟨x, w, y, htext, -, hw, -⟩ := hun _ rfl
  cases htext
  exact absurd hw (by decide)

end Lcom

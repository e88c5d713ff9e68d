import Lcom.Leaderboard.Leaderboard
import Lcom.Lib.StableTop

/-!
# What the table holds after any number of additions

`Leaderboard_add_entry` is a search, a guarded shift and a guarded store. Each has one lemma here:

* `insertPosition_eq` — the search stops behind the entries that are not slower;
* `shiftDown_eq` — the shift moves the entries behind that position one slot down, and drops what
  leaves the table;
* `addEntry_table` — together they insert the new entry behind its equals and cut off at three.

`addAll_rows` is then one induction on the additions: the table is the cut-off stable sort of
everything that was ever added.
-/

namespace Lcom

open Lib

/-- One call of `Leaderboard_add_entry`; `new_entry` is the stack content it starts with. -/
structure AddCall where
  name : List UInt8
  dt_of_entry : RtcDateTime
  time_entry : Int64
  new_entry : LeaderboardEntry

/-- The caller's side: a string of at most three characters. -/
def AddCall.NameFits (c : AddCall) : Prop := Terminated c.name ∧ (cString c.name).length ≤ 3

/-- What an entry says, the bytes behind its NUL aside. -/
structure Row where
  name : List UInt8
  dt_of_entry : RtcDateTime
  time_entry : Int64
  deriving DecidableEq, Repr

def AddCall.row (c : AddCall) : Row := ⟨cString c.name, c.dt_of_entry, c.time_entry⟩

def LeaderboardEntry.row (e : LeaderboardEntry) : Row :=
  ⟨cString e.name.toList, e.dt_of_entry, e.time_entry⟩

/-- The ranking key. -/
def Row.time (r : Row) : Int := r.time_entry.toInt

namespace Leaderboard

/-- The entries in use. -/
def table (lb : Leaderboard) : List LeaderboardEntry :=
  lb.entries.toList.take lb.entry_count.toNat

def rows (lb : Leaderboard) : List Row := lb.table.map LeaderboardEntry.row

/-- A list of calls, one after the other. -/
def addAll (lb : Leaderboard) (calls : List AddCall) : Except Fault Leaderboard :=
  calls.foldlM (fun lb c => lb.addEntry c.name c.dt_of_entry c.time_entry c.new_entry) lb

theorem getElem?_table (lb : Leaderboard) {i : Nat} (hi : i < lb.entry_count.toNat) (h3 : i < 3) :
    lb.table[i]? = some lb.entries[i] := by
  rw [table, List.getElem?_take_of_lt hi]
  simp [h3]

theorem length_table {lb : Leaderboard} (h : lb.entry_count.toNat ≤ 3) :
    lb.table.length = lb.entry_count.toNat := by
  simp [table, h]

/-! ## The search -/

/-- The leading entries the new one goes behind. -/
def ahead (time_entry : Int64) (e : LeaderboardEntry) : Bool :=
  decide (e.row.time ≤ time_entry.toInt)

theorem ahead_iff {time_entry : Int64} {e : LeaderboardEntry} :
    ahead time_entry e = true ↔ ¬ time_entry < e.time_entry := by
  rw [Int64.lt_iff_toInt_lt, not_lt]
  exact decide_eq_true_iff

theorem insertPosition_eq {lb : Leaderboard} (time_entry : Int64) {todo i : Nat}
    (hcount : lb.entry_count.toNat ≤ 3) (hi : i + todo = lb.entry_count.toNat) :
    lb.insertPosition time_entry todo i =
      .ok (i + ((lb.table.drop i).takeWhile (ahead time_entry)).length) := by
  induction todo generalizing i with
  | zero =>
    have hdrop : lb.table.drop i = [] := by
      rw [List.drop_eq_nil_iff, length_table hcount]
      omega
    rw [hdrop, insertPosition, ← hi]
    rfl
  | succ todo ih =>
    have h3 : i < 3 := by omega
    have hlen : i < lb.table.length := by
      rw [length_table hcount]
      omega
    have hget : lb.table[i] = lb.entries[i] := by
      have h := getElem?_table lb (show i < lb.entry_count.toNat by omega) h3
      rwa [List.getElem?_eq_getElem hlen, Option.some.injEq] at h
    rw [insertPosition, load_of_lt h3, ok_bind, List.drop_eq_getElem_cons hlen, hget]
    by_cases hlt : time_entry < lb.entries[i].time_entry
    · -- the first larger entry: the new one goes in front of it
      have hneg : ¬ ahead time_entry lb.entries[i] = true := fun h => ahead_iff.mp h hlt
      rw [if_pos hlt, List.takeWhile_cons_of_neg hneg]
      rfl
    · rw [if_neg hlt, List.takeWhile_cons_of_pos (ahead_iff.mpr hlt), ih (by omega),
        List.length_cons]
      congr 1
      omega

/-! ## The shift -/

theorem shiftDown_eq (pos : Nat) {i : Nat} (entries : Vector LeaderboardEntry 3) :
    ∃ entries', shiftDown pos i entries = .ok entries' ∧
      ∀ j (hj : j < 3), entries'[j] = if pos < j ∧ j ≤ i then entries[j - 1] else entries[j] := by
  induction i generalizing entries with
  | zero =>
    refine ⟨entries, rfl, fun j hj => ?_⟩
    rw [if_neg (by omega)]
  | succ i ih =>
    by_cases hpos : i + 1 > pos
    · by_cases h3 : i + 1 < 3
      · obtain ⟨entries', hrest, hget⟩ := ih (entries.set (i + 1) entries[i])
        refine ⟨entries', ?_, fun j hj => ?_⟩
        · rw [shiftDown, if_pos hpos, if_pos h3, load_of_lt (by omega), ok_bind,
            store_of_lt h3, ok_bind, hrest]
        · rw [hget j hj]
          by_cases hji : j = i + 1
          · subst hji
            rw [if_neg (by omega), if_pos (by omega)]
            simp
          · by_cases hmoved : pos < j ∧ j ≤ i
            · rw [if_pos hmoved, if_pos (by omega), Vector.getElem_set_ne _ _ (by omega)]
            · rw [if_neg hmoved, if_neg (by omega), Vector.getElem_set_ne _ _ (by omega)]
      · obtain ⟨entries', hrest, hget⟩ := ih entries
        refine ⟨entries', ?_, fun j hj => ?_⟩
        · rw [shiftDown, if_pos hpos, if_neg h3, hrest]
        · rw [hget j hj]
          congr 1
          rw [eq_iff_iff]
          omega
    · refine ⟨entries, ?_, fun j hj => ?_⟩
      · rw [shiftDown, if_neg hpos]
        rfl
      · rw [if_neg (by omega)]

/-! ## The insertion -/

/-- The entry an addition builds. -/
theorem strcpy_name {c : AddCall} (hname : c.NameFits) :
    ∃ name, strcpy c.new_entry.name c.name = .ok name ∧
      (LeaderboardEntry.mk name c.dt_of_entry c.time_entry).row = c.row := by
  obtain ⟨hterm, hlen⟩ := hname
  have hlt : (cString c.name).length < 4 := by omega
  refine ⟨overwrite c.new_entry.name (cString c.name) hlt, ?_, ?_⟩
  · rw [strcpy, loadString, if_pos hterm, ok_bind, storeString_of_lt hlt]
  · rw [LeaderboardEntry.row, AddCall.row, cString_overwrite hlt (zero_not_mem_cString c.name)]

theorem entry_count_succ {count : UInt8} (h : count.toNat ≤ 3) :
    (if count < 3 then count + 1 else count).toNat = min 3 (count.toNat + 1) := by
  have hall : ∀ n ≤ 3, (if UInt8.ofNat n < 3 then UInt8.ofNat n + 1 else UInt8.ofNat n).toNat =
      min 3 (n + 1) := by
    decide +kernel
  simpa using hall count.toNat h

/-- The shifted table with the new entry stored is the old one with the entry inserted. -/
theorem table_insert {lb : Leaderboard} {entries : Vector LeaderboardEntry 3} {pos : Nat}
    {e : LeaderboardEntry} (hcount : lb.entry_count.toNat ≤ 3) (hle : pos ≤ lb.entry_count.toNat)
    (h3 : pos < 3)
    (hget : ∀ j (hj : j < 3), entries[j] =
      if pos < j ∧ j ≤ lb.entry_count.toNat then lb.entries[j - 1] else lb.entries[j]) :
    table ⟨entries.set pos e, if lb.entry_count < 3 then lb.entry_count + 1 else lb.entry_count⟩ =
      (lb.table.insertIdx pos e).take 3 := by
  have hlen := length_table hcount
  have hlen' : (lb.table.insertIdx pos e).length = lb.entry_count.toNat + 1 := by
    rw [List.length_insertIdx_of_le_length (by omega), hlen]
  apply List.ext_getElem
  · rw [length_table (by rw [entry_count_succ hcount]; omega), List.length_take, hlen']
    exact entry_count_succ hcount
  · intro j hj hj'
    have hj3 : j < 3 := by
      rw [List.length_take] at hj'
      omega
    have hjcount : j < lb.entry_count.toNat + 1 := by
      rw [List.length_take, hlen'] at hj'
      omega
    simp only [table, List.getElem_take, Vector.getElem_toList, List.getElem_insertIdx]
    by_cases hlt : j < pos
    · rw [dif_pos hlt, Vector.getElem_set_ne _ _ (by omega), hget j hj3, if_neg (by omega)]
    · rw [dif_neg hlt]
      by_cases heq : j = pos
      · subst heq
        rw [dif_pos rfl, Vector.getElem_set_self]
      · rw [dif_neg heq, Vector.getElem_set_ne _ _ (by omega), hget j hj3, if_pos (by omega)]

/-- **One addition inserts behind the equals and cuts off at three.** -/
theorem addEntry_table {lb : Leaderboard} {c : AddCall} (hcount : lb.entry_count.toNat ≤ 3)
    (hname : c.NameFits) :
    ∃ lb' e, lb.addEntry c.name c.dt_of_entry c.time_entry c.new_entry = .ok lb' ∧
      e.row = c.row ∧ lb'.entry_count.toNat = min 3 (lb.entry_count.toNat + 1) ∧
      lb'.table = (insertAfter (fun e => e.row.time) e lb.table).take 3 := by
  obtain ⟨name, hcopy, hrow⟩ := strcpy_name hname
  obtain ⟨e, he⟩ : ∃ e, e = LeaderboardEntry.mk name c.dt_of_entry c.time_entry := ⟨_, rfl⟩
  obtain ⟨pos, hpos⟩ : ∃ pos, pos = (lb.table.takeWhile (ahead c.time_entry)).length := ⟨_, rfl⟩
  have hsearch := insertPosition_eq c.time_entry hcount (Nat.zero_add lb.entry_count.toNat)
  rw [List.drop_zero, Nat.zero_add, ← hpos] at hsearch
  obtain ⟨entries, hshift, hget⟩ := shiftDown_eq pos (i := lb.entry_count.toNat) lb.entries
  have hposle : pos ≤ lb.entry_count.toNat := by
    rw [hpos, ← length_table hcount]
    exact (List.takeWhile_prefix _).length_le
  have hinsert : insertAfter (fun e => e.row.time) e lb.table = lb.table.insertIdx pos e := by
    rw [insertAfter_eq_insertIdx, hpos, he]
    rfl
  rw [addEntry, hcopy, ok_bind, hsearch, ok_bind, hshift, ok_bind]
  by_cases h3 : pos < 3
  · rw [if_pos h3, store_of_lt h3, ok_bind, ← he]
    refine ⟨_, e, rfl, by rw [he, hrow], entry_count_succ hcount, ?_⟩
    rw [hinsert]
    exact table_insert hcount hposle h3 hget
  · -- a full table, and the new entry behind all of it: nothing moves
    have hfull : lb.entry_count.toNat = 3 := by omega
    have hsame : entries = lb.entries := by
      ext j hj
      rw [hget j hj, if_neg (by omega)]
    rw [if_neg h3, hsame]
    refine ⟨lb, e, rfl, by rw [he, hrow], by omega, ?_⟩
    have hlen := length_table hcount
    rw [hinsert, show pos = lb.table.length by omega, List.insertIdx_length_self,
      List.take_left' (by omega)]

theorem addEntry_rows {lb : Leaderboard} {c : AddCall} (hcount : lb.entry_count.toNat ≤ 3)
    (hname : c.NameFits) :
    ∃ lb', lb.addEntry c.name c.dt_of_entry c.time_entry c.new_entry = .ok lb' ∧
      lb'.entry_count.toNat = min 3 (lb.entry_count.toNat + 1) ∧
      lb'.rows = (insertAfter Row.time c.row lb.rows).take 3 := by
  obtain ⟨lb', e, hadd, hrow, hcount', htable⟩ := addEntry_table hcount hname
  refine ⟨lb', hadd, hcount', ?_⟩
  rw [rows, htable, List.map_take, ← hrow, rows, ← map_insertAfter Row.time]

end Leaderboard

/-! ## Any number of additions -/

theorem Leaderboard.addAll_concat {lb lb' : Leaderboard} {calls : List AddCall} {c : AddCall}
    (h : lb.addAll calls = .ok lb') :
    lb.addAll (calls ++ [c]) = lb'.addEntry c.name c.dt_of_entry c.time_entry c.new_entry := by
  rw [addAll, List.foldlM_append]
  rw [addAll] at h
  rw [h, ok_bind, List.foldlM_cons]
  exact bind_pure _

/-- The table after the additions of `added`, in this order. -/
structure Leaderboard.Ranks (lb : Leaderboard) (added : List Row) : Prop where
  count : lb.entry_count.toNat = min 3 added.length
  rows : lb.rows = (stableSort Row.time added).take 3

theorem Leaderboard.ranks_nil {lb : Leaderboard} (h : lb.entry_count = 0) : lb.Ranks [] := by
  constructor
  · rw [h]
    rfl
  · rw [rows, table, h, stableSort_nil]
    rfl

theorem Leaderboard.Ranks.addEntry {lb : Leaderboard} {added : List Row} (h : lb.Ranks added)
    {c : AddCall} (hname : c.NameFits) :
    ∃ lb', lb.addEntry c.name c.dt_of_entry c.time_entry c.new_entry = .ok lb' ∧
      lb'.Ranks (added ++ [c.row]) := by
  have hcount := h.count
  have hroom : lb.entry_count.toNat ≤ 3 := by omega
  obtain ⟨lb', hadd, hcount', hrows'⟩ := addEntry_rows hroom hname
  refine ⟨lb', hadd, ?_, ?_⟩
  · rw [hcount', hcount, List.length_append, List.length_singleton]
    omega
  · rw [hrows', h.rows, top_concat]

theorem Leaderboard.ranks_addAll {lb : Leaderboard} {calls : List AddCall}
    (hempty : lb.entry_count = 0) (hnames : ∀ c ∈ calls, c.NameFits) :
    ∃ lb', lb.addAll calls = .ok lb' ∧ lb'.Ranks (calls.map AddCall.row) := by
  induction calls using List.reverseRecOn with
  | nil => exact ⟨lb, rfl, ranks_nil hempty⟩
  | append_singleton calls c ih =>
    obtain ⟨lb₁, hadd, hranks⟩ := ih fun d hd => hnames d (List.mem_append_left _ hd)
    obtain ⟨lb', hadd', hranks'⟩ := hranks.addEntry (hnames c (by simp))
    refine ⟨lb', ?_, ?_⟩
    · rw [addAll_concat hadd, hadd']
    · rw [List.map_append, List.map_singleton]
      exact hranks'

/-- **The table is the cut-off stable sort of everything added.** Starting from an empty table,
    whatever else its memory holds, any sequence of additions with names that fit succeeds, and
    leaves the first three of the stable ascending sort by time of all the entries added, with
    their names, dates and times, and the number of them as the count. -/
theorem addAll_rows (lb : Leaderboard) (calls : List AddCall) (hempty : lb.entry_count = 0)
    (hnames : ∀ c ∈ calls, c.NameFits) :
    ∃ lb', lb.addAll calls = .ok lb' ∧ lb'.entry_count.toNat = min 3 calls.length ∧
      lb'.rows = (stableSort Row.time (calls.map AddCall.row)).take 3 := by
  obtain ⟨lb', hadd, hranks⟩ := Leaderboard.ranks_addAll hempty hnames
  refine ⟨lb', hadd, ?_, hranks.rows⟩
  rw [hranks.count, List.length_map]

/-- A table in zeroed memory, and the entry `name` on that day of January. -/
def clearedEntry : LeaderboardEntry := ⟨.replicate 4 0, ⟨0, 0, 0, 0, 0, 0, 0⟩, 0⟩

def Leaderboard.cleared : Leaderboard := ⟨.replicate 3 clearedEntry, 0⟩

def addCallOn (day name : UInt8) (time_entry : Int64) : AddCall :=
  ⟨[name, 0], ⟨0, 0, 0, 1, day, 1, 26⟩, time_entry, clearedEntry⟩

/-- Two of four entries have the same time: the earlier one stays in front, the slowest is out. -/
theorem addAll_rows_tie :
    ∃ lb', Leaderboard.cleared.addAll
        [addCallOn 1 65 20, addCallOn 2 66 90, addCallOn 3 67 20, addCallOn 4 68 10] = .ok lb' ∧
      lb'.entry_count.toNat = 3 ∧
      lb'.rows =
        [(addCallOn 4 68 10).row, (addCallOn 1 65 20).row, (addCallOn 3 67 20).row] := by
  obtain ⟨lb', hadd, hcount, hrows⟩ := addAll_rows Leaderboard.cleared
    [addCallOn 1 65 20, addCallOn 2 66 90, addCallOn 3 67 20, addCallOn 4 68 10] rfl
    (by simp [AddCall.NameFits, addCallOn, Terminated, cString])
  refine ⟨lb', hadd, hcount, hrows.trans ?_⟩
  simp only [List.map_cons, List.map_nil, stableSort_cons, stableSort_nil, List.orderedInsert_nil]
  decide

end Lcom

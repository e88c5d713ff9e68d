import Lcom.Proof.Leaderboard.RoundTrip

/-!
# Loading and saving, over and over

A load turns each stamp of the file into a date, and a save turns the dates into stamps again. By
`reload_toInt` the two conversions together add 2000 years, so no stamp stays what it was:
`cycle_stamp` follows one row of an arbitrary file through one cycle and `cycles_stamp` through any
number of them, for as long as the year still fits in the field it is stored in.
-/

namespace Lcom

open Lib

/-- One load and one save, of the table in memory and the file. -/
def Leaderboard.cycle (s : Leaderboard × Text) : Except Fault (Leaderboard × Text) := do
  let (_, lb) ← s.1.readFile (some s.2)
  let (_, file) ← lb.writeFile true
  pure (lb, file.getD s.2)

/-- `n` cycles. -/
def Leaderboard.cycles : Nat → Leaderboard × Text → Except Fault (Leaderboard × Text)
  | 0, s => .ok s
  | n + 1, s => cycle s >>= cycles n

/-- The stamp of the `i`-th row a reader completes. -/
def stampAt (i : Nat) (file : Text) : Option Int64 :=
  (completeRows (attempts 3 file))[i]?.map (·.stamp)

/-! ## Names in a file -/

theorem scanNumbers_suffix {s r : Text} {a b : Int} (h : scanNumbers s = some (a, b, r)) :
    r <:+ s := by
  obtain ⟨⟨m, u⟩, hm, hrest⟩ := Option.bind_eq_some_iff.mp h
  obtain ⟨⟨k, v⟩, hk, heq⟩ := Option.map_eq_some_iff.mp hrest
  cases heq
  exact (scanInt_suffix hk).trans (scanInt_suffix hm)

/-- A token of the file is a field, made of bytes of the file. -/
theorem attempts_token {n : Nat} {file : Text} {a : Attempt} (ha : a ∈ attempts n file) :
    a.token ≠ [] ∧ (∀ b ∈ a.token, isSpace b = false) ∧ ∀ b ∈ a.token, b ∈ file := by
  induction n generalizing file with
  | zero => simp [attempts] at ha
  | succ n ih =>
    rw [attempts] at ha
    cases hscan : scanString file with
    | none => simp [hscan] at ha
    | some p =>
      obtain ⟨token, rest⟩ := p
      obtain ⟨ws, heq, -, hne, hspace, -⟩ := scanString_parts hscan
      have hbytes : ∀ b ∈ token, b ∈ file := by
        intro b hb
        rw [heq]
        simp [hb]
      have hrest : rest <:+ file := by
        rw [heq, ← List.append_assoc]
        exact List.suffix_append _ _
      simp only [hscan] at ha
      cases hnumbers : scanNumbers rest with
      | none =>
        simp only [hnumbers, List.mem_singleton] at ha
        subst ha
        exact ⟨hne, hspace, hbytes⟩
      | some q =>
        obtain ⟨stamp, time, file₁⟩ := q
        simp only [hnumbers] at ha
        rcases List.mem_cons.mp ha with rfl | ha
        · exact ⟨hne, hspace, hbytes⟩
        · -- a later call, on the rest of the file
          have hlater : a ∈ attempts n file₁ := by
            split at ha
            · simp at ha
            · exact ha
          obtain ⟨hne', hspace', hbytes'⟩ := ih hlater
          exact ⟨hne', hspace', fun b hb =>
            ((scanNumbers_suffix hnumbers).trans hrest).mem (hbytes' b hb)⟩

theorem forall₂_getElem? {α β : Type} {R : α → β → Prop} {l : List α} {k : List β}
    (h : List.Forall₂ R l k) {i : Nat} {b : β} (hi : k[i]? = some b) :
    ∃ a, l[i]? = some a ∧ R a b := by
  induction h generalizing i with
  | nil => simp at hi
  | cons hab _ ih =>
    cases i with
    | zero =>
      cases hi
      exact ⟨_, rfl, hab⟩
    | succ i => exact ih hi

/-- The name of an entry is the token it was read from, when the file has no NUL. -/
theorem LeaderboardEntry.ReadFrom.text_eq_name {e : LeaderboardEntry} {row : FileRow}
    (h : e.ReadFrom row) (hnul : 0 ∉ row.name) : e.text = row.name := by
  obtain ⟨rest, hname⟩ := h.name
  rw [LeaderboardEntry.text, hname]
  exact cString_append_zero hnul rest

theorem presentable_of_readFile {lb lb' : Leaderboard} {file : Text} {r : Int} (hnul : 0 ∉ file)
    (h : lb.readFile (some file) = .ok (r, lb')) : lb'.Presentable := by
  obtain ⟨hcalls, hentries, hcount⟩ := readFile_done h
  have hname : ∀ e ∈ lb'.table, ∃ a ∈ attempts 3 file, e.text = a.token := by
    intro e he
    obtain ⟨row, hrow, hread⟩ := exists_of_mem_forall₂ hentries he
    obtain ⟨a, ha, htoken, -⟩ := mem_completeRows.mp hrow
    have hnul' : 0 ∉ row.name := by
      rw [← htoken]
      exact fun hzero => hnul ((attempts_token ha).2.2 0 hzero)
    exact ⟨a, ha, (hread.text_eq_name hnul').trans htoken.symm⟩
  refine ⟨?_, fun e he => ?_, fun e he => ?_, fun e he => ?_⟩
  · rw [hcount, hentries.length_eq]
    exact length_completeRows_attempts 3 file
  · obtain ⟨a, ha, htext⟩ := hname e he
    exact htext ▸ (attempts_token ha).1
  · obtain ⟨a, ha, htext⟩ := hname e he
    exact htext ▸ (attempts_token ha).2.1
  · obtain ⟨a, ha, htext⟩ := hname e he
    exact htext ▸ (hcalls a ha).1

/-! ## What is written -/

theorem zero_not_mem_printNat (n : Nat) : 0 ∉ printNat n := by
  intro h
  exact absurd (digits_printNat n 0 h) (by decide)

theorem zero_not_mem_printInt (n : Int) : 0 ∉ printInt n := by
  rw [printInt]
  split
  · simp [zero_not_mem_printNat]
  · exact zero_not_mem_printNat _

theorem zero_not_mem_entriesText (es : List LeaderboardEntry) : 0 ∉ entriesText es := by
  intro h
  obtain ⟨e, -, he⟩ := List.mem_flatMap.mp h
  have hname : 0 ∉ e.fileRow.name := zero_not_mem_cString _
  simp [rowText, zero_not_mem_printInt, hname] at he

/-! ## One cycle, and any number of them -/

theorem cycle_eq_ok {lb : Leaderboard} {file : Text} {s : Leaderboard × Text}
    (h : Leaderboard.cycle (lb, file) = .ok s) :
    (∃ r, lb.readFile (some file) = .ok (r, s.1)) ∧ s.2 = entriesText s.1.entries.toList := by
  obtain ⟨⟨r, lb'⟩, hread, hrest⟩ := bind_eq_ok.mp h
  obtain ⟨⟨r', written⟩, hwrite, hret⟩ := bind_eq_ok.mp hrest
  obtain ⟨text, hprint, hret'⟩ := bind_eq_ok.mp hwrite
  cases hret'
  cases hret
  exact ⟨⟨r, hread⟩, (printEntries_eq_ok_iff.mp hprint).2⟩

/-- **One cycle makes a stamp 2000 years later**, and leaves a file without NULs. -/
theorem cycle_stamp {lb : Leaderboard} {file : Text} {s : Leaderboard × Text} {i : Nat} {t : Int64}
    (hnul : 0 ∉ file) (hrow : stampAt i file = some t) (ht : Storable t)
    (h : Leaderboard.cycle (lb, file) = .ok s) :
    0 ∉ s.2 ∧ ∃ t', stampAt i s.2 = some t' ∧ t'.toInt = t.toInt + 730485 * 86400 := by
  obtain ⟨⟨r, hread⟩, hfile⟩ := cycle_eq_ok h
  have hpresentable := presentable_of_readFile hnul hread
  obtain ⟨-, hentries, -⟩ := readFile_done hread
  obtain ⟨row, hrow', rfl⟩ := Option.map_eq_some_iff.mp hrow
  -- the entry read from the row, its date, and the stamp that date is written as
  obtain ⟨e, he, hreadFrom⟩ := forall₂_getElem? hentries hrow'
  obtain ⟨old, hdate⟩ := hreadFrom.date
  obtain ⟨dt, hdt, hlate⟩ := reload_toInt ht old
  obtain rfl := Except.ok.inj (hdate.symm.trans hdt)
  rw [hfile]
  refine ⟨zero_not_mem_entriesText _, rtcDateTimeToUnix e.dt_of_entry, ?_, hlate⟩
  have hlt : i < (s.1.table.map LeaderboardEntry.fileRow).length := by
    rw [List.length_map]
    exact (List.getElem?_eq_some_iff.mp he).1
  rw [stampAt, hpresentable.completeRows_file, List.getElem?_append_left hlt, List.getElem?_map, he]
  rfl

/-- **`n` cycles make it `n` times 2000 years later**, if all the years before the last load fit. -/
theorem cycles_stamp {n : Nat} {lb : Leaderboard} {file : Text} {s : Leaderboard × Text} {i : Nat}
    {t : Int64} (hnul : 0 ∉ file) (hrow : stampAt i file = some t) (h0 : 0 ≤ t.toInt)
    (hmax : t.toInt + n * (730485 * 86400) ≤ 2005949145599 + 730485 * 86400)
    (h : Leaderboard.cycles n (lb, file) = .ok s) :
    ∃ t', stampAt i s.2 = some t' ∧ t'.toInt = t.toInt + n * (730485 * 86400) := by
  induction n generalizing lb file t with
  | zero =>
    cases h
    exact ⟨t, hrow, by simp⟩
  | succ n ih =>
    obtain ⟨⟨lb₁, file₁⟩, hcycle, hrest⟩ := bind_eq_ok.mp h
    push_cast at hmax
    obtain ⟨hnul₁, t₁, hrow₁, ht₁⟩ := cycle_stamp hnul hrow ⟨h0, by omega⟩ hcycle
    obtain ⟨t', hrow', ht'⟩ := ih hnul₁ hrow₁ (by omega) (by omega) hrest
    refine ⟨t', hrow', ?_⟩
    push_cast
    omega

/-- The `i`-th stamp of the file is there, as it is, after any number of cycles. -/
def StaysStored (t : Int64) (lb : Leaderboard) (file : Text) (i : Nat) : Prop :=
  ∀ n, ∃ s, Leaderboard.cycles n (lb, file) = .ok s ∧ stampAt i s.2 = some t

/-- **No time of this century stays what it was.** The converters are 2000 years apart on it, and
    so is the file from one cycle to the next, up to the 32nd. -/
theorem stored_time_never_stays (t : Int64)
    (ht : 946684800 ≤ t.toInt ∧ t.toInt ≤ 4102444799) :
    (∀ old, ∃ dt, unixToRtcDateTime t old = .ok dt ∧
        (rtcDateTimeToUnix dt).toInt = t.toInt + 63113904000) ∧
      ∀ (lb : Leaderboard) (file : Text) (i : Nat), 0 ∉ file → stampAt i file = some t →
        (∀ n ≤ 32, ∀ s, Leaderboard.cycles n (lb, file) = .ok s →
          ∃ t', stampAt i s.2 = some t' ∧ t'.toInt = t.toInt + n * 63113904000) ∧
        ¬ StaysStored t lb file i := by
  obtain ⟨hmin, hmax⟩ := ht
  refine ⟨reload_toInt ⟨by omega, by omega⟩, fun lb file i hnul hrow => ?_⟩
  have hlate : ∀ n ≤ 32, ∀ s, Leaderboard.cycles n (lb, file) = .ok s →
      ∃ t', stampAt i s.2 = some t' ∧ t'.toInt = t.toInt + n * 63113904000 := by
    intro n hn s hs
    exact cycles_stamp hnul hrow (by omega) (by omega) hs
  refine ⟨hlate, fun hstays => ?_⟩
  -- one cycle is enough
  obtain ⟨s, hs, hsame⟩ := hstays 1
  obtain ⟨t', hrow', ht'⟩ := hlate 1 (by omega) s hs
  rw [hsame] at hrow'
  cases hrow'
  omega

/-- The file `A 946684800 10`, an entry of 1 January 2000. -/
def newYearFile : Text :=
  [65, 32, 57, 52, 54, 54, 56, 52, 56, 48, 48, 32, 49, 48, 10]

theorem stored_time_never_stays_new_year :
    stampAt 0 newYearFile = some 946684800 ∧ ¬ StaysStored 946684800 Leaderboard.cleared newYearFile 0 := by
  have hrow : stampAt 0 newYearFile = some 946684800 := by decide +kernel
  have hnul : 0 ∉ newYearFile := by decide
  exact ⟨hrow, ((stored_time_never_stays 946684800 (by decide)).2 _ _ _ hnul hrow).2⟩

/-- Read back, 1 January 2000 is 1 January 4000. -/
theorem new_year_is_not_kept :
    ¬ ∀ (t : Int64), 946684800 ≤ t.toInt ∧ t.toInt ≤ 4102444799 →
      (∀ old dt, unixToRtcDateTime t old = .ok dt → rtcDateTimeToUnix dt = t) ∧
        ∀ lb file i, 0 ∉ file → stampAt i file = some t → StaysStored t lb file i := by
  intro h
  obtain ⟨hinverse, -⟩ := h 946684800 (by decide)
  exact absurd (hinverse ⟨0, 0, 0, 0, 0, 0, 0⟩ ⟨0, 0, 0, 0, 1, 1, 2000⟩ (by decide +kernel))
    (by decide +kernel)

end Lcom

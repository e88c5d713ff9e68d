import Lcom.Proof.Leaderboard.Ranking

/-!
# The leaderboard file

`Leaderboard_read_file` takes the file apart with at most three `fscanf` calls. `attempts` lists
them as a property of the text alone: the token each call finds for the name, and the two numbers
behind it if they are there. `readLoop_outcome` says what the reader makes of that list:

* a token of more than three bytes overflows the name it is stored in;
* a stamp `gmtime` cannot convert is a null pointer the reader goes through;
* otherwise the entries are the rows of the list, one for each call that found all three fields.

Whether a file is safe to load (`readFile_wellFormed_iff`) is read off the list directly.
-/

namespace Lcom

open Lib

/-- One `fscanf` of the reader, on the text: the name it stores, and the stamp and the time when
    both conversions succeed. -/
structure Attempt where
  token : Text
  numbers : Option (Int64 × Int64)
  deriving DecidableEq, Repr

namespace Attempt

/-- The row has a stamp that no calendar year belongs to. -/
def Crashes (a : Attempt) : Prop := ∃ stamp time, a.numbers = some (stamp, time) ∧ gmtime stamp = none

/-- The token leaves room for its NUL. -/
def Fits (a : Attempt) : Prop := a.token.length ≤ 3

instance (a : Attempt) : Decidable a.Fits := inferInstanceAs (Decidable (_ ≤ _))

end Attempt

/-- The two number conversions of one `fscanf`. -/
def scanNumbers (file : Text) : Option (Int × Int × Text) :=
  (scanInt file).bind fun (stamp, file) =>
    (scanInt file).map fun (time, file) => (stamp, time, file)

/-- The calls a reader with room for `n` entries makes on a file. -/
def attempts : Nat → Text → List Attempt
  | 0, _ => []
  | n + 1, file =>
    match scanString file with
    | none => []
    | some (token, file) =>
      match scanNumbers file with
      | none => [⟨token, none⟩]
      | some (stamp, time, file) =>
        ⟨token, some (saturate stamp, saturate time)⟩ ::
          if gmtime (saturate stamp) = none then [] else attempts n file

/-- A row of the file: name, stamp, time. -/
structure FileRow where
  name : Text
  stamp : Int64
  time : Int64
  deriving DecidableEq, Repr

/-- The rows a list of calls completes. -/
def completeRows (as : List Attempt) : List FileRow :=
  as.filterMap fun a => a.numbers.map fun (stamp, time) => ⟨a.token, stamp, time⟩

/-- The entry was read from the row. -/
structure LeaderboardEntry.ReadFrom (e : LeaderboardEntry) (row : FileRow) : Prop where
  name : ∃ rest, e.name.toList = row.name ++ 0 :: rest
  date : ∃ old, unixToRtcDateTime row.stamp old = .ok e.dt_of_entry
  time : e.time_entry = row.time

/-- What the reader makes of the calls: `lb` is the table before them. -/
inductive ReadOutcome (lb : Leaderboard) (as : List Attempt) : Except Fault Leaderboard → Prop where
  | overflow (long : ∃ a ∈ as, ¬ a.Fits) : ReadOutcome lb as (.error .outOfBounds)
  | crash (fits : ∀ a ∈ as, a.Fits) (stamp : ∃ a ∈ as, a.Crashes) :
      ReadOutcome lb as (.error .nullDereference)
  | done (lb' : Leaderboard) (new : List LeaderboardEntry) (fits : ∀ a ∈ as, a.Fits)
      (stamps : ∀ a ∈ as, ¬ a.Crashes) (table : lb'.table = lb.table ++ new)
      (read : List.Forall₂ LeaderboardEntry.ReadFrom new (completeRows as))
      (count : lb'.entry_count.toNat = lb.entry_count.toNat + new.length) :
      ReadOutcome lb as (.ok lb')

/-! ## Storing at the end of the table -/

theorem entry_count_add_one {count : UInt8} (h : count.toNat < 3) :
    (count + 1).toNat = count.toNat + 1 := by
  rw [UInt8.toNat_add]
  have h1 : (1 : UInt8).toNat = 1 := rfl
  omega

namespace Leaderboard

theorem table_set_count {lb : Leaderboard} {entries : Vector LeaderboardEntry 3}
    (h : lb.entry_count.toNat < 3)
    (hsame : ∀ i (hi : i < lb.entry_count.toNat), entries[i] = lb.entries[i]) :
    table { lb with entries } = lb.table := by
  apply List.ext_getElem
  · simp [table]
  · intro i hi hi'
    rw [length_table (Nat.le_of_lt h)] at hi'
    simp only [table, List.getElem_take, Vector.getElem_toList]
    exact hsame i hi'

theorem table_push (lb : Leaderboard) (entries : Vector LeaderboardEntry 3)
    (h : lb.entry_count.toNat < 3)
    (hsame : ∀ i (hi : i < lb.entry_count.toNat), entries[i] = lb.entries[i]) :
    table ⟨entries, lb.entry_count + 1⟩ = lb.table ++ [entries[lb.entry_count.toNat]] := by
  rw [table, entry_count_add_one h, List.take_succ_eq_append_getElem (by simpa using h), Vector.getElem_toList]
  congr 1
  exact table_set_count h hsame

end Leaderboard

/-! ## The reader -/

/-- A call that completes its row, before the calls after it. -/
theorem ReadOutcome.cons {lb lb₁ : Leaderboard} {as : List Attempt} {o : Except Fault Leaderboard}
    {token : Text} {stamp time : Int64} {e : LeaderboardEntry} (h : ReadOutcome lb₁ as o)
    (hfit : token.length ≤ 3) (hstamp : gmtime stamp ≠ none)
    (htable : lb₁.table = lb.table ++ [e]) (he : e.ReadFrom ⟨token, stamp, time⟩)
    (hcount : lb₁.entry_count.toNat = lb.entry_count.toNat + 1) :
    ReadOutcome lb (⟨token, some (stamp, time)⟩ :: as) o := by
  have hcrash : ¬ (Attempt.mk token (some (stamp, time))).Crashes := by
    intro hex
    rcases hex with ⟨_, _, heq, hnone⟩
    cases heq
    exact hstamp hnone
  cases h with
  | overflow long =>
    obtain ⟨a, ha, hlong⟩ := long
    exact .overflow ⟨a, List.mem_cons_of_mem _ ha, hlong⟩
  | crash fits stamps =>
    obtain ⟨a, ha, hnone⟩ := stamps
    exact .crash (List.forall_mem_cons.mpr ⟨hfit, fits⟩) ⟨a, List.mem_cons_of_mem _ ha, hnone⟩
  | done lb' new fits stamps table read count =>
    refine .done lb' (e :: new) (List.forall_mem_cons.mpr ⟨hfit, fits⟩)
      (List.forall_mem_cons.mpr ⟨hcrash, stamps⟩) ?_ (.cons he read) ?_
    · rw [table, htable, List.append_assoc, List.singleton_append]
    · rw [count, hcount, List.length_cons]
      omega

/-- A call that stops the loop, with the table as it was. -/
theorem ReadOutcome.stop {lb lb' : Leaderboard} {token : Text} (hfit : token.length ≤ 3)
    (htable : lb'.table = lb.table) (hcount : lb'.entry_count = lb.entry_count) :
    ReadOutcome lb [⟨token, none⟩] (.ok lb') := by
  refine .done lb' [] (List.forall_mem_singleton.mpr hfit)
    (List.forall_mem_singleton.mpr ?_) (by rw [htable, List.append_nil]) .nil (by rw [hcount]; rfl)
  intro h
  rcases h with ⟨_, _, heq, _⟩
  cases heq

/-- A row is complete: the loop is left when the table is full, and goes on otherwise. -/
theorem ReadOutcome.push {n m : Nat} {lb : Leaderboard} {token : Text} {stamp time : Int64}
    {e : LeaderboardEntry} (file : Text) (hroom : lb.entry_count.toNat + (m + 1) = 3)
    (hfuel : m + 1 ≤ n + 1) (hfit : token.length ≤ 3) (hstamp : gmtime stamp ≠ none)
    (he : e.ReadFrom ⟨token, stamp, time⟩)
    (ih : ∀ {m : Nat} {lb : Leaderboard} (file : Text), lb.entry_count.toNat + (m + 1) = 3 →
      m + 1 ≤ n → ReadOutcome lb (attempts (m + 1) file) (Leaderboard.readLoop n lb file)) :
    ReadOutcome lb (⟨token, some (stamp, time)⟩ :: attempts m file)
      (if lb.entry_count + 1 ≥ 3 then
        pure ⟨lb.entries.set lb.entry_count.toNat e (by omega), lb.entry_count + 1⟩
      else Leaderboard.readLoop n
        ⟨lb.entries.set lb.entry_count.toNat e (by omega), lb.entry_count + 1⟩ file) := by
  have h3 : lb.entry_count.toNat < 3 := by omega
  have hcount := entry_count_add_one h3
  have htable := Leaderboard.table_push lb (lb.entries.set lb.entry_count.toNat e) h3
    fun i hi => Vector.getElem_set_ne _ _ (by omega)
  rw [Vector.getElem_set_self] at htable
  have hfull : lb.entry_count + 1 ≥ 3 ↔ 3 ≤ lb.entry_count.toNat + 1 := by
    rw [ge_iff_le, UInt8.le_iff_toNat_le, hcount]
    rfl
  cases m with
  | zero =>
    rw [if_pos (hfull.mpr (by omega))]
    refine .cons (.done _ [] (by simp [attempts]) (by simp [attempts]) (List.append_nil _).symm
      .nil rfl) hfit hstamp htable he hcount
  | succ m =>
    rw [if_neg fun h => absurd (hfull.mp h) (by omega)]
    exact .cons (ih file (by rw [hcount]; omega) (by omega)) hfit hstamp htable he hcount

/-- **The reader does what the calls say.** `m + 1` is the room left in the table, and any fuel
    from there on gives the same. -/
theorem readLoop_outcome {n m : Nat} {lb : Leaderboard} (file : Text)
    (hroom : lb.entry_count.toNat + (m + 1) = 3) (hfuel : m + 1 ≤ n) :
    ReadOutcome lb (attempts (m + 1) file) (Leaderboard.readLoop n lb file) := by
  induction n generalizing m lb file with
  | zero => omega
  | succ n ih =>
    have h3 : lb.entry_count.toNat < 3 := by omega
    rw [attempts, Leaderboard.readLoop]
    cases hs : scanString file with
    | none => exact .done lb [] (by simp) (by simp) (by simp) .nil rfl
    | some p =>
      obtain ⟨token, file₁⟩ := p
      dsimp only
      rw [load_of_lt h3, ok_bind]
      by_cases hfit : token.length ≤ 3
      · rw [storeString_of_lt (show token.length < 4 by omega), ok_bind, store_of_lt h3, ok_bind]
        rw [scanNumbers]
        cases hd : scanInt file₁ with
        | none =>
          -- the name is stored all the same, but behind the entries in use
          refine .stop hfit (Leaderboard.table_set_count h3 fun i hi => ?_) rfl
          rw [Vector.getElem_set_ne _ _ (by omega)]
        | some q =>
          obtain ⟨dt_entry, file₂⟩ := q
          cases ht : scanInt file₂ with
          | none =>
            simp only [Option.bind_some, ht, Option.map_none]
            refine .stop hfit (Leaderboard.table_set_count h3 fun i hi => ?_) rfl
            rw [Vector.getElem_set_ne _ _ (by omega)]
          | some q =>
            obtain ⟨time_entry, file₃⟩ := q
            simp only [Option.bind_some, ht, Option.map_some]
            cases htm : gmtime (saturate dt_entry) with
            | none =>
              -- the reader goes through the NULL
              unfold unixToRtcDateTime
              rw [htm, if_pos rfl]
              exact .crash (List.forall_mem_singleton.mpr hfit)
                ⟨_, List.mem_singleton_self _, _, _, rfl, htm⟩
            | some tm =>
              have hdate : ∃ dt, unixToRtcDateTime (saturate dt_entry)
                  lb.entries[lb.entry_count.toNat].dt_of_entry = .ok dt := by
                unfold unixToRtcDateTime
                rw [htm]
                exact ⟨_, rfl⟩
              obtain ⟨dt, hdate⟩ := hdate
              rw [if_neg (by simp), hdate, ok_bind, store_of_lt h3, ok_bind]
              exact .push file₃ hroom hfuel hfit (by simp [htm]) ⟨⟨_, rfl⟩, ⟨_, hdate⟩, rfl⟩ ih
      · rw [storeString_of_le (show 4 ≤ token.length by omega)]
        cases scanNumbers file₁ with
        | none => exact .overflow ⟨_, List.mem_singleton_self _, hfit⟩
        | some q => exact .overflow ⟨_, List.mem_cons_self, hfit⟩

theorem readLoop_file (lb : Leaderboard) (file : Text) :
    ReadOutcome { lb with entry_count := 0 } (attempts 3 file)
      (Leaderboard.readLoop 3 { lb with entry_count := 0 } file) :=
  readLoop_outcome file rfl (le_refl _)

theorem readFile_eq_ok_iff {lb lb' : Leaderboard} {file : Text} {r : Int} :
    lb.readFile (some file) = .ok (r, lb') ↔
      r = 0 ∧ Leaderboard.readLoop 3 { lb with entry_count := 0 } file = .ok lb' := by
  rw [Leaderboard.readFile]
  cases Leaderboard.readLoop 3 { lb with entry_count := 0 } file with
  | error f => simp [bind, Except.bind]
  | ok lb₁ =>
    rw [ok_bind]
    constructor
    · intro h
      cases h
      exact ⟨rfl, rfl⟩
    · intro hex
      rcases hex with ⟨rfl, h⟩
      cases h
      rfl

theorem readFile_eq_error_iff {lb : Leaderboard} {file : Text} {f : Fault} :
    lb.readFile (some file) = .error f ↔
      Leaderboard.readLoop 3 { lb with entry_count := 0 } file = .error f := by
  rw [Leaderboard.readFile]
  cases Leaderboard.readLoop 3 { lb with entry_count := 0 } file with
  | error f' => simp [bind, Except.bind]
  | ok lb₁ => simp [bind, Except.bind, pure, Except.pure]

/-- **A load that returns.** Every name fitted, every stamp was a date, and the entries in use are
    the rows of the file. -/
theorem readFile_done {lb lb' : Leaderboard} {file : Text} {r : Int}
    (h : lb.readFile (some file) = .ok (r, lb')) :
    (∀ a ∈ attempts 3 file, a.Fits ∧ ¬ a.Crashes) ∧
      List.Forall₂ LeaderboardEntry.ReadFrom lb'.table (completeRows (attempts 3 file)) ∧
      lb'.entry_count.toNat = lb'.table.length := by
  have houtcome := readLoop_file lb file
  rw [(readFile_eq_ok_iff.mp h).2] at houtcome
  cases houtcome with
  | done _ new fits stamps table read count =>
    have htable : lb'.table = new := by
      rw [table]
      exact List.nil_append _
    rw [htable]
    refine ⟨fun a ha => ⟨fits a ha, stamps a ha⟩, read, ?_⟩
    rw [count]
    exact Nat.zero_add _

/-- Nothing else can keep a load from returning. -/
theorem readFile_returns (lb : Leaderboard) {file : Text}
    (h : ∀ a ∈ attempts 3 file, a.Fits ∧ ¬ a.Crashes) :
    ∃ lb', lb.readFile (some file) = .ok (0, lb') := by
  have houtcome := readLoop_file lb file
  cases hloop : Leaderboard.readLoop 3 { lb with entry_count := 0 } file with
  | ok lb' => exact ⟨lb', readFile_eq_ok_iff.mpr ⟨rfl, hloop⟩⟩
  | error f =>
    rw [hloop] at houtcome
    cases houtcome with
    | overflow long =>
      obtain ⟨a, ha, hlong⟩ := long
      exact absurd (h a ha).1 hlong
    | crash _ stamp =>
      obtain ⟨a, ha, hcrash⟩ := stamp
      exact absurd hcrash (h a ha).2

theorem exists_of_mem_forall₂ {α β : Type} {R : α → β → Prop} {l : List α} {k : List β}
    (h : List.Forall₂ R l k) {a : α} (ha : a ∈ l) : ∃ b ∈ k, R a b := by
  induction h with
  | nil => simp at ha
  | cons hab _ ih =>
    rcases List.mem_cons.mp ha with rfl | ha
    · exact ⟨_, List.mem_cons_self, hab⟩
    · obtain ⟨b, hb, hR⟩ := ih ha
      exact ⟨b, List.mem_cons_of_mem _ hb, hR⟩

theorem mem_completeRows {as : List Attempt} {row : FileRow} :
    row ∈ completeRows as ↔
      ∃ a ∈ as, a.token = row.name ∧ a.numbers = some (row.stamp, row.time) := by
  rw [completeRows, List.mem_filterMap]
  constructor
  · rintro ⟨a, ha, hrow⟩
    obtain ⟨⟨stamp, time⟩, hnumbers, rfl⟩ := Option.map_eq_some_iff.mp hrow
    exact ⟨a, ha, rfl, hnumbers⟩
  · rintro ⟨a, ha, hname, hnumbers⟩
    exact ⟨a, ha, by rw [hnumbers, Option.map_some, hname]⟩

theorem times_of_readFrom {new : List LeaderboardEntry} {rows : List FileRow}
    (h : List.Forall₂ LeaderboardEntry.ReadFrom new rows) :
    new.map (·.time_entry) = rows.map (·.time) := by
  induction h with
  | nil => rfl
  | cons he _ ih => rw [List.map_cons, List.map_cons, he.time, ih]

/-! ## What a loaded table satisfies -/

/-- The entries in use are ranked. -/
def Leaderboard.InOrder (lb : Leaderboard) : Prop :=
  (lb.table.map (·.time_entry)).Pairwise (· ≤ ·)

/-- Loading stores no name outside its field, and a table that was loaded is within its size and
    in order. -/
structure SafelyLoaded (lb : Leaderboard) (file : Text) : Prop where
  stores : lb.readFile (some file) ≠ .error .outOfBounds
  count : ∀ lb', lb.readFile (some file) = .ok (0, lb') → lb'.entry_count.toNat ≤ 3
  order : ∀ lb', lb.readFile (some file) = .ok (0, lb') → lb'.InOrder

theorem length_completeRows_attempts (n : Nat) (file : Text) :
    (completeRows (attempts n file)).length ≤ n := by
  induction n generalizing file with
  | zero => simp [attempts, completeRows]
  | succ n ih =>
    rw [attempts]
    cases scanString file with
    | none => simp [completeRows]
    | some p =>
      obtain ⟨token, file₁⟩ := p
      dsimp only
      cases scanNumbers file₁ with
      | none => simp [completeRows]
      | some q =>
        obtain ⟨stamp, time, file₂⟩ := q
        dsimp only
        split
        · simp [completeRows]
        · simpa [completeRows] using ih file₂

/-- **A file is loaded safely exactly when its names fit and its rows are ranked.** The reader
    gets to at most three names. All of them must leave room for the NUL, and the rows it
    completes must be in order — unless a stamp no year belongs to stops the program first. -/
theorem readFile_safe_iff (lb : Leaderboard) (file : Text) :
    SafelyLoaded lb file ↔
      (∀ a ∈ attempts 3 file, a.Fits) ∧
        ((∃ a ∈ attempts 3 file, a.Crashes) ∨
          ((completeRows (attempts 3 file)).map (·.time)).Pairwise (· ≤ ·)) := by
  constructor
  · intro h
    have houtcome := readLoop_file lb file
    cases hread : Leaderboard.readLoop 3 { lb with entry_count := 0 } file with
    | error f =>
      rw [hread] at houtcome
      cases houtcome with
      | overflow _ => exact absurd (readFile_eq_error_iff.mpr hread) h.stores
      | crash fits stamp => exact ⟨fits, .inl stamp⟩
    | ok lb' =>
      have hload := readFile_eq_ok_iff.mpr ⟨rfl, hread⟩
      obtain ⟨hcalls, hentries, -⟩ := readFile_done hload
      have horder := h.order lb' hload
      rw [Leaderboard.InOrder, times_of_readFrom hentries] at horder
      exact ⟨fun a ha => (hcalls a ha).1, .inr horder⟩
  · intro h
    rcases h with ⟨hfits, hstop⟩
    refine ⟨fun herr => ?_, fun lb' hok => ?_, fun lb' hok => ?_⟩
    · have houtcome := readLoop_file lb file
      rw [readFile_eq_error_iff.mp herr] at houtcome
      cases houtcome with
      | overflow long =>
        obtain ⟨a, ha, hlong⟩ := long
        exact hlong (hfits a ha)
    · obtain ⟨-, hentries, hcount⟩ := readFile_done hok
      rw [hcount, hentries.length_eq]
      exact length_completeRows_attempts 3 file
    · obtain ⟨hcalls, hentries, -⟩ := readFile_done hok
      have hranked := hstop.resolve_left fun ⟨a, ha, hcrash⟩ => (hcalls a ha).2 hcrash
      rw [Leaderboard.InOrder, times_of_readFrom hentries]
      exact hranked

/-- The file `ABCD 0 1`: the NUL of the name lands in the field behind it. -/
theorem long_name_overflows : ¬ ∀ (lb : Leaderboard) (file : Text), SafelyLoaded lb file := by
  intro h
  have hstores := (h Leaderboard.cleared [65, 66, 67, 68, 32, 48, 32, 49, 10]).stores
  exact hstores (by decide +kernel)

end Lcom

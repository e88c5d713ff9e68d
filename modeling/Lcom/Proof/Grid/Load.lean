import Lcom.Grid.Grid
import Lcom.Lib.Table

/-!
# What a load stores, and where

`storeLines` is the row loop of `grid_init` over the pieces that `fgets` hands it, and two facts
describe it: the stores it makes (`mem_stores_storeLines`) and the rows it leaves
(`getElem?_rows_storeLines`). Neither asks for a bound, so the three results on `grid_init` only
differ in what they ask of the file.
-/

namespace Lcom

open Lib

namespace GridReading

/-- The characters of the buffer that `grid_init` stores, for one piece of the file. -/
def lineText (piece : Text) : Text := cString (piece ++ [0])

/-- The row loop over the pieces of the file, the first of them going to row `y`. -/
def storeLines : Nat → List Text → GridReading → GridReading
  | _, [], reading => reading
  | y, piece :: pieces, reading =>
    storeLines (y + 1) pieces (reading.readLine y 0 (lineText piece))

theorem readRows_eq_storeLines (todo y : Nat) (file : Text) (reading : GridReading) :
    readRows todo y file reading = storeLines y (pieces 99 todo file) reading := by
  induction todo generalizing y file reading with
  | zero => rfl
  | succ todo ih =>
    rw [readRows, pieces]
    cases fgets 99 file with
    | none => rfl
    | some p => exact ih (y + 1) p.2 _

/-! ## The stores -/

theorem stores_readLine (y i : Nat) (text : Text) (reading : GridReading) :
    (readLine y i text reading).stores =
      reading.stores ++ (text.zipIdx i).map fun p => ⟨y, p.2, p.1⟩ := by
  induction text generalizing i reading with
  | nil => simp [readLine]
  | cons c text ih => simp [readLine, ih, storeCell]

theorem mem_stores_readLine {y : Nat} {text : Text} {reading : GridReading} {store : GridStore} :
    store ∈ (readLine y 0 text reading).stores ↔
      store ∈ reading.stores ∨ store.y = y ∧ text[store.i]? = some store.c := by
  rw [stores_readLine, List.mem_append, List.mem_map]
  refine or_congr Iff.rfl ?_
  constructor
  · intro h
    obtain ⟨p, hp, rfl⟩ := h
    exact ⟨rfl, List.mem_zipIdx_iff_getElem?.mp hp⟩
  · intro h
    obtain ⟨rfl, hc⟩ := h
    exact ⟨(store.c, store.i), List.mem_zipIdx_iff_getElem?.mpr hc, rfl⟩

/-- Each piece is stored from the start of its own row, as far as its text goes. -/
theorem mem_stores_storeLines {y : Nat} {lines : List Text} {reading : GridReading}
    {store : GridStore} :
    store ∈ (storeLines y lines reading).stores ↔
      store ∈ reading.stores ∨ ∃ k piece, lines[k]? = some piece ∧ store.y = y + k ∧
        (lineText piece)[store.i]? = some store.c := by
  induction lines generalizing y reading with
  | nil => simp [storeLines]
  | cons piece lines ih =>
    rw [storeLines, ih, mem_stores_readLine]
    constructor
    · intro h
      rcases h with (h | ⟨hy, hc⟩) | ⟨k, piece', hk, hy, hc⟩
      · exact .inl h
      · exact .inr ⟨0, piece, rfl, hy, hc⟩
      · exact .inr ⟨k + 1, piece', hk, by omega, hc⟩
    · intro h
      rcases h with h | ⟨k, piece', hk, hy, hc⟩
      · exact .inl (.inl h)
      · cases k with
        | zero =>
          obtain rfl : piece = piece' := Option.some.inj hk
          exact .inl (.inr ⟨hy, hc⟩)
        | succ k => exact .inr ⟨k, piece', hk, by omega, hc⟩

/-! ## The rows -/

/-- A row after a text has been stored into it, as far as the row goes. -/
def overlay (row text : List UInt8) : List UInt8 := text.take row.length ++ row.drop text.length

@[simp] theorem length_overlay (row text : List UInt8) :
    (overlay row text).length = row.length := by
  rw [overlay, List.length_append, List.length_take, List.length_drop]
  omega

theorem getElem?_overlay {row text : List UInt8} {i : Nat} (hi : i < row.length) :
    (overlay row text)[i]? = if i < text.length then text[i]? else row[i]? := by
  unfold overlay
  rw [List.getElem?_append, List.length_take, List.getElem?_take, List.getElem?_drop]
  by_cases h : i < text.length
  · rw [if_pos h, if_pos hi, if_pos (by omega)]
  · rw [if_neg h, if_neg (by omega)]
    congr 1
    omega

theorem overlay_drop_set (row : List UInt8) (i : Nat) (c : UInt8) (text : Text) :
    (row.set i c).take (i + 1) ++ overlay ((row.set i c).drop (i + 1)) text =
      row.take i ++ overlay (row.drop i) (c :: text) := by
  induction row generalizing i with
  | nil => simp [overlay]
  | cons a row ih =>
    cases i with
    | zero => simp [overlay]
    | succ i => simpa using ih i

theorem rows_readLine (y i : Nat) (text : Text) (reading : GridReading) :
    (readLine y i text reading).rows = reading.rows.modify y fun row =>
      row.take i ++ overlay (row.drop i) text := by
  induction text generalizing i reading with
  | nil =>
    have hid : (fun row : List UInt8 => row.take i ++ overlay (row.drop i) []) = id := by
      funext row
      simp [overlay]
    rw [readLine, hid, List.modify_id]
  | cons c text ih =>
    rw [readLine, ih, storeCell]
    dsimp only
    rw [List.modify_modify_eq]
    congr 1
    funext row
    exact overlay_drop_set row i c text

/-- A row keeps what it holds unless a piece of the file falls on it. -/
theorem getElem?_rows_storeLines (y : Nat) (lines : List Text) (reading : GridReading) (k : Nat) :
    (storeLines y lines reading).rows[k]? = reading.rows[k]?.map fun row =>
      if y ≤ k then (lines[k - y]?.map lineText).elim row (overlay row) else row := by
  induction lines generalizing y reading with
  | nil => simp [storeLines]
  | cons piece lines ih =>
    rw [storeLines, ih, rows_readLine, List.getElem?_modify, Option.map_eq_map, Option.map_map]
    refine Option.map_congr fun row _ => ?_
    rcases Nat.lt_trichotomy k y with hk | hk | hk
    · rw [Function.comp, if_neg (by omega), if_neg (by omega), if_neg (by omega)]
    · subst hk
      simp [Function.comp]
    · obtain ⟨d, rfl⟩ := Nat.exists_eq_add_of_lt hk
      have hd : y + d + 1 - y = d + 1 := by omega
      have hd' : y + d + 1 - (y + 1) = d := by omega
      have hne : ¬ y = y + d + 1 := by omega
      rw [Function.comp, if_neg hne, if_pos (by omega), if_pos (by omega), hd, hd',
        List.getElem?_cons_succ]

/-- The stores never change the size of a row. -/
theorem sized_storeLines {y height width : Nat} {lines : List Text} {reading : GridReading}
    (h : Table.Sized reading.rows height width) :
    Table.Sized (storeLines y lines reading).rows height width := by
  refine { height := ?_, width := fun row hrow => ?_ }
  · have hnone : ∀ k, (storeLines y lines reading).rows[k]? = none ↔ height ≤ k := by
      intro k
      rw [getElem?_rows_storeLines, Option.map_eq_none_iff, List.getElem?_eq_none_iff, h.height]
    apply Nat.le_antisymm
    · exact List.getElem?_eq_none_iff.mp ((hnone _).mpr (le_refl _))
    · exact (hnone _).mp (List.getElem?_eq_none_iff.mpr (le_refl _))
  · obtain ⟨k, hk⟩ := List.mem_iff_getElem?.mp hrow
    rw [getElem?_rows_storeLines] at hk
    obtain ⟨old, hold, rfl⟩ := Option.map_eq_some_iff.mp hk
    have hwidth := h.width old (List.mem_of_getElem? hold)
    split
    · cases lines[k - y]? with
      | none => exact hwidth
      | some piece => exact (length_overlay _ _).trans hwidth
    · exact hwidth

end GridReading

open GridReading Table

/-! ## A load, by its header -/

/-- The header as `sscanf` sees it. -/
def headerLine (file : Text) : Text := lineText (takeLine 99 file).1

/-- The pieces of the file that are stored into the rows of a level of height `y_size`. -/
def levelPieces (y_size : UInt8) (file : Text) : List Text :=
  pieces 99 y_size.toNat (takeLine 99 file).2

/-- The header gives both sizes. -/
def ReadsSizes (file : Text) (x_size y_size : UInt8) : Prop :=
  ∃ s, scanByte (headerLine file) = some (x_size, s) ∧ (scanByte s).map Prod.fst = some y_size

/-- The header gives a width and no height. -/
def ReadsWidth (file : Text) (x_size : UInt8) : Prop :=
  ∃ s, scanByte (headerLine file) = some (x_size, s) ∧ scanByte s = none

theorem header_cases (file : Text) :
    (∃ x_size y_size, ReadsSizes file x_size y_size) ∨ (∃ x_size, ReadsWidth file x_size) ∨
      scanByte (headerLine file) = none := by
  cases hx : scanByte (headerLine file) with
  | none => exact .inr (.inr rfl)
  | some p =>
    cases hy : scanByte p.2 with
    | none => exact .inr (.inl ⟨p.1, p.2, hx, hy⟩)
    | some q => exact .inl ⟨p.1, q.1, p.2, hx, by rw [hy]; rfl⟩

theorem gridInit_some {file : Text} (hfile : file ≠ []) (grid : GridInfo) (granted : Nat → Bool) :
    gridInit grid (some file) granted =
      if (scanDimensions grid (headerLine file)).1 ≠ 2 then
        .ok { code := 1, grid := (scanDimensions grid (headerLine file)).2, stores := [] }
      else loadRows (scanDimensions grid (headerLine file)).2 (takeLine 99 file).2 granted := by
  have hline : fgets 99 file = some (takeLine 99 file) := if_neg hfile
  unfold gridInit
  dsimp only
  rw [hline]
  rfl

theorem ne_nil_of_scanByte {file : Text} {p : UInt8 × Text}
    (h : scanByte (headerLine file) = some p) : file ≠ [] := by
  intro hfile
  subst hfile
  cases h

theorem gridInit_of_sizes {file : Text} {x_size y_size : UInt8} (h : ReadsSizes file x_size y_size)
    (grid : GridInfo) (granted : Nat → Bool) :
    gridInit grid (some file) granted =
      loadRows { grid with x_size, y_size } (takeLine 99 file).2 granted := by
  obtain ⟨s, hx, hy⟩ := h
  obtain ⟨q, hq, rfl⟩ := Option.map_eq_some_iff.mp hy
  have hscan : scanDimensions grid (headerLine file) = (2, { grid with x_size, y_size := q.1 }) := by
    simp only [scanDimensions, hx, hq]
  rw [gridInit_some (ne_nil_of_scanByte hx), hscan]
  rfl

theorem gridInit_of_width {file : Text} {x_size : UInt8} (h : ReadsWidth file x_size)
    (grid : GridInfo) (granted : Nat → Bool) :
    gridInit grid (some file) granted =
      .ok { code := 1, grid := { grid with x_size }, stores := [] } := by
  obtain ⟨s, hx, hy⟩ := h
  have hscan : scanDimensions grid (headerLine file) = (1, { grid with x_size }) := by
    simp only [scanDimensions, hx, hy]
  rw [gridInit_some (ne_nil_of_scanByte hx), hscan]
  rfl

theorem gridInit_of_none {file : Text} (h : scanByte (headerLine file) = none)
    (grid : GridInfo) (granted : Nat → Bool) :
    gridInit grid (some file) granted = .ok { code := 1, grid, stores := [] } := by
  by_cases hfile : file = []
  · subst hfile
    rfl
  · have hscan : scanDimensions grid (headerLine file) = (0, grid) := by
      simp only [scanDimensions, h]
    rw [gridInit_some hfile, hscan]
    rfl

/-- The rows as allocated: spaces, and nothing stored yet. -/
def blankRows (x_size y_size : UInt8) : GridReading :=
  { rows := List.replicate y_size.toNat (List.replicate x_size.toNat 32), stores := [] }

theorem mallocRows_eq_ok {x_size : UInt8} {granted : Nat → Bool} {todo i : Nat}
    {rows : List (List UInt8)} (h : mallocRows x_size granted todo i = .ok rows) :
    rows = List.replicate todo (List.replicate x_size.toNat 32) := by
  induction todo generalizing i rows with
  | zero =>
    cases h
    rfl
  | succ todo ih =>
    rw [mallocRows] at h
    split at h
    · obtain ⟨rows', hrows', hrows⟩ := bind_eq_ok.mp h
      cases hrows
      rw [ih hrows', List.replicate_succ]
    · cases h

theorem mallocRows_granted {x_size : UInt8} {granted : Nat → Bool} {todo i : Nat}
    (h : ∀ j, i < j → j ≤ i + todo → granted j = true) :
    mallocRows x_size granted todo i =
      .ok (List.replicate todo (List.replicate x_size.toNat 32)) := by
  induction todo generalizing i with
  | zero => rfl
  | succ todo ih =>
    rw [mallocRows, h (i + 1) (by omega) (by omega), ih fun j hj hle => h j (by omega) (by omega)]
    rfl

/-- A grid with its rows read from the file. -/
def loadedGrid (grid : GridInfo) (reading : GridReading) : GridLoad :=
  { code := 0, grid := { grid with objects := some reading.rows }, stores := reading.stores }

theorem loadRows_eq_ok {grid : GridInfo} {file : Text} {granted : Nat → Bool} {load : GridLoad}
    (h : loadRows grid file granted = .ok load) :
    load = loadedGrid grid
        (storeLines 0 (pieces 99 grid.y_size.toNat file) (blankRows grid.x_size grid.y_size)) ∨
      grid.y_size = 0 ∧ load = { code := 0, grid := { grid with objects := none }, stores := [] } := by
  unfold loadRows at h
  split at h
  · obtain ⟨rows, hrows, hload⟩ := bind_eq_ok.mp h
    cases hload
    left
    rw [mallocRows_eq_ok hrows, readRows_eq_storeLines]
    rfl
  · split at h
    · rename_i hy
      cases h
      exact .inr ⟨hy, rfl⟩
    · cases h

theorem loadRows_granted {grid : GridInfo} {file : Text} {granted : Nat → Bool}
    (h : ∀ i ≤ grid.y_size.toNat, granted i = true) :
    loadRows grid file granted = .ok (loadedGrid grid
      (storeLines 0 (pieces 99 grid.y_size.toNat file) (blankRows grid.x_size grid.y_size))) := by
  unfold loadRows
  rw [if_pos (h 0 (Nat.zero_le _)), mallocRows_granted fun j _ hj => h j (by omega), ok_bind,
    readRows_eq_storeLines]
  rfl

/-! ## Stores inside the grid -/

/-- **The bound of the stores.** The rows are as wide as the header says and the stores go as far as
    the text in the buffer, its newline included. -/
theorem gridInit_stores_inside_iff {grid : GridInfo} {file : Text} {granted : Nat → Bool}
    {load : GridLoad} {x_size y_size : UInt8} (hsizes : ReadsSizes file x_size y_size)
    (hload : gridInit grid (some file) granted = .ok load) :
    (∀ store ∈ load.stores,
        store.y < load.grid.y_size.toNat ∧ store.i < load.grid.x_size.toNat) ↔
      ∀ piece ∈ levelPieces y_size file, (lineText piece).length ≤ x_size.toNat := by
  rw [gridInit_of_sizes hsizes] at hload
  rcases loadRows_eq_ok hload with hload | ⟨hy, hload⟩
  · subst hload
    change (∀ store ∈ (storeLines 0 (levelPieces y_size file) (blankRows x_size y_size)).stores,
      store.y < y_size.toNat ∧ store.i < x_size.toNat) ↔ _
    constructor
    · intro h piece hpiece
      obtain ⟨k, hk⟩ := List.mem_iff_getElem?.mp hpiece
      by_contra hlong
      have hlast : x_size.toNat < (lineText piece).length := by omega
      have hstore := mem_stores_storeLines.mpr (.inr ⟨k, piece, hk, rfl,
        List.getElem?_eq_getElem hlast⟩ :
          (⟨0 + k, x_size.toNat, (lineText piece)[x_size.toNat]⟩ : GridStore) ∈
            (blankRows x_size y_size).stores ∨ _)
      exact absurd (h _ hstore).2 (lt_irrefl _)
    · intro h store hstore
      rcases mem_stores_storeLines.mp hstore with hnone | ⟨k, piece, hk, hy, hc⟩
      · cases hnone
      · have hkl : k < (levelPieces y_size file).length := (List.getElem?_eq_some_iff.mp hk).1
        have hil : store.i < (lineText piece).length := (List.getElem?_eq_some_iff.mp hc).1
        have hcount := length_pieces_le 99 y_size.toNat (takeLine 99 file).2
        have hwidth := h piece (List.mem_of_getElem? hk)
        rw [levelPieces] at hkl
        omega
  · subst hload
    have hzero : y_size = 0 := hy
    subst hzero
    simp [levelPieces, pieces]

/-- The level of one cell, `"1 1\nA\n"`. -/
def oneCell : Text := [49, 32, 49, 10, 65, 10]

theorem oneCell_sizes : ReadsSizes oneCell 1 1 := by
  refine ⟨[32, 49, 10], by decide +kernel, by decide +kernel⟩

theorem gridInit_oneCell :
    gridInit .startup (some oneCell) (fun _ => true) =
      .ok { code := 0, grid := ⟨1, 1, some [[65]]⟩, stores := [⟨0, 0, 65⟩, ⟨0, 1, 10⟩] } := by
  decide +kernel

/-- Even there the newline goes to the cell behind the row. -/
theorem gridInit_stores_newline :
    ¬ ∀ grid file granted load x_size y_size, ReadsSizes file x_size y_size →
      gridInit grid (some file) granted = .ok load →
      ∀ store ∈ load.stores,
        store.y < load.grid.y_size.toNat ∧ store.i < load.grid.x_size.toNat := by
  intro h
  have hstore := h _ _ _ _ _ _ oneCell_sizes gridInit_oneCell ⟨0, 1, 10⟩ (by decide)
  exact absurd hstore.2 (by decide)

/-- A row one character short of its width has room for the newline. -/
theorem gridInit_stores_inside_short :
    ∃ load, gridInit .startup (some [50, 32, 49, 10, 65, 10]) (fun _ => true) = .ok load ∧
      ∀ store ∈ load.stores,
        store.y < load.grid.y_size.toNat ∧ store.i < load.grid.x_size.toNat := by
  have hsizes : ReadsSizes [50, 32, 49, 10, 65, 10] 2 1 :=
    ⟨[32, 49, 10], by decide +kernel, by decide +kernel⟩
  have hload : gridInit .startup (some [50, 32, 49, 10, 65, 10]) (fun _ => true) =
      .ok { code := 0, grid := ⟨2, 1, some [[65, 10]]⟩,
            stores := [⟨0, 0, 65⟩, ⟨0, 1, 10⟩] } := by decide +kernel
  exact ⟨_, hload, (gridInit_stores_inside_iff hsizes hload).mpr (by decide +kernel)⟩

/-! ## Levels as they are written -/

/-- A level file: the header, then the rows one per line. -/
def levelFile (x_size y_size : UInt8) (rows : List Text) : Text :=
  printNat x_size.toNat ++ [32] ++ printNat y_size.toNat ++ [10] ++ rows.flatMap (· ++ [10])

/-- The matrix of a level: of the stated sizes, without a newline or a NUL in it. -/
structure LevelRows (x_size y_size : UInt8) (rows : List Text) : Prop where
  sized : Sized rows y_size.toNat x_size.toNat
  line : ∀ row ∈ rows, 10 ∉ row
  nonzero : ∀ row ∈ rows, 0 ∉ row

theorem lineText_of_nonzero {piece : Text} (h : 0 ∉ piece) : lineText piece = piece :=
  cString_append_zero h []

theorem length_printNat_byte (n : UInt8) : (printNat n.toNat).length ≤ 3 := by
  have hlt : n.toNat < 256 := n.toNat_lt
  have hall : ∀ n < 256, (printNat n).length ≤ 3 := by decide +kernel
  exact hall _ hlt

theorem not_mem_printNat {b : UInt8} (hb : isDigit b = false) (n : Nat) : b ∉ printNat n := by
  intro h
  rw [digits_printNat n b h] at hb
  cases hb

theorem scanByte_printNat (n : UInt8) {ws s : Text} (hws : Blank ws) (hs : EndsNumber s) :
    scanByte (ws ++ (printNat n.toNat ++ s)) = some (n, s) := by
  have hprint : printInt (n.toNat : Int) = printNat n.toNat := by
    rw [printInt, if_neg (by omega)]
    rfl
  have hlt : n.toNat < 256 := n.toNat_lt
  have hbyte : UInt8.ofInt (n.toNat : Int) = n := by
    have hmod : ((n.toNat : Int) % 2 ^ 8).toNat = n.toNat := by omega
    rw [UInt8.ofInt, hmod, UInt8.ofNat_toNat]
  unfold scanByte
  rw [scanInt_blank hws, ← hprint, scanInt_print _ hs]
  dsimp only
  rw [if_neg (by omega), hbyte]

theorem fgets_header (x_size y_size : UInt8) (rows : List Text) :
    takeLine 99 (levelFile x_size y_size rows) =
      (printNat x_size.toNat ++ [32] ++ printNat y_size.toNat ++ [10],
        rows.flatMap (· ++ [10])) := by
  have hline : 10 ∉ printNat x_size.toNat ++ [32] ++ printNat y_size.toNat := by
    simp [not_mem_printNat (show isDigit 10 = false by decide)]
  have hlen : (printNat x_size.toNat ++ [32] ++ printNat y_size.toNat).length < 99 := by
    have hx := length_printNat_byte x_size
    have hy := length_printNat_byte y_size
    simp
    omega
  have h := takeLine_line hline hlen (rows.flatMap (· ++ [10]))
  unfold levelFile
  rw [List.append_assoc _ [10]]
  exact h

theorem levelFile_sizes (x_size y_size : UInt8) (rows : List Text) :
    ReadsSizes (levelFile x_size y_size rows) x_size y_size := by
  have hzero : 0 ∉ printNat x_size.toNat ++ [32] ++ printNat y_size.toNat ++ [10] := by
    simp [not_mem_printNat (show isDigit 0 = false by decide)]
  have hheader : headerLine (levelFile x_size y_size rows) =
      printNat x_size.toNat ++ ([32] ++ (printNat y_size.toNat ++ [10])) := by
    rw [headerLine, fgets_header, lineText_of_nonzero hzero]
    simp
  refine ⟨[32] ++ (printNat y_size.toNat ++ [10]), ?_, ?_⟩
  · rw [hheader]
    have hblank : Blank [] := by simp [Blank]
    exact scanByte_printNat x_size hblank (by simp [EndsNumber, isDigit])
  · rw [scanByte_printNat y_size (by simp [Blank, isSpace]) (by simp [EndsNumber, isDigit])]
    rfl

section
variable {x_size y_size : UInt8} {rows : List Text}

/-- The rows a load of the level leaves. -/
def loadedRows (x_size y_size : UInt8) (rows : List Text) : List (List UInt8) :=
  (storeLines 0 (pieces 99 y_size.toNat (rows.flatMap (· ++ [10]))) (blankRows x_size y_size)).rows

theorem gridInit_levelFile (x_size y_size : UInt8) (rows : List Text) (grid : GridInfo)
    {granted : Nat → Bool} (hgranted : ∀ i ≤ y_size.toNat, granted i = true) :
    ∃ stores, gridInit grid (some (levelFile x_size y_size rows)) granted =
      .ok { code := 0, grid := ⟨x_size, y_size, some (loadedRows x_size y_size rows)⟩, stores } := by
  rw [gridInit_of_sizes (levelFile_sizes x_size y_size rows), fgets_header,
    loadRows_granted hgranted]
  exact ⟨_, rfl⟩

theorem getElem?_loadedRows (x_size y_size : UInt8) (rows : List Text) {k : Nat}
    (hk : k < y_size.toNat) :
    (loadedRows x_size y_size rows)[k]? =
      some (((pieces 99 y_size.toNat (rows.flatMap (· ++ [10])))[k]?.map lineText).elim
        (List.replicate x_size.toNat 32) (overlay (List.replicate x_size.toNat 32))) := by
  rw [loadedRows, getElem?_rows_storeLines, blankRows]
  simp [hk]

theorem sized_loadedRows (x_size y_size : UInt8) (rows : List Text) :
    Sized (loadedRows x_size y_size rows) y_size.toNat x_size.toNat :=
  sized_storeLines (Sized.replicate y_size.toNat x_size.toNat 32)

/-- Matrices of the same size are compared cell by cell. -/
theorem loadedRows_eq_of_cell (h : LevelRows x_size y_size rows)
    (hcell : ∀ k < y_size.toNat, ∀ x < x_size.toNat,
      cellAt (loadedRows x_size y_size rows) k x = cellAt rows k x) :
    loadedRows x_size y_size rows = rows := by
  have hsized := sized_loadedRows x_size y_size rows
  refine List.ext_getElem (hsized.height.trans h.sized.height.symm) fun k hk hk' => ?_
  have hwidth := hsized.width _ (List.getElem_mem hk)
  have hwidth' := h.sized.width _ (List.getElem_mem hk')
  refine List.ext_getElem? fun x => ?_
  by_cases hx : x < x_size.toNat
  · have heq := hcell k (by rw [← h.sized.height]; exact hk') x hx
    rwa [cellAt, cellAt, List.getElem?_eq_getElem hk, List.getElem?_eq_getElem hk'] at heq
  · rw [List.getElem?_eq_none (by omega), List.getElem?_eq_none (by omega)]

/-- Rows that fit into the buffer with their newline are loaded as they are. -/
theorem loadedRows_of_short (h : LevelRows x_size y_size rows) (hshort : x_size.toNat ≤ 98) :
    loadedRows x_size y_size rows = rows := by
  have hpieces := pieces_lines h.line fun row hrow => by
    rw [h.sized.width row hrow]
    exact Nat.lt_succ_of_le hshort
  rw [h.sized.height] at hpieces
  refine loadedRows_eq_of_cell h fun k hk x _ => ?_
  have hkl : k < rows.length := by rw [h.sized.height]; exact hk
  have hmem : rows[k] ∈ rows := List.getElem_mem hkl
  have hzero : 0 ∉ rows[k] ++ [10] := by
    simp [h.nonzero _ hmem]
  rw [cellAt, cellAt, getElem?_loadedRows _ _ _ hk, hpieces, List.getElem?_map,
    List.getElem?_eq_getElem hkl]
  simp [lineText_of_nonzero hzero, overlay, h.sized.width _ hmem]

/-- A line with more pieces than the level has rows left: its last piece brings its newline into a
    row. -/
theorem loadedRows_ne_of_newline (h : LevelRows x_size y_size rows) (hlong : 99 ≤ x_size.toNat)
    (hpieces : x_size.toNat / 99 < y_size.toNat) : loadedRows x_size y_size rows ≠ rows := by
  intro heq
  cases hcase : rows with
  | nil =>
    have hheight := h.sized.height
    rw [hcase, List.length_nil] at hheight
    omega
  | cons row rest =>
    have hmem : row ∈ rows := hcase ▸ List.mem_cons_self
    have hwidth := h.sized.width row hmem
    have hdiv := Nat.div_add_mod x_size.toNat 99
    have hmod := Nat.mod_lt x_size.toNat (show 99 > 0 by decide)
    have hend := getElem?_pieces_end (n := 99) (by decide) (k := x_size.toNat / 99)
      (m := y_size.toNat) (h.line row hmem) (by omega) (by omega) hpieces
      (rest.flatMap (· ++ [10]))
    -- the piece is shorter than the row, so the newline finds a cell
    have hzero : 0 ∉ row.drop (99 * (x_size.toNat / 99)) ++ [10] := by
      have hrow := h.nonzero row hmem
      rw [List.mem_append, not_or]
      exact ⟨fun hz => hrow (List.mem_of_mem_drop hz), by decide⟩
    have hrowk := getElem?_loadedRows x_size y_size rows hpieces
    rw [heq, hcase, List.flatMap_cons, List.append_assoc, List.singleton_append, hend] at hrowk
    have hnewline : 10 ∈ overlay (List.replicate x_size.toNat 32)
        (lineText (row.drop (99 * (x_size.toNat / 99)) ++ [10])) := by
      rw [lineText_of_nonzero hzero, overlay, List.take_of_length_le]
      · simp
      · rw [List.length_append, List.length_drop, List.length_replicate, hwidth]
        simp
        omega
    exact h.line _ (hcase ▸ List.mem_of_getElem? hrowk) hnewline

theorem getElem?_pieces_of_long (h : LevelRows x_size y_size rows)
    (hfit : y_size.toNat ≤ x_size.toNat / 99) {k : Nat} (hk : k < y_size.toNat) :
    ∃ row, rows[0]? = some row ∧
      ((pieces 99 y_size.toNat (rows.flatMap (· ++ [10])))[k]?.map lineText) =
        some ((row.drop (99 * k)).take 99) := by
  cases hcase : rows with
  | nil =>
    have hheight := h.sized.height
    rw [hcase, List.length_nil] at hheight
    omega
  | cons row rest =>
    have hmem : row ∈ rows := hcase ▸ List.mem_cons_self
    have hwidth := h.sized.width row hmem
    have hdiv := Nat.div_add_mod x_size.toNat 99
    have hpieces := pieces_long (n := 99) (by decide) (k := y_size.toNat) (h.line row hmem)
      (by omega) ([10] ++ rest.flatMap (· ++ [10]))
    have hzero : 0 ∉ (row.drop (99 * k)).take 99 := fun hz =>
      h.nonzero row hmem (List.mem_of_mem_drop (List.mem_of_mem_take hz))
    refine ⟨row, rfl, ?_⟩
    rw [List.flatMap_cons, List.append_assoc, hpieces]
    simp [hk, lineText_of_nonzero hzero]

theorem cell_of_row {k x : Nat} {row : Text} (h : rows[k]? = some row) :
    cellAt rows k x = row[x]? := by
  rw [cellAt, h]
  rfl

/-- A row of a level that ends before its first line does is a piece of that line, with blanks behind it. -/
theorem cellAt_loadedRows_of_long (h : LevelRows x_size y_size rows)
    (hfit : y_size.toNat ≤ x_size.toNat / 99) {k x : Nat} {first : Text} (hk : k < y_size.toNat)
    (hfirst : rows[0]? = some first) (hx : x < x_size.toNat) :
    cellAt (loadedRows x_size y_size rows) k x =
      if x < 99 then first[99 * k + x]? else some 32 := by
  obtain ⟨row, hrow, hpiece⟩ := getElem?_pieces_of_long h hfit hk
  obtain rfl : first = row := Option.some.inj (hfirst.symm.trans hrow)
  have hwidth := h.sized.width first (List.mem_of_getElem? hfirst)
  have hlen : ((first.drop (99 * k)).take 99).length = 99 := by
    rw [List.length_take, List.length_drop]
    omega
  have hrowk := getElem?_loadedRows x_size y_size rows hk
  rw [hpiece] at hrowk
  rw [cellAt, hrowk, Option.bind_some, Option.elim,
    getElem?_overlay (by rw [List.length_replicate]; exact hx), hlen]
  by_cases h99 : x < 99
  · rw [if_pos h99, if_pos h99, List.getElem?_take, if_pos h99, List.getElem?_drop]
  · rw [if_neg h99, if_neg h99, List.getElem?_replicate, if_pos hx]

/-- A level that ends before its first line does is loaded as it is exactly when it is blank behind
    the first 99 characters. -/
theorem loadedRows_of_long_iff (h : LevelRows x_size y_size rows)
    (hfit : y_size.toNat ≤ x_size.toNat / 99) :
    loadedRows x_size y_size rows = rows ↔
      ∀ y x c, cellAt rows y x = some c → 1 ≤ y ∨ 99 ≤ x → c = 32 := by
  have hbound : ∀ k x c, cellAt rows k x = some c → k < y_size.toNat ∧ x < x_size.toNat :=
    fun k x c hc => h.sized.cellAt_isSome_iff.mp ⟨c, hc⟩
  have hfirst : ∀ {k}, k < y_size.toNat → ∃ first, rows[0]? = some first := fun hk =>
    ⟨_, List.getElem?_eq_getElem (by rw [h.sized.height]; omega)⟩
  constructor
  · intro heq y x c hc hout
    obtain ⟨hy, hx⟩ := hbound y x c hc
    obtain ⟨first, hrow⟩ := hfirst hy
    have hyx := cellAt_loadedRows_of_long h hfit hy hrow hx
    rw [heq, hc] at hyx
    by_cases h99 : x < 99
    · -- the cell is a copy of one in the first row, behind its first 99 characters
      rw [if_pos h99, ← cell_of_row hrow] at hyx
      obtain ⟨hy0, hx0⟩ := hbound 0 _ c hyx.symm
      have h0 := cellAt_loadedRows_of_long h hfit hy0 hrow hx0
      rw [heq, if_neg (by omega), ← hyx] at h0
      exact Option.some.inj h0
    · rw [if_neg h99] at hyx
      exact Option.some.inj hyx
  · intro hblank
    refine loadedRows_eq_of_cell h fun k hk x hx => ?_
    obtain ⟨first, hrow⟩ := hfirst hk
    obtain ⟨c, hc⟩ := h.sized.cellAt_isSome_iff.mpr ⟨hk, hx⟩
    rw [cellAt_loadedRows_of_long h hfit hk hrow hx, hc]
    by_cases h99 : x < 99
    · rw [if_pos h99, ← cell_of_row hrow]
      cases k with
      | zero => rw [Nat.mul_zero, Nat.zero_add, hc]
      | succ k =>
        have hdiv := Nat.div_add_mod x_size.toNat 99
        have hin : 0 < y_size.toNat ∧ 99 * (k + 1) + x < x_size.toNat := by omega
        obtain ⟨c', hc'⟩ := h.sized.cellAt_isSome_iff.mpr hin
        rw [hc', hblank _ _ _ hc' (.inr (by omega)), hblank _ _ _ hc (.inl (by omega))]
    · rw [if_neg h99, hblank _ _ _ hc (.inr (by omega))]

/-- A load returns the level's matrix exactly when the rows it leaves are those of the matrix. -/
theorem levelFile_loaded_iff (x_size y_size : UInt8) (rows : List Text) :
    (∀ grid granted, (∀ i ≤ y_size.toNat, granted i = true) →
        ∃ stores, gridInit grid (some (levelFile x_size y_size rows)) granted =
          .ok { code := 0, grid := ⟨x_size, y_size, some rows⟩, stores }) ↔
      loadedRows x_size y_size rows = rows := by
  constructor
  · intro hall
    have hgranted : ∀ i ≤ y_size.toNat, (fun _ : Nat => true) i = true := fun _ _ => rfl
    obtain ⟨stores, hstores⟩ := hall .startup _ hgranted
    obtain ⟨stores', hstores'⟩ := gridInit_levelFile x_size y_size rows .startup hgranted
    rw [hstores] at hstores'
    injection hstores' with hload
    injection hload with _ hgrid
    injection hgrid with _ _ hrows
    exact (Option.some.inj hrows).symm
  · intro heq grid granted hgranted
    obtain ⟨stores, hstores⟩ := gridInit_levelFile x_size y_size rows grid hgranted
    rw [heq] at hstores
    exact ⟨stores, hstores⟩

/-- **A level is loaded as it was written** exactly when its lines fit into the buffer, or when it
    is over before its first line is and blank behind the first 99 characters. -/
theorem gridInit_levelFile_iff (h : LevelRows x_size y_size rows) :
    (∀ grid granted, (∀ i ≤ y_size.toNat, granted i = true) →
        ∃ stores, gridInit grid (some (levelFile x_size y_size rows)) granted =
          .ok { code := 0, grid := ⟨x_size, y_size, some rows⟩, stores }) ↔
      x_size.toNat ≤ 98 ∨ y_size.toNat ≤ x_size.toNat / 99 ∧
        ∀ y x c, cellAt rows y x = some c → 1 ≤ y ∨ 99 ≤ x → c = 32 := by
  rw [levelFile_loaded_iff]
  by_cases hshort : x_size.toNat ≤ 98
  · exact iff_of_true (loadedRows_of_short h hshort) (.inl hshort)
  · rw [or_iff_right hshort]
    by_cases hfit : y_size.toNat ≤ x_size.toNat / 99
    · rw [and_iff_right hfit, loadedRows_of_long_iff h hfit]
    · exact iff_of_false (loadedRows_ne_of_newline h (by omega) (by omega)) fun hand => hfit hand.1

/-- The level `AB` over `CD`. -/
theorem gridInit_levelFile_square :
    ∃ stores, gridInit .startup (some (levelFile 2 2 [[65, 66], [67, 68]])) (fun _ => true) =
      .ok { code := 0, grid := ⟨2, 2, some [[65, 66], [67, 68]]⟩, stores } :=
  (gridInit_levelFile_iff
    { sized := ⟨rfl, by decide⟩, line := by decide, nonzero := by decide }).mpr
      (.inl (by decide)) .startup _ fun _ _ => rfl

end

/-- One row of a hundred letters. -/
def wideRow : Text := List.replicate 100 65

theorem levelRows_wideRow : LevelRows 100 1 [wideRow] where
  sized := Sized.replicate 1 100 65
  line := by decide
  nonzero := by decide

/-- Its last letter is read as a row of its own, and there is no such row. -/
theorem gridInit_levelFile_wide :
    ¬ ∀ x_size y_size rows, x_size ≠ 0 → y_size ≠ 0 → LevelRows x_size y_size rows →
      ∀ grid granted, (∀ i ≤ y_size.toNat, granted i = true) →
        ∃ stores, gridInit grid (some (levelFile x_size y_size rows)) granted =
          .ok { code := 0, grid := ⟨x_size, y_size, some rows⟩, stores } := by
  intro h
  have hloaded := (levelFile_loaded_iff 100 1 [wideRow]).mp
    (h 100 1 [wideRow] (by decide) (by decide) levelRows_wideRow)
  have hblank := (loadedRows_of_long_iff levelRows_wideRow (by decide)).mp hloaded
  exact absurd (hblank 0 99 65 (by decide) (.inr (le_refl _))) (by decide)

/-! ## The sizes and the storage -/

/-- `objects` has the sizes that the grid states. -/
def GridInfo.Shape (grid : GridInfo) : Prop :=
  ∀ rows, grid.objects = some rows → Sized rows grid.y_size.toNat grid.x_size.toNat

/-- A load that fails leaves the grid as it was. -/
def LeavesGrid (grid : GridInfo) (call : GridCall) : Prop :=
  ∀ file granted load, call = .init file granted → gridInit grid file granted = .ok load →
    load.code = 1 → load.grid = grid

/-- A header that breaks off after the width gives the width that the grid has. -/
def KeepsWidth (grid : GridInfo) (call : GridCall) : Prop :=
  ∀ file granted x_size, call = .init (some file) granted → ReadsWidth file x_size →
    x_size = grid.x_size

/-- What a load that returns makes of the grid. -/
theorem gridInit_cases {grid : GridInfo} {file : Option Text} {granted : Nat → Bool}
    {load : GridLoad} (h : gridInit grid file granted = .ok load) :
    load.code = 1 ∧ load.grid = grid ∨
      (∃ text x_size, file = some text ∧ ReadsWidth text x_size ∧ load.code = 1 ∧
        load.grid = { grid with x_size }) ∨
      load.code = 0 ∧ load.grid.Shape := by
  cases file with
  | none =>
    cases h
    exact .inl ⟨rfl, rfl⟩
  | some text =>
    rcases header_cases text with ⟨x_size, y_size, hsizes⟩ | ⟨x_size, hwidth⟩ | hnone
    · right; right
      rw [gridInit_of_sizes hsizes] at h
      rcases loadRows_eq_ok h with hload | ⟨-, hload⟩
      · subst hload
        refine ⟨rfl, fun rows hrows => ?_⟩
        cases hrows
        exact sized_storeLines (Sized.replicate y_size.toNat x_size.toNat 32)
      · subst hload
        exact ⟨rfl, fun rows hrows => nomatch hrows⟩
    · right; left
      rw [gridInit_of_width hwidth] at h
      cases h
      exact ⟨text, x_size, rfl, hwidth, rfl, rfl⟩
    · left
      rw [gridInit_of_none hnone] at h
      cases h
      exact ⟨rfl, rfl⟩

theorem leavesGrid_iff_keepsWidth (grid : GridInfo) (call : GridCall) :
    LeavesGrid grid call ↔ KeepsWidth grid call := by
  constructor
  · intro h file granted x_size hcall hwidth
    exact congrArg GridInfo.x_size (h _ _ _ hcall (gridInit_of_width hwidth grid granted) rfl)
  · intro h file granted load hcall hload hcode
    rcases gridInit_cases hload with ⟨-, hgrid⟩ | ⟨text, x_size, hfile, hwidth, -, hgrid⟩ | ⟨hzero, -⟩
    · exact hgrid
    · subst hfile
      rw [hgrid, h text granted x_size hcall hwidth]
    · rw [hzero] at hcode
      cases hcode

/-- One call keeps the shape, unless it changes the width under the rows. -/
theorem shape_step {grid grid' : GridInfo} {call : GridCall} (hshape : grid.Shape)
    (hwidth : KeepsWidth grid call) (h : gridStep grid call = some grid') : grid'.Shape := by
  cases call with
  | init file granted =>
    unfold gridStep at h
    obtain ⟨load, hload, rfl⟩ := Option.map_eq_some_iff.mp h
    have hload : gridInit grid file granted = .ok load := by
      cases hres : gridInit grid file granted with
      | error e => rw [hres] at hload; cases hload
      | ok l => rw [hres] at hload; cases hload; rfl
    rcases gridInit_cases hload with ⟨-, hgrid⟩ | ⟨text, x_size, hfile, hx, -, hgrid⟩ | ⟨-, hnew⟩
    · rw [hgrid]
      exact hshape
    · subst hfile
      rw [hgrid, hwidth text granted x_size rfl hx]
      exact hshape
    · exact hnew
  | cleanup =>
    unfold gridStep gridCleanup at h
    cases hobjects : grid.objects with
    | none =>
      rw [hobjects] at h
      cases h
      exact hshape
    | some rows =>
      rw [hobjects] at h
      dsimp only at h
      rw [if_pos (le_of_eq (hshape rows hobjects).height.symm)] at h
      cases h
      exact fun rows hrows => nomatch hrows

/-- **Sizes and storage agree over every run**, and every failed load leaves the grid as it was,
    exactly in the runs without a header that breaks off after a new width. -/
theorem grid_shape_iff (calls : List GridCall) :
    ((∀ pre post grid, calls = pre ++ post → run gridStep .startup pre = some grid → grid.Shape) ∧
        EveryStep gridStep LeavesGrid .startup calls) ↔
      EveryStep gridStep KeepsWidth .startup calls := by
  have hsteps : EveryStep gridStep LeavesGrid .startup calls ↔
      EveryStep gridStep KeepsWidth .startup calls := by
    constructor
    · intro h pre call post grid hcalls hrun
      exact (leavesGrid_iff_keepsWidth grid call).mp (h pre call post grid hcalls hrun)
    · intro h pre call post grid hcalls hrun
      exact (leavesGrid_iff_keepsWidth grid call).mpr (h pre call post grid hcalls hrun)
  rw [hsteps, and_iff_right_iff_imp]
  intro h pre post grid hcalls hrun
  subst hcalls
  exact h.left.invariant GridInfo.Shape (fun _ _ _ => shape_step)
    (fun rows hrows => nomatch hrows) hrun

/-- A level of one cell is loaded, and then a file whose header is `9`. -/
theorem grid_shape_broken :
    ¬ ∀ calls : List GridCall,
      (∀ pre post grid, calls = pre ++ post → run gridStep .startup pre = some grid →
        grid.Shape) ∧
      EveryStep gridStep LeavesGrid .startup calls := by
  intro h
  have hrun : run gridStep .startup
      [.init (some oneCell) fun _ => true, .init (some [57, 10]) fun _ => true] =
        some ⟨9, 1, some [[65]]⟩ := by decide +kernel
  have hshape := (h _).1 _ [] _ (List.append_nil _).symm hrun
  exact absurd ((hshape _ rfl).width [65] List.mem_cons_self) (by decide)

end Lcom

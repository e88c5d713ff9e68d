import Lcom.Lib.Text

/-!
# Reading a text line by line, through a buffer

`fgets` with a buffer does not read lines: it reads *pieces*, a line cut up where the buffer is
full. `pieces` lists the first few of them. A short line is one piece (`pieces_line`); a long one
begins with as many full pieces as it has room for (`pieces_long`, `getElem?_pieces_long`).
-/

namespace Lcom
namespace Lib

/-- At most `n` bytes, up to and including the first newline, and the rest of the text. -/
def takeLine : Nat → Text → Text × Text
  | 0, s => ([], s)
  | _ + 1, [] => ([], [])
  | n + 1, b :: s =>
    if b = 10 then ([b], s) else (b :: (takeLine n s).1, (takeLine n s).2)

/-- `fgets` into a buffer of `n + 1` bytes: the bytes it reads, without their NUL, and the rest of
    the file. At the end of the file there is nothing to read. -/
def fgets (n : Nat) (s : Text) : Option (Text × Text) :=
  if s = [] then none else some (takeLine n s)

/-- What `k` calls of `fgets` read. -/
def pieces (n : Nat) : Nat → Text → List Text
  | 0, _ => []
  | k + 1, s =>
    match fgets n s with
    | none => []
    | some (piece, s) => piece :: pieces n k s

theorem takeLine_line {n : Nat} {row : Text} (hrow : 10 ∉ row) (hlen : row.length < n)
    (s : Text) : takeLine n (row ++ 10 :: s) = (row ++ [10], s) := by
  induction row generalizing n with
  | nil =>
    obtain ⟨n, rfl⟩ := Nat.exists_eq_add_of_lt hlen
    simp [takeLine]
  | cons b row ih =>
    obtain ⟨n, rfl⟩ : ∃ m, n = m + 1 := ⟨n - 1, by rw [List.length_cons] at hlen; omega⟩
    rw [List.mem_cons, not_or] at hrow
    rw [List.length_cons] at hlen
    rw [List.cons_append, takeLine, if_neg (Ne.symm hrow.1), ih hrow.2 (by omega)]
    rfl

theorem takeLine_long {n : Nat} {row : Text} (hrow : 10 ∉ row) (hlen : n ≤ row.length)
    (s : Text) : takeLine n (row ++ s) = (row.take n, row.drop n ++ s) := by
  induction n generalizing row with
  | zero => simp [takeLine]
  | succ n ih =>
    cases row with
    | nil => simp at hlen
    | cons b row =>
      rw [List.mem_cons, not_or] at hrow
      rw [List.length_cons] at hlen
      rw [List.cons_append, takeLine, if_neg (Ne.symm hrow.1), ih hrow.2 (by omega)]
      rfl

theorem length_pieces_le (n k : Nat) (s : Text) : (pieces n k s).length ≤ k := by
  induction k generalizing s with
  | zero => simp [pieces]
  | succ k ih =>
    rw [pieces]
    cases fgets n s with
    | none => simp
    | some p => simpa using ih p.2

theorem fgets_line {n : Nat} {row : Text} (hrow : 10 ∉ row) (hlen : row.length < n) (s : Text) :
    fgets n (row ++ 10 :: s) = some (row ++ [10], s) := by
  rw [fgets, if_neg (by simp), takeLine_line hrow hlen]

theorem fgets_long {n : Nat} {row : Text} (hrow : 10 ∉ row) (hlen : n ≤ row.length)
    (hn : 0 < n) (s : Text) : fgets n (row ++ s) = some (row.take n, row.drop n ++ s) := by
  have hne : row ++ s ≠ [] := by
    cases row with
    | nil => simp at hlen; omega
    | cons b row => simp
  rw [fgets, if_neg hne, takeLine_long hrow hlen]

/-- Lines that fit are read one by one. -/
theorem pieces_lines {n : Nat} {rows : List Text} (hrows : ∀ row ∈ rows, 10 ∉ row)
    (hlen : ∀ row ∈ rows, row.length < n) :
    pieces n rows.length (rows.flatMap (· ++ [10])) = rows.map (· ++ [10]) := by
  induction rows with
  | nil => rfl
  | cons row rows ih =>
    have hfirst := fgets_line (hrows row List.mem_cons_self) (hlen row List.mem_cons_self)
      (rows.flatMap (· ++ [10]))
    rw [List.length_cons, pieces, List.flatMap_cons, List.append_assoc, List.singleton_append,
      hfirst]
    dsimp only
    rw [ih (fun r hr => hrows r (List.mem_cons_of_mem _ hr))
      (fun r hr => hlen r (List.mem_cons_of_mem _ hr)), List.map_cons]

/-- The pieces a long line begins with are full. -/
theorem pieces_long {n : Nat} (hn : 0 < n) {k : Nat} {row : Text} (hrow : 10 ∉ row)
    (hlen : n * k ≤ row.length) (s : Text) :
    pieces n k (row ++ s) = (List.range k).map fun j => (row.drop (n * j)).take n := by
  induction k generalizing row with
  | zero => rfl
  | succ k ih =>
    rw [Nat.mul_succ] at hlen
    have hdrop : 10 ∉ row.drop n := fun h => hrow (List.mem_of_mem_drop h)
    rw [pieces, fgets_long hrow (by omega) hn]
    dsimp only
    rw [ih hdrop (by rw [List.length_drop]; omega), List.range_succ_eq_map, List.map_cons,
      List.map_map]
    congr 1
    refine List.map_congr_left fun j _ => ?_
    rw [Function.comp, List.drop_drop, Nat.mul_succ, Nat.add_comm]

/-- Behind them comes the piece that ends the line. -/
theorem getElem?_pieces_end {n : Nat} (hn : 0 < n) {k m : Nat} {row : Text} (hrow : 10 ∉ row)
    (hfirst : n * k ≤ row.length) (hlast : row.length < n * (k + 1)) (hm : k < m) (s : Text) :
    (pieces n m (row ++ 10 :: s))[k]? = some (row.drop (n * k) ++ [10]) := by
  induction k generalizing m row with
  | zero =>
    obtain ⟨m, rfl⟩ := Nat.exists_eq_add_of_lt hm
    rw [Nat.zero_add, pieces, fgets_line hrow (by omega)]
    simp
  | succ k ih =>
    obtain ⟨m, rfl⟩ : ∃ m', m = m' + 1 := ⟨m - 1, by omega⟩
    have hdrop : 10 ∉ row.drop n := fun h => hrow (List.mem_of_mem_drop h)
    rw [Nat.mul_succ] at hfirst hlast
    rw [pieces, fgets_long hrow (by omega) hn]
    dsimp only
    rw [List.getElem?_cons_succ, ih hdrop (by rw [List.length_drop]; omega)
      (by rw [List.length_drop]; omega) (by omega), List.drop_drop, Nat.mul_succ, Nat.add_comm]

end Lib
end Lcom

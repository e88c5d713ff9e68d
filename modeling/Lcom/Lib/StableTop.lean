import Mathlib.Tactic
import Mathlib.Data.List.Sort

/-!
# The first `k` of a stable sort, kept incrementally

A table of the `k` smallest items is maintained by inserting each new item behind its equals and
cutting the list off at `k`. That this is the stable sort of everything inserted, cut off at `k`,
rests on two facts:

* inserting *behind* equals commutes with the insertions *in front of* equals a stable sort is
  made of (`orderedInsert_insertAfter_comm`), so the new item may as well be inserted last;
* an item beyond the first `k` never matters to the first `k` again (`take_insertAfter`).

`top_concat` is their combination, one new item at a time.
-/

namespace Lcom
namespace Lib

variable {α κ : Type} [LinearOrder κ] (key : α → κ)

/-- The stable ascending sort by a key. -/
def stableSort (l : List α) : List α := l.mergeSort fun a b => decide (key a ≤ key b)

/-- Insert an item behind the items with smaller or equal keys. -/
def insertAfter (a : α) (s : List α) : List α :=
  s.orderedInsert (fun a b => key a < key b) a

theorem insertAfter_nil (a : α) : insertAfter key a [] = [a] := rfl

theorem insertAfter_cons (a b : α) (s : List α) :
    insertAfter key a (b :: s) =
      if key a < key b then a :: b :: s else b :: insertAfter key a s := rfl

theorem stableSort_nil : stableSort key [] = [] := by
  rw [stableSort, List.mergeSort_nil]

theorem insertAfter_eq_insertIdx (a : α) (s : List α) :
    insertAfter key a s =
      s.insertIdx (s.takeWhile fun b => decide (key b ≤ key a)).length a := by
  induction s with
  | nil => rfl
  | cons b s ih =>
    rw [insertAfter_cons]
    by_cases h : key a < key b
    · rw [if_pos h, List.takeWhile_cons_of_neg (by simpa using h)]
      rfl
    · rw [if_neg h, List.takeWhile_cons_of_pos (by simpa using h), ih]
      rfl

theorem map_insertAfter {β : Type} (f : β → α) (a : β) (s : List β) :
    (insertAfter (fun b => key (f b)) a s).map f = insertAfter key (f a) (s.map f) := by
  induction s with
  | nil => rfl
  | cons b s ih =>
    rw [List.map_cons, insertAfter_cons, insertAfter_cons]
    split
    · rfl
    · rw [List.map_cons, ih]

/-- The first item of a stable sort's input goes in front of its equals. -/
theorem stableSort_cons (a : α) (l : List α) :
    stableSort key (a :: l) = (stableSort key l).orderedInsert (fun a b => key a ≤ key b) a := by
  have htrans : ∀ a b c : α, decide (key a ≤ key b) = true → decide (key b ≤ key c) = true →
      decide (key a ≤ key c) = true := by
    intro a b c hab hbc
    simp only [decide_eq_true_eq] at hab hbc ⊢
    exact hab.trans hbc
  have htotal : ∀ a b : α, (decide (key a ≤ key b) || decide (key b ≤ key a)) = true := by
    intro a b
    simpa using le_total (key a) (key b)
  -- `a` splits the sorted rest into the strictly smaller items and the others
  obtain ⟨l₁, l₂, hcons, htail, hbefore⟩ := List.mergeSort_cons htrans htotal a l
  have hsorted := List.pairwise_mergeSort htrans htotal (a :: l)
  rw [hcons] at hsorted
  have hafter : ∀ b ∈ l₂, key a ≤ key b := by
    intro b hb
    have hpair := (List.pairwise_append.mp hsorted).2.1
    simpa using List.rel_of_pairwise_cons hpair hb
  rw [stableSort, hcons, stableSort, htail, List.orderedInsert_eq_take_drop]
  have hlt : ∀ b ∈ l₁, decide (¬ key a ≤ key b) = true := by
    intro b hb
    simpa using hbefore b hb
  rw [List.takeWhile_append_of_pos hlt, List.dropWhile_append_of_pos hlt]
  cases l₂ with
  | nil => simp
  | cons b l₂ => simp [hafter b List.mem_cons_self]

/-- Inserting an early item in front of its equals and a late item behind its equals: the order of
    the two insertions does not matter. -/
theorem orderedInsert_insertAfter_comm (a b : α) (s : List α) :
    (insertAfter key a s).orderedInsert (fun a b => key a ≤ key b) b =
      insertAfter key a (s.orderedInsert (fun a b => key a ≤ key b) b) := by
  induction s with
  | nil =>
    simp only [insertAfter_nil, List.orderedInsert_nil, List.orderedInsert_cons, insertAfter_cons]
    by_cases h : key b ≤ key a
    · rw [if_pos h, if_neg (not_lt.mpr h)]
    · rw [if_neg h, if_pos (not_le.mp h)]
  | cons c s ih =>
    -- each of the two goes in front of `c`, or on into `s`
    by_cases hac : key a < key c
    · by_cases hbc : key b ≤ key c
      · by_cases hba : key b ≤ key a
        · simp [insertAfter_cons, List.orderedInsert_cons, hac, hbc, hba, not_lt.mpr hba]
        · simp [insertAfter_cons, List.orderedInsert_cons, hac, hbc, hba, not_le.mp hba]
      · have hba : ¬ key b ≤ key a := fun h => hbc (h.trans hac.le)
        simp [insertAfter_cons, List.orderedInsert_cons, hac, hbc, hba]
    · by_cases hbc : key b ≤ key c
      · have hab : ¬ key a < key b := not_lt.mpr (hbc.trans (not_lt.mp hac))
        simp [insertAfter_cons, List.orderedInsert_cons, hac, hbc, hab]
      · simp [insertAfter_cons, List.orderedInsert_cons, hac, hbc, ih]

theorem stableSort_concat (l : List α) (a : α) :
    stableSort key (l ++ [a]) = insertAfter key a (stableSort key l) := by
  induction l with
  | nil => simp [stableSort_cons, stableSort_nil, insertAfter_nil]
  | cons b l ih =>
    rw [List.cons_append, stableSort_cons, ih, orderedInsert_insertAfter_comm, stableSort_cons]

/-- The first `k` items after an insertion depend on the first `k` items before it only. -/
theorem take_insertAfter (a : α) (s : List α) (k : Nat) :
    (insertAfter key a s).take k = (insertAfter key a (s.take k)).take k := by
  induction s generalizing k with
  | nil => simp
  | cons b s ih =>
    cases k with
    | zero => simp
    | succ k =>
      rw [List.take_succ_cons, insertAfter_cons, insertAfter_cons]
      by_cases h : key a < key b
      · rw [if_pos h, if_pos h]
        cases k with
        | zero => rfl
        | succ k => simp [List.take_take]
      · rw [if_neg h, if_neg h, List.take_succ_cons, List.take_succ_cons, ih]

/-- **One insertion into the cut-off table is one more item of the whole sort.** -/
theorem top_concat (l : List α) (a : α) (k : Nat) :
    (stableSort key (l ++ [a])).take k = (insertAfter key a ((stableSort key l).take k)).take k := by
  rw [stableSort_concat, take_insertAfter]

end Lib
end Lcom

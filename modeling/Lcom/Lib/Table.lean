import Lcom.Lib.Memory

/-!
# Tables of rows

A `char **` and the blocks its pointers lead to: a list of rows, accessed with C's signed indices
and with the bound checks that C leaves out.
-/

namespace Lcom
namespace Lib

abbrev Table := List (List UInt8)

namespace Table

/-- `height` rows of `width` cells each. -/
structure Sized (rows : Table) (height width : Nat) : Prop where
  height : rows.length = height
  width : ∀ row ∈ rows, row.length = width

def cellAt (rows : Table) (y x : Nat) : Option UInt8 := rows[y]?.bind (·[x]?)

/-- `rows[y][x]` as a value. -/
def load (rows : Table) (y x : Int) : Except Fault UInt8 :=
  if y < 0 ∨ x < 0 then .error .outOfBounds
  else
    match rows.cellAt y.toNat x.toNat with
    | none => .error .outOfBounds
    | some c => .ok c

/-- `rows[y][x] = c`. -/
def store (rows : Table) (y x : Int) (c : UInt8) : Except Fault Table :=
  if y < 0 ∨ x < 0 then .error .outOfBounds
  else
    match rows.cellAt y.toNat x.toNat with
    | none => .error .outOfBounds
    | some _ => .ok (rows.modify y.toNat (·.set x.toNat c))

variable {rows rows' : Table} {height width : Nat}

theorem Sized.replicate (height width : Nat) (c : UInt8) :
    Sized (List.replicate height (List.replicate width c)) height width where
  height := List.length_replicate
  width := by
    intro row hrow
    rw [(List.mem_replicate.mp hrow).2, List.length_replicate]

theorem Sized.cellAt_isSome_iff (h : Sized rows height width) {y x : Nat} :
    (∃ c, cellAt rows y x = some c) ↔ y < height ∧ x < width := by
  unfold cellAt
  constructor
  · intro hsome
    obtain ⟨c, hc⟩ := hsome
    obtain ⟨row, hrow, hx⟩ := Option.bind_eq_some_iff.mp hc
    have hy := (List.getElem?_eq_some_iff.mp hrow).1
    have hx := (List.getElem?_eq_some_iff.mp hx).1
    rw [h.height] at hy
    rw [h.width row (List.mem_of_getElem? hrow)] at hx
    exact ⟨hy, hx⟩
  · intro hin
    have hy : y < rows.length := h.height ▸ hin.1
    have hx : x < rows[y].length := by
      rw [h.width _ (List.getElem_mem hy)]
      exact hin.2
    exact ⟨rows[y][x], by
      rw [List.getElem?_eq_getElem hy, Option.bind_some, List.getElem?_eq_getElem hx]⟩

/-- A load goes through inside the table and nowhere else. -/
theorem Sized.load_ok_iff (h : Sized rows height width) {y x : Int} :
    (∃ c, load rows y x = .ok c) ↔ 0 ≤ y ∧ y < height ∧ 0 ≤ x ∧ x < width := by
  have hcell := h.cellAt_isSome_iff (y := y.toNat) (x := x.toNat)
  unfold load
  by_cases hneg : y < 0 ∨ x < 0
  · rw [if_pos hneg]
    exact iff_of_false (fun h => nomatch h) (by omega)
  · rw [if_neg hneg]
    cases hc : cellAt rows y.toNat x.toNat with
    | none =>
      rw [hc] at hcell
      exact iff_of_false (fun h => nomatch h) fun hin =>
        nomatch hcell.mpr ⟨by omega, by omega⟩
    | some c =>
      rw [hc] at hcell
      have hin := hcell.mp ⟨c, rfl⟩
      exact iff_of_true ⟨c, rfl⟩ (by omega)

theorem Sized.load_outside (h : Sized rows height width) {y x : Int}
    (hout : ¬ (0 ≤ y ∧ y < height ∧ 0 ≤ x ∧ x < width)) : load rows y x = .error .outOfBounds := by
  rw [← h.load_ok_iff] at hout
  unfold load at hout ⊢
  split
  · rfl
  · rename_i hpos
    rw [if_neg hpos] at hout
    cases hc : cellAt rows y.toNat x.toNat with
    | none => rfl
    | some c =>
      rw [hc] at hout
      exact absurd ⟨c, rfl⟩ hout

theorem Sized.store_ok_iff (h : Sized rows height width) {y x : Int} {c : UInt8} :
    (∃ rows', store rows y x c = .ok rows') ↔ 0 ≤ y ∧ y < height ∧ 0 ≤ x ∧ x < width := by
  have hsame : (∃ rows', store rows y x c = .ok rows') ↔ ∃ c, load rows y x = .ok c := by
    unfold store load
    split
    · exact iff_of_false (fun h => nomatch h) (fun h => nomatch h)
    · cases rows.cellAt y.toNat x.toNat with
      | none => exact iff_of_false (fun h => nomatch h) (fun h => nomatch h)
      | some c => exact iff_of_true ⟨_, rfl⟩ ⟨_, rfl⟩
  rw [hsame, h.load_ok_iff]

theorem Sized.store (h : Sized rows height width) {y x : Int} {c : UInt8}
    (hstore : store rows y x c = .ok rows') : Sized rows' height width := by
  unfold Table.store at hstore
  split at hstore
  · cases hstore
  · split at hstore
    · cases hstore
    · cases hstore
      refine { height := by rw [List.length_modify]; exact h.height, width := ?_ }
      intro row hrow
      obtain ⟨k, hk⟩ := List.mem_iff_getElem?.mp hrow
      rw [List.getElem?_modify, Option.map_eq_map] at hk
      obtain ⟨old, hold, rfl⟩ := Option.map_eq_some_iff.mp hk
      have hwidth := h.width old (List.mem_of_getElem? hold)
      split
      · rw [List.length_set]
        exact hwidth
      · exact hwidth

end Table

end Lib
end Lcom

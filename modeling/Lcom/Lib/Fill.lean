import Lcom.Lib.Loop
import Lcom.Lib.Table

/-!
# Filling a table

A program that writes cells of a table is described by the cells it covers and by what it puts
there; every other cell keeps its content. `Fills` is that description, of a program that has gone
through, and the rules follow the program: one store, a round that is skipped, a loop.
-/

namespace Lcom
namespace Lib
namespace Table

variable {rows rows' : Table} {height width : Nat}

/-- A store puts the value into its cell and leaves the others alone. -/
theorem cellAt_store {y x : Int} {c : UInt8} (h : store rows y x c = .ok rows') (r k : Nat) :
    cellAt rows' r k = if (r : Int) = y ∧ (k : Int) = x then some c else cellAt rows r k := by
  unfold store at h
  split at h
  · cases h
  · rename_i hneg
    split at h
    · cases h
    · rename_i old hold
      cases h
      unfold cellAt at hold ⊢
      rw [List.getElem?_modify]
      obtain ⟨row, hrow, hx⟩ := Option.bind_eq_some_iff.mp hold
      have hlt := (List.getElem?_eq_some_iff.mp hx).1
      by_cases hr : y.toNat = r
      · subst hr
        rw [hrow, Option.map_eq_map, Option.map_some, Option.bind_some, Option.bind_some,
          if_pos rfl, List.getElem?_set]
        by_cases hk : x.toNat = k
        · rw [if_pos hk, if_pos hlt, if_pos (by omega)]
        · rw [if_neg hk, if_neg (by omega)]
      · rw [if_neg fun hhere => hr (by omega)]
        cases rows[r]? with
        | none => rfl
        | some row' => simp [hr]

/-- Two tables of the same size with the same cells are the same table. -/
theorem Sized.ext (h : Sized rows height width) (h' : Sized rows' height width)
    (hcell : ∀ r k, r < height → k < width → cellAt rows r k = cellAt rows' r k) :
    rows = rows' := by
  refine List.ext_getElem (h.height.trans h'.height.symm) fun r hr hr' => ?_
  have hrow := h.width _ (List.getElem_mem hr)
  have hrow' := h'.width _ (List.getElem_mem hr')
  refine List.ext_getElem (hrow.trans hrow'.symm) fun k hk hk' => ?_
  have hsame := hcell r k (by rw [← h.height]; exact hr) (by rw [← hrow]; exact hk)
  unfold cellAt at hsame
  rw [List.getElem?_eq_getElem hr, List.getElem?_eq_getElem hr', Option.bind_some,
    Option.bind_some, List.getElem?_eq_getElem hk, List.getElem?_eq_getElem hk'] at hsame
  exact Option.some.inj hsame

theorem cellAt_replicate {r k : Nat} (hr : r < height) (hk : k < width) (c : UInt8) :
    cellAt (List.replicate height (List.replicate width c)) r k = some c := by
  unfold cellAt
  rw [List.getElem?_replicate, if_pos hr, Option.bind_some, List.getElem?_replicate, if_pos hk]

/-- When `body` goes through on a table of this size, the cells it covers hold `new`, and the others
    what they held before. -/
def Fills (height width : Nat) (body : Table → Except Fault Table) (covers : Nat → Nat → Prop)
    (new : Nat → Nat → UInt8) : Prop :=
  ∀ rows rows', Sized rows height width → body rows = .ok rows' →
    Sized rows' height width ∧ ∀ r k,
      (covers r k → cellAt rows' r k = some (new r k)) ∧
      (¬ covers r k → cellAt rows' r k = cellAt rows r k)

variable {body : Table → Except Fault Table} {covers : Nat → Nat → Prop} {new : Nat → Nat → UInt8}

theorem Fills.congr {covers' : Nat → Nat → Prop} (h : Fills height width body covers new)
    (hcovers : ∀ r k, covers r k ↔ covers' r k) : Fills height width body covers' new := by
  intro rows rows' hsized hbody
  obtain ⟨hsized', hcells⟩ := h rows rows' hsized hbody
  refine ⟨hsized', fun r k => ?_⟩
  rw [← hcovers]
  exact hcells r k

theorem Fills.pure : Fills height width pure (fun _ _ => False) new := by
  intro rows rows' hsized hbody
  cases hbody
  exact ⟨hsized, fun r k => ⟨False.elim, fun _ => rfl⟩⟩

/-- A round that is skipped when `skip` holds. -/
theorem Fills.skip {skip : Prop} [Decidable skip]
    (h : ¬ skip → Fills height width body covers new) :
    Fills height width (fun rows => if skip then Pure.pure rows else body rows)
      (fun r k => ¬ skip ∧ covers r k) new := by
  by_cases hskip : skip
  · simp only [if_pos hskip]
    exact Fills.pure.congr fun r k => iff_of_false id fun hboth => hboth.1 hskip
  · simp only [if_neg hskip]
    exact (h hskip).congr fun r k => (and_iff_right hskip).symm

/-- One store. -/
theorem Fills.put {y x : Int} {c : UInt8}
    (hc : ∀ r k : Nat, (r : Int) = y → (k : Int) = x → c = new r k) :
    Fills height width (fun rows => rows.store y x c)
      (fun r k => (r : Int) = y ∧ (k : Int) = x) new := by
  intro rows rows' hsized hstore
  refine ⟨hsized.store hstore, fun r k => ⟨fun hhere => ?_, fun helse => ?_⟩⟩
  · rw [cellAt_store hstore, if_pos hhere, hc r k hhere.1 hhere.2]
  · rw [cellAt_store hstore, if_neg helse]

/-- One store, of a value that has to be fetched first. -/
theorem Fills.store {fetch : Except Fault UInt8} {y x : Int}
    (hfetch : ∀ c, fetch = .ok c → ∀ r k : Nat, (r : Int) = y → (k : Int) = x → c = new r k) :
    Fills height width (fun rows => fetch >>= fun c => rows.store y x c)
      (fun r k => (r : Int) = y ∧ (k : Int) = x) new := by
  intro rows rows' hsized hbody
  obtain ⟨c, hc, hstore⟩ := bind_eq_ok.mp hbody
  exact Fills.put (hfetch c hc) rows rows' hsized hstore

theorem Fills.forRounds {body : Int → Table → Except Fault Table}
    {covers : Int → Nat → Nat → Prop} (h : ∀ i, Fills height width (body i) (covers i) new)
    (todo : Nat) (i : Int) :
    Fills height width (Lib.forRounds body todo i)
      (fun r k => ∃ j, i ≤ j ∧ j < i + todo ∧ covers j r k) new := by
  induction todo generalizing i with
  | zero =>
    refine Fills.pure.congr fun r k => iff_of_false id fun hex => ?_
    obtain ⟨j, hlo, hhi, -⟩ := hex
    omega
  | succ todo ih =>
    intro rows rows' hsized hloop
    obtain ⟨rows₁, hround, hrest⟩ := bind_eq_ok.mp hloop
    obtain ⟨hsized₁, hcells₁⟩ := h i rows rows₁ hsized hround
    obtain ⟨hsized', hcells⟩ := ih (i + 1) rows₁ rows' hsized₁ hrest
    refine ⟨hsized', fun r k => ⟨fun hex => ?_, fun hnone => ?_⟩⟩
    · by_cases hlater : ∃ j, i + 1 ≤ j ∧ j < i + 1 + todo ∧ covers j r k
      · exact (hcells r k).1 hlater
      · obtain ⟨j, hlo, hhi, hcovers⟩ := hex
        obtain rfl : j = i := by
          by_contra hne
          exact hlater ⟨j, by omega, by push_cast at hhi; omega, hcovers⟩
        rw [(hcells r k).2 hlater, (hcells₁ r k).1 hcovers]
    · have hlater : ¬ ∃ j, i + 1 ≤ j ∧ j < i + 1 + todo ∧ covers j r k := fun hex => by
        obtain ⟨j, hlo, hhi, hcovers⟩ := hex
        exact hnone ⟨j, by omega, by push_cast; omega, hcovers⟩
      have hnow : ¬ covers i r k := fun hcovers =>
        hnone ⟨i, le_refl _, by push_cast; omega, hcovers⟩
      rw [(hcells r k).2 hlater, (hcells₁ r k).2 hnow]

/-- A loop covers what one of its rounds covers. -/
theorem Fills.forRange {body : Int → Table → Except Fault Table}
    {covers : Int → Nat → Nat → Prop} (h : ∀ i, Fills height width (body i) (covers i) new)
    (lo hi : Int) :
    Fills height width (Lib.forRange lo hi body)
      (fun r k => ∃ i, lo ≤ i ∧ i ≤ hi ∧ covers i r k) new := by
  refine (Fills.forRounds h (hi + 1 - lo).toNat lo).congr fun r k => ?_
  constructor
  · intro hex
    obtain ⟨i, hlo, hhi, hcovers⟩ := hex
    exact ⟨i, hlo, by omega, hcovers⟩
  · intro hex
    obtain ⟨i, hlo, hhi, hcovers⟩ := hex
    exact ⟨i, hlo, by omega, hcovers⟩

/-! ## A moved picture -/

/-- A picture that comes out of being moved up and to the left as it was is blank: what is moved into
    the window at the far edges is blank, and the rest is moved there from further inside. -/
theorem moved_eq_self_iff {α : Type} {f : Nat → Nat → α} {blank : α} {height width dy dx : Nat}
    (hmoved : 0 < dy + dx) :
    (∀ r k, r < height → k < width →
      (if r + dy < height ∧ k + dx < width then f (r + dy) (k + dx) else blank) = f r k) ↔
      ∀ r k, r < height → k < width → f r k = blank := by
  constructor
  · intro h r k hr hk
    -- on the way to the far edges, each square has the value of the next one
    induction hn : height + width - (r + k) using Nat.strong_induction_on generalizing r k with
    | _ n ih =>
      rw [← h r k hr hk]
      split
      · rename_i hin
        exact ih _ (by omega) _ _ hin.1 hin.2 rfl
      · rfl
  · intro h r k hr hk
    rw [h r k hr hk]
    split
    · rename_i hin
      exact h _ _ hin.1 hin.2
    · rfl

end Table
end Lib
end Lcom

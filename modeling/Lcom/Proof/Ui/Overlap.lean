import Lcom.Proof.Ui.HitTest

/-!
# Boxes that overlap

`AABB_contains` includes by four closed bounds, `AABB_overlaps` excludes by four strict ones. In the plane,
ordered by coordinates, a box is the interval from its position to its far corner, and two intervals meet
exactly when each starts below the end of the other. So the two functions agree, at touching edges and
corners and for boxes without an inside as well.
-/

namespace Lcom
namespace Lib

/-- In a lattice two intervals meet when each starts below the end of the other: the supremum of the two
    starts is then in both. -/
theorem nonempty_Icc_inter_Icc {α : Type} [Lattice α] {a b c d : α} (hab : a ≤ b) (hcd : c ≤ d) :
    (Set.Icc a b ∩ Set.Icc c d).Nonempty ↔ a ≤ d ∧ c ≤ b := by
  rw [Set.Icc_inter_Icc, Set.nonempty_Icc, sup_le_iff, le_inf_iff, le_inf_iff]
  constructor
  · rintro ⟨⟨-, had⟩, hcb, -⟩
    exact ⟨had, hcb⟩
  · rintro ⟨had, hcb⟩
    exact ⟨⟨hab, had⟩, hcb, hcd⟩

end Lib

open Lib

/-- Both coordinates are values of an `int`. -/
def Vec2.InRange (v : Vec2) : Prop := (-2 ^ 31 ≤ v.x ∧ v.x < 2 ^ 31) ∧ -2 ^ 31 ≤ v.y ∧ v.y < 2 ^ 31

instance (v : Vec2) : Decidable v.InRange := inferInstanceAs (Decidable ((_ ∧ _) ∧ _ ∧ _))

namespace Aabb

/-- The corner opposite to the position. -/
def corner (aabb : Aabb) : Vec2 :=
  ⟨aabb.position.x + aabb.size.x, aabb.position.y + aabb.size.y⟩

/-- No negative size, and no overflow in a sum of position and size. -/
structure Proper (aabb : Aabb) : Prop where
  position : aabb.position.InRange
  size : aabb.size.InRange
  corner : aabb.corner.InRange
  width : 0 ≤ aabb.size.x
  height : 0 ≤ aabb.size.y

/-- The box as a set of points. -/
def region (aabb : Aabb) : Set (Int × Int) :=
  Set.Icc (aabb.position.x, aabb.position.y) (aabb.corner.x, aabb.corner.y)

theorem mem_region {aabb : Aabb} {point : Vec2} :
    (point.x, point.y) ∈ aabb.region ↔ aabb.contains point = true := by
  rw [contains_iff, region, Set.mem_Icc, Prod.mk_le_mk, Prod.mk_le_mk]
  unfold corner
  dsimp only
  tauto

theorem overlaps_iff (first second : Aabb) : first.overlaps second = true ↔
    (first.position.x, first.position.y) ≤ (second.corner.x, second.corner.y) ∧
      (second.position.x, second.position.y) ≤ (first.corner.x, first.corner.y) := by
  rw [Prod.mk_le_mk, Prod.mk_le_mk]
  unfold overlaps corner
  split
  · exact iff_of_false (by simp) (by dsimp only; omega)
  · split
    · exact iff_of_false (by simp) (by dsimp only; omega)
    · exact iff_of_true rfl (by dsimp only; omega)

variable {first second : Aabb}

theorem Proper.position_le (h : first.Proper) :
    (first.position.x, first.position.y) ≤ (first.corner.x, first.corner.y) :=
  Prod.mk_le_mk.mpr ⟨Int.le_add_of_nonneg_right h.width, Int.le_add_of_nonneg_right h.height⟩

theorem overlaps_iff_region (hfirst : first.Proper) (hsecond : second.Proper) :
    first.overlaps second = true ↔ (first.region ∩ second.region).Nonempty :=
  (overlaps_iff first second).trans
    (nonempty_Icc_inter_Icc hfirst.position_le hsecond.position_le).symm

/-- A point of the box is a pair of `int`s. -/
theorem Proper.inRange (h : first.Proper) {point : Vec2} (hpoint : first.contains point = true) :
    point.InRange := by
  have hposition := h.position
  have hcorner := h.corner
  rw [contains_iff] at hpoint
  unfold Vec2.InRange at hposition hcorner ⊢
  unfold Aabb.corner at hcorner
  dsimp only at hcorner
  omega

theorem overlaps_symm (first second : Aabb) : first.overlaps second = second.overlaps first := by
  rw [Bool.eq_iff_iff, overlaps_iff, overlaps_iff, and_comm]

/-- **The two tests agree.** -/
theorem overlaps_iff_contains (hfirst : first.Proper) (hsecond : second.Proper) :
    (first.overlaps second = true ↔
        ∃ point : Vec2, point.InRange ∧ first.contains point = true ∧
          second.contains point = true) ∧
      first.overlaps second = second.overlaps first ∧ first.overlaps first = true := by
  refine ⟨?_, overlaps_symm first second, ?_⟩
  · rw [overlaps_iff_region hfirst hsecond]
    constructor
    · rintro ⟨⟨x, y⟩, hx, hy⟩
      have hin : first.contains ⟨x, y⟩ = true := mem_region.mp hx
      exact ⟨⟨x, y⟩, hfirst.inRange hin, hin, mem_region.mp hy⟩
    · rintro ⟨point, -, hin, hin'⟩
      exact ⟨(point.x, point.y), mem_region.mpr hin, mem_region.mpr hin'⟩
  · rw [overlaps_iff]
    exact ⟨hfirst.position_le, hfirst.position_le⟩

/-- A box without an inside, at a corner of another one. -/
theorem overlaps_iff_contains_corner :
    (overlaps ⟨⟨0, 0⟩, ⟨10, 10⟩⟩ ⟨⟨10, 10⟩, ⟨0, 0⟩⟩ = true ↔
        ∃ point : Vec2, point.InRange ∧ contains ⟨⟨0, 0⟩, ⟨10, 10⟩⟩ point = true ∧
          contains ⟨⟨10, 10⟩, ⟨0, 0⟩⟩ point = true) ∧
      overlaps ⟨⟨0, 0⟩, ⟨10, 10⟩⟩ ⟨⟨10, 10⟩, ⟨0, 0⟩⟩ =
        overlaps ⟨⟨10, 10⟩, ⟨0, 0⟩⟩ ⟨⟨0, 0⟩, ⟨10, 10⟩⟩ ∧
      overlaps ⟨⟨0, 0⟩, ⟨10, 10⟩⟩ ⟨⟨0, 0⟩, ⟨10, 10⟩⟩ = true :=
  overlaps_iff_contains ⟨by decide, by decide, by decide, by decide, by decide⟩
    ⟨by decide, by decide, by decide, by decide, by decide⟩

end Aabb

end Lcom

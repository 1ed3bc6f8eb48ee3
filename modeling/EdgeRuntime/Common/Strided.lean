import Mathlib.Order.CompletePartialOrder
import Mathlib.Order.Interval.Set.Disjoint
import Mathlib.Algebra.Order.Ring.Nat
import Mathlib.Tactic.Common

/-!
Cells of equal size, one after another from a base. Each holds a head and, right
behind it, a body.
-/
namespace Strided

/-- Where cell `i` starts. -/
def cell (base stride i : Nat) : Nat := base + i * stride

/-- A head and the body behind it lie in `[base, limit)` and both are aligned. -/
structure Placed (align base limit headSize bodySize head body : Nat) : Prop where
  above : base ≤ head
  behind : body = head + headSize
  below : body + bodySize ≤ limit
  head_aligned : align ∣ head
  body_aligned : align ∣ body

variable {base stride count i j : Nat}

theorem cell_add_le (h : i < count) : cell base stride i + stride ≤ base + count * stride := by
  have next : (i + 1) * stride ≤ count * stride := Nat.mul_le_mul_right stride h
  rw [Nat.succ_mul] at next
  simp only [cell]
  omega

theorem dvd_cell {align : Nat} (hb : align ∣ base) (hs : align ∣ stride) :
    align ∣ cell base stride i :=
  Nat.dvd_add hb (Nat.dvd_mul_left_of_dvd hs i)

theorem cell_add_le_cell (h : i < j) : cell base stride i + stride ≤ cell base stride j :=
  cell_add_le h

theorem disjoint_cells {size : Nat} (hs : size ≤ stride) (h : i ≠ j) :
    Disjoint (Set.Ico (cell base stride i) (cell base stride i + size))
      (Set.Ico (cell base stride j) (cell base stride j + size)) := by
  rw [Set.disjoint_left]
  rintro byte ⟨lower, upper⟩ ⟨lower', upper'⟩
  rcases Nat.lt_or_gt_of_ne h with before | after
  · have := @cell_add_le_cell base stride i j before
    omega
  · have := @cell_add_le_cell base stride j i after
    omega

theorem placed_cell {align headSize bodySize : Nat} (hb : align ∣ base) (hs : align ∣ stride)
    (hh : align ∣ headSize) (fits : headSize + bodySize ≤ stride) (h : i < count) :
    Placed align base (base + count * stride) headSize bodySize (cell base stride i)
      (cell base stride i + headSize) where
  above := Nat.le_add_right _ _
  behind := rfl
  below := by
    have := @cell_add_le base stride count i h
    omega
  head_aligned := dvd_cell hb hs
  body_aligned := Nat.dvd_add (dvd_cell hb hs) hh

end Strided

import Mathlib.Algebra.Order.Ring.Nat
import Mathlib.Tactic.Common

/-!
Overflow-checked arithmetic on 64-bit words. Words are natural numbers; the
unchecked operations of the source reduce modulo `2 ^ 64`.
-/
namespace EdgeRuntime

def uint64Max : Nat := 2 ^ 64 - 1

/-- Unchecked addition on `uint64_t`. -/
def addU64 (a b : Nat) : Nat := (a + b) % 2 ^ 64

def checkedAddU64 (a b : Nat) : Option Nat :=
  if b > uint64Max - a then none else some (a + b)

def checkedMulU64 (a b : Nat) : Option Nat :=
  if a ≠ 0 ∧ b > uint64Max / a then none else some (a * b)

def saturatingMulU64 (a b : Nat) : Nat := (checkedMulU64 a b).getD uint64Max

def elapsedExceeds (now before limit : Nat) : Bool :=
  now ≥ before && now - before > limit

def roundUpToMultipleU64 (v align : Nat) : Option Nat :=
  if align = 0 then none
  else if v % align = 0 then some v
  else
    let delta := align - v % align
    if v > uint64Max - delta then none else some (v + delta)

theorem addU64_eq {a b : Nat} (h : a + b ≤ uint64Max) : addU64 a b = a + b := by
  unfold uint64Max at h
  exact Nat.mod_eq_of_lt (by omega)

theorem checkedAddU64_some {a b c : Nat} (ha : a ≤ uint64Max)
    (h : checkedAddU64 a b = some c) : c = a + b ∧ c ≤ uint64Max := by
  unfold checkedAddU64 at h
  split at h
  · cases h
  · cases h
    exact ⟨rfl, by omega⟩

theorem checkedAddU64_of_le {a b : Nat} (h : a + b ≤ uint64Max) :
    checkedAddU64 a b = some (a + b) := by
  unfold checkedAddU64
  rw [if_neg (by omega)]

theorem checkedMulU64_some {a b c : Nat} (h : checkedMulU64 a b = some c) :
    c = a * b ∧ c ≤ uint64Max := by
  unfold checkedMulU64 at h
  split at h
  · cases h
  · rename_i fits
    cases h
    refine ⟨rfl, ?_⟩
    by_cases ha : a = 0
    · simp [ha]
    · have le : b ≤ uint64Max / a := by
        by_contra gt
        exact fits ⟨ha, by omega⟩
      rw [Nat.mul_comm]
      exact (Nat.le_div_iff_mul_le (Nat.pos_of_ne_zero ha)).1 le

theorem checkedMulU64_of_le {a b : Nat} (h : a * b ≤ uint64Max) :
    checkedMulU64 a b = some (a * b) := by
  unfold checkedMulU64
  rw [if_neg]
  rintro ⟨ha, gt⟩
  have lt := (Nat.div_lt_iff_lt_mul (Nat.pos_of_ne_zero ha)).1 gt
  rw [Nat.mul_comm] at lt
  omega

/-- Rounding up goes to the next multiple. -/
theorem roundUpToMultipleU64_some {v align r : Nat} (hv : v ≤ uint64Max)
    (h : roundUpToMultipleU64 v align = some r) :
    align ∣ r ∧ v ≤ r ∧ r < v + align ∧ r ≤ uint64Max := by
  unfold roundUpToMultipleU64 at h
  split at h
  · cases h
  · rename_i positive
    have positive := Nat.pos_of_ne_zero positive
    split at h
    · rename_i exact_
      cases h
      exact ⟨Nat.dvd_of_mod_eq_zero exact_, Nat.le_refl _, by omega, hv⟩
    · rename_i rest
      have lt := Nat.mod_lt v positive
      have nonzero : v ≠ 0 := by
        rintro rfl
        exact rest (Nat.zero_mod align)
      dsimp only at h
      split at h
      · cases h
      · cases h
        refine ⟨?_, by omega, by omega, by omega⟩
        refine ⟨v / align + 1, ?_⟩
        have split := Nat.div_add_mod v align
        rw [Nat.mul_add]
        omega

end EdgeRuntime

import Mathlib.Data.List.Basic
import Mathlib.Data.List.Induction
import Mathlib.Algebra.Order.Ring.Nat
import Mathlib.Tactic.Common

/-!
A counter with a limit. Every event counts one; an event that resets the counter sets it
to zero first, and at the limit the counter stands still.
-/
namespace EdgeRuntime

variable {α : Type} {resets : α → Bool} {limit : Nat} {c : Nat × Bool} {a : α}
  {events : List α}

/-- The count that is compared with the limit. -/
def carried (resets : α → Bool) (count : Nat) (a : α) : Nat :=
  if resets a then 0 else count

/-- One event: the count after it, and whether it found the limit reached. -/
def tallyStep (limit : Nat) (resets : α → Bool) (c : Nat × Bool) (a : α) : Nat × Bool :=
  if carried resets c.1 a ≥ limit then (carried resets c.1 a, true)
  else (carried resets c.1 a + 1, false)

def tally (limit : Nat) (resets : α → Bool) (c : Nat × Bool) (events : List α) :
    Nat × Bool := events.foldl (tallyStep limit resets) c

theorem tally_append {more : List α} : tally limit resets c (events ++ more) =
    tally limit resets (tally limit resets c events) more := List.foldl_append

theorem tally_concat : tally limit resets c (events ++ [a]) =
    tallyStep limit resets (tally limit resets c events) a := tally_append

theorem carried_of_fresh {count : Nat} (fresh : resets a = false) :
    carried resets count a = count := by
  simp only [carried, fresh, Bool.false_eq_true, if_false]

theorem carried_le (resets : α → Bool) (count : Nat) (a : α) :
    carried resets count a ≤ count := by
  unfold carried
  split
  · exact Nat.zero_le _
  · exact Nat.le_refl _

theorem tallyStep_le (resets : α → Bool) (a : α) (h : c.1 ≤ limit) :
    (tallyStep limit resets c a).1 ≤ limit := by
  have le := carried_le resets c.1 a
  unfold tallyStep
  split
  · exact Nat.le_trans le h
  · change carried resets c.1 a + 1 ≤ limit
    omega

theorem tallyStep_used :
    (tallyStep limit resets c a).2 = true ↔ limit ≤ carried resets c.1 a := by
  unfold tallyStep
  split
  · rename_i le
    exact iff_of_true rfl le
  · rename_i lt
    exact iff_of_false Bool.false_ne_true lt

/-- The count never passes the limit. -/
theorem tally_le (h : c.1 ≤ limit) : (tally limit resets c events).1 ≤ limit := by
  induction events generalizing c with
  | nil => exact h
  | cons a rest ih => exact ih (tallyStep_le resets a h)

/-- Without a reset every event counts, up to the limit. -/
theorem tally_fresh (fresh : ∀ a ∈ events, resets a = false) (h : c.1 ≤ limit) :
    (tally limit resets c events).1 = min (c.1 + events.length) limit := by
  induction events generalizing c with
  | nil =>
      change c.1 = _
      simp only [List.length_nil]
      omega
  | cons a rest ih =>
      have step : (tallyStep limit resets c a).1 = min (c.1 + 1) limit := by
        unfold tallyStep
        rw [carried_of_fresh (fresh a (by simp))]
        split
        · change c.1 = _
          omega
        · change c.1 + 1 = _
          omega
      refine (ih (fun b hb => fresh b (by simp [hb])) (tallyStep_le resets a h)).trans ?_
      rw [step, List.length_cons]
      omega

/-- After a reset only the events since then count. -/
theorem tally_stale (limit : Nat) (c : Nat × Bool)
    (reset : ∃ a ∈ events, resets a = true) :
    (tally limit resets c events).1 ≤ events.length := by
  induction events using List.reverseRecOn with
  | nil =>
      obtain ⟨_, h, _⟩ := reset
      cases h
  | append_singleton rest z ih =>
      have before : carried resets (tally limit resets c rest).1 z ≤ rest.length := by
        cases hz : resets z with
        | true => simp [carried, hz]
        | false =>
            obtain ⟨a, ha, stale⟩ := reset
            rcases List.mem_append.1 ha with ha | ha
            · exact Nat.le_trans (carried_le _ _ _) (ih ⟨a, ha, stale⟩)
            · rw [List.mem_singleton.1 ha, hz] at stale
              cases stale
      rw [tally_concat, List.length_append, List.length_singleton]
      unfold tallyStep
      split
      · exact Nat.le_succ_of_le before
      · exact Nat.succ_le_succ before

/-- After one event and as many more as the limit, the limit is reached exactly when none
of those was a reset. -/
theorem tally_used_iff (h : c.1 ≤ limit) (len : events.length = limit) :
    (tally limit resets (tallyStep limit resets c a) events).2 = true ↔
      ∀ b ∈ events, resets b = false := by
  have bound := tallyStep_le resets a h
  rcases List.eq_nil_or_concat' events with rfl | ⟨rest, z, rfl⟩
  · -- the limit is zero, and the first event has reached it
    cases len
    refine iff_of_true ?_ (by simp)
    exact tallyStep_used.2 (Nat.zero_le _)
  · have len : rest.length + 1 = limit := by simpa using len
    rw [tally_concat, tallyStep_used]
    constructor
    · intro le b hb
      by_contra stale
      have stale : resets b = true := by simpa using stale
      cases hz : resets z with
      | true =>
          simp only [carried, hz, if_true] at le
          omega
      | false =>
          rw [carried_of_fresh hz] at le
          rcases List.mem_append.1 hb with hb | hb
          · have small := tally_stale limit (tallyStep limit resets c a) ⟨b, hb, stale⟩
            omega
          · rw [List.mem_singleton.1 hb, hz] at stale
            cases stale
    · intro fresh
      have first : 1 ≤ (tallyStep limit resets c a).1 := by
        unfold tallyStep
        split
        · rename_i le
          change 1 ≤ carried resets c.1 a
          omega
        · exact Nat.le_add_left 1 _
      rw [carried_of_fresh (fresh z (by simp)),
        tally_fresh (fun b hb => fresh b (by simp [hb])) bound]
      omega

end EdgeRuntime

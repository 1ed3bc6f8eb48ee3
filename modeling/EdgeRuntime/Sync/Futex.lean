import Mathlib.Logic.Function.Basic
import Mathlib.Algebra.Order.Ring.Nat
import Mathlib.Tactic.Common

/-!
Sleeping on a word. The log of a futex word counts how often the word was moved, and
remembers for every thread when it last looked, whether it sleeps, and what it still
owes the sleepers: a thread that has changed what they wait for owes a move of the word,
and a thread that has moved the word owes a wake-up.

A wake-up is not lost when every change is followed by a move and every move by a
wake-up; the lemmas below follow these two debts through the events of a log.
-/
namespace EdgeRuntime

structure FutexLog (T : Type) where
  moves : Nat
  /-- The count of moves when the thread last loaded the word. -/
  looked : T → Nat
  /-- The count of moves when the thread fell asleep, while it sleeps. -/
  asleep : T → Option Nat
  /-- The thread has made a change that no move announces yet. -/
  owesMove : T → Bool
  /-- The thread has moved the word and woken nobody yet. -/
  owesWake : T → Bool

namespace FutexLog
variable {T : Type} [DecidableEq T] (f : FutexLog T) (t : T)

def fresh : FutexLog T := ⟨0, fun _ => 0, fun _ => none, fun _ => false, fun _ => false⟩

def look : FutexLog T := { f with looked := Function.update f.looked t f.moves }

def sleep : FutexLog T := { f with asleep := Function.update f.asleep t (some f.moves) }

/-- However a sleep ends: by a wake-up, a signal or the clock. -/
def rise : FutexLog T := { f with asleep := Function.update f.asleep t none }

def change : FutexLog T := { f with owesMove := Function.update f.owesMove t true }

def move : FutexLog T :=
  { f with
    moves := f.moves + 1
    owesMove := Function.update f.owesMove t false
    owesWake := Function.update f.owesWake t true }

/-- Every sleeper is woken. -/
def wake : FutexLog T :=
  { f with
    asleep := fun _ => none
    owesWake := Function.update f.owesWake t false }

/-- Nobody sleeps through a move, unless the wake-up is still to come. -/
def Heeded (f : FutexLog T) : Prop :=
  ∀ u k, f.asleep u = some k → k = f.moves ∨ ∃ t, f.owesWake t = true

/-- What happened after the first `k` moves has been announced, or will be. -/
def Announced (k : Nat) (f : FutexLog T) : Prop :=
  k < f.moves ∨ ∃ t, f.owesMove t = true

variable {f t} {k : Nat}

theorem announced_change : (f.change t).Announced k :=
  .inr ⟨t, by simp [change]⟩

theorem announced_move (old : k ≤ f.moves) : (f.move t).Announced k :=
  .inl (Nat.lt_succ_of_le old)

omit [DecidableEq T] in
theorem heeded_fresh : (fresh : FutexLog T).Heeded := by
  intro u k h
  cases h

theorem heeded_look (h : f.Heeded) : (f.look t).Heeded := h

theorem heeded_change (h : f.Heeded) : (f.change t).Heeded := h

theorem heeded_sleep (h : f.Heeded) : (f.sleep t).Heeded := by
  intro u k hs
  simp only [sleep, Function.update_apply] at hs
  split at hs
  · cases hs
    exact .inl rfl
  · exact h u k hs

theorem heeded_rise (h : f.Heeded) : (f.rise t).Heeded := by
  intro u k hs
  simp only [rise, Function.update_apply] at hs
  split at hs
  · cases hs
  · exact h u k hs

theorem heeded_move : (f.move t).Heeded :=
  fun _ _ _ => .inr ⟨t, by simp [move]⟩

theorem heeded_wake : (f.wake t).Heeded := by
  intro u k hs
  cases hs

end FutexLog
end EdgeRuntime

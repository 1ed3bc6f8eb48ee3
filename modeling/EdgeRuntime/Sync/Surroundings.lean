import EdgeRuntime.Sync.SharedAtomic
import Mathlib.Data.Nat.Basic
import Mathlib.Order.Monotone.Defs

/-!
What one call meets, step by step: the world each of its instructions finds, and the time
at which it is performed. The worlds are arbitrary, so they stand for peers of any
behaviour, crashed and misbehaving ones included; only the clock has to go forward.
-/
namespace EdgeRuntime
open Concurrent

structure Surroundings {T L W : Type} (D : Memory T L W) where
  world : Nat → W
  time : Nat → Nat
  monotone : Monotone time
  /-- The monotonic clock can be read at the step. -/
  clock : Nat → Bool
  boottime : Nat → Nat
  liveness : Nat → Liveness
  /-- How a sleep ends. -/
  risen : Nat → Int
  locked : Nat → Except Error Unit

namespace Surroundings
variable {T L W : Type} {D : Memory T L W} (env : Surroundings D) {ε ε' α β : Type}

def reply (n : Nat) : (i : Instr L) → Reply i
  | .load l | .watch l | .fetchAdd l _ _ => D.read (env.world n) l
  | .cas l expected _ | .futexSleep l expected => decide (D.read (env.world n) l = expected)
  | .probe _ _ => env.liveness n
  | .boottime => env.boottime n
  | .monotonic => if env.clock n then env.time n else (0 : Nat)
  | .futexRise => env.risen n
  | .lock => env.locked n
  | .store _ _ | .copyOut _ _ | .futexWake _ _ | .unlock | .block => ()

/-- The outcome of a program that starts at a step, and the step after its last one. -/
def run : Code L ε α → Nat → Except ε α × Nat
  | .ret a, n => (.ok a, n)
  | .throw e, n => (.error e, n)
  | .op i k, n => run (k (env.reply n i)) (n + 1)

theorem run_bind (p : Code L ε α) (f : α → Code L ε β) (n : Nat) :
    env.run (p >>= f) n =
      match env.run p n with
      | (.ok a, m) => env.run (f a) m
      | (.error e, m) => (.error e, m) := by
  induction p generalizing n with
  | ret _ | throw _ => rfl
  | op i k ih => exact ih _ _

theorem run_attempt (p : Code L ε α) (n : Nat) :
    env.run (p.attempt : Code L ε' _) n = (.ok (env.run p n).1, (env.run p n).2) := by
  induction p generalizing n with
  | ret _ | throw _ => rfl
  | op i k ih => exact ih _ _

theorem le_run (p : Code L ε α) (n : Nat) : n ≤ (env.run p n).2 := by
  induction p generalizing n with
  | ret _ | throw _ => exact Nat.le_refl n
  | op i k ih => exact Nat.le_trans (Nat.le_succ n) (ih _ _)

theorem run_of_ends {P : Except ε α → Prop} {p : Code L ε α} (ends : p.Ends P) (n : Nat) :
    P (env.run p n).1 := by
  induction p generalizing n with
  | ret _ | throw _ => exact ends
  | op i k ih => exact ih _ (ends _) _

end Surroundings
end EdgeRuntime

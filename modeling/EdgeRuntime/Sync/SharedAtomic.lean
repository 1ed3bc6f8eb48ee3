import EdgeRuntime.Common.Error
import EdgeRuntime.Concurrent.Outline
import EdgeRuntime.Process.Identity
import EdgeRuntime.Sync.Futex

/-!
Accesses to shared memory. Every wrapper of the source touches one word, so a
program over these instructions can be interrupted between any two words, also
inside a byte copy. Loads of a process's liveness and of the clocks are answered
by the environment, and so is how a sleep on a word ends.
-/
namespace EdgeRuntime
open Concurrent

inductive Instr (L : Type)
  | load (l : L)
  | store (l : L) (v : Nat)
  | cas (l : L) (expected desired : Nat)
  | fetchAdd (l : L) (n bits : Nat)
  /-- One byte stored into the caller's own buffer. -/
  | copyOut (j : Nat) (v : Nat)
  | probe (pid startTicks : Nat)
  | boottime
  | monotonic
  /-- A load of the word that the caller may go to sleep on. -/
  | watch (l : L)
  /-- Wake the sleepers on the word; the word itself is not touched. -/
  | futexWake (l : L) (count : Nat)
  /-- Fall asleep on the word if it still has the expected value. -/
  | futexSleep (l : L) (expected : Nat)
  /-- The end of a sleep; the reply is the error number, zero for a wake-up. -/
  | futexRise
  /-- Take the control lock of the component, or fail to. -/
  | lock
  | unlock
  /-- Sleep and never wake up. -/
  | block

def Reply {L : Type} : Instr L → Type
  | .load _ | .fetchAdd _ _ _ | .boottime | .monotonic | .watch _ => Nat
  | .store _ _ | .copyOut _ _ | .futexWake _ _ | .unlock | .block => Unit
  | .cas _ _ _ | .futexSleep _ _ => Bool
  | .probe _ _ => Liveness
  | .futexRise => Int
  | .lock => Except Error Unit

/-- Code running over the shared words named by `L`. -/
abbrev Code (L ε α : Type) : Type := Prog (Instr L) Reply ε α

section Accessors
variable {L ε : Type}

def sharedLoad (l : L) : Code L ε Nat := .op (.load l) .ret
def sharedStore (l : L) (v : Nat) : Code L ε Unit := .op (.store l v) .ret
def sharedCas (l : L) (expected desired : Nat) : Code L ε Bool :=
  .op (.cas l expected desired) .ret
def sharedFetchAdd (l : L) (n bits : Nat) : Code L ε Nat :=
  .op (.fetchAdd l n bits) .ret
def copyOut (j v : Nat) : Code L ε Unit := .op (.copyOut j v) .ret
def probeLiveness (pid startTicks : Nat) : Code L ε Liveness :=
  .op (.probe pid startTicks) .ret
def boottimeNowNs : Code L ε Nat := .op .boottime .ret
def monotonicNowNs : Code L ε Nat := .op .monotonic .ret
def futexWake (l : L) (count : Nat) : Code L ε Unit := .op (.futexWake l count) .ret
def sharedWatch (l : L) : Code L ε Nat := .op (.watch l) .ret

/-- The error number of the call, zero after a wake-up. -/
def futexWait (l : L) (expected : Nat) : Code L ε Int := do
  let slept ← (.op (.futexSleep l expected) .ret : Code L ε Bool)
  if slept then .op .futexRise .ret else return eagain

/-- Sleep without end; no continuation is ever taken. -/
def sleepForever {α : Type} (e : ε) : Code L ε α := .op .block fun _ => .throw e

/-- `exchange(true)` on a flag: whether it was set before. -/
def flagExchange (l : L) : Code L ε Bool := .op (.cas l 0 1) fun swapped => .ret !swapped

/-- Run under the control lock, which every way out of the body releases. -/
def withControlLock {α : Type} (body : Code L Error α) : Code L Error α := do
  let acquired ← (.op .lock .ret : Code L Error (Except Error Unit))
  Prog.lift acquired
  let result ← body.attempt
  (.op .unlock .ret : Code L Error Unit)
  Prog.lift result

/-- `memcpy` into shared memory, byte by byte. -/
def copyIn (dst : Nat → L) : Nat → List Nat → Code L ε Unit
  | _, [] => .ret ()
  | j, b :: bs => do
      sharedStore (dst j) b
      copyIn dst (j + 1) bs

/-- `memcpy` out of shared memory into the caller's buffer: `n` bytes from `j`. -/
def copyFrom (src : Nat → L) : Nat → Nat → Code L ε Unit
  | _, 0 => .ret ()
  | j, n + 1 => do
      let b ← sharedLoad (src j)
      copyOut j b
      copyFrom src (j + 1) n

end Accessors

/-- The contents of the words of a segment. -/
abbrev Words (L : Type) : Type := L → Nat

section
variable {L : Type} [DecidableEq L]

def Words.set (m : Words L) (l : L) (v : Nat) : Words L := Function.update m l v

@[simp] theorem Words.set_apply (m : Words L) (l l' : L) (v : Nat) :
    m.set l v l' = if l' = l then v else m l' := by
  simp [Words.set, Function.update_apply]

end

/-- How a component's world holds the words and records what happens to them. -/
structure Memory (T L W : Type) where
  read : W → L → Nat
  write : T → L → Nat → W → W
  fill : T → Nat → Nat → W → W
  /-- The replies a liveness probe may give in a world. -/
  answers : W → Nat → Nat → Liveness → Prop
  /-- The world once the thread holds the control lock; `none` while it is taken. -/
  lock : T → W → Option W
  unlock : T → W → W
  futex : W → FutexLog T
  setFutex : FutexLog T → W → W

namespace Memory
variable {T L W : Type} [DecidableEq T]

def exec (D : Memory T L W) (t : T) : (i : Instr L) → W → Reply i → W → Prop
  | .load l, w, r, w' => r = D.read w l ∧ w' = w
  | .store l v, w, _, w' => w' = D.write t l v w
  | .cas l expected desired, w, r, w' =>
      r = decide (D.read w l = expected) ∧
        w' = if D.read w l = expected then D.write t l desired w else w
  | .fetchAdd l n bits, w, r, w' =>
      r = D.read w l ∧ w' = D.write t l ((D.read w l + n) % 2 ^ bits) w
  | .copyOut j v, w, _, w' => w' = D.fill t j v w
  | .probe pid ticks, w, r, w' => D.answers w pid ticks r ∧ w' = w
  | .boottime, w, _, w' => w' = w
  | .monotonic, w, _, w' => w' = w
  | .watch l, w, r, w' => r = D.read w l ∧ w' = D.setFutex ((D.futex w).look t) w
  -- the callers wake one sleeper where at most one can be, and all of them otherwise
  | .futexWake _ _, w, _, w' => w' = D.setFutex ((D.futex w).wake t) w
  | .futexSleep l expected, w, r, w' =>
      r = decide (D.read w l = expected) ∧
        w' = if D.read w l = expected then D.setFutex ((D.futex w).sleep t) w else w
  | .futexRise, w, _, w' => w' = D.setFutex ((D.futex w).rise t) w
  | .lock, w, r, w' =>
      match r with
      | .ok _ => D.lock t w = some w'
      | .error _ => w' = w
  | .unlock, w, _, w' => w' = D.unlock t w
  | .block, _, _, _ => False

/-- The reply of an instruction settles what it does. -/
theorem exec_unique (D : Memory T L W) {t : T} {i : Instr L} {w w₁ w₂ : W} {r : Reply i}
    (h₁ : D.exec t i w r w₁) (h₂ : D.exec t i w r w₂) : w₁ = w₂ := by
  cases i with
  | load | cas | fetchAdd | probe | watch | futexSleep => exact h₁.2.trans h₂.2.symm
  | store | copyOut | boottime | monotonic | futexWake | futexRise | unlock =>
      exact Eq.trans h₁ (Eq.symm h₂)
  | lock =>
      cases r with
      | ok _ => exact Option.some.inj (Eq.trans (Eq.symm h₁) h₂)
      | error _ => exact Eq.trans h₁ (Eq.symm h₂)
  | block => exact h₁.elim

/-- The one reply and world an instruction leads to, once probes and the clocks are
answered by functions. A sleep times out and a taken lock is an error; only a sleep
without end has no true reply. -/
def respond (D : Memory T L W) (probe : W → Nat → Nat → Liveness) (now : W → Nat)
    (t : T) : (i : Instr L) → W → Reply i × W
  | .load l, w => (D.read w l, w)
  | .store l v, w => ((), D.write t l v w)
  | .cas l expected desired, w =>
      if D.read w l = expected then (true, D.write t l desired w) else (false, w)
  | .fetchAdd l n bits, w =>
      (D.read w l, D.write t l ((D.read w l + n) % 2 ^ bits) w)
  | .copyOut j v, w => ((), D.fill t j v w)
  | .probe pid ticks, w => (probe w pid ticks, w)
  | .boottime, w => (now w, w)
  | .monotonic, w => (now w, w)
  | .watch l, w => (D.read w l, D.setFutex ((D.futex w).look t) w)
  | .futexWake _ _, w => ((), D.setFutex ((D.futex w).wake t) w)
  | .futexSleep l expected, w =>
      if D.read w l = expected then (true, D.setFutex ((D.futex w).sleep t) w)
      else (false, w)
  | .futexRise, w => (etimedout, D.setFutex ((D.futex w).rise t) w)
  | .lock, w =>
      match D.lock t w with
      | some w' => (.ok (), w')
      | none => (.error (makeErrnoError eintr "ControlLock::acquire" "flock"), w)
  | .unlock, w => ((), D.unlock t w)
  | .block, w => ((), w)

def Blocks : Instr L → Bool
  | .block => true
  | _ => false

theorem respond_exec (D : Memory T L W) {probe : W → Nat → Nat → Liveness} {now : W → Nat}
    (sound : ∀ w pid ticks, D.answers w pid ticks (probe w pid ticks)) (t : T)
    (i : Instr L) (goes : Blocks i = false) (w : W) :
    D.exec t i w (D.respond probe now t i w).1 (D.respond probe now t i w).2 := by
  cases i with
  | load l => exact ⟨rfl, rfl⟩
  | store l v => exact rfl
  | cas l expected desired =>
      by_cases h : D.read w l = expected
      · simp only [respond, exec, if_pos h, decide_eq_true h]
        exact ⟨rfl, trivial⟩
      · simp only [respond, exec, if_neg h, decide_eq_false h]
        exact ⟨rfl, trivial⟩
  | fetchAdd l n bits => exact ⟨rfl, rfl⟩
  | copyOut j v => exact rfl
  | probe pid ticks => exact ⟨sound w pid ticks, rfl⟩
  | watch l => exact ⟨rfl, rfl⟩
  | futexSleep l expected =>
      by_cases h : D.read w l = expected
      · simp only [respond, exec, if_pos h, decide_eq_true h]
        exact ⟨rfl, trivial⟩
      · simp only [respond, exec, if_neg h, decide_eq_false h]
        exact ⟨rfl, trivial⟩
  | boottime | monotonic | futexWake | futexRise | unlock => exact rfl
  | lock =>
      simp only [respond, exec]
      cases h : D.lock t w with
      | some w' => rfl
      | none => rfl
  | block => cases goes

/-- The reply of an instruction that can go on. -/
def answer (D : Memory T L W) (probe : W → Nat → Nat → Liveness) (now : W → Nat)
    (t : T) (i : Instr L) (w : W) : Option (Reply i × W) :=
  if Blocks i then none else some (D.respond probe now t i w)

theorem answer_exec (D : Memory T L W) {probe : W → Nat → Nat → Liveness} {now : W → Nat}
    (sound : ∀ w pid ticks, D.answers w pid ticks (probe w pid ticks)) (t : T)
    (i : Instr L) (w : W) (x : Reply i × W) (h : D.answer probe now t i w = some x) :
    D.exec t i w x.1 x.2 := by
  simp only [answer] at h
  split at h
  · cases h
  · rename_i goes
    cases h
    exact D.respond_exec sound t i (by simpa using goes) w

/-- The instructions that leave every word as it is. -/
def Reads : Instr L → Prop
  | .load _ | .probe _ _ | .boottime | .monotonic | .block => True
  | _ => False

theorem exec_reads (D : Memory T L W) (t : T) (i : Instr L) (h : Reads i)
    (w : W) (r : Reply i) (w' : W) (hx : D.exec t i w r w') : w' = w := by
  cases i with
  | load l => exact hx.2
  | probe pid ticks => exact hx.2
  | boottime | monotonic => exact hx
  | block => exact hx.elim
  | store | cas | fetchAdd | copyOut | lock | unlock | watch | futexWake | futexSleep
  | futexRise => exact h.elim

/-- The instructions that say who sleeps. -/
def Sleeps : Instr L → Prop
  | .watch _ | .futexWake _ _ | .futexSleep _ _ | .futexRise => True
  | _ => False

/-- The instructions that leave every word as it is, whoever sleeps afterwards. -/
def Waits (i : Instr L) : Prop := Reads i ∨ Sleeps i

theorem exec_waits (D : Memory T L W) (t : T) (i : Instr L) (h : Waits i)
    (w : W) (r : Reply i) (w' : W) (hx : D.exec t i w r w') :
    w' = w ∨ ∃ log, w' = D.setFutex log w := by
  rcases h with h | h
  · exact .inl (exec_reads D t i h w r w' hx)
  cases i with
  | watch l => exact .inr ⟨_, hx.2⟩
  | futexWake l count => exact .inr ⟨_, hx⟩
  | futexSleep l expected =>
      rw [hx.2]
      split
      · exact .inr ⟨_, rfl⟩
      · exact .inl rfl
  | futexRise => exact .inr ⟨_, hx⟩
  | _ => exact h.elim

end Memory
end EdgeRuntime

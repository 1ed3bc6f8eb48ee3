import EdgeRuntime.Queue.Fifo

/-!
Why a queue reports that recovery is blocked. The verdict needs an owner record that
is seen twice around a probe of its process, so it falls only on a process that
stopped inside its gate; nobody can enter that gate again.
-/
namespace EdgeRuntime
open Concurrent

namespace QueueSystem
variable {T : Type} {q : QueueSystem T} {s s' : QueueState T} {u : T} {g : Bool}

/-- The gate belongs to a client that has stopped. -/
structure Abandoned (q : QueueSystem T) (g : Bool) (u : T) (s : QueueState T) : Prop where
  holder : s.holder g = some u
  stopped : q.Stopped u s.world
  state : s.mem (.gateState g) = MpmcLockState.owned.code
  owner : ∀ w, s.mem (.gateOwner g w) = (ownerFromProcess (q.self u)).word w

theorem Abandoned.onward (h : Abandoned q g u s) (onward : Onward s s') :
    Abandoned q g u s' := by
  obtain ⟨holder, words⟩ := onward.dead g u h.holder (h.stopped u rfl rfl)
  refine ⟨holder, fun u' pid ticks => onward.dies u' (h.stopped u' pid ticks), ?_, ?_⟩
  · exact (words _ rfl).trans h.state
  · exact fun w => (words _ rfl).trans (h.owner w)

theorem abandoned_of_blocked (hi : q.Inv s) (sound : q.Sound)
    (fresh : s.world.exhausted = false) (hb : q.Blocked s) : ∃ g u, Abandoned q g u s := by
  obtain ⟨g, u, holder, stopped, state⟩ := hb
  obtain ⟨u', holder', words⟩ := (hi.healthy sound fresh).owned g state
  obtain rfl : u = u' := Option.some.inj (holder.symm.trans holder')
  exact ⟨g, u, holder, stopped, state, words⟩

variable [DecidableEq T]

theorem exec_crashed {t : T} {i : Instr QueueLoc} {w w' : QueueWorld T} {r : Reply i}
    (hx : q.memory.exec t i w r w') : w'.crashed = w.crashed := by
  cases i with
  | load | probe | watch | fetchAdd =>
      obtain ⟨_, rfl⟩ := hx
      rfl
  | store | copyOut | boottime | monotonic | futexWake | futexRise | unlock =>
      obtain rfl := hx
      rfl
  | cas | futexSleep =>
      obtain ⟨_, rfl⟩ := hx
      split <;> rfl
  | lock =>
      cases r with
      | ok _ => cases hx
      | error _ =>
          obtain rfl := hx
          rfl
  | block => exact hx.elim

theorem dead_of_crashed
    {ok : QueueWorld T → Event T (Instr QueueLoc) Reply Error Unit QueueCall → Prop}
    {out : T → Nat → Nat} {c : Config T (Instr QueueLoc) Reply Error Unit QueueCall (QueueWorld T)}
    (run : q.machine.Reach ok (q.machine.start (q.init out)) c) {u : T}
    (h : c.world.crashed u = true) : c.thread u = .dead := by
  refine Machine.dead_of_marked QueueWorld.crashed (fun _ _ _ => rfl)
    (fun _ _ _ _ _ => exec_crashed) (fun _ _ _ _ => rfl) ?_ (fun _ => rfl) run h
  exact fun t w u hu => Function.update_of_ne hu _ _

/-- A push or a pop that reports blocked recovery has met the gate of a process that
stopped while it owned it, as long as nothing is out of epochs; the gate is its own
from then on, whatever the other clients do. -/
theorem recoveryBlocked_of_stopped_owner (sound : q.Sound) {out : T → Nat → Nat}
    {c : Config T (Instr QueueLoc) Reply Error Unit QueueCall (QueueWorld T)}
    (run : q.machine.Reach (fun _ _ => True) (q.machine.start (q.init out)) c)
    (fresh : c.world.exhausted = false) {r : QueueReturn} (hr : r ∈ c.world.finished)
    (found : r.FoundBlocked) :
    ∃ g u, ∀ c', q.machine.Reach (fun _ _ => True) c c' →
      q.Stopped u c'.world ∧
      c'.world.mem (.gateState g) = MpmcLockState.owned.code ∧
      ∀ w, c'.world.mem (.gateOwner g w) = (ownerFromProcess (q.self u)).word w := by
  obtain ⟨s, hs, hi, threads⟩ := (q.outline _).covers_reach run
    ⟨q.freshState out, rfl, inv_freshState out, fun _ => ⟨_, fun _ => (nomatch ·), rfl, rfl⟩⟩
  have hs : s.world = c.world := hs
  rw [← hs] at fresh hr
  have blocked := (hi.healthy sound fresh).verdicts r hr found
  obtain ⟨g, u, abandoned⟩ := abandoned_of_blocked hi sound fresh blocked
  refine ⟨g, u, fun c' run' => ?_⟩
  have dead := dead_of_crashed run (hs ▸ abandoned.stopped u rfl rfl)
  have stable : q.logic.Stable u (Abandoned q g u) :=
    fun _ _ h hr _ => h.onward (Rely.onward hr)
  obtain ⟨_, s', hs', _, _, later⟩ :=
    (q.outline _).kept_by_dead stable run' dead hs hi threads abandoned
  have hs' : s'.world = c'.world := hs'
  rw [← hs']
  exact ⟨later.stopped, later.state, later.owner⟩

/-- Two processes on a queue of one slot of one byte. -/
def mortalSelf (t : Bool) : ProcessIdentity := if t then ⟨2, 2, 2, 2⟩ else ⟨3, 3, 2, 2⟩

/-- A probe that knows who has stopped. -/
def mortalProbe (w : QueueWorld Bool) (pid _ : Nat) : Liveness :=
  if w.crashed (pid == 2) then .exited else .alive

def mortal : QueueSystem Bool :=
  { tiny with
    self := mortalSelf
    answers := fun w pid ticks l => l = mortalProbe w pid ticks }

theorem mortal_sound : mortal.Sound where
  valid := by decide
  boot := by decide
  probe w pid ticks l answer stopped u same _ := by
    subst answer
    have hpid : u = (pid == 2) := by
      subst same
      cases u <;> rfl
    unfold mortalProbe at stopped
    rw [hpid]
    by_contra alive
    rw [if_neg alive] at stopped
    exact stopped rfl

instance (t : Bool) (a : QueueCall) (w : QueueWorld Bool) :
    Decidable (mortal.machine.allowed t a w) := .isTrue trivial

def mortalRun (moves : List (Move Bool QueueCall)) :
    Option (Config Bool (Instr QueueLoc) Reply Error Unit QueueCall (QueueWorld Bool)) :=
  mortal.machine.play (fun _ _ => True) (mortal.memory.answer mortalProbe fun _ => 0)
    (mortal.machine.start (mortal.init fun _ _ => 0)) moves

theorem mortalRun_reach {moves : List (Move Bool QueueCall)}
    {c : Config Bool (Instr QueueLoc) Reply Error Unit QueueCall (QueueWorld Bool)}
    (h : mortalRun moves = some c) :
    mortal.machine.Reach (fun _ _ => True) (mortal.machine.start (mortal.init fun _ _ => 0)) c :=
  Machine.reach_play (mortal.memory.answer_exec fun _ _ _ => rfl) h

/-- One producer stops in its gate, the other one meets it. -/
def deadOwner : List (Move Bool QueueCall) :=
  [.call true (.push [7]), .run true 26, .crash true, .call false (.push [8]), .run false 100,
    .ret false]

/-- The call was told that recovery is blocked. -/
def toldBlocked (r : QueueReturn) : Bool :=
  match r.result with
  | .ok _ => false
  | .error e => e.code = .recoveryBlocked

theorem recoveryBlocked_of_stopped_owner_mortal :
    ∃ c r, mortalRun deadOwner = some c ∧ c.world.exhausted = false ∧
      r ∈ c.world.finished ∧ r.FoundBlocked ∧
      ∃ g u, mortal.Stopped u c.world ∧
        c.world.mem (.gateState g) = MpmcLockState.owned.code := by
  have facts : (mortalRun deadOwner).any (fun c => !c.world.exhausted &&
      c.world.finished.any toldBlocked) = true := by decide +kernel
  obtain ⟨c, hc, hf⟩ := (Option.any_eq_true _ _).1 facts
  obtain ⟨fresh, r, hr, blocked⟩ : c.world.exhausted = false ∧ ∃ r ∈ c.world.finished,
      toldBlocked r = true := by simpa using hf
  have found : r.FoundBlocked := by
    cases result : r.result with
    | ok _ => simp [toldBlocked, result] at blocked
    | error e => exact ⟨e, result, by simpa [toldBlocked, result] using blocked⟩
  obtain ⟨g, u, later⟩ := recoveryBlocked_of_stopped_owner mortal_sound (mortalRun_reach hc)
    fresh hr found
  obtain ⟨stopped, state, _⟩ := later c .refl
  exact ⟨c, r, hc, fresh, hr, found, g, u, stopped, state⟩

end QueueSystem
end EdgeRuntime

import EdgeRuntime.Concurrent.Schedule
import EdgeRuntime.Queue.Push
import EdgeRuntime.Queue.Pop

/-!
Runs of a queue. Every push and every pop has been verified against what the
other clients may do; here they are put together, and the invariant holds in
every state any number of clients can reach, wherever some of them stop.
-/
namespace EdgeRuntime
open Concurrent

namespace QueueSystem
variable {T : Type} {q : QueueSystem T} {t : T} {s : QueueState T}

variable (q) in
/-- The proof state of a fresh queue: nobody holds a gate. -/
def freshState (out : T → Nat → Nat) : QueueState T := 
  ⟨q.init out, fun _ => none, fun _ => false⟩

/-- Every slot of a fresh queue serves its first round. -/
theorem vacant_initial {p : Nat} (hp : p < q.handle.capacity) : q.Vacant q.initial p := by
  have slots := q.fresh.slots
  have index : q.ring p = p := Nat.mod_eq_of_lt hp
  constructor
  · rw [index]
    exact slots.sequence p hp
  · rw [index]
    exact slots.state p hp
  · rw [index, slots.epoch p hp]
  · rw [index, slots.epoch p hp]
    exact Nat.zero_le _

theorem healthy_freshState (out : T → Nat → Nat) : q.Healthy (q.freshState out) := by
  have slots := q.fresh.slots
  have free : ∀ g, (q.freshState out).mem (.gateState g) = MpmcLockState.free.code :=
    fun g => (slots.gates g).1
  have epoch : ∀ g, (q.freshState out).mem (.gateEpoch g) = 0 := fun g => (slots.gates g).2
  constructor
  case vacant =>
      intro p _ hp
      have deq : (q.freshState out).deq = 0 := slots.positions.2
      exact .inr (vacant_initial (by omega))
  case known => exact fun g => .inl (free g)
  case even => exact fun g _ => by rw [epoch g]
  case bounded => exact fun g => by rw [epoch g]; exact Nat.zero_le _
  case owned => exact fun g owned => absurd ((free g).symm.trans owned) (by decide)
  case verdicts => exact fun r hr => (nomatch hr)

theorem inv_freshState (out : T → Nat → Nat) : q.Inv (q.freshState out) := by
  have slots := q.fresh.slots
  have enq : (q.freshState out).enq = 0 := slots.positions.1
  have deq : (q.freshState out).deq = 0 := slots.positions.2
  constructor
  case ready => exact q.fresh.initState
  case order => omega
  case room => omega
  case drainable => omega
  case pushed => exact enq.symm
  case popped => simp [freshState, init]
  case payloads =>
      intro p _ hp
      omega
  case published =>
      intro p _ hp
      omega
  case freeGate => exact fun _ _ => rfl
  case drainGate =>
      intro _
      refine ⟨(slots.gates false).1, ?_, rfl⟩
      rw [deq]
      exact (slots.gates false).2
  case lasting =>
      intro h
      exact absurd ((slots.gates false).1.symm.trans h) (by decide)
  case counts => rfl
  case finished =>
      intro r hr
      cases hr
  case fillGate => exact fun _ => rfl
  case healthy => exact fun _ _ => healthy_freshState out

variable [DecidableEq T]

/-- A call that ends outside both gates with exact stores may be recorded. -/
theorem returns_of_outside {c : QueueClient} {a : QueueCall} {x : Except Error Unit}
    (hi : q.Inv s) (h : Outside t c s) (told : q.Explains x s)
    (counts : QueueReturn.Exact ⟨a, x, c.enqueueStores, c.dequeueStores⟩) :
    q.logic.Returns q.machine (fun t s => ∃ c, Outside t c s) t a x s := by
  refine ⟨{ s with world := q.machine.leave t a x s.world }, rfl, ?_, ?_, ?_⟩
  · refine inv_world hi rfl rfl rfl rfl rfl (fun _ hu => hu) ?_
    intro r hr
    rcases List.mem_append.1 hr with hr | hr
    · exact .inl hr
    · obtain rfl := List.mem_singleton.1 hr
      rw [h.client]
      exact .inr ⟨counts, told⟩
  · intro u hne
    exact rely_world rfl (Function.update_of_ne hne _ _) rfl (fun _ hu => hu) rfl
  · exact ⟨_, h.holder, rfl, h.alive⟩

variable (q) in
/-- The proof outline of the queue: between calls a client holds no gate. -/
def outline (ok : QueueWorld T → Event T (Instr QueueLoc) Reply Error Unit QueueCall → Prop) :
    Outline q.machine ok q.logic where
  idle t s := ∃ c, Outside t c s
  idle_stable t := by
    rintro s s' ⟨c, h⟩ hr hi
    exact ⟨c, outside_stable s s' h hr hi⟩
  exec_sound _ _ _ _ _ h _ := h
  call_sound t a s hi idle _ _ := by
    obtain ⟨c, h⟩ := idle
    refine ⟨{ s with world := q.machine.enter t a s.world }, rfl,
      inv_world hi rfl rfl rfl rfl rfl (fun _ hu => hu) (fun _ hr => .inl hr), ?_, ?_⟩
    · intro u hne
      exact rely_world rfl (Function.update_of_ne hne _ _) rfl (fun _ hu => hu) rfl
    · have entered : Outside t ⟨some a, (s.world.client t).out, 0, 0⟩
          { s with world := q.machine.enter t a s.world } :=
        ⟨h.holder, Function.update_self _ _ _, h.alive⟩
      refine Logic.wp_mono (Q := fun x s => ∃ c, Outside t c s ∧ q.Explains x s ∧
        QueueReturn.Exact ⟨a, x, c.enqueueStores, c.dequeueStores⟩) ?_ ?_
      · rintro x s' hi' ⟨c', h', told, counts⟩
        exact returns_of_outside hi' h' told counts
      · cases a with
        | push payload =>
            exact wp_mpmcTryPushImpl entered rfl (fun s' h' => ⟨_, h', explains_ok _, rfl⟩)
              fun e s' h' told => ⟨_, h', explains_error told, rfl⟩
        | pop payloadSize =>
            exact wp_mpmcTryPopImpl entered (fun out s' h' => ⟨_, h', explains_ok _, rfl⟩)
              fun e s' h' told => ⟨_, h', explains_error told, rfl⟩
  crash_sound t s hi _ := by
    have dies : ∀ u, s.world.crashed u = true →
        (q.machine.crash t s.world).crashed u = true := by
      intro u hu
      change Function.update s.world.crashed t true u = true
      rw [Function.update_apply]
      split
      · rfl
      · exact hu
    refine ⟨{ s with world := q.machine.crash t s.world }, rfl,
      inv_world hi rfl rfl rfl rfl rfl dies (fun _ hr => .inl hr), fun u hne => ?_⟩
    exact rely_world rfl rfl (Function.update_of_ne hne _ _) dies rfl

/-- The invariant holds throughout every run. -/
theorem inv_reach {ok : QueueWorld T → Event T (Instr QueueLoc) Reply Error Unit QueueCall → Prop}
    {out : T → Nat → Nat} {c : Config T (Instr QueueLoc) Reply Error Unit QueueCall (QueueWorld T)}
    (run : q.machine.Reach ok (q.machine.start (q.init out)) c) :
    ∃ s, s.world = c.world ∧ q.Inv s :=
  (q.outline ok).inv_of_reach (s := q.freshState out) rfl (inv_freshState out)
    (fun _ => ⟨_, fun _ => (nomatch ·), rfl, rfl⟩) run

/-- First in, first out, each message at most once: the payloads copied out are
the first `dequeue_position` ones that were pushed, and a finished call stored its
position exactly when it reported success. -/
theorem popped_eq_take_pushed {out : T → Nat → Nat}
    {c : Config T (Instr QueueLoc) Reply Error Unit QueueCall (QueueWorld T)}
    (run : q.machine.Reach (fun _ _ => True) (q.machine.start (q.init out)) c) :
    c.world.mem .dequeuePosition ≤ c.world.mem .enqueuePosition ∧
    c.world.mem .enqueuePosition ≤ c.world.mem .dequeuePosition + q.options.capacity ∧
    c.world.pushed.length = c.world.mem .enqueuePosition ∧
    c.world.popped = c.world.pushed.take (c.world.mem .dequeuePosition) ∧
    ∀ r ∈ c.world.finished, r.Exact := by
  obtain ⟨s, hs, hi⟩ := inv_reach run
  have room := hi.room
  rw [(mpmcCreateImpl_ok q.created).1] at room
  rw [← hs]
  exact ⟨hi.order, room, hi.pushed, hi.popped, hi.finished⟩

/-- A queue of one slot of one byte, with two clients. -/
def tiny : QueueSystem Bool where
  options := ⟨"q", 1⟩
  schema := ⟨[], 1⟩
  payloadSize := 1
  creator := ⟨1, 1, 1, 1⟩
  handle := ⟨⟨1, 1, 1, 1⟩, 1, 1, 128, false⟩
  initial := _
  created := rfl
  self _ := ⟨2, 2, 2, 2⟩
  removed _ := false
  answers _ _ _ _ := True

instance (t : Bool) (a : QueueCall) (w : QueueWorld Bool) :
    Decidable (tiny.machine.allowed t a w) := .isTrue trivial

/-- The configuration a schedule of the two clients leads to. -/
def tinyRun (ok : QueueWorld Bool →
      Event Bool (Instr QueueLoc) Reply Error Unit QueueCall → Prop)
    [∀ w e, Decidable (ok w e)] (moves : List (Move Bool QueueCall)) :
    Option (Config Bool (Instr QueueLoc) Reply Error Unit QueueCall (QueueWorld Bool)) :=
  tiny.machine.play ok (tiny.memory.answer (fun _ _ _ => .alive) fun _ => 0)
    (tiny.machine.start (tiny.init fun _ _ => 0)) moves

theorem tinyRun_reach (ok : QueueWorld Bool →
      Event Bool (Instr QueueLoc) Reply Error Unit QueueCall → Prop)
    [∀ w e, Decidable (ok w e)] {moves : List (Move Bool QueueCall)}
    {c : Config Bool (Instr QueueLoc) Reply Error Unit QueueCall (QueueWorld Bool)}
    (h : tinyRun ok moves = some c) :
    tiny.machine.Reach ok (tiny.machine.start (tiny.init fun _ _ => 0)) c :=
  Machine.reach_play (tiny.memory.answer_exec fun _ _ _ => trivial) h

/-- One client pushes, then the other pops while a second push is under way. -/
def tinyOverlap : List (Move Bool QueueCall) :=
  [.call true (.push [7]), .run true 100, .ret true, .call true (.push [8]), .run true 6,
    .call false (.pop 1), .run false 100, .ret false]

theorem popped_eq_take_pushed_tiny :
    ∃ c, tinyRun (fun _ _ => True) tinyOverlap = some c ∧ c.world.popped = [[7]] ∧
      c.world.popped = c.world.pushed.take (c.world.mem .dequeuePosition) := by
  have popped : (tinyRun (fun _ _ => True) tinyOverlap).map (·.world.popped) =
      some [[7]] := by decide +kernel
  obtain ⟨c, hc, hp⟩ := Option.map_eq_some_iff.1 popped
  exact ⟨c, hc, hp, (popped_eq_take_pushed (tinyRun_reach _ hc)).2.2.2.1⟩

end QueueSystem
end EdgeRuntime

import EdgeRuntime.Queue.Fifo
import EdgeRuntime.Sync.Alone

/-!
Every admitted message can be drained. A pop that runs alone on a queue at rest is
followed instruction by instruction: the free dequeue gate has spent two epochs
for each message popped, and admission never let the messages outnumber what is
left, so no check on its way can fail.
-/
namespace EdgeRuntime
open Concurrent

namespace QueueSystem
section
variable {T : Type} {q : QueueSystem T} {w : QueueWorld T}

/-- What a pop needs to find: a live queue at rest with a message that was admitted. -/
structure Poppable (q : QueueSystem T) (w : QueueWorld T) : Prop where
  ready : w.mem .initState = MpmcInitState.ready.code
  message : w.mem .dequeuePosition < w.mem .enqueuePosition
  room : w.mem .enqueuePosition ≤ w.mem .dequeuePosition + q.handle.capacity
  drainable : 2 * w.mem .enqueuePosition ≤ maxCommittedOwnerEpoch
  free : w.mem (.gateState false) = MpmcLockState.free.code
  budget : w.mem (.gateEpoch false) = 2 * w.mem .dequeuePosition
  published : q.Published w.mem (w.mem .dequeuePosition)

theorem Poppable.positions (h : Poppable q w) (operation : String) :
    validateQueuePositions (w.mem .enqueuePosition) (w.mem .dequeuePosition)
      q.handle.capacity operation = .ok () := by
  have := h.message
  have := h.room
  unfold validateQueuePositions
  rw [if_neg (by omega), if_neg (by omega)]

theorem Poppable.bounds (h : Poppable q w) (operation : String) :
    validateTicketBounds (w.mem .dequeuePosition) q.handle.capacity operation =
      .ok (w.mem .dequeuePosition + 1, w.mem .dequeuePosition + q.handle.capacity) := by
  have := h.message
  have := h.drainable
  have := q.fresh.capacity_le
  unfold validateTicketBounds
  rw [mpmcCheckedTicketBounds_of_le q.fresh.capacity_pos]
  unfold maxCommittedOwnerEpoch mpmcMaxCapacity uint64Max at *
  omega

theorem poppable_of_inv {s : QueueState T} (hi : q.Inv s) (unheld : s.holder false = none)
    (message : s.deq < s.enq) : Poppable q s.world where
  ready := hi.ready
  message := message
  room := hi.room
  drainable := hi.drainable
  free := (hi.drainGate unheld).1
  budget := (hi.drainGate unheld).2.1
  published := by
    refine (hi.published s.deq (Nat.le_refl _) message).resolve_left ?_
    rintro ⟨taking, _⟩
    cases taking.symm.trans (hi.drainGate unheld).2.2

end

open Memory

variable {T α : Type} [DecidableEq T] {q : QueueSystem T}
  {probe : QueueWorld T → Nat → Nat → Liveness} {now : QueueWorld T → Nat} {t : T}
  {w : QueueWorld T} {l : QueueLoc} {v : Nat}
  {Q : Except Error α → QueueWorld T → Prop}

@[simp] theorem memory_read : q.memory.read w = w.mem := rfl

@[simp] theorem memory_write : q.memory.write t l v w = q.write t l v w := rfl

@[simp] theorem write_mem : (q.write t l v w).mem = w.mem.set l v := rfl

@[simp] theorem write_out : ((q.write t l v w).client t).out = (w.client t).out := by
  simp [write]

theorem alone_releaseOnError {β : Type} {g : Bool} {p : QueueCode β}
    {k : β → QueueCode α} {a : β} {w' : QueueWorld T}
    (run : q.memory.alone probe now t p w = (.ok a, w'))
    (h : q.memory.Alone probe now t Q (k a) w') :
    q.memory.Alone probe now t Q (releaseOnError g p >>= k) w := by
  have released : q.memory.alone probe now t (releaseOnError g p) w = (.ok a, w') := by
    unfold releaseOnError alone at *
    rw [Prog.solo_bind, Prog.solo_attempt, run]
    rfl
  exact alone_bind released h

theorem alone_snapshotQueuePositions (operation : String) :
    q.memory.alone probe now t (snapshotQueuePositions operation) w =
      (.ok (w.mem .enqueuePosition, w.mem .dequeuePosition), w) := by
  change q.memory.alone probe now t
    (if w.mem .enqueuePosition = w.mem .enqueuePosition ∧
        w.mem .dequeuePosition = w.mem .dequeuePosition then
      .ret (w.mem .enqueuePosition, w.mem .dequeuePosition)
    else snapshotQueuePositionsLoop operation 3) w = _
  rw [if_pos ⟨rfl, rfl⟩]
  rfl

/-- A free gate at an even epoch is seen as inactive. -/
theorem alone_snapshotGateOwner {g : Bool} {k : OwnerSnapshot → QueueCode α}
    (free : w.mem (.gateState g) = MpmcLockState.free.code)
    (even : w.mem (.gateEpoch g) % 2 = 0)
    (bound : w.mem (.gateEpoch g) ≤ maxCommittedOwnerEpoch)
    (h : ∀ state, q.memory.Alone probe now t Q
      (k ⟨.inactive, state, noOwner, w.mem (.gateEpoch g)⟩) w) :
    q.memory.Alone probe now t Q (snapshotGateOwner g >>= k) w := by
  have classify : classifyGateState (w.mem (.gateState g)) = .inactive := by
    rw [free]
    rfl
  change q.memory.Alone probe now t Q (snapshotOwnerLoop _ _ _ _ _ 4 >>= k) w
  unfold snapshotOwnerLoop snapshotOwnerAttempt
  simp only [Prog.bind_assoc]
  refine alone_load ?_
  rw [memory_read, classify]
  unfold snapshotOwnerInactive
  simp only [Prog.bind_assoc]
  refine alone_load (alone_load (alone_load ?_))
  rw [memory_read, if_pos ⟨rfl, rfl⟩, if_neg (by omega)]
  exact h _

theorem alone_dequeueDrainBudget {handle : MpmcQueueHandle} {operation : String}
    {k : Nat → QueueCode α}
    (free : w.mem (.gateState false) = MpmcLockState.free.code)
    (even : w.mem (.gateEpoch false) % 2 = 0)
    (bound : w.mem (.gateEpoch false) ≤ maxCommittedOwnerEpoch)
    (h : q.memory.Alone probe now t Q
      (k ((maxCommittedOwnerEpoch - w.mem (.gateEpoch false)) / 2)) w) :
    q.memory.Alone probe now t Q (dequeueDrainBudget handle operation >>= k) w := by
  unfold dequeueDrainBudget
  rw [Prog.bind_assoc]
  refine alone_snapshotGateOwner free even bound fun state => ?_
  unfold settledDrainBudget
  dsimp only
  rw [if_neg (by omega), if_neg (by simp)]
  exact h

/-- The byte copy leaves the slot's bytes in the caller's buffer. -/
theorem alone_copyFrom {i j n : Nat} {k : Unit → QueueCode α}
    (h : ∀ w', w'.mem = w.mem →
      (∀ o, o < j → (w'.client t).out o = (w.client t).out o) →
      (∀ o, j ≤ o → o < j + n → (w'.client t).out o = w.mem (.slotPayload i o)) →
      q.memory.Alone probe now t Q (k ()) w') :
    q.memory.Alone probe now t Q (copyFrom (.slotPayload i) j n >>= k) w := by
  induction n generalizing j w with
  | zero => exact h w rfl (fun _ _ => rfl) fun o ho ho' => by omega
  | succ n ih =>
      have filled : ∀ o, ((fill t j (w.mem (.slotPayload i j)) w).client t).out o =
          if o = j then w.mem (.slotPayload i j) else (w.client t).out o := by
        intro o
        simp [fill, Function.update_apply]
      refine ih (w := fill t j (w.mem (.slotPayload i j)) w) ?_
      intro w' mem before copied
      refine h w' mem ?_ ?_
      · intro o ho
        rw [before o (by omega), filled, if_neg (by omega)]
      · intro o ho ho'
        by_cases hj : o = j
        · subst hj
          rw [before o (by omega), filled, if_pos rfl]
        · exact copied o (by omega) (by omega)

theorem alone_setOwner {k : Unit → QueueCode α} {owner : OwnerWord → QueueLoc}
    {id : ProcessIdentity}
    (h : ∀ w', (∀ l, (∀ word, l ≠ owner word) → w'.mem l = w.mem l) →
      (w'.client t).out = (w.client t).out → q.memory.Alone probe now t Q (k ()) w') :
    q.memory.Alone probe now t Q (setOwner owner id >>= k) w := by
  unfold setOwner storeOwnerSeqCst
  simp only [Prog.bind_assoc]
  refine alone_store (alone_store (alone_store (alone_store (h _ ?_ (by simp)))))
  intro l hl
  simp [hl]

/-- The commit leaves the slots and the caller's buffer alone. -/
theorem alone_commitClaimedGate {k : Unit → QueueCode α} {g : Bool}
    {handle : MpmcQueueHandle} (even : w.mem (.gateEpoch g) % 2 = 0)
    (room : w.mem (.gateEpoch g) + 2 ≤ maxCommittedOwnerEpoch)
    (h : ∀ w', (∀ l, l.slot?.isSome = true → w'.mem l = w.mem l) →
      (w'.client t).out = (w.client t).out → q.memory.Alone probe now t Q (k ()) w') :
    q.memory.Alone probe now t Q (commitClaimedGate handle g >>= k) w := by
  unfold commitClaimedGate
  rw [Prog.bind_assoc]
  refine alone_beginOwnerCommit (Nat.le_refl _) even room ?_
  simp only [ne_eq, not_true_eq_false, if_false, Prog.bind_assoc]
  refine alone_setOwner fun w₁ mem out => alone_store (alone_store (h _ ?_ ?_))
  · intro l hl
    have hne : ∀ word, l ≠ .gateOwner g word := by
      rintro word rfl
      cases hl
    have hne' : l ≠ .gateEpoch g ∧ l ≠ .gateState g := by
      constructor <;> (rintro rfl; cases hl)
    simp [hne', mem l hne]
  · simp [out]

theorem notifyWaiters_out :
    ((q.memory.alone probe now t notifyWaiters w).2.client t).out = (w.client t).out :=
  write_out (q := q) (l := .notifyEpoch) (v := (w.mem .notifyEpoch + 1) % 2 ^ 32)

section Pop
variable {Q : Except Error Unit → QueueWorld T → Prop} {handle : MpmcQueueHandle}

theorem alone_popClaimed {i d next reclaim : Nat}
    (even : w.mem (.slotEpoch i) % 2 = 0)
    (reserve : w.mem (.slotEpoch i) + 2 ≤ maxCommittedOwnerEpoch)
    (h : ∀ w', (∀ o, o < handle.payloadSize →
      (w'.client t).out o = w.mem (.slotPayload i o)) → Q (.ok ()) w') :
    q.memory.Alone probe now t Q (popClaimed handle i d next reclaim) w := by
  unfold popClaimed
  refine alone_beginOwnerCommit (Nat.le_refl _) even reserve ?_
  simp only [ne_eq, not_true_eq_false, if_false]
  refine alone_setOwner fun w₁ mem _ => alone_store (alone_store (alone_store ?_))
  refine alone_copyFrom fun w₂ _ _ copied => ?_
  refine alone_store (alone_store (alone_store (alone_store ?_)))
  refine h _ fun o ho => ?_
  rw [notifyWaiters_out]
  simp only [memory_write, write_out]
  rw [copied o (Nat.zero_le o) (by omega)]
  simp [mem]

theorem alone_popSlot {p reclaim : Nat} (published : q.Published w.mem p)
    (h : ∀ w', (∀ o, o < handle.payloadSize →
      (w'.client t).out o = w.mem (.slotPayload (q.ring p) o)) → Q (.ok ()) w') :
    q.memory.Alone probe now t Q (popSlot handle (q.ring p) p (p + 1) reclaim) w := by
  obtain ⟨sequence, state, even, reserve⟩ := published
  unfold popSlot slotMatches
  simp only [Prog.bind_assoc]
  refine alone_load ?_
  simp only [memory_read, sequence, ne_eq, not_true_eq_false, if_false, Prog.bind_assoc]
  refine alone_load ?_
  simp only [memory_read, state, decide_true, Prog.pure_eq, Prog.ret_bind, not_true_eq_false,
    if_false]
  refine alone_ownerEpochCapacity even reserve ?_
  simp only [not_true_eq_false, if_false]
  refine alone_cas state ?_
  simp only [if_true]
  exact alone_popClaimed (by simpa using even) (by simpa using reserve) (by simpa using h)

theorem alone_popGated (ready : Poppable q w)
    (h : ∀ w', (∀ o, o < q.payloadSize → (w'.client t).out o =
      w.mem (.slotPayload (q.ring (w.mem .dequeuePosition)) o)) → Q (.ok ()) w') :
    q.memory.Alone probe now t Q (popGated (q.handleOf t))
      (q.write t (.gateState false) MpmcLockState.claiming.code w) := by
  have message := ready.message
  have drainable := ready.drainable
  have budget := ready.budget
  unfold popGated
  refine alone_releaseOnError (alone_snapshotQueuePositions _) ?_
  simp only [write_mem, Words.set_apply, reduceCtorEq, if_false, handleOf_capacity,
    ready.positions, ready.bounds]
  refine alone_releaseOnError rfl (alone_releaseOnError rfl ?_)
  dsimp only
  rw [if_neg (by omega)]
  refine alone_commitClaimedGate ?_ ?_ ?_
  · simp
    omega
  · simp
    omega
  · intro w₁ slots out
    rw [q.slotAt_handleOf]
    have published : q.Published w₁.mem (w.mem .dequeuePosition) := by
      refine published_congr (fun l hl => ?_) ready.published
      have hne : l ≠ .gateState false := by
        rintro rfl
        cases hl
      rw [slots l (by rw [hl]; rfl)]
      simp [hne]
    refine alone_popSlot published fun w' copied => h w' fun o ho => ?_
    rw [copied o (q.payloadSize_eq.symm ▸ ho), slots _ rfl]
    simp

theorem alone_validateLiveHandle (live : q.removed t = false)
    (ready : w.mem .initState = MpmcInitState.ready.code) (operation : String) :
    q.memory.alone probe now t (validateLiveHandle (q.handleOf t) operation) w = (.ok (), w) := by
  have removed : (q.handleOf t).removed = false := live
  unfold validateLiveHandle
  rw [removed, if_neg (by simp)]
  change q.memory.alone probe now t (if w.mem .initState ≠ MpmcInitState.ready.code then _
    else .ret () : QueueCode Unit) w = _
  rw [if_neg (not_not_intro ready)]
  rfl

/-- A pop that runs alone on a poppable queue returns the oldest message. -/
theorem alone_mpmcTryPopImpl (live : q.removed t = false) (ready : Poppable q w)
    (h : ∀ w', (∀ o, o < q.payloadSize → (w'.client t).out o =
      w.mem (.slotPayload (q.ring (w.mem .dequeuePosition)) o)) → Q (.ok ()) w') :
    q.memory.Alone probe now t Q (mpmcTryPopImpl (q.handleOf t) q.payloadSize) w := by
  have message := ready.message
  have drainable := ready.drainable
  have budget := ready.budget
  have size : (q.handleOf t).payloadSize = q.payloadSize := q.payloadSize_eq
  unfold mpmcTryPopImpl
  refine alone_bind (alone_validateLiveHandle live ready.ready _) ?_
  rw [size, if_neg (by simp)]
  refine alone_bind (alone_snapshotQueuePositions _) ?_
  simp only [handleOf_capacity, ready.positions, ready.bounds]
  refine alone_lift rfl (alone_lift rfl ?_)
  rw [if_neg (by omega)]
  refine alone_dequeueDrainBudget ready.free (by omega) (by omega) ?_
  rw [if_neg (by omega)]
  unfold claimGate
  rw [Prog.bind_assoc]
  refine alone_load ?_
  rw [if_neg (by simp [ready.free]), Prog.bind_assoc]
  exact alone_cas ready.free (alone_popGated ready h)

end Pop

/-- With no operation in flight nobody holds a gate. -/
theorem inv_idle {ok : QueueWorld T → Event T (Instr QueueLoc) Reply Error Unit QueueCall → Prop}
    {out : T → Nat → Nat} {c : Config T (Instr QueueLoc) Reply Error Unit QueueCall (QueueWorld T)}
    (run : q.machine.Reach ok (q.machine.start (q.init out)) c)
    (idle : ∀ t, c.thread t = .idle) :
    ∃ s, s.world = c.world ∧ q.Inv s ∧ ∀ g, s.holder g = none := by
  obtain ⟨s, hs, hi, threads⟩ := (q.outline ok).covers_reach run
    ⟨q.freshState out, rfl, inv_freshState out, fun _ => ⟨_, fun _ => (nomatch ·), rfl, rfl⟩⟩
  refine ⟨s, hs, hi, fun g => ?_⟩
  cases hg : s.holder g with
  | none => rfl
  | some u =>
      have hu := threads u
      rw [idle u] at hu
      obtain ⟨_, outside⟩ := hu
      exact (outside.holder g hg).elim

/-- In every crash-free run the dequeue gate keeps enough epochs for the messages
that were admitted, no counter wraps, and on a queue at rest a pop that runs alone
returns the oldest message. -/
theorem pending_le_drainBudget {out : T → Nat → Nat}
    {c : Config T (Instr QueueLoc) Reply Error Unit QueueCall (QueueWorld T)}
    (run : q.machine.Reach (fun _ e => e.isCrash = false) (q.machine.start (q.init out)) c) :
    (c.world.mem (.gateState false) = MpmcLockState.free.code →
      c.world.mem .enqueuePosition - c.world.mem .dequeuePosition ≤
        (maxCommittedOwnerEpoch - c.world.mem (.gateEpoch false)) / 2) ∧
    ((∀ t, c.thread t = .idle) →
      c.world.mem .dequeuePosition < c.world.mem .enqueuePosition →
      ∀ t, q.removed t = false → ∀ probe now, ∃ w,
        q.memory.alone probe now t (mpmcTryPopImpl (q.handleOf t) q.payloadSize)
          (q.machine.enter t (.pop q.payloadSize) c.world) = (.ok (), w) ∧
        c.world.pushed[c.world.mem .dequeuePosition]? = some (q.received (w.client t))) ∧
    c.world.wrapped = false ∧
    c.world.mem (.gateState false) ≠ MpmcLockState.epochExhausted.code := by
  obtain ⟨s, hs, hi⟩ := inv_reach run
  refine ⟨?_, ?_, ?_, ?_⟩
  · rw [← hs]
    intro free
    have budget : s.world.mem (.gateEpoch false) = 2 * s.world.mem .dequeuePosition :=
      (hi.drainGate (hi.freeGate false free)).2.1
    have drainable : 2 * s.world.mem .enqueuePosition ≤ maxCommittedOwnerEpoch :=
      hi.drainable
    omega
  · intro idle message t live probe now
    obtain ⟨s', hs', hi', unheld⟩ := inv_idle run idle
    rw [← hs'] at message ⊢
    have ready : Poppable q (q.machine.enter t (.pop q.payloadSize) s'.world) := by
      have := poppable_of_inv hi' (unheld false) message
      exact ⟨this.ready, this.message, this.room, this.drainable, this.free, this.budget,
        this.published⟩
    have popped : q.memory.Alone probe now t (fun x w => x = .ok () ∧
        s'.world.pushed[s'.deq]? = some (q.received (w.client t)))
        (mpmcTryPopImpl (q.handleOf t) q.payloadSize)
        (q.machine.enter t (.pop q.payloadSize) s'.world) := by
      refine alone_mpmcTryPopImpl live ready fun w' copied => ⟨rfl, ?_⟩
      rw [hi'.payloads s'.deq (Nat.le_refl _) message]
      refine congrArg some (List.map_congr_left fun j hj => ?_)
      exact (copied j (List.mem_range.1 hj)).symm
    exact ⟨_, Prod.ext popped.1 rfl, popped.2⟩
  · rw [← hs]
    exact hi.counts
  · rw [← hs]
    exact hi.lasting

/-- One push from start to end. -/
def tinyPush : List (Move Bool QueueCall) :=
  [.call true (.push [7]), .run true 100, .ret true]

/-- After it the two clients are idle, and either of them can pop the message. -/
theorem pending_le_drainBudget_tiny :
    ∃ c, tinyRun (fun _ e => e.isCrash = false) tinyPush = some c ∧
      ∃ w, tiny.memory.alone (fun _ _ _ => .alive) (fun _ => 0) false
          (mpmcTryPopImpl (tiny.handleOf false) 1)
          (tiny.machine.enter false (.pop 1) c.world) = (.ok (), w) ∧
        tiny.received (w.client false) = [7] := by
  have facts : (tinyRun (fun _ e => e.isCrash = false) tinyPush).map (fun c =>
      ((c.thread true).isIdle, (c.thread false).isIdle, c.world.mem .enqueuePosition,
        c.world.mem .dequeuePosition, c.world.pushed)) =
      some (true, true, 1, 0, [[7]]) := by decide +kernel
  obtain ⟨c, hc, hf⟩ := Option.map_eq_some_iff.1 facts
  obtain ⟨idle, idle', enq, deq, pushed⟩ :
      (c.thread true).isIdle = true ∧ (c.thread false).isIdle = true ∧
        c.world.mem .enqueuePosition = 1 ∧ c.world.mem .dequeuePosition = 0 ∧
        c.world.pushed = [[7]] := by simpa using hf
  obtain ⟨w, run, oldest⟩ := (pending_le_drainBudget (tinyRun_reach _ hc)).2.1
    (fun t => by
      cases t
      · exact Thread.eq_idle_of_isIdle idle'
      · exact Thread.eq_idle_of_isIdle idle)
    (by omega) false rfl (fun _ _ _ => .alive) (fun _ => 0)
  rw [pushed, deq] at oldest
  exact ⟨c, hc, w, run, (Option.some.inj oldest).symm⟩

end QueueSystem
end EdgeRuntime

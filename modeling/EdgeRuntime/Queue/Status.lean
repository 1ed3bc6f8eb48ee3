import EdgeRuntime.Concurrent.Protocol
import EdgeRuntime.Queue.ServiceRuns

/-!
The positions that a status reports. They are loaded one after the other, so they fit each
other only if the clients have not popped, by the second load, a message that they had not
pushed by the first.
-/
namespace EdgeRuntime
open Concurrent

/-- The positions a status call has loaded so far. -/
inductive SeenPositions
  | neither
  | enqueue (e : Nat)
  | both (e d : Nat)
  deriving DecidableEq, Repr

namespace QueueSystem
variable {T : Type} [DecidableEq T] {q : QueueSystem T} {header : MpmcQueueHeaderAbi}

def nextSeen (p : SeenPositions) : (i : Instr QueueLoc) → Reply i → SeenPositions
  | .load .enqueuePosition, e => .enqueue e
  | .load .dequeuePosition, d =>
      match p with
      | .neither => .neither
      | .enqueue e | .both e _ => .both e d
  | _, _ => p

/-- A status call only looks; of any other call nothing is remembered. -/
def statusProtocol : Protocol (Instr QueueLoc) Reply (Option SeenPositions) where
  allow d i := d ≠ none → Memory.Reads i
  next d i r := d.map (nextSeen · i r)

/-- What the loaded positions say about the operations of the clients; `c` is the capacity. -/
def SeenOk (c : Nat) (w : ServiceWorld T) (t : T) : SeenPositions → Prop
  | .neither => True
  | .enqueue e => e = w.pushedBy t ∧ e ≤ w.queue.mem .dequeuePosition + c
  | .both e d => e = w.pushedBy t ∧ d = w.poppedBy t ∧ e ≤ d + c ∧
      d ≤ w.queue.mem .dequeuePosition

/-- The positions count the messages that were pushed and popped, and those that look see
the dequeue position grow. -/
structure Orderly (q : QueueSystem T) (header : MpmcQueueHeaderAbi) (w : ServiceWorld T)
    (e : Event T (Instr QueueLoc) Reply Error (Option MpmcQueueStatus) ServiceCall) : Prop where
  pushed : w.queue.mem .enqueuePosition = w.queue.pushed.length
  popped : w.queue.mem .dequeuePosition = w.queue.popped.length
  room : w.queue.mem .enqueuePosition ≤ w.queue.mem .dequeuePosition + q.handle.capacity
  grows : ∀ t i r, e = .op t i r → ∀ w', (q.service header).exec t i w r w' →
    ∀ u, u ≠ t → w.queue.mem .dequeuePosition ≤ w'.queue.mem .dequeuePosition

theorem service_exec_unique {t : T} {i : Instr QueueLoc} {r : Reply i} {w w₁ w₂ : ServiceWorld T}
    (h₁ : (q.service header).exec t i w r w₁) (h₂ : (q.service header).exec t i w r w₂) :
    w₁ = w₂ := by
  have same := q.memory.exec_unique h₁.1 h₂.1
  rw [h₁.2, h₂.2, same]

/-- Every run is orderly. -/
theorem orderly_reach {ok : ServiceWorld T →
      Event T (Instr QueueLoc) Reply Error (Option MpmcQueueStatus) ServiceCall → Prop}
    {out : T → Nat → Nat}
    {c : Config T (Instr QueueLoc) Reply Error (Option MpmcQueueStatus) ServiceCall
      (ServiceWorld T)}
    (run : (q.service header).Reach ok ((q.service header).start (q.serviceInit out)) c) :
    (q.service header).Reach (fun w e => ok w e ∧ q.Orderly header w e)
      ((q.service header).start (q.serviceInit out)) c := by
  refine (q.serviceOutline header ok).reach_and ?_ run (serviceCovers header ok out)
  intro c e c' s s' next hw hw' hi hi' hg
  have queue : s.1.world = c.world.queue := by
    rw [← hw]
    exact hi.2
  have queue' : s'.1.world = c'.world.queue := by
    rw [← hw']
    exact hi'.2
  refine ⟨?_, ?_, ?_, ?_⟩
  · rw [← queue]
    exact hi.1.pushed.symm
  · have order : s.1.deq ≤ s.1.world.pushed.length := hi.1.order.trans_eq hi.1.pushed.symm
    rw [← queue, hi.1.popped, List.length_take, Nat.min_eq_left order]
    rfl
  · rw [← queue]
    exact hi.1.room
  · intro t i r event w' happens u other
    cases event
    cases next with
    | op busy exec =>
        rw [service_exec_unique happens exec, ← queue, ← queue']
        exact (hg u other).deq

/-- An instruction of another client. -/
theorem SeenOk.other {c : Nat} {w : ServiceWorld T} {t u : T} {i : Instr QueueLoc}
    {queue : QueueWorld T} {p : SeenPositions} (h : SeenOk c w u p) (other : u ≠ t)
    (grows : w.queue.mem .dequeuePosition ≤ queue.mem .dequeuePosition) :
    SeenOk c (markLoads t i w queue) u p := by
  have pushed : (markLoads t i w queue).pushedBy u = w.pushedBy u := by
    unfold markLoads
    dsimp only
    split
    · exact Function.update_of_ne other _ _
    · rfl
  have popped : (markLoads t i w queue).poppedBy u = w.poppedBy u := by
    unfold markLoads
    dsimp only
    split
    · exact Function.update_of_ne other _ _
    · rfl
  cases p with
  | neither => trivial
  | enqueue e => exact ⟨h.1.trans pushed.symm, h.2.trans (Nat.add_le_add_right grows c)⟩
  | both e d =>
      exact ⟨h.1.trans pushed.symm, h.2.1.trans popped.symm, h.2.2.1, h.2.2.2.trans grows⟩

/-- An instruction of the status call itself. -/
theorem SeenOk.read {w : ServiceWorld T} {t : T} {i : Instr QueueLoc} {r : Reply i}
    {p : SeenPositions}
    {e : Event T (Instr QueueLoc) Reply Error (Option MpmcQueueStatus) ServiceCall}
    (h : SeenOk q.handle.capacity w t p) (reads : Memory.Reads i)
    (step : q.memory.exec t i w.queue r w.queue) (orderly : q.Orderly header w e) :
    SeenOk q.handle.capacity (markLoads t i w w.queue) t (nextSeen p i r) := by
  cases i with
  | probe | boottime | monotonic | block => exact h
  | load l =>
      obtain rfl : r = w.queue.mem l := step.1
      cases l with
      | enqueuePosition =>
          have pushed := orderly.pushed.trans
            (Function.update_self t w.queue.pushed.length w.pushedBy).symm
          exact ⟨pushed, orderly.room⟩
      | dequeuePosition =>
          have popped := orderly.popped.trans
            (Function.update_self t w.queue.popped.length w.poppedBy).symm
          cases p with
          | neither => trivial
          | enqueue e => exact ⟨h.1, popped, h.2, Nat.le_refl _⟩
          | both e d =>
              obtain ⟨pushed, _, room, grown⟩ := h
              exact ⟨pushed, popped, room.trans (Nat.add_le_add_right grown _), Nat.le_refl _⟩
      | initState | notifyEpoch | gateState | gateEpoch | gateOwner | slotSequence | slotState
      | slotOwner | slotTicket | slotEpoch | slotPayload => exact h
  | store | cas | fetchAdd | copyOut | lock | unlock | watch | futexWake | futexSleep
  | futexRise => exact reads.elim

/-- The instructions of a status call other than its loads of the positions. -/
def LooksElsewhere : Instr QueueLoc → Prop
  | .load .enqueuePosition | .load .dequeuePosition => False
  | i => Memory.Reads i

theorem nextSeen_elsewhere {i : Instr QueueLoc} (h : LooksElsewhere i) (p : SeenPositions)
    (r : Reply i) : nextSeen p i r = p := by
  cases i with
  | load l => cases l <;> first | exact h.elim | rfl
  | _ => rfl

theorem reads_elsewhere {i : Instr QueueLoc} (h : LooksElsewhere i) : Memory.Reads i := by
  cases i with
  | load l => trivial
  | _ => exact h

/-- A part of the status that loads no position keeps what was seen. -/
theorem follows_elsewhere {α : Type} {p : QueueCode α} (all : p.All LooksElsewhere)
    (seen : SeenPositions) :
    p.Follows statusProtocol (fun _ d => d = some seen) (some seen) := by
  refine Prog.follows_all ?_ all rfl
  rintro _ i rfl elsewhere
  refine ⟨fun _ => reads_elsewhere elsewhere, fun r => ?_⟩
  exact congrArg some (nextSeen_elsewhere elsewhere seen r)

theorem looksAtGates_elsewhere : LooksAtGates LooksElsewhere :=
  ⟨fun _ => trivial, fun _ => trivial, fun _ _ => trivial, fun _ _ => trivial⟩

theorem positions_setGate (status : MpmcQueueStatus) (enqueue : Bool) (lockState ownerPid : Nat)
    (ownerAlive : Bool) :
    (status.setGate enqueue lockState ownerPid ownerAlive).enqueuePosition =
      status.enqueuePosition ∧
    (status.setGate enqueue lockState ownerPid ownerAlive).dequeuePosition =
      status.dequeuePosition := by
  cases enqueue <;> exact ⟨rfl, rfl⟩

/-- What the status reports are the positions that were seen. -/
def Reported (x : Except Error MpmcQueueStatus) (d : Option SeenPositions) : Prop :=
  ∀ status, x = .ok status → d = some (.both status.enqueuePosition status.dequeuePosition)

theorem follows_fillStatusOwner (handle : MpmcQueueHandle) (enqueue : Bool)
    (status : MpmcQueueStatus) :
    (fillStatusOwner handle enqueue status).Follows statusProtocol Reported
      (some (.both status.enqueuePosition status.dequeuePosition)) := by
  have filled : ∀ lockState ownerPid ownerAlive, Reported
      (.ok (status.setGate enqueue lockState ownerPid ownerAlive))
      (some (.both status.enqueuePosition status.dequeuePosition)) := by
    intro lockState ownerPid ownerAlive _ same
    cases same
    obtain ⟨enq, deq⟩ := positions_setGate status enqueue lockState ownerPid ownerAlive
    rw [enq, deq]
  refine Prog.follows_seq (follows_elsewhere
    (looksAtGates_elsewhere.snapshotGateOwner enqueue).all _) ?_ fun _ _ _ => nofun
  rintro observation _ rfl
  split
  · exact filled _ _ _
  · exact nofun
  · exact nofun
  · exact nofun
  · exact nofun
  · refine Prog.follows_seq (follows_elsewhere
      (looksAtGates_elsewhere.confirmOwnerLiveness handle enqueue observation).all _) ?_
      fun _ _ _ => nofun
    rintro disposition _ rfl
    split
    · exact nofun
    · split
      · exact nofun
      · exact filled _ _ _

theorem all_validateLiveHandle_elsewhere (handle : MpmcQueueHandle) (operation : String) :
    (validateLiveHandle handle operation).All LooksElsewhere := by
  unfold validateLiveHandle
  split
  · trivial
  · have loads : (sharedLoad .initState : QueueCode Nat).Looks LooksElsewhere :=
      looks_load trivial
    refine Prog.all_bind loads.all fun init => ?_
    split <;> trivial

theorem follows_statusLoad {α : Type} {l : QueueLoc} {k : Nat → QueueCode α} {p : SeenPositions}
    {Q : Except Error α → Option SeenPositions → Prop}
    (h : ∀ v : Nat, (k v).Follows statusProtocol Q (some (nextSeen p (.load l) v))) :
    (sharedLoad l >>= k).Follows statusProtocol Q (some p) := ⟨fun _ => trivial, h⟩

theorem follows_mpmcStatusImpl (handle : MpmcQueueHandle) (header : MpmcQueueHeaderAbi) :
    (mpmcStatusImpl handle header).Follows statusProtocol Reported (some .neither) := by
  refine Prog.follows_seq (follows_elsewhere (all_validateLiveHandle_elsewhere _ _) _) ?_
    fun _ _ _ => nofun
  rintro _ _ rfl
  refine follows_statusLoad fun init => follows_statusLoad fun enq => ?_
  refine follows_statusLoad fun deq => follows_statusLoad fun enqueueLock => ?_
  refine follows_statusLoad fun dequeueLock => ?_
  refine Prog.follows_seq (follows_fillStatusOwner handle true _) ?_ fun _ _ _ => nofun
  intro status _ reported
  rw [reported status rfl]
  exact follows_fillStatusOwner handle false status

omit [DecidableEq T] in
/-- An event that moves no word and loads nothing. -/
theorem SeenOk.congr {c : Nat} {w w' : ServiceWorld T} {t : T} {p : SeenPositions}
    (h : SeenOk c w t p) (mem : w'.queue.mem = w.queue.mem)
    (pushed : w'.pushedBy = w.pushedBy) (popped : w'.poppedBy = w.poppedBy) :
    SeenOk c w' t p := by
  cases p with
  | neither => trivial
  | enqueue e | both e d =>
      unfold SeenOk
      simp only [mem, pushed, popped]
      exact h

/-- The loads of all status calls are what they say. -/
def SeenInv (q : QueueSystem T) (w : ServiceWorld T) (d : T → Option SeenPositions) : Prop :=
  ∀ t p, d t = some p → SeenOk q.handle.capacity w t p

theorem SeenInv.update {w' : ServiceWorld T} {d : T → Option SeenPositions} {t : T}
    {e : Option SeenPositions}
    (others : ∀ u p, u ≠ t → d u = some p → SeenOk q.handle.capacity w' u p)
    (self : ∀ p, e = some p → SeenOk q.handle.capacity w' t p) :
    q.SeenInv w' (Function.update d t e) := by
  intro u p seen
  by_cases hu : u = t
  · subst hu
    rw [Function.update_self] at seen
    exact self p seen
  · rw [Function.update_of_ne hu] at seen
    exact others u p hu seen

theorem SeenInv.op {w w' : ServiceWorld T} {d : T → Option SeenPositions} {t : T}
    {i : Instr QueueLoc} {r : Reply i} (h : q.SeenInv w d) (allowed : statusProtocol.allow (d t) i)
    (step : (q.service header).exec t i w r w') (orderly : q.Orderly header w (.op t i r)) :
    q.SeenInv w' (Function.update d t (statusProtocol.next (d t) i r)) := by
  refine SeenInv.update ?_ ?_
  · intro u p other seen
    rw [step.2]
    exact (h u p seen).other other (orderly.grows t i r rfl w' step u other)
  · intro p seen
    obtain ⟨before, was, rfl⟩ := Option.map_eq_some_iff.1 seen
    have reads := allowed (by rw [was]; exact nofun)
    have same := q.memory.exec_reads t i reads _ r _ step.1
    have exec := step.1
    rw [step.2, same]
    rw [same] at exec
    exact (h t before was).read reads exec orderly

/-- A call that returns a status has seen its positions. -/
def Shown (x : Except Error (Option MpmcQueueStatus)) (d : Option SeenPositions) : Prop :=
  ∀ status, x = .ok (some status) →
    d = some (.both status.enqueuePosition status.dequeuePosition)

omit [DecidableEq T] in
/-- The calls that push or pop return no status. -/
theorem follows_operation (t : T) (a : ServiceCall) :
    (q.operation t a >>= fun _ => (.ret none : QueueCode (Option MpmcQueueStatus))).Follows
      statusProtocol Shown none := by
  have anything : (q.operation t a).Follows statusProtocol (fun _ d => d = none) none :=
    Prog.follows_free (fun i some => (some rfl).elim) fun i r => rfl
  exact Prog.follows_seq anything (fun _ _ _ => nofun) fun _ _ _ => nofun

variable (q) in
/-- The monitor of the status calls. -/
def statusMonitor (header : MpmcQueueHeaderAbi) (ok : ServiceWorld T →
      Event T (Instr QueueLoc) Reply Error (Option MpmcQueueStatus) ServiceCall → Prop) :
    Monitor (q.service header) (fun w e => ok w e ∧ q.Orderly header w e)
      (Option SeenPositions) where
  protocol _ := statusProtocol
  idle _ d := d = none
  ends _ _ := Shown
  inv := q.SeenInv
  call_sound {w d t a} inv _ _ _ := by
    have others : ∀ u p, u ≠ t → d u = some p →
        SeenOk q.handle.capacity ((q.service header).enter t a w) u p :=
      fun u p _ seen => (inv u p seen).congr rfl rfl rfl
    cases a with
    | attempt b => exact ⟨none, SeenInv.update others nofun, follows_operation t (.attempt b)⟩
    | wait b deadline rounds =>
        exact ⟨none, SeenInv.update others nofun, follows_operation t (.wait b deadline rounds)⟩
    | status =>
        refine ⟨some .neither, SeenInv.update others ?_, ?_⟩
        · intro p same
          cases same
          trivial
        · refine Prog.follows_seq (follows_mpmcStatusImpl _ _) ?_ fun _ _ _ => nofun
          intro status _ reported _ same
          cases same
          exact reported status rfl
  op_sound inv allowed step ok := inv.op allowed step ok.2
  ret_sound {w d t a x} inv _ :=
    ⟨none, SeenInv.update (fun u p _ seen => (inv u p seen).congr rfl rfl rfl) nofun, rfl⟩
  crash_sound {w d t} inv _ := fun u p seen => (inv u p seen).congr rfl rfl rfl

/-- A status that is returned reports positions that fit each other exactly when the clients
had popped, by its load of the dequeue position, no more messages than they had pushed by
its load of the enqueue position. -/
theorem status_positions_iff {out : T → Nat → Nat}
    {c c' : Config T (Instr QueueLoc) Reply Error (Option MpmcQueueStatus) ServiceCall
      (ServiceWorld T)}
    (run : (q.service header).Reach (fun _ _ => True)
      ((q.service header).start (q.serviceInit out)) c)
    {t : T} {status : MpmcQueueStatus}
    (returns : (q.service header).Step c (.ret t (.ok (some status))) c') :
    (status.dequeuePosition ≤ status.enqueuePosition ∧
      status.enqueuePosition - status.dequeuePosition ≤ q.options.capacity) ↔
    c.world.poppedBy t ≤ c.world.pushedBy t := by
  have start : (q.statusMonitor header fun _ _ => True).Covers
      ((q.service header).start (q.serviceInit out)) :=
    ⟨fun _ => none, nofun, fun _ => rfl⟩
  obtain ⟨d, inv, threads⟩ := (q.statusMonitor header _).covers_reach (orderly_reach run) start
  have self := threads t
  cases returns with
  | ret busy =>
      rw [busy] at self
      obtain ⟨pushed, popped, room, _⟩ := inv t _ (self status rfl)
      rw [(mpmcCreateImpl_ok q.created).1] at room
      omega

/-- The header of the tiny queue. -/
def tinyHeader : MpmcQueueHeaderAbi :=
  mpmcCreateHeader tiny.options tiny.schema tiny.payloadSize 448 1 1 tiny.creator

instance (t : Bool) (a : ServiceCall) (w : ServiceWorld Bool) :
    Decidable ((tiny.service tinyHeader).allowed t a w) := .isTrue trivial

/-- The configuration a schedule of the two clients leads to. -/
def tinyServiceRun (moves : List (Move Bool ServiceCall)) :
    Option (Config Bool (Instr QueueLoc) Reply Error (Option MpmcQueueStatus) ServiceCall
      (ServiceWorld Bool)) :=
  (tiny.service tinyHeader).play (fun _ _ => True)
    (serviceAnswer (tiny.memory.answer (fun _ _ _ => .alive) fun _ => 0))
    ((tiny.service tinyHeader).start (tiny.serviceInit fun _ _ => 0)) moves

theorem tinyServiceRun_reach {moves : List (Move Bool ServiceCall)}
    {c : Config Bool (Instr QueueLoc) Reply Error (Option MpmcQueueStatus) ServiceCall
      (ServiceWorld Bool)} (h : tinyServiceRun moves = some c) :
    (tiny.service tinyHeader).Reach (fun _ _ => True)
      ((tiny.service tinyHeader).start (tiny.serviceInit fun _ _ => 0)) c :=
  Machine.reach_play (tiny.serviceAnswer_exec (tiny.memory.answer_exec fun _ _ _ => trivial)) h

/-- The status that a client is about to return. -/
def statusOf (c : Config T (Instr QueueLoc) Reply Error (Option MpmcQueueStatus) ServiceCall
    (ServiceWorld T)) (t : T) : Option MpmcQueueStatus :=
  match c.thread t with
  | .busy _ (.ret value) => value
  | _ => none

theorem returns_of_statusOf
    (q : QueueSystem T) (header : MpmcQueueHeaderAbi)
    {c : Config T (Instr QueueLoc) Reply Error (Option MpmcQueueStatus) ServiceCall
      (ServiceWorld T)} {t : T} {status : MpmcQueueStatus} (h : statusOf c t = some status) :
    ∃ c', (q.service header).Step c (.ret t (.ok (some status))) c' := by
  unfold statusOf at h
  split at h
  · rename_i busy
    subst h
    exact ⟨_, .ret busy⟩
  · cases h

/-- A message is pushed, a status call loads the enqueue position, and the message is popped
before it goes on. -/
def quietStatus : List (Move Bool ServiceCall) :=
  [.call true (.attempt (.push [7])), .run true 100, .ret true, .call false .status,
    .run false 3, .call true (.attempt (.pop 1)), .run true 100, .ret true, .run false 100]

/-- The message was there in time. -/
theorem status_positions_iff_quiet :
    ∃ c c' status, (tiny.service tinyHeader).Reach (fun _ _ => True)
        ((tiny.service tinyHeader).start (tiny.serviceInit fun _ _ => 0)) c ∧
      (tiny.service tinyHeader).Step c (.ret false (.ok (some status))) c' ∧
      c.world.poppedBy false = 1 ∧ c.world.pushedBy false = 1 ∧
      status.dequeuePosition ≤ status.enqueuePosition ∧
      status.enqueuePosition - status.dequeuePosition ≤ tiny.options.capacity := by
  have ends : (tinyServiceRun quietStatus).map (fun c => ((statusOf c false).isSome,
      c.world.poppedBy false, c.world.pushedBy false)) = some (true, 1, 1) := by decide +kernel
  obtain ⟨c, run, seen⟩ := Option.map_eq_some_iff.1 ends
  obtain ⟨some, counts⟩ := Prod.mk.inj seen
  obtain ⟨popped, pushed⟩ := Prod.mk.inj counts
  obtain ⟨status, shown⟩ := Option.isSome_iff_exists.1 some
  obtain ⟨c', returns⟩ := returns_of_statusOf tiny tinyHeader shown
  refine ⟨c, c', status, tinyServiceRun_reach run, returns, popped, pushed, ?_⟩
  refine (status_positions_iff (tinyServiceRun_reach run) returns).2 ?_
  rw [popped, pushed]

/-- A status call loads the enqueue position; before it goes on, a message is pushed and
popped. -/
def overtakenStatus : List (Move Bool ServiceCall) :=
  [.call false .status, .run false 3, .call true (.attempt (.push [7])), .run true 100, .ret true,
    .call true (.attempt (.pop 1)), .run true 100, .ret true, .run false 100]

/-- The reported dequeue position is beyond the reported enqueue position. -/
theorem status_positions_inconsistent :
    ∃ c c' status, (tiny.service tinyHeader).Reach (fun _ _ => True)
        ((tiny.service tinyHeader).start (tiny.serviceInit fun _ _ => 0)) c ∧
      (tiny.service tinyHeader).Step c (.ret false (.ok (some status))) c' ∧
      ¬ (status.dequeuePosition ≤ status.enqueuePosition ∧
        status.enqueuePosition - status.dequeuePosition ≤ tiny.options.capacity) := by
  have ends : (tinyServiceRun overtakenStatus).map (fun c => (statusOf c false).map fun status =>
      (status.enqueuePosition, status.dequeuePosition)) = some (some (0, 1)) := by decide +kernel
  obtain ⟨c, run, seen⟩ := Option.map_eq_some_iff.1 ends
  obtain ⟨status, shown, positions⟩ := Option.map_eq_some_iff.1 seen
  obtain ⟨enq, deq⟩ := Prod.mk.inj positions
  obtain ⟨c', returns⟩ := returns_of_statusOf tiny tinyHeader shown
  refine ⟨c, c', status, tinyServiceRun_reach run, returns, ?_⟩
  rw [enq, deq]
  decide

end QueueSystem
end EdgeRuntime

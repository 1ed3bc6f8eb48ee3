import EdgeRuntime.Queue.Fifo
import EdgeRuntime.Queue.Service

/-!
Runs of the service of a queue. A waiting operation is a sequence of attempts, and an
attempt that fails leaves its client as it was; so the invariant of the queue holds for
the whole service.
-/
namespace EdgeRuntime
open Concurrent

namespace QueueSystem
variable {T : Type} [DecidableEq T] {q : QueueSystem T} {t : T} {s : QueueState T}
  {c : QueueClient} {a : QueueCall}

/-- How a push or a pop leaves its client: a success has made its one position store, a
failure none. -/
def OperationEnds (q : QueueSystem T) (t : T) (c : QueueClient) (a : QueueCall)
    (x : Except Error Unit) (s : QueueState T) : Prop :=
  match x with
  | .ok _ => ∃ c', Outside t c' s ∧
      QueueReturn.Exact ⟨a, .ok (), c'.enqueueStores, c'.dequeueStores⟩
  | .error e => Outside t c s ∧ q.Explained e s

/-- The same for one attempt of a waiting operation. -/
def AttemptEnds (q : QueueSystem T) (t : T) (c : QueueClient) (a : QueueCall)
    (x : Except Error Bool) (s : QueueState T) : Prop :=
  match x with
  | .ok true => q.OperationEnds t c a (.ok ()) s
  | .ok false => Outside t c s
  | .error e => q.OperationEnds t c a (.error e) s

/-- The client of a call that has stored nothing yet. -/
structure Begun (a : QueueCall) (c : QueueClient) : Prop where
  call : c.call = some a
  enqueue : c.enqueueStores = 0
  dequeue : c.dequeueStores = 0

theorem stable_operationEnds (x : Except Error Unit) :
    q.logic.Stable t (q.OperationEnds t c a x) := by
  intro s s' h hr hi
  cases x with
  | ok _ =>
      obtain ⟨c', outside, exact'⟩ := h
      exact ⟨c', outside_stable s s' outside hr hi, exact'⟩
  | error e => exact ⟨outside_stable s s' h.1 hr hi, Onward.explained (Rely.onward hr) h.2⟩

theorem wp_tryPush {payload : List Nat} (begun : Begun (.push payload) c) (h : Outside t c s) :
    q.logic.wp t (q.OperationEnds t c (.push payload))
      (mpmcTryPushImpl (q.handleOf t) payload) s := by
  refine wp_mpmcTryPushImpl h begun.call (fun s' h' => ⟨_, h', ?_⟩)
    fun e s' h' told => ⟨h', told⟩
  simp only [QueueReturn.Exact, begun.enqueue, begun.dequeue]

theorem wp_tryPop {payloadSize : Nat} (begun : Begun (.pop payloadSize) c) (h : Outside t c s) :
    q.logic.wp t (q.OperationEnds t c (.pop payloadSize))
      (mpmcTryPopImpl (q.handleOf t) payloadSize) s := by
  refine wp_mpmcTryPopImpl h (fun out s' h' => ⟨_, h', ?_⟩) fun e s' h' told => ⟨h', told⟩
  simp only [QueueReturn.Exact, begun.enqueue, begun.dequeue]

theorem wp_pushAttempt {payload : List Nat} (begun : Begun (.push payload) c)
    (h : Outside t c s) :
    q.logic.wp t (q.AttemptEnds t c (.push payload)) (pushAttempt (q.handleOf t) payload) s := by
  refine Logic.wp_attempt_seq (wp_tryPush begun h) fun x s₁ _ ends => ?_
  cases x with
  | ok _ => exact Logic.wp_ret _ (stable_operationEnds (.ok ())) ends fun _ _ won => won
  | error e =>
      dsimp only
      split
      · exact Logic.wp_ret _ outside_stable ends.1 fun _ _ lost => lost
      · exact Logic.wp_throw _ (stable_operationEnds (.error e)) ends fun _ _ failed => failed

/-- The check of the drain budget changes nothing. -/
theorem wp_checkDrainBudget {next : Unit → QueueCode Bool} (h : Outside t c s)
    (cont : ∀ s', Outside t c s' → q.logic.wp t (q.AttemptEnds t c a) (next ()) s') :
    q.logic.wp t (q.AttemptEnds t c a) (checkDrainBudget (q.handleOf t) >>= next) s := by
  have fails : q.MayFail t c (q.AttemptEnds t c a) := fun e s' h' told => ⟨h', told⟩
  have explained : q.logic.obs t (fun x s' => ∀ b,
      (.ok x : Except Error (Except Error Nat)) = .ok b → q.Explains b s')
      (dequeueDrainBudget (q.handleOf t) "MpmcQueue::wait_pop_until") s := by
    refine Logic.obs_mono ?_ (obs_dequeueDrainBudget _ _ rfl s)
    rintro x s' _ told _ ⟨⟩
    exact told.1
  unfold checkDrainBudget
  rw [Prog.bind_assoc]
  refine Access.wp_learn (D := q.memory) rfl
    (Prog.looks_attempt (all_dequeueDrainBudget _ _)) (Outside t c) outside_stable h
    (Logic.obs_attempt explained) ?_
  intro budget s₁ _ h₁ told
  cases budget with
  | error e =>
      dsimp only
      split
      · exact h₁.throw (told e rfl) fails
      · exact cont s₁ h₁
  | ok n =>
      cases n with
      | zero => exact h₁.throw (explained_of_ne nofun) fails
      | succ n => exact cont s₁ h₁

theorem wp_popAttempt {payloadSize : Nat} (begun : Begun (.pop payloadSize) c)
    (h : Outside t c s) :
    q.logic.wp t (q.AttemptEnds t c (.pop payloadSize))
      (popAttempt (q.handleOf t) payloadSize) s := by
  have lose : ∀ s', Outside t c s' →
      q.logic.wp t (q.AttemptEnds t c (.pop payloadSize)) (.ret false) s' :=
    fun s' h' => Logic.wp_ret _ outside_stable h' fun _ _ lost => lost
  refine Logic.wp_attempt_seq (wp_tryPop begun h) fun x s₁ _ ends => ?_
  cases x with
  | ok _ => exact Logic.wp_ret _ (stable_operationEnds (.ok ())) ends fun _ _ won => won
  | error e =>
      dsimp only
      split
      · split
        · exact wp_checkDrainBudget ends.1 lose
        · exact lose s₁ ends.1
      · exact Logic.wp_throw _ (stable_operationEnds (.error e)) ends fun _ _ failed => failed

theorem waits_waitOnNotifyEpoch (deadline expected : Nat) :
    (waitOnNotifyEpoch deadline expected).All Memory.Waits := by
  refine Prog.all_bind (waits_of_reads looks_monotonicNowNs.all) fun now => ?_
  split
  · trivial
  · refine Prog.all_bind (waits_futexWait _ _) fun errnoValue => ?_
    split <;> trivial

/-- Waiting never reports that recovery is blocked. -/
theorem ends_waitOnNotifyEpoch (deadline expected : Nat) :
    (waitOnNotifyEpoch deadline expected).Ends Tame := by
  have judged : ∀ errnoValue : Int, (if errnoValue = 0 ∨ errnoValue = eagain ∨
      errnoValue = eintr ∨ errnoValue = etimedout then (.ret () : QueueCode Unit)
      else .throw (makeErrnoErrorAs .systemError errnoValue "MpmcQueue::wait"
        "futex_wait failed")).Ends Tame := by
    intro errnoValue
    split
    · exact tame_ok ()
    · exact tame_error nofun
  intro (now : Nat)
  change (ite (deadline ≤ now) _ _ : QueueCode Unit).Ends Tame
  split
  · exact tame_error nofun
  · intro slept
    cases slept with
    | true => exact fun errnoValue => judged errnoValue
    | false => exact judged eagain

/-- Only the log of the sleepers changes. -/
theorem quiet_outside (s : QueueState T) (hi : q.Inv s) (h : Outside t c s)
    (log : FutexLog T) :
    ∃ s', q.logic.world s' = q.memory.setFutex log s.world ∧ q.Inv s' ∧
      q.logic.guar t s s' ∧ Outside t c s' := by
  refine ⟨{ s with world := setFutex log s.world }, rfl,
    inv_world hi rfl rfl rfl rfl rfl (fun _ hu => hu) (fun _ hr => .inl hr),
    fun u _ => rely_world rfl rfl rfl (fun _ hu => hu) rfl, ?_⟩
  exact ⟨h.holder, h.client, h.alive⟩

theorem wp_queueWaitLoop {operation context : String} {deadline : Nat}
    {attempt : QueueCode Bool}
    (tries : ∀ s, Outside t c s → q.logic.wp t (q.AttemptEnds t c a) attempt s)
    (rounds : Nat) (h : Outside t c s) :
    q.logic.wp t (q.OperationEnds t c a)
      (queueWaitLoop operation context deadline attempt rounds) s := by
  have expires : ∀ s, Outside t c s →
      q.logic.wp t (q.OperationEnds t c a) (.throw (waitExpired operation context)) s :=
    fun s h => h.throw (explained_of_ne nofun) fun e s' h' told => ⟨h', told⟩
  have succeeds : ∀ s, q.OperationEnds t c a (.ok ()) s →
      q.logic.wp t (q.OperationEnds t c a) (.ret ()) s :=
    fun s won => Logic.wp_ret _ (stable_operationEnds (.ok ())) won fun _ _ h => h
  induction rounds generalizing s with
  | zero => exact fun s' _ _ r w stuck => stuck.elim
  | succ rounds ih =>
      refine Logic.wp_seq (tries s h) ?_ fun e s' _ failed => failed
      rintro (_ | _) s₁ _ ends
      swap
      · exact succeeds s₁ ends
      refine Access.wp_looks (D := q.memory) rfl looks_monotonicNowNs _ outside_stable ends
        fun now s₂ _ h₂ => ?_
      split
      · exact expires s₂ h₂
      refine Access.wp_waits (D := q.memory) rfl (waits_sharedWatch _)
        (E := fun x => ∃ e, x = .ok e) (fun e => ⟨e, rfl⟩) _ outside_stable quiet_outside h₂
        (fun before s₃ _ _ h₃ => ?_) fun e s' _ never => nomatch never
      refine Logic.wp_seq (tries s₃ h₃) ?_ fun e s' _ failed => failed
      rintro (_ | _) s₄ _ ends
      swap
      · exact succeeds s₄ ends
      refine Access.wp_looks (D := q.memory) rfl (looks_sharedLoad _) _ outside_stable ends
        fun after s₅ _ h₅ => ?_
      split
      · exact ih h₅
      refine Access.wp_waits (D := q.memory) rfl
        (Prog.all_attempt (waits_waitOnNotifyEpoch deadline after))
        (ends_waitOnNotifyEpoch deadline after).attempt _ outside_stable quiet_outside h₅ ?_
        fun e s' _ never => nomatch never
      rintro waited s₆ _ ⟨_, same, tame⟩ h₆
      cases same
      cases waited with
      | ok _ => exact ih h₆
      | error e =>
          dsimp only
          split
          · exact expires s₆ h₆
          · exact h₆.throw (explained_of_ne (tame e rfl)) fun e s' h' told => ⟨h', told⟩

theorem wp_operation {call : ServiceCall} (queueCall : call.queueCall = some a)
    (begun : Begun a c) (h : Outside t c s) :
    q.logic.wp t (q.OperationEnds t c a) (q.operation t call) s := by
  cases call with
  | status => cases queueCall
  | attempt b =>
      cases queueCall
      cases a with
      | push payload => exact wp_tryPush begun h
      | pop payloadSize => exact wp_tryPop begun h
  | wait b deadline rounds =>
      cases queueCall
      cases a with
      | push payload => exact wp_queueWaitLoop (fun s h => wp_pushAttempt begun h) rounds h
      | pop payloadSize => exact wp_queueWaitLoop (fun s h => wp_popAttempt begun h) rounds h

theorem all_fillStatusOwner (handle : MpmcQueueHandle) (enqueue : Bool)
    (status : MpmcQueueStatus) :
    (fillStatusOwner handle enqueue status).All Memory.Reads := by
  refine Prog.all_bind (looks_snapshotGateOwner enqueue).all fun observation => ?_
  split
  · trivial
  · trivial
  · trivial
  · trivial
  · trivial
  · refine Prog.all_bind (looks_confirmOwnerLiveness handle enqueue observation).all fun _ => ?_
    split
    · trivial
    · split <;> trivial

theorem all_mpmcStatusImpl (handle : MpmcQueueHandle) (header : MpmcQueueHeaderAbi) :
    (mpmcStatusImpl handle header).All Memory.Reads := by
  refine Prog.all_bind (all_validateLiveHandle _ _) fun _ => ?_
  refine reads_load fun init => reads_load fun enqueuePosition => reads_load fun dequeuePosition =>
    reads_load fun enqueueLockState => reads_load fun dequeueLockState => ?_
  exact Prog.all_bind (all_fillStatusOwner _ _ _) fun _ => all_fillStatusOwner _ _ _

/-- How a call of the service leaves its client. -/
def ServiceEnds (q : QueueSystem T) (t : T) (call : ServiceCall)
    (x : Except Error (Option MpmcQueueStatus)) (s : QueueState T) : Prop :=
  ∃ c, Outside t c s ∧ ∀ a, call.queueCall = some a → q.Explains x s ∧
    QueueReturn.Exact ⟨a, x.map fun _ => (), c.enqueueStores, c.dequeueStores⟩

theorem wp_serviceCode {header : MpmcQueueHeaderAbi} {call : ServiceCall}
    (begun : ∀ a, call.queueCall = some a → Begun a c) (h : Outside t c s) :
    q.logic.wp t (q.ServiceEnds t call) (q.serviceCode header t call) s := by
  have works : ∀ a, call.queueCall = some a →
      q.logic.wp t (q.ServiceEnds t call) (q.operation t call >>= fun _ => .ret none) s := by
    intro a queueCall
    refine Logic.wp_map (wp_operation queueCall (begun a queueCall) h) ?_ ?_
    · rintro _ s' _ ⟨c', h', stored⟩
      refine ⟨c', h', fun b same => ⟨explains_ok _, ?_⟩⟩
      cases queueCall.symm.trans same
      exact stored
    · rintro e s' _ ⟨h', told⟩
      refine ⟨c, h', fun b same => ⟨explains_error told, ?_⟩⟩
      have zero := begun b same
      simp only [QueueReturn.Exact, Except.map, zero.enqueue, zero.dequeue]
  cases call with
  | attempt b => exact works b rfl
  | wait b deadline rounds => exact works b rfl
  | status =>
      refine Logic.wp_map (Logic.obs_wp (obs_reads (all_mpmcStatusImpl _ _) outside_stable h))
        ?_ ?_
      · exact fun _ s' _ h' => ⟨c, h', nofun⟩
      · exact fun _ s' _ h' => ⟨c, h', nofun⟩

variable (q) in
/-- The logic of the queue in the world of its service. -/
def serviceLogic (header : MpmcQueueHeaderAbi) :
    Logic T (Instr QueueLoc) Reply (ServiceWorld T) (QueueState T × ServiceWorld T) :=
  q.logic.overlay ServiceWorld.queue (q.service header).exec

/-- A call that ends outside both gates with exact stores may be recorded. -/
theorem serviceReturns {header : MpmcQueueHeaderAbi} {call : ServiceCall}
    {x : Except Error (Option MpmcQueueStatus)} {p : QueueState T × ServiceWorld T}
    (hi : (q.serviceLogic header).inv p) (ends : q.ServiceEnds t call x p.1) :
    (q.serviceLogic header).Returns (q.service header) (fun t p => ∃ c, Outside t c p.1)
      t call x p := by
  obtain ⟨c, h, told⟩ := ends
  obtain ⟨hi, same⟩ := hi
  refine ⟨({ p.1 with world := endCall t call x p.1.world }, (q.service header).leave t call x p.2),
    rfl, ⟨?_, congrArg (endCall t call x) same⟩, ?_, ?_⟩
  · refine inv_world hi rfl rfl rfl rfl rfl (fun _ hu => hu) ?_
    intro r hr
    rcases List.mem_append.1 hr with hr | hr
    · exact .inl hr
    · cases queueCall : call.queueCall with
      | none =>
          rw [queueCall] at hr
          cases hr
      | some a =>
          rw [queueCall] at hr
          obtain rfl := List.mem_singleton.1 hr
          obtain ⟨explained, stored⟩ := told a queueCall
          rw [h.client]
          refine .inr ⟨stored, ?_⟩
          intro e failed
          cases x with
          | ok _ => cases failed
          | error e' =>
              cases failed
              exact explained e rfl
  · intro u hne
    exact rely_world rfl (Function.update_of_ne hne _ _) rfl (fun _ hu => hu) rfl
  · exact ⟨_, h.holder, rfl, h.alive⟩

variable (q) in
/-- The proof outline of the service: between calls a client holds no gate. -/
def serviceOutline (header : MpmcQueueHeaderAbi) (ok : ServiceWorld T →
      Event T (Instr QueueLoc) Reply Error (Option MpmcQueueStatus) ServiceCall → Prop) :
    Outline (q.service header) ok (q.serviceLogic header) where
  idle t p := ∃ c, Outside t c p.1
  idle_stable t := by
    rintro p p' ⟨c, h⟩ hr hi
    exact ⟨c, outside_stable p.1 p'.1 h hr hi.1⟩
  exec_sound _ _ _ _ _ h _ := h
  call_sound t call p hi idle _ _ := by
    obtain ⟨c, h⟩ := idle
    obtain ⟨hi, same⟩ := hi
    refine ⟨({ p.1 with world := beginCall t call p.1.world }, (q.service header).enter t call p.2),
      rfl, ⟨inv_world hi rfl rfl rfl rfl rfl (fun _ hu => hu) (fun _ hr => .inl hr),
        congrArg (beginCall t call) same⟩, ?_, ?_⟩
    · intro u hne
      exact rely_world rfl (Function.update_of_ne hne _ _) rfl (fun _ hu => hu) rfl
    · have entered : Outside t ⟨call.queueCall, (p.1.world.client t).out, 0, 0⟩
          { p.1 with world := beginCall t call p.1.world } :=
        ⟨h.holder, Function.update_self _ _ _, h.alive⟩
      have runs : q.logic.wp t (q.ServiceEnds t call) (q.serviceCode header t call)
          { p.1 with world := beginCall t call p.1.world } :=
        wp_serviceCode (fun a queueCall => ⟨queueCall, rfl, rfl⟩) entered
      exact Logic.wp_mono (fun x p hi ends => serviceReturns hi ends)
        (Logic.wp_overlay (fun _ _ _ _ _ step => step.1) runs _)
  crash_sound t p hi _ := by
    obtain ⟨hi, same⟩ := hi
    have dies : ∀ u, p.1.world.crashed u = true →
        (q.machine.crash t p.1.world).crashed u = true := by
      intro u hu
      change Function.update p.1.world.crashed t true u = true
      rw [Function.update_apply]
      split
      · rfl
      · exact hu
    refine ⟨({ p.1 with world := q.machine.crash t p.1.world }, (q.service header).crash t p.2),
      rfl, ⟨inv_world hi rfl rfl rfl rfl rfl dies (fun _ hr => .inl hr),
        congrArg (q.machine.crash t) same⟩, fun u hne => ?_⟩
    exact rely_world rfl rfl (Function.update_of_ne hne _ _) dies rfl

theorem serviceCovers (header : MpmcQueueHeaderAbi) (ok : ServiceWorld T →
      Event T (Instr QueueLoc) Reply Error (Option MpmcQueueStatus) ServiceCall → Prop)
    (out : T → Nat → Nat) :
    (q.serviceOutline header ok).Covers ((q.service header).start (q.serviceInit out)) :=
  ⟨(q.freshState out, q.serviceInit out), rfl, ⟨inv_freshState out, rfl⟩,
    fun _ => ⟨_, fun _ => (nomatch ·), rfl, rfl⟩⟩

end QueueSystem
end EdgeRuntime

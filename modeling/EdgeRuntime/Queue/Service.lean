import EdgeRuntime.Queue.Open
import EdgeRuntime.Queue.World

/-!
All that a client can ask of a queue: the two non-blocking operations, the two that wait,
and the status. The machine of these calls runs in the world of the queue, which also
keeps, for every client, how many messages all the clients together had pushed when it
loaded the enqueue position last, and how many they had popped when it loaded the dequeue
position last.
-/
namespace EdgeRuntime
open Concurrent

def isPushWaitable (code : ErrorCode) : Bool := code = .queueFull || code = .queueContention

def isPopWaitable (code : ErrorCode) : Bool := code = .queueEmpty || code = .queueContention

def waitOnNotifyEpoch (deadline expected : Nat) : QueueCode Unit := do
  let now ← monotonicNowNs
  if deadline ≤ now then .throw (makeError .timeout "MpmcQueue::wait" "deadline expired")
  else
    let errnoValue ← futexWait .notifyEpoch expected
    if errnoValue = 0 ∨ errnoValue = eagain ∨ errnoValue = eintr ∨ errnoValue = etimedout then
      return ()
    else
      .throw (makeErrnoErrorAs .systemError errnoValue "MpmcQueue::wait" "futex_wait failed")

/-- The end of a wait that was in vain. -/
def waitExpired (operation context : String) : Error := makeError .timeout operation context

/-- The loop of the two waiting operations around an attempt that says whether it was
successful. It has no bound of its own; a run that takes more than `rounds` rounds is one
that is still waiting. -/
def queueWaitLoop (operation context : String) (deadline : Nat) (attempt : QueueCode Bool) :
    Nat → QueueCode Unit
  | 0 => sleepForever (waitExpired operation context)
  | rounds + 1 => do
      let first ← attempt
      if first then return ()
      else
        let now ← monotonicNowNs
        if deadline ≤ now then .throw (waitExpired operation context)
        else
          let before ← sharedWatch .notifyEpoch
          let second ← attempt
          if second then return ()
          else
            let after ← sharedLoad .notifyEpoch
            if before ≠ after then
              queueWaitLoop operation context deadline attempt rounds
            else
              let waited ← ((waitOnNotifyEpoch deadline after).attempt :
                QueueCode (Except Error Unit))
              match waited with
              | .ok _ => queueWaitLoop operation context deadline attempt rounds
              | .error e =>
                  if e.code = .timeout then .throw (waitExpired operation context)
                  else .throw e

/-- One try of a waiting push: whether it was successful, if it may be tried again. -/
def pushAttempt (handle : MpmcQueueHandle) (payload : List Nat) : QueueCode Bool := do
  let attempt ← ((mpmcTryPushImpl handle payload).attempt : QueueCode (Except Error Unit))
  match attempt with
  | .ok _ => return true
  | .error e => if isPushWaitable e.code then return false else .throw e

def mpmcWaitPushUntilImpl (handle : MpmcQueueHandle) (payload : List Nat)
    (deadline rounds : Nat) : QueueCode Unit :=
  queueWaitLoop "MpmcQueue::wait_push_until" "deadline expired while queue was not writable"
    deadline (pushAttempt handle payload) rounds

/-- An empty queue is worth waiting for only while the dequeue gate can be taken again. -/
def checkDrainBudget (handle : MpmcQueueHandle) : QueueCode Unit := do
  let operation := "MpmcQueue::wait_pop_until"
  let drainBudget ← ((dequeueDrainBudget handle operation).attempt :
    QueueCode (Except Error Nat))
  match drainBudget with
  | .error e => if e.code ≠ .queueContention then .throw e else return ()
  | .ok 0 =>
      .throw (makeError .sequenceExhausted operation
        "dequeue gate has no remaining drain budget")
  | .ok (_ + 1) => return ()

def popAttempt (handle : MpmcQueueHandle) (payloadSize : Nat) : QueueCode Bool := do
  let attempt ← ((mpmcTryPopImpl handle payloadSize).attempt : QueueCode (Except Error Unit))
  match attempt with
  | .ok _ => return true
  | .error e =>
      if isPopWaitable e.code then
        if e.code = .queueEmpty then
          checkDrainBudget handle
          return false
        else return false
      else .throw e

def mpmcWaitPopUntilImpl (handle : MpmcQueueHandle) (payloadSize deadline rounds : Nat) :
    QueueCode Unit :=
  queueWaitLoop "MpmcQueue::wait_pop_until" "deadline expired while queue was not readable"
    deadline (popAttempt handle payloadSize) rounds

structure MpmcQueueStatus where
  ready : Bool
  abiMajor : Nat
  abiMinor : Nat
  capacity : Nat
  payloadSize : Nat
  mappingSize : Nat
  generation : Nat
  instanceNonceHi : Nat
  instanceNonceLo : Nat
  enqueuePosition : Nat
  dequeuePosition : Nat
  enqueueLockState : Nat
  dequeueLockState : Nat
  enqueueOwnerPid : Nat
  dequeueOwnerPid : Nat
  enqueueOwnerAlive : Bool
  dequeueOwnerAlive : Bool
  deriving DecidableEq, Repr

/-- The three fields of a gate. -/
def MpmcQueueStatus.setGate (status : MpmcQueueStatus) (enqueue : Bool) (lockState ownerPid : Nat)
    (ownerAlive : Bool) : MpmcQueueStatus :=
  if enqueue then
    { status with
      enqueueLockState := lockState
      enqueueOwnerPid := ownerPid
      enqueueOwnerAlive := ownerAlive }
  else
    { status with
      dequeueLockState := lockState
      dequeueOwnerPid := ownerPid
      dequeueOwnerAlive := ownerAlive }

def fillStatusOwner (handle : MpmcQueueHandle) (enqueue : Bool) (status : MpmcQueueStatus) :
    QueueCode MpmcQueueStatus := do
  let operation := gateOperation enqueue
  let observation ← snapshotGateOwner enqueue
  match observation.kind with
  | .inactive => return status.setGate enqueue observation.state 0 false
  | .claiming | .unstable =>
      .throw (makeError .queueContention operation "gate owner snapshot is not stable")
  | .corrupt | .epochExhausted =>
      .throw (makeError .recoveryBlocked operation "gate owner protocol is not recoverable")
  | .stable =>
      let disposition ← confirmOwnerLiveness handle enqueue observation
      if disposition = .changed then
        .throw (makeError .queueContention operation
          "gate owner changed while probing liveness")
      else if foreignBoot handle observation.owner then
        .throw (makeError .recoveryBlocked operation "gate owner belongs to another boot")
      else
        return status.setGate enqueue observation.state observation.owner.pid
          (disposition = .notUnrecoverable)

def mpmcStatusImpl (handle : MpmcQueueHandle) (header : MpmcQueueHeaderAbi) :
    QueueCode MpmcQueueStatus := do
  validateLiveHandle handle "MpmcQueue::status"
  let init ← sharedLoad .initState
  let enqueuePosition ← sharedLoad .enqueuePosition
  let dequeuePosition ← sharedLoad .dequeuePosition
  let enqueueLockState ← sharedLoad (.gateState true)
  let dequeueLockState ← sharedLoad (.gateState false)
  let status : MpmcQueueStatus :=
    { ready := init = MpmcInitState.ready.code
      abiMajor := header.abiMajor
      abiMinor := header.abiMinor
      capacity := header.capacity
      payloadSize := header.payloadSize
      mappingSize := header.mappingSize
      generation := header.generation
      instanceNonceHi := header.instanceNonceHi
      instanceNonceLo := header.instanceNonceLo
      enqueuePosition := enqueuePosition
      dequeuePosition := dequeuePosition
      enqueueLockState := enqueueLockState
      dequeueLockState := dequeueLockState
      enqueueOwnerPid := 0
      dequeueOwnerPid := 0
      enqueueOwnerAlive := false
      dequeueOwnerAlive := false }
  let status ← fillStatusOwner handle true status
  fillStatusOwner handle false status

inductive ServiceCall
  | attempt (a : QueueCall)
  | wait (a : QueueCall) (deadline rounds : Nat)
  | status
  deriving DecidableEq, Repr

/-- The push or pop that a call is to make. -/
def ServiceCall.queueCall : ServiceCall → Option QueueCall
  | .attempt a | .wait a _ _ => some a
  | .status => none

structure ServiceWorld (T : Type) where
  queue : QueueWorld T
  call : T → Option ServiceCall
  /-- How many messages had been pushed at the client's last load of the enqueue position. -/
  pushedBy : T → Nat
  /-- How many messages had been popped at its last load of the dequeue position. -/
  poppedBy : T → Nat

namespace QueueSystem
variable {T : Type} [DecidableEq T] (q : QueueSystem T)

/-- The record of the clients' operations after an instruction that left the queue as
given: a load of a position marks how far the operations behind that position are. -/
def markLoads (t : T) (i : Instr QueueLoc) (w : ServiceWorld T) (queue : QueueWorld T) :
    ServiceWorld T where
  queue := queue
  call := w.call
  pushedBy := match i with
    | .load .enqueuePosition => Function.update w.pushedBy t w.queue.pushed.length
    | _ => w.pushedBy
  poppedBy := match i with
    | .load .dequeuePosition => Function.update w.poppedBy t w.queue.popped.length
    | _ => w.poppedBy

/-- The program of a push or a pop, with or without waiting. -/
def operation (t : T) : ServiceCall → QueueCode Unit
  | .attempt a => attemptImpl (q.handleOf t) a
  | .wait (.push payload) deadline rounds =>
      mpmcWaitPushUntilImpl (q.handleOf t) payload deadline rounds
  | .wait (.pop payloadSize) deadline rounds =>
      mpmcWaitPopUntilImpl (q.handleOf t) payloadSize deadline rounds
  | .status => .ret ()

def serviceCode (header : MpmcQueueHeaderAbi) (t : T) (a : ServiceCall) :
    QueueCode (Option MpmcQueueStatus) :=
  match a with
  | .status => mpmcStatusImpl (q.handleOf t) header >>= fun status => .ret (some status)
  | a => q.operation t a >>= fun _ => .ret none

/-- The queue when a call begins. -/
def beginCall (t : T) (a : ServiceCall) (w : QueueWorld T) : QueueWorld T :=
  { w with client := Function.update w.client t ⟨a.queueCall, (w.client t).out, 0, 0⟩ }

/-- The queue when a call ends; a status leaves no trace. -/
def endCall {α : Type} (t : T) (a : ServiceCall) (x : Except Error α) (w : QueueWorld T) :
    QueueWorld T :=
  { w with
    client := Function.update w.client t { w.client t with call := none }
    finished := w.finished ++ match a.queueCall with
      | some call =>
          [⟨call, x.map fun _ => (), (w.client t).enqueueStores, (w.client t).dequeueStores⟩]
      | none => [] }

def service (header : MpmcQueueHeaderAbi) : Machine T (Instr QueueLoc) Reply Error
    (Option MpmcQueueStatus) ServiceCall (ServiceWorld T) where
  exec t i w r w' := q.memory.exec t i w.queue r w'.queue ∧
    w' = markLoads t i w w'.queue
  code t a _ := q.serviceCode header t a
  allowed _ _ _ := True
  enter t a w :=
    { w with queue := beginCall t a w.queue, call := Function.update w.call t (some a) }
  leave t a x w :=
    { w with queue := endCall t a x w.queue, call := Function.update w.call t none }
  crash t w := { w with queue := q.machine.crash t w.queue }

def serviceInit (out : T → Nat → Nat) : ServiceWorld T where
  queue := q.init out
  call _ := none
  pushedBy _ := 0
  poppedBy _ := 0

/-- The reply and the world that an instruction of the service leads to, by those of the
queue. -/
def serviceAnswer
    (answer : T → (i : Instr QueueLoc) → QueueWorld T → Option (Reply i × QueueWorld T))
    (t : T) (i : Instr QueueLoc) (w : ServiceWorld T) : Option (Reply i × ServiceWorld T) :=
  (answer t i w.queue).map fun x => (x.1, markLoads t i w x.2)

theorem serviceAnswer_exec {header : MpmcQueueHeaderAbi}
    {answer : T → (i : Instr QueueLoc) → QueueWorld T → Option (Reply i × QueueWorld T)}
    (sound : ∀ t i w x, answer t i w = some x → q.memory.exec t i w x.1 x.2)
    (t : T) (i : Instr QueueLoc) (w : ServiceWorld T) (x : Reply i × ServiceWorld T)
    (h : serviceAnswer answer t i w = some x) : (q.service header).exec t i w x.1 x.2 := by
  obtain ⟨y, answered, rfl⟩ := Option.map_eq_some_iff.1 h
  exact ⟨sound t i w.queue y answered, rfl⟩

end QueueSystem
end EdgeRuntime

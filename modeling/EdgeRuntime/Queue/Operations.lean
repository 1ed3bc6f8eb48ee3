import EdgeRuntime.Queue.Program

/-!
The two non-blocking operations. Each is cut where the source takes a gate and
where it claims a slot, so that every part runs under one ownership.
-/
namespace EdgeRuntime
open Concurrent

/-- A full queue, once the opposite gate has been classified: retryable unless
the dequeue gate can never drain it. -/
def pushFullResult (handle : MpmcQueueHandle)
    (consumerState : OwnerObservationDisposition) : QueueCode Unit := do
  let operation := "MpmcQueue::try_push"
  match consumerState with
  | .changed =>
      .throw (makeError .queueContention operation
        "consumer gate changed while probing liveness")
  | .unrecoverable =>
      .throw (makeError .recoveryBlocked operation
        "consumer gate has an unrecoverable claim")
  | .notUnrecoverable =>
      let drainBudget ← ((dequeueDrainBudget handle operation).attempt :
        QueueCode (Except Error Nat))
      match drainBudget with
      | .error e =>
          if e.code ≠ .queueContention then .throw e
          else .throw (makeError .queueFull operation "queue is full")
      | .ok 0 =>
          .throw (makeError .sequenceExhausted operation
            "dequeue gate has no remaining drain budget")
      | .ok (_ + 1) => .throw (makeError .queueFull operation "queue is full")

def pushFull (handle : MpmcQueueHandle) : QueueCode Unit := do
  let enqueueState ← sharedLoad (.gateState true)
  if enqueueState ≠ MpmcLockState.free.code then
    let busy ← gateBusyResult handle true
    .throw busy
  else
    let consumer ← snapshotGateOwner false
    let consumerState ← ownerObservationIsUnrecoverable handle false consumer
    pushFullResult handle consumerState

def pushFullGated (handle : MpmcQueueHandle) : QueueCode Unit := do
  let consumer ← snapshotGateOwner false
  let consumerState ← ownerObservationIsUnrecoverable handle false consumer
  releaseGate true
  pushFullResult handle consumerState

/-- `slot` is claimed: commit its owner, copy the payload, publish the sequence and
only then the position. -/
def pushClaimed (handle : MpmcQueueHandle) (payload : List Nat)
    (slot enqueue nextEnqueue : Nat) : QueueCode Unit := do
  let (ownerCommit, committedEpoch) ← beginOwnerCommit (.slotEpoch slot) 4
  if ownerCommit ≠ .ready then
    markSlotProtocolFailure slot ownerCommit
    releaseGate true
    .throw (makeError .recoveryBlocked "MpmcQueue::try_push"
      (slotEpochMessage ownerCommit "slot owner epoch exhausted"))
  else
    setOwner (.slotOwner slot) handle.self
    sharedStore (.slotTicket slot) enqueue
    sharedStore (.slotEpoch slot) committedEpoch
    sharedStore (.slotState slot) MpmcSlotState.enqueueOwned.code
    copyIn (.slotPayload slot) 0 payload
    sharedStore (.slotSequence slot) nextEnqueue
    sharedStore (.slotState slot) MpmcSlotState.ready.code
    sharedStore .enqueuePosition nextEnqueue
    releaseGate true
    notifyWaiters

/-- The short-circuit check that a slot carries the sequence and the state. -/
def slotMatches (slot sequence : Nat) (state : MpmcSlotState) : QueueCode Bool := do
  let seen ← sharedLoad (.slotSequence slot)
  if seen ≠ sequence then return false
  else
    let current ← sharedLoad (.slotState slot)
    return current = state.code

/-- The slot is not what its position promises: report and step back. -/
def slotInvalidResult (slot : Nat) (enqueue : Bool) (operation context : String) :
    QueueCode Unit := do
  let slotOwner ← snapshotSlotOwner slot enqueue
  releaseGate enqueue
  if slotOwner.kind = .epochExhausted then
    .throw (makeError .recoveryBlocked operation "slot owner epoch is exhausted")
  else
    .throw (makeError .recoveryBlocked operation context)

def pushSlot (handle : MpmcQueueHandle) (payload : List Nat)
    (slot enqueue nextEnqueue : Nat) : QueueCode Unit := do
  let operation := "MpmcQueue::try_push"
  let valid ← slotMatches slot enqueue .free
  if ¬ valid then
    slotInvalidResult slot true operation "free slot sequence or state is inconsistent"
  else
    let slotCapacity ← ownerEpochCapacity (.slotEpoch slot) 4
    if slotCapacity ≠ .ready then
      markSlotProtocolFailure slot slotCapacity
      releaseGate true
      .throw (makeError .recoveryBlocked operation
        (slotEpochMessage slotCapacity "slot owner epoch exhausted"))
    else
      let claimed ← sharedCas (.slotState slot) MpmcSlotState.free.code
        MpmcSlotState.enqueueClaiming.code
      if claimed then pushClaimed handle payload slot enqueue nextEnqueue
      else
        releaseGate true
        .throw (makeError .queueContention operation "slot was claimed concurrently")

/-- The part of a push that runs with the enqueue gate held. -/
def pushGated (handle : MpmcQueueHandle) (payload : List Nat) : QueueCode Unit := do
  let operation := "MpmcQueue::try_push"
  let capacity := handle.capacity
  let (enqueue, dequeue) ← releaseOnError true (snapshotQueuePositions operation)
  releaseOnError true
    (Prog.lift (validateQueuePositions enqueue dequeue capacity operation))
  let (nextEnqueue, _) ← releaseOnError true
    (Prog.lift (validateTicketBounds enqueue capacity operation))
  if enqueue - dequeue = capacity then pushFullGated handle
  else
    let (admitted, _) ← releaseOnError true
      (validatePushDrainAdmission handle enqueue dequeue operation)
    match slotAt handle admitted with
    | none =>
        releaseGate true
        .throw (makeError .recoveryBlocked operation
          "free slot sequence or state is inconsistent")
    | some slot => pushSlot handle payload slot admitted nextEnqueue

def mpmcTryPushImpl (handle : MpmcQueueHandle) (payload : List Nat) :
    QueueCode Unit := do
  let operation := "MpmcQueue::try_push"
  validateLiveHandle handle operation
  if payload.length ≠ handle.payloadSize then
    .throw (makeError .invalidOptions operation "payload size mismatch")
  else
    let capacity := handle.capacity
    let (enqueue, dequeue) ← snapshotQueuePositions operation
    Prog.lift (validateQueuePositions enqueue dequeue capacity operation)
    let _ ← Prog.lift (validateTicketBounds enqueue capacity operation)
    if enqueue - dequeue = capacity then pushFull handle
    else
      let _ ← validatePushDrainAdmission handle enqueue dequeue operation
      acquireGate handle true
      pushGated handle payload

def popEmptyResult (producerState : OwnerObservationDisposition) : QueueCode Unit :=
  let operation := "MpmcQueue::try_pop"
  match producerState with
  | .changed =>
      .throw (makeError .queueContention operation
        "producer gate changed while probing liveness")
  | .unrecoverable =>
      .throw (makeError .recoveryBlocked operation
        "producer gate has an unrecoverable claim")
  | .notUnrecoverable => .throw (makeError .queueEmpty operation "queue is empty")

def popEmpty (handle : MpmcQueueHandle) : QueueCode Unit := do
  let dequeueState ← sharedLoad (.gateState false)
  if dequeueState ≠ MpmcLockState.free.code then
    let busy ← gateBusyResult handle false
    .throw busy
  else
    let producer ← snapshotGateOwner true
    let producerState ← ownerObservationIsUnrecoverable handle true producer
    popEmptyResult producerState

def popEmptyGated (handle : MpmcQueueHandle) : QueueCode Unit := do
  let producer ← snapshotGateOwner true
  let producerState ← ownerObservationIsUnrecoverable handle true producer
  releaseGate false
  popEmptyResult producerState

/-- `slot` is claimed: commit its owner, copy the payload out, hand the slot back
with the sequence of its next round and only then advance the position. -/
def popClaimed (handle : MpmcQueueHandle)
    (slot dequeue nextDequeue reclaimSequence : Nat) : QueueCode Unit := do
  let (ownerCommit, committedEpoch) ← beginOwnerCommit (.slotEpoch slot) 2
  if ownerCommit ≠ .ready then
    sharedStore (.slotState slot) MpmcSlotState.ready.code
    releaseGate false
    .throw (makeError .recoveryBlocked "MpmcQueue::try_pop"
      (slotEpochMessage ownerCommit "slot owner epoch exhausted"))
  else
    setOwner (.slotOwner slot) handle.self
    sharedStore (.slotTicket slot) dequeue
    sharedStore (.slotEpoch slot) committedEpoch
    sharedStore (.slotState slot) MpmcSlotState.dequeueOwned.code
    copyFrom (.slotPayload slot) 0 handle.payloadSize
    sharedStore (.slotSequence slot) reclaimSequence
    sharedStore (.slotState slot) MpmcSlotState.free.code
    sharedStore .dequeuePosition nextDequeue
    releaseGate false
    notifyWaiters

def popSlot (handle : MpmcQueueHandle)
    (slot dequeue nextDequeue reclaimSequence : Nat) : QueueCode Unit := do
  let operation := "MpmcQueue::try_pop"
  let valid ← slotMatches slot nextDequeue .ready
  if ¬ valid then
    slotInvalidResult slot false operation
      "published slot sequence or state is inconsistent"
  else
    let slotCapacity ← ownerEpochCapacity (.slotEpoch slot) 2
    if slotCapacity ≠ .ready then
      releaseGate false
      .throw (makeError .recoveryBlocked operation
        (slotEpochMessage slotCapacity "slot owner epoch exhausted before read"))
    else
      let claimed ← sharedCas (.slotState slot) MpmcSlotState.ready.code
        MpmcSlotState.dequeueClaiming.code
      if claimed then popClaimed handle slot dequeue nextDequeue reclaimSequence
      else
        releaseGate false
        .throw (makeError .queueContention operation "slot was claimed concurrently")

/-- The part of a pop that runs after its claim of the dequeue gate. Unlike a push
it commits the gate owner only once it has seen a message. -/
def popGated (handle : MpmcQueueHandle) : QueueCode Unit := do
  let operation := "MpmcQueue::try_pop"
  let capacity := handle.capacity
  let (enqueue, dequeue) ← releaseOnError false (snapshotQueuePositions operation)
  releaseOnError false
    (Prog.lift (validateQueuePositions enqueue dequeue capacity operation))
  let (nextDequeue, reclaimSequence) ← releaseOnError false
    (Prog.lift (validateTicketBounds dequeue capacity operation))
  if dequeue = enqueue then popEmptyGated handle
  else
    commitClaimedGate handle false
    match slotAt handle dequeue with
    | none =>
        releaseGate false
        .throw (makeError .recoveryBlocked operation
          "published slot sequence or state is inconsistent")
    | some slot => popSlot handle slot dequeue nextDequeue reclaimSequence

def mpmcTryPopImpl (handle : MpmcQueueHandle) (payloadSize : Nat) : QueueCode Unit := do
  let operation := "MpmcQueue::try_pop"
  validateLiveHandle handle operation
  if payloadSize ≠ handle.payloadSize then
    .throw (makeError .invalidOptions operation "payload size mismatch")
  else
    let capacity := handle.capacity
    let (enqueue, dequeue) ← snapshotQueuePositions operation
    Prog.lift (validateQueuePositions enqueue dequeue capacity operation)
    let _ ← Prog.lift (validateTicketBounds dequeue capacity operation)
    if dequeue = enqueue then popEmpty handle
    else
      let drainBudget ← dequeueDrainBudget handle operation
      if drainBudget = 0 then
        .throw (makeError .sequenceExhausted operation
          "dequeue gate has no remaining drain budget")
      else
        claimGate handle false
        popGated handle

end EdgeRuntime

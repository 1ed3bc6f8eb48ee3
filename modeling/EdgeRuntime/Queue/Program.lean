import EdgeRuntime.Common.Error
import EdgeRuntime.Queue.Layout

/-!
The queue operations as programs over its shared words, function by function.
`releaseOnError` stands for the source's repeated "on failure release the gate
and return the error".
-/
namespace EdgeRuntime
open Concurrent

/-- What an opened handle holds; capacity and payload size are immutable header
fields, read through the handle. -/
structure MpmcQueueHandle where
  self : ProcessIdentity
  capacity : Nat
  payloadSize : Nat
  slotStride : Nat
  removed : Bool
  deriving DecidableEq, Repr

abbrev QueueCode (α : Type) : Type := Code QueueLoc Error α

inductive OwnerObservationDisposition
  | notUnrecoverable
  | changed
  | unrecoverable
  deriving DecidableEq, Repr

def gateOperation (enqueue : Bool) : String :=
  if enqueue then "MpmcQueue::enqueue_gate" else "MpmcQueue::dequeue_gate"

def sameStableOwnerObservation (first second : OwnerSnapshot) : Bool :=
  first.kind = .stable && second.kind = .stable && first.state = second.state &&
    first.epoch = second.epoch && first.owner = second.owner

def classifyState (inactive claiming owned exhausted fault current : Nat) :
    OwnerStateKind :=
  if current = inactive then .inactive
  else if current = claiming then .claiming
  else if current = owned then .owned
  else if current = exhausted then .epochExhausted
  else if current = fault then .protocolFault
  else .unexpected

def classifyGateState : Nat → OwnerStateKind :=
  classifyState MpmcLockState.free.code MpmcLockState.claiming.code
    MpmcLockState.owned.code MpmcLockState.epochExhausted.code
    MpmcLockState.ownerProtocolFault.code

def snapshotGateOwner (enqueue : Bool) : QueueCode OwnerSnapshot :=
  snapshotOwnerSeqCst (.gateState enqueue) (.gateEpoch enqueue) (.gateOwner enqueue)
    classifyGateState ownerValid

def classifySlotState (enqueue : Bool) : Nat → OwnerStateKind :=
  classifyState
    (if enqueue then MpmcSlotState.free.code else MpmcSlotState.ready.code)
    (if enqueue then MpmcSlotState.enqueueClaiming.code
      else MpmcSlotState.dequeueClaiming.code)
    (if enqueue then MpmcSlotState.enqueueOwned.code
      else MpmcSlotState.dequeueOwned.code)
    MpmcSlotState.epochExhausted.code MpmcSlotState.ownerProtocolFault.code

def snapshotSlotOwner (slot : Nat) (enqueue : Bool) : QueueCode OwnerSnapshot :=
  snapshotOwnerSeqCst (.slotState slot) (.slotEpoch slot) (.slotOwner slot)
    (classifySlotState enqueue) ownerValid

def foreignBoot (handle : MpmcQueueHandle) (owner : OwnerAbi) : Bool :=
  owner.bootIdHashHi ≠ handle.self.bootIdHashHi ||
    owner.bootIdHashLo ≠ handle.self.bootIdHashLo

/-- A process of another boot is never probed. -/
def ownerLiveness (handle : MpmcQueueHandle) (owner : OwnerAbi) : QueueCode Liveness :=
  if foreignBoot handle owner then return .unverifiable
  else probeLiveness owner.pid owner.procStartTicks

def confirmOwnerLiveness (handle : MpmcQueueHandle) (enqueue : Bool)
    (observation : OwnerSnapshot) : QueueCode OwnerObservationDisposition := do
  let liveness ← ownerLiveness handle observation.owner
  let confirmed ← snapshotGateOwner enqueue
  if ¬ sameStableOwnerObservation observation confirmed then return .changed
  else if foreignBoot handle observation.owner then return .unrecoverable
  else if liveness = .alive then return .notUnrecoverable
  else return .unrecoverable

/-- Always an error: why the gate could not be entered. -/
def gateBusyResult (handle : MpmcQueueHandle) (enqueue : Bool) : QueueCode Error := do
  let operation := gateOperation enqueue
  let observation ← snapshotGateOwner enqueue
  match observation.kind with
  | .inactive | .claiming | .unstable =>
      return makeError .queueContention operation "gate owner snapshot is not stable"
  | .corrupt | .epochExhausted =>
      return makeError .recoveryBlocked operation "gate owner protocol is not recoverable"
  | .stable =>
      let disposition ← confirmOwnerLiveness handle enqueue observation
      if ownerMatches observation.owner handle.self then
        if disposition = .changed then
          return makeError .queueContention operation
            "gate owner changed while checking concurrent use"
        else
          return makeError .concurrentHandleUse operation "gate is owned by this process"
      else
        match disposition with
        | .notUnrecoverable =>
            return makeError .queueContention operation "gate is owned by a live process"
        | .changed =>
            return makeError .queueContention operation
              "gate owner changed while probing liveness"
        | .unrecoverable =>
            return makeError .recoveryBlocked operation
              "gate owner is dead or unverifiable"

def claimGate (handle : MpmcQueueHandle) (enqueue : Bool) : QueueCode Unit := do
  let observed ← sharedLoad (.gateState enqueue)
  if observed ≠ MpmcLockState.free.code then
    let busy ← gateBusyResult handle enqueue
    .throw busy
  else
    let claimed ← sharedCas (.gateState enqueue) MpmcLockState.free.code
      MpmcLockState.claiming.code
    if claimed then return ()
    else .throw (makeError .queueContention (gateOperation enqueue)
      "gate was claimed concurrently")

def markGateProtocolFailure (enqueue : Bool) (result : OwnerCommitResult) :
    QueueCode Unit :=
  sharedStore (.gateState enqueue)
    (if result = .epochExhausted then MpmcLockState.epochExhausted.code
      else MpmcLockState.ownerProtocolFault.code)

def commitClaimedGate (handle : MpmcQueueHandle) (enqueue : Bool) : QueueCode Unit := do
  let (ownerCommit, committedEpoch) ← beginOwnerCommit (.gateEpoch enqueue) 2
  if ownerCommit ≠ .ready then
    markGateProtocolFailure enqueue ownerCommit
    .throw (makeError .recoveryBlocked (gateOperation enqueue)
      (if ownerCommit = .epochExhausted then "gate owner epoch exhausted"
        else "gate owner epoch protocol is corrupt"))
  else
    setOwner (.gateOwner enqueue) handle.self
    sharedStore (.gateEpoch enqueue) committedEpoch
    sharedStore (.gateState enqueue) MpmcLockState.owned.code

def acquireGate (handle : MpmcQueueHandle) (enqueue : Bool) : QueueCode Unit := do
  claimGate handle enqueue
  commitClaimedGate handle enqueue

def releaseGate (enqueue : Bool) : QueueCode Unit :=
  sharedStore (.gateState enqueue) MpmcLockState.free.code

def releaseOnError {α : Type} (enqueue : Bool) (x : QueueCode α) : QueueCode α := do
  let result ← (x.attempt : QueueCode (Except Error α))
  match result with
  | .ok a => return a
  | .error e =>
      releaseGate enqueue
      .throw e

/-- `INT_MAX` sleepers at most. -/
def notifyWaiters : QueueCode Unit := do
  let _ ← sharedFetchAdd .notifyEpoch 1 32
  futexWake .notifyEpoch int32Max

def ownerObservationIsUnrecoverable (handle : MpmcQueueHandle) (enqueue : Bool)
    (observation : OwnerSnapshot) : QueueCode OwnerObservationDisposition :=
  match observation.kind with
  | .inactive | .claiming | .unstable => return .notUnrecoverable
  | .corrupt | .epochExhausted => return .unrecoverable
  | .stable => confirmOwnerLiveness handle enqueue observation

/-- The budget of a dequeue gate that was seen free or stably owned. -/
def settledDrainBudget (handle : MpmcQueueHandle) (operation : String)
    (observation : OwnerSnapshot) : QueueCode Nat := do
  if observation.epoch % 2 ≠ 0 ∨ observation.epoch > maxCommittedOwnerEpoch then
    .throw (makeError .recoveryBlocked operation "dequeue gate owner epoch is invalid")
  else if observation.kind = .stable then
    let disposition ← ownerObservationIsUnrecoverable handle false observation
    match disposition with
    | .changed =>
        .throw (makeError .queueContention operation
          "dequeue gate owner changed while probing liveness")
    | .unrecoverable =>
        .throw (makeError .recoveryBlocked operation
          "dequeue gate owner is dead or unverifiable")
    | .notUnrecoverable =>
        .throw (makeError .queueContention operation
          "dequeue gate is owned by an active consumer")
  else
    return (maxCommittedOwnerEpoch - observation.epoch) / 2

def dequeueDrainBudget (handle : MpmcQueueHandle) (operation : String) :
    QueueCode Nat := do
  let observation ← snapshotGateOwner false
  match observation.kind with
  | .claiming | .unstable =>
      .throw (makeError .queueContention operation
        "dequeue gate owner claim is in progress")
  | .epochExhausted =>
      .throw (makeError .sequenceExhausted operation
        "dequeue gate owner epoch is exhausted")
  | .corrupt =>
      .throw (makeError .recoveryBlocked operation
        "dequeue gate owner protocol is corrupt")
  | .inactive | .stable => settledDrainBudget handle operation observation

def validateQueuePositions (enqueue dequeue capacity : Nat) (operation : String) :
    Except Error Unit :=
  if enqueue < dequeue then
    .error (makeError .recoveryBlocked operation "queue positions are inconsistent")
  else if enqueue - dequeue > capacity then
    .error (makeError .recoveryBlocked operation "queue positions exceed capacity")
  else .ok ()

theorem validateQueuePositions_ok {e d cap : Nat} {operation : String}
    (h : validateQueuePositions e d cap operation = .ok ()) : d ≤ e ∧ e - d ≤ cap := by
  unfold validateQueuePositions at h
  split at h
  · cases h
  · split at h
    · cases h
    · omega

/-- Enqueue and dequeue position, read twice without a change. -/
def snapshotQueuePositionsLoop (operation : String) : Nat → QueueCode (Nat × Nat)
  | 0 => .throw (makeError .queueContention operation
      "queue positions changed while taking a consistent snapshot")
  | n + 1 => do
      let firstEnqueue ← sharedLoad .enqueuePosition
      let firstDequeue ← sharedLoad .dequeuePosition
      let secondEnqueue ← sharedLoad .enqueuePosition
      let secondDequeue ← sharedLoad .dequeuePosition
      if firstEnqueue = secondEnqueue ∧ firstDequeue = secondDequeue then
        return (secondEnqueue, secondDequeue)
      else snapshotQueuePositionsLoop operation n

def snapshotQueuePositions (operation : String) : QueueCode (Nat × Nat) :=
  snapshotQueuePositionsLoop operation ownerSnapshotRetries

/-- The positions under which the push was admitted, as the source leaves them in
its two in-out arguments. -/
def validatePushDrainAdmissionLoop (handle : MpmcQueueHandle) (operation : String) :
    Nat → Nat → Nat → QueueCode (Nat × Nat)
  | 0, _, _ => .throw (makeError .queueContention operation
      "positions changed while taking push admission")
  | n + 1, enqueue, dequeue => do
      Prog.lift (validateQueuePositions enqueue dequeue handle.capacity operation)
      let pending := enqueue - dequeue
      match checkedAddU64 pending 1 with
      | none => .throw (makeError .sequenceExhausted operation
          "pending message count cannot advance")
      | some pendingAfter =>
          let budget ← dequeueDrainBudget handle operation
          if pending = handle.capacity then
            if budget = 0 then
              .throw (makeError .sequenceExhausted operation
                "dequeue gate budget cannot drain the published message")
            else
              .throw (makeError .queueFull operation
                "queue became full while admitting push")
          else
            let (newEnqueue, newDequeue) ← snapshotQueuePositions operation
            if newEnqueue ≠ enqueue ∨ newDequeue ≠ dequeue then
              validatePushDrainAdmissionLoop handle operation n newEnqueue newDequeue
            else if pendingAfter > budget then
              .throw (makeError .sequenceExhausted operation
                "dequeue gate budget cannot drain the published message")
            else
              return (enqueue, dequeue)

def validatePushDrainAdmission (handle : MpmcQueueHandle) (enqueue dequeue : Nat)
    (operation : String) : QueueCode (Nat × Nat) :=
  validatePushDrainAdmissionLoop handle operation ownerSnapshotRetries enqueue dequeue

def validateTicketBounds (ticket capacity : Nat) (operation : String) :
    Except Error (Nat × Nat) :=
  match mpmcCheckedTicketBounds ticket capacity with
  | some bounds => .ok bounds
  | none => .error (makeError .sequenceExhausted operation
      "queue ticket cannot advance without wraparound")

theorem validateTicketBounds_ok {ticket cap next reclaim : Nat} {operation : String}
    (ht : ticket ≤ uint64Max)
    (h : validateTicketBounds ticket cap operation = .ok (next, reclaim)) :
    next = ticket + 1 ∧ reclaim = ticket + cap := by
  unfold validateTicketBounds at h
  split at h
  · rename_i bounds hb
    cases h
    obtain ⟨hn, hr, _⟩ := mpmcCheckedTicketBounds_some ht hb
    exact ⟨hn, hr⟩
  · cases h

def validateLiveHandle (handle : MpmcQueueHandle) (operation : String) :
    QueueCode Unit := do
  if handle.removed then .throw (makeError .staleHandle operation "")
  else
    let init ← sharedLoad .initState
    if init ≠ MpmcInitState.ready.code then
      .throw (makeError .initializationIncomplete operation "queue is not ready")
    else return ()

/-- The ring index of a position, or `none` where the checked offset overflows. -/
def slotAt (handle : MpmcQueueHandle) (position : Nat) : Option Nat :=
  let index := position % handle.capacity
  (mpmcSlotOffset index handle.capacity handle.slotStride).map fun _ => index

def markSlotProtocolFailure (slot : Nat) (result : OwnerCommitResult) : QueueCode Unit :=
  sharedStore (.slotState slot)
    (if result = .epochExhausted then MpmcSlotState.epochExhausted.code
      else MpmcSlotState.ownerProtocolFault.code)

def slotEpochMessage (result : OwnerCommitResult) (exhausted : String) : String :=
  if result = .epochExhausted then exhausted else "slot owner epoch protocol is corrupt"

end EdgeRuntime

import EdgeRuntime.Channel.Abi
import EdgeRuntime.Channel.SlotProtocol

/-!
The producer's calls on a READY instance: publishing a value, lending a slot to be
filled in place, the heartbeat, and the orderly shutdown.
-/
namespace EdgeRuntime
open Concurrent

structure ProducerHandle where
  generation : Nat
  roleEpoch : Nat
  instanceNonceHi : Nat
  instanceNonceLo : Nat
  payloadSize : Nat
  transport : Transport
  socketUnlinked : Bool
  heartbeatIntervalNs : Nat
  deriving DecidableEq, Repr

structure PublishInfo where
  generation : Nat
  sequence : Nat
  publishBootNs : Nat
  deriving DecidableEq, Repr

/-- A slot lent to the producer's user, with the sequence it will carry. -/
structure WriteLoan where
  slotIndex : Nat
  size : Nat
  sequence : Nat
  deriving DecidableEq, Repr

section
variable (header : ChannelHeaderAbi) (handle : ProducerHandle)

/-- The flag under which one operation at a time uses the handle. -/
def producerInUse : ChannelLoc := .handle .producer .operationInUse

def markProducerOffline : ChannelCode Unit := do
  let seen ← (identitySnapshotRead true).attempt
  match seen with
  | .error _ => return ()
  | .ok id =>
      if id.roleEpoch ≠ handle.roleEpoch then return ()
      else
        sharedStore .producerState EndpointState.offline.code
        if handle.transport ≠ .memfdFdPass ∨ handle.socketUnlinked then return ()
        else
          -- journal and broker socket lie outside the segment; only the lock is seen
          let _ ← (withControlLock (.ret ())).attempt
          return ()

def startProducerShutdown (first : Bool) : ChannelCode Unit :=
  if first then markProducerOffline handle else .ret ()

def serviceProducerShutdown : ChannelCode Unit := do
  let pending ← sharedLoad (.handle .producer .shutdownPending)
  if pending = 0 then return ()
  else
    let idle ← sharedCas producerInUse 0 1
    if !idle then return ()
    else
      let first ← sharedCas (.handle .producer .shutdownStarted) 0 1
      startProducerShutdown handle first
      sharedStore producerInUse 0

def releaseProducerLoanOperation : ChannelCode Unit := do
  sharedStore producerInUse 0
  serviceProducerShutdown handle

def verifyProducerRole (operation : String) : ChannelCode Unit := do
  let seen ← (identitySnapshotRead true).attempt
  match seen with
  | .error _ => .throw (makeError .staleHandle operation "producer role changed")
  | .ok id =>
      if id.roleEpoch ≠ handle.roleEpoch then
        .throw (makeError .staleHandle operation "producer role changed")
      else
        let state ← sharedLoad .producerState
        if state ≠ EndpointState.online.code then
          .throw (makeError .producerOffline operation "producer offline")
        else
          return ()

def verifyHandleOwnership (operation : String) : ChannelCode Unit := do
  let boot ← sharedLoad .bootInitState
  if boot ≠ InitState.ready.code then
    .throw (makeError .staleHandle operation "instance not ready")
  else
    let init ← sharedLoad .initState
    if init ≠ InitState.ready.code then
      .throw (makeError .staleHandle operation "instance not ready")
    else if header.generation ≠ handle.generation ∨
        header.instanceNonceHi ≠ handle.instanceNonceHi ∨
        header.instanceNonceLo ≠ handle.instanceNonceLo then
      .throw (makeError .staleHandle operation "instance replaced")
    else
      verifyProducerRole handle operation

/-- The search over the slots that are left; `none` when every one was busy. -/
def claimWritableSlot (currentSlot stride : Nat) : List Nat → ChannelCode (Option Nat)
  | [] => return none
  | i :: rest =>
      if i = currentSlot then claimWritableSlot currentSlot stride rest
      else
        match slotByteOffset i stride with
        | none => claimWritableSlot currentSlot stride rest
        | some _ => do
            let observed ← sharedLoad (.slotState i)
            if observed ≠ SlotState.free.code ∧ observed ≠ SlotState.published.code then
              claimWritableSlot currentSlot stride rest
            else
              let claimed ← slotClaimWritable i observed
              if claimed then return some i
              else claimWritableSlot currentSlot stride rest

/-- The slot that the latest ticket names is not searched. -/
def findWritableSlot (operation : String) (current : Nat) : ChannelCode Nat :=
  match slotStride handle.payloadSize with
  | none => .throw (makeError .invalidOptions operation "stride overflow")
  | some stride => do
      let currentSlot := if current = 0 then invalidSlot else ticketSlot current
      let chosen ← claimWritableSlot currentSlot stride (List.range slotCount)
      match chosen with
      | none => .throw (makeError .noWritableSlot operation "all slots busy")
      | some i => return i

/-- From the slot's publication to the wake-up; `publish` and `commit` end alike. -/
def announceSample (i sequence publishBootNs : Nat) : ChannelCode PublishInfo := do
  slotPublish i
  sharedStore .latestTicket (makeTicket sequence i)
  let _ ← sharedFetchAdd .publishCount 1 64
  sharedStore .lastPublishBootNs publishBootNs
  let _ ← sharedFetchAdd .notifyEpoch 1 32
  futexWake .notifyEpoch 1
  return ⟨handle.generation, sequence, publishBootNs⟩

def publishInto (i sequence publishBootNs : Nat) (encoded : List Nat) :
    ChannelCode PublishInfo := do
  sharedStore (.slotPayloadSize i) encoded.length
  sharedStore (.slotSequence i) sequence
  sharedStore (.slotPublishBootNs i) publishBootNs
  copyIn (.slotPayload i) 0 encoded
  sharedStore (.slotChecksum i) (fnv1a64 encoded)
  announceSample handle i sequence publishBootNs

def publishUnlocked (encoded : List Nat) : ChannelCode PublishInfo := do
  if encoded.length ≠ handle.payloadSize then
    .throw (makeError .payloadEncodeFailed "Producer::publish" "codec size drift")
  else
    verifyHandleOwnership header handle "Producer::publish"
    let current ← sharedLoad .latestTicket
    match checkedNextSequence current with
    | none =>
        .throw (makeError .sequenceExhausted "Producer::publish" "sequence exhausted")
    | some nextSequence =>
        let publishBootNs ← boottimeNowNs
        if publishBootNs = 0 then
          .throw (makeError .clockAnomaly "Producer::publish" "boottime unavailable")
        else
          let i ← findWritableSlot handle "Producer::publish" current
          publishInto handle i nextSequence publishBootNs encoded

/-- `ProducerUseGuard`: refuse a second operation, and clear the flag at the end. -/
def withProducerUse {α : Type} (operation : String) (body : ChannelCode α) :
    ChannelCode α := do
  let busy ← flagExchange producerInUse
  if busy then
    .throw (makeError .concurrentHandleUse operation "concurrent handle use")
  else
    let result ← body.attempt
    sharedStore producerInUse 0
    Prog.lift result

def producerPublishImpl (encoded : List Nat) : ChannelCode PublishInfo :=
  withProducerUse "Producer::publish" (publishUnlocked header handle encoded)

def heartbeatUnlocked : ChannelCode Unit :=
  if handle.heartbeatIntervalNs = 0 then .ret ()
  else do
    verifyHandleOwnership header handle "Producer::heartbeat"
    let now ← boottimeNowNs
    if now = 0 then
      .throw (makeError .clockAnomaly "Producer::heartbeat" "boottime unavailable")
    else
      sharedStore .heartbeatBootNs now

def producerHeartbeatImpl : ChannelCode Unit :=
  withProducerUse "Producer::heartbeat" (heartbeatUnlocked header handle)

def loanUnlocked : ChannelCode WriteLoan := do
  verifyHandleOwnership header handle "Producer::loan"
  let current ← sharedLoad .latestTicket
  match checkedNextSequence current with
  | none => .throw (makeError .sequenceExhausted "Producer::loan" "sequence exhausted")
  | some nextSequence =>
      let i ← findWritableSlot handle "Producer::loan" current
      return ⟨i, handle.payloadSize, nextSequence⟩

/-- A loan keeps the flag until it is committed or aborted. -/
def producerLoanImpl : ChannelCode WriteLoan := do
  let busy ← flagExchange producerInUse
  if busy then
    .throw (makeError .concurrentHandleUse "Producer::loan" "concurrent handle use")
  else
    let result ← (loanUnlocked header handle).attempt
    match result with
    | .ok loan => return loan
    | .error e =>
        sharedStore producerInUse 0
        .throw e

def commitUnlocked (loan : WriteLoan) : ChannelCode PublishInfo := do
  verifyHandleOwnership header handle "WriteLoan::commit"
  let publishBootNs ← boottimeNowNs
  if publishBootNs = 0 then
    .throw (makeError .clockAnomaly "WriteLoan::commit" "boottime unavailable")
  else
    let checksum ← fnv1a64Shared (.slotPayload loan.slotIndex) loan.size
    sharedStore (.slotPayloadSize loan.slotIndex) loan.size
    sharedStore (.slotSequence loan.slotIndex) loan.sequence
    sharedStore (.slotPublishBootNs loan.slotIndex) publishBootNs
    sharedStore (.slotChecksum loan.slotIndex) checksum
    announceSample handle loan.slotIndex loan.sequence publishBootNs

def producerCommitLoanImpl : Option WriteLoan → ChannelCode PublishInfo
  | none => .throw (makeError .invalidOptions "WriteLoan::commit" "loan inactive")
  | some loan => do
      let result ← (commitUnlocked header handle loan).attempt
      match result with
      | .ok info =>
          releaseProducerLoanOperation handle
          return info
      | .error e =>
          slotAbortWrite loan.slotIndex
          releaseProducerLoanOperation handle
          .throw e

def producerAbortLoanImpl : Option WriteLoan → ChannelCode Unit
  | none => .ret ()
  | some loan => do
      slotAbortWrite loan.slotIndex
      releaseProducerLoanOperation handle

def producerShutdownImpl : ChannelCode Unit := do
  sharedStore (.handle .producer .shutdownPending) 1
  serviceProducerShutdown handle

end

/-- What the checks of the producer's calls complain about. A call that looks for a slot has
passed all of its checks. -/
def producerChecks : List ErrorCode :=
  [.payloadEncodeFailed, .staleHandle, .producerOffline, .sequenceExhausted, .clockAnomaly,
    .concurrentHandleUse]

/-- The call failed a check, or was to end a loan that there is not. -/
def FailsCheck (e : Error) : Prop :=
  e.code ∈ producerChecks ∨ e = makeError .invalidOptions "WriteLoan::commit" "loan inactive"

theorem failsCheck_makeError {code : ErrorCode} (operation context : String)
    (mem : code ∈ producerChecks) : FailsCheck (makeError code operation context) := .inl mem

theorem FailsCheck.code_ne {e : Error} (h : FailsCheck e) : e.code ≠ .noWritableSlot := by
  intro same
  rcases h with mem | rfl
  · rw [same] at mem
    exact absurd mem (by decide)
  · cases same

end EdgeRuntime

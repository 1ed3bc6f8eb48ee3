import EdgeRuntime.Channel.Abi
import EdgeRuntime.Channel.SlotProtocol

/-!
The consumer's calls on an open handle: reading the latest sample, borrowing its
slot, waiting for one, and giving the channel up.
-/
namespace EdgeRuntime
open Concurrent

structure ConsumerHandle where
  channelName : String
  transport : Transport
  generation : Nat
  roleEpoch : Nat
  instanceNonceHi : Nat
  instanceNonceLo : Nat
  schemaFingerprint : List Nat
  schemaVersion : Nat
  payloadSize : Nat
  reconnectTimeoutMs : Int
  deriving DecidableEq, Repr

structure ReadSnapshot where
  encodedSize : Nat
  checksumOk : Bool
  sampleSequence : Nat
  publishBootNs : Nat
  receiveBootNs : Nat
  generation : Nat
  instanceNonceHi : Nat
  instanceNonceLo : Nat
  missedSamples : Nat
  deriving DecidableEq, Repr

/-- A slot held for reading with the sample found in it. -/
structure ReadLoan where
  slotIndex : Nat
  snapshot : ReadSnapshot
  deriving DecidableEq, Repr

def maxReadRetries : Nat := 8
def heartbeatStallFactor : Nat := 3

section
variable (header : ChannelHeaderAbi) (n : Nat) (handle : ConsumerHandle)

def consumerWord (word : HandleWord) : ChannelLoc := .handle (.consumer n) word

def markConsumerOffline : ChannelCode Unit := do
  let seen ← (identitySnapshotRead false).attempt
  match seen with
  | .error _ => return ()
  | .ok id =>
      if id.roleEpoch ≠ handle.roleEpoch then return ()
      else sharedStore .consumerState EndpointState.offline.code

def startConsumerShutdown (first : Bool) : ChannelCode Unit :=
  if first then markConsumerOffline handle else .ret ()

def serviceConsumerShutdown : ChannelCode Unit := do
  let pending ← sharedLoad (consumerWord n .shutdownPending)
  if pending = 0 then return ()
  else
    let idle ← sharedCas (consumerWord n .operationInUse) 0 1
    if !idle then return ()
    else
      let first ← sharedCas (consumerWord n .shutdownStarted) 0 1
      startConsumerShutdown handle first
      sharedStore (consumerWord n .operationInUse) 0

def releaseConsumerLoanOperation : ChannelCode Unit := do
  sharedStore (consumerWord n .operationInUse) 0
  serviceConsumerShutdown n handle

/-- Give the slot back before reporting an error. -/
def releaseAndThrow {α : Type} (i : Nat) (e : Error) : ChannelCode α := do
  slotReleaseRead i
  .throw e

/-- The bookkeeping of a sample that passed every check. -/
def acceptSample (i size sequence publishBootNs receiveBootNs : Nat) :
    ChannelCode ReadLoan := do
  let first ← sharedLoad (consumerWord n .firstSampleInGeneration)
  let last ← sharedLoad (consumerWord n .lastSequence)
  sharedStore (consumerWord n .lastSequence) sequence
  sharedStore (consumerWord n .firstSampleInGeneration) 0
  let _ ← sharedFetchAdd .readCount 1 64
  return ⟨i, ⟨size, true, sequence, publishBootNs, receiveBootNs, handle.generation,
    handle.instanceNonceHi, handle.instanceNonceLo,
    if first ≠ 0 then 0 else saturatedGap last sequence⟩⟩

/-- The checks on a slot that is held and was latest after it was claimed. -/
def checkClaimedSlot (operation : String) (i : Nat) : ChannelCode ReadLoan := do
  let size ← sharedLoad (.slotPayloadSize i)
  let sequence ← sharedLoad (.slotSequence i)
  let publishBootNs ← sharedLoad (.slotPublishBootNs i)
  let expected ← sharedLoad (.slotChecksum i)
  if size ≠ handle.payloadSize then
    releaseAndThrow i (makeError .payloadCorrupt operation "payload size mismatch")
  else
    let receiveBootNs ← boottimeNowNs
    if receiveBootNs = 0 then
      releaseAndThrow i (makeError .clockAnomaly operation "monotonic clock unavailable")
    else
      let actual ← fnv1a64Shared (.slotPayload i) size
      if actual ≠ expected then
        releaseAndThrow i (makeError .payloadCorrupt operation "checksum mismatch")
      else
        acceptSample n handle i size sequence publishBootNs receiveBootNs

/-- The rest of an attempt whose slot is claimed; `none` asks for a retry. -/
def readClaimedSlot (operation : String) (i : Nat) : ChannelCode (Option ReadLoan) := do
  slotMarkReading i handle.roleEpoch
  let sequence ← sharedLoad (.slotSequence i)
  let latest ← sharedLoad .latestTicket
  if latest ≠ makeTicket sequence i then
    slotReleaseRead i
    return none
  else
    let claimed ← checkClaimedSlot n handle operation i
    return some claimed

/-- One attempt of the retry loop. -/
def claimAttempt (operation : String) (stride : Nat) : ChannelCode (Option ReadLoan) := do
  let ticket ← sharedLoad .latestTicket
  let last ← sharedLoad (consumerWord n .lastSequence)
  if ticket = 0 ∨ ticketSequence ticket ≤ last then
    .throw (makeError .noNewSample operation "no new sample")
  else
    match slotByteOffset (ticketSlot ticket) stride with
    | none => .throw (makeError .corruptSlot operation "ticket slot out of range")
    | some _ =>
        let claimed ← slotClaimReadable (ticketSlot ticket)
        if !claimed then return none
        else readClaimedSlot n handle operation (ticketSlot ticket)

/-- The retry loop, by the number of attempts that are left. -/
def claimLoop (operation : String) (stride : Nat) : Nat → ChannelCode ReadLoan
  | 0 => .throw (makeError .readContention operation "retry bound exceeded")
  | attempts + 1 => do
      let claimed ← claimAttempt n handle operation stride
      match claimed with
      | some loan => return loan
      | none => claimLoop operation stride attempts

def claimLatestUnlocked (operation : String) : ChannelCode ReadLoan :=
  match slotStride handle.payloadSize with
  | none => .throw (makeError .invalidOptions operation "stride overflow")
  | some stride => claimLoop n handle operation stride maxReadRetries

def tryReadLatestUnlocked (encodedCap : Nat) : ChannelCode ReadSnapshot := do
  let claimed ← claimLatestUnlocked n handle "Consumer::try_read_latest"
  if claimed.snapshot.encodedSize > encodedCap then
    releaseAndThrow claimed.slotIndex
      (makeError .payloadCorrupt "Consumer::try_read_latest" "output capacity too small")
  else
    copyFrom (.slotPayload claimed.slotIndex) 0 claimed.snapshot.encodedSize
    slotReleaseRead claimed.slotIndex
    return claimed.snapshot

/-- `ConsumerUseGuard`: refuse a second operation, and clear the flag at the end. -/
def withConsumerUse {α : Type} (operation : String) (body : ChannelCode α) :
    ChannelCode α := do
  let busy ← flagExchange (consumerWord n .operationInUse)
  if busy then
    .throw (makeError .concurrentHandleUse operation "concurrent handle use")
  else
    let result ← body.attempt
    sharedStore (consumerWord n .operationInUse) 0
    Prog.lift result

def consumerTryReadLatestImpl (encodedCap : Nat) : ChannelCode ReadSnapshot :=
  withConsumerUse n "Consumer::try_read_latest" (tryReadLatestUnlocked n handle encodedCap)

/-- A loan that is handed out keeps the flag until it is released. -/
def withConsumerLoan (operation : String) (body : ChannelCode ReadLoan) :
    ChannelCode ReadLoan := do
  let busy ← flagExchange (consumerWord n .operationInUse)
  if busy then
    .throw (makeError .concurrentHandleUse operation "concurrent handle use")
  else
    let result ← body.attempt
    match result with
    | .ok loan => return loan
    | .error e =>
        releaseConsumerLoanOperation n handle
        .throw e

def consumerTryLoanLatestImpl : ChannelCode ReadLoan :=
  withConsumerLoan n handle "Consumer::try_loan_latest"
    (claimLatestUnlocked n handle "Consumer::try_loan_latest")

def consumerReleaseLoanImpl : Option ReadLoan → ChannelCode Unit
  | none => .ret ()
  | some loan => do
      slotReleaseRead loan.slotIndex
      releaseConsumerLoanOperation n handle

/-- The verdict on a producer that is alive but has published nothing in time. -/
def classifyAliveProducer (operation : String) : ChannelCode Error := do
  let now ← boottimeNowNs
  let lastPublish ← sharedLoad .lastPublishBootNs
  let lastBeat ← sharedLoad .heartbeatBootNs
  let interval := header.heartbeatIntervalNs
  if interval ≠ 0 ∧ now ≠ 0 ∧
      (lastPublish = 0 ∨ elapsedExceeds now lastPublish interval) ∧
      (lastBeat = 0 ∨
        elapsedExceeds now lastBeat (saturatingMulU64 interval heartbeatStallFactor)) then
    return makeError .producerStalled operation "producer alive, heartbeat stale"
  else
    return makeError .dataStale operation "producer alive but no new sample"

def classifyWaitTimeout (operation : String) : ChannelCode Error := do
  let state ← sharedLoad .producerState
  if state ≠ EndpointState.online.code ∧ state ≠ EndpointState.stopping.code ∧
      state ≠ EndpointState.fault.code then
    return makeError .producerOffline operation "producer offline on wait timeout"
  else
    let seen ← (identitySnapshotRead true).attempt
    match seen with
    | .error _ =>
        return makeError .recoveryBlocked operation "producer identity unreadable"
    | .ok id =>
        if id.pid = 0 then
          return makeError .recoveryBlocked operation "producer identity unknown"
        else
          let liveness ← probeLiveness id.pid id.procStartTicks
          match liveness with
          | .alive => classifyAliveProducer header operation
          | .exited => return makeError .producerOffline operation "producer exited"
          | .pidReused | .unverifiable =>
              return makeError .recoveryBlocked operation "producer identity unverifiable"

def failWaitTimeout {α : Type} (operation : String) : ChannelCode α := do
  let e ← classifyWaitTimeout header operation
  .throw e

def monotonicDeadlineNs (timeoutNs : Nat) : ChannelCode Nat := do
  let now ← monotonicNowNs
  if now = 0 then return 0
  else if now > uint64Max - timeoutNs then return uint64Max
  else return now + timeoutNs

def remainingTimeNs (deadlineNs : Nat) : ChannelCode Nat := do
  let now ← monotonicNowNs
  if now = 0 then return 0
  else if now ≥ deadlineNs then return 0
  else return deadlineNs - now

/-- The end of a round that found nothing: whether to look again, or the failure. -/
def waitForNotice (operation : String) (deadline : Nat) : ChannelCode Unit := do
  let expected ← sharedWatch .notifyEpoch
  let ticket ← sharedLoad .latestTicket
  let last ← sharedLoad (consumerWord n .lastSequence)
  if ticket ≠ 0 ∧ ticketSequence ticket > last then return ()
  else
    let remaining ← remainingTimeNs deadline
    if remaining = 0 then failWaitTimeout header operation
    else
      let errnoValue ← futexWait .notifyEpoch expected
      if errnoValue = 0 ∨ errnoValue = eagain ∨ errnoValue = eintr then return ()
      else if errnoValue = etimedout then failWaitTimeout header operation
      else .throw (makeErrnoErrorAs .systemError errnoValue operation "futex_wait failed")

/-- The wait loop. It has no bound of its own; a run that takes more than `rounds`
rounds is one that is still waiting. -/
def waitLoop {α : Type} (operation : String) (deadline : Nat) (body : ChannelCode α) :
    Nat → ChannelCode α
  | 0 => sleepForever (makeError .timeout operation "")
  | rounds + 1 => do
      let result ← body.attempt
      match result with
      | .ok a => return a
      | .error e =>
          if e.code ≠ .noNewSample ∧ e.code ≠ .readContention then .throw e
          else
            waitForNotice header n operation deadline
            waitLoop operation deadline body rounds

def waitUntil {α : Type} (operation : String) (timeoutNs rounds : Nat)
    (body : ChannelCode α) : ChannelCode α := do
  let deadline ← monotonicDeadlineNs timeoutNs
  if deadline = 0 then
    .throw (makeError .clockAnomaly operation "monotonic clock unavailable")
  else
    waitLoop header n operation deadline body rounds

def consumerWaitLatestImpl (encodedCap timeoutNs rounds : Nat) :
    ChannelCode ReadSnapshot :=
  withConsumerUse n "Consumer::wait_latest"
    (waitUntil header n "Consumer::wait_latest" timeoutNs rounds
      (tryReadLatestUnlocked n handle encodedCap))

def consumerWaitLoanLatestImpl (timeoutNs rounds : Nat) : ChannelCode ReadLoan :=
  withConsumerLoan n handle "Consumer::wait_loan_latest"
    (waitUntil header n "Consumer::wait_loan_latest" timeoutNs rounds
      (claimLatestUnlocked n handle "Consumer::wait_loan_latest"))

def consumerShutdownImpl : ChannelCode Unit := do
  sharedStore (consumerWord n .shutdownPending) 1
  serviceConsumerShutdown n handle

end
end EdgeRuntime

import EdgeRuntime.Channel.Consumer

/-!
Opening a channel as its consumer. The object is found and checked first; then, under
the control lock, the registered consumer is examined, the slots a dead one held are
reclaimed, and the opener puts its own identity in place.
-/
namespace EdgeRuntime
open Concurrent

/-- The fixed contents of a READY segment. -/
structure ChannelSegment where
  bootstrap : BootstrapHeaderAbi
  header : ChannelHeaderAbi
  deriving DecidableEq, Repr

/-- What the broker says about the object it passes. -/
structure FdBrokerReply where
  generation : Nat
  nonceHi : Nat
  nonceLo : Nat
  mappingSize : Nat
  deriving DecidableEq, Repr

/-- What the system answers to an opener outside shared memory. -/
structure OpenEnvironment where
  identityError : Option Error
  /-- Opening the object by its name, or receiving it from the broker. -/
  openError : Option Error
  socketPresent : Bool
  stat : Except Error (Nat × Nat × Nat)
  preadError : Option Error
  mmapError : Option Error
  /-- The channel hash of the journal, read under the lock. -/
  journal : Except Error Nat
  again : Except Error (Nat × Nat)
  reply : FdBrokerReply
  deriving DecidableEq, Repr

def failWith : Option Error → Except Error Unit
  | none => .ok ()
  | some e => .error e

section
variable (segment : ChannelSegment) (env : OpenEnvironment) (self : ProcessIdentity)
  (start : ChannelCode Unit) (n : Nat) (options : ChannelOptions)
  (schema : SchemaDescriptor) (payloadSize : Nat)

/-- One slot of the reclaim pass. -/
def reclaimSlot (oldRoleEpoch i : Nat) : ChannelCode Unit := do
  let state ← sharedLoad (.slotState i)
  if state = SlotState.readingClaiming.code then
    let epoch ← sharedLoad (.slotReaderEpoch i)
    if epoch ≠ 0 ∧ epoch ≠ oldRoleEpoch then
      .throw (makeError .recoveryBlocked "Consumer::open" "claiming slot epoch unknown")
    else slotReleaseRead i
  else if state = SlotState.reading.code then
    let epoch ← sharedLoad (.slotReaderEpoch i)
    if epoch ≠ oldRoleEpoch then
      .throw (makeError .recoveryBlocked "Consumer::open" "reading slot epoch unknown")
    else slotReleaseRead i
  else .ret ()

def reclaimSlots (oldRoleEpoch stride : Nat) : List Nat → ChannelCode Unit
  | [] => .ret ()
  | i :: rest =>
      match slotByteOffset i stride with
      | none => .throw (makeError .corruptSlot "Consumer::open" "slot offset overflow")
      | some _ => do
          reclaimSlot oldRoleEpoch i
          reclaimSlots oldRoleEpoch stride rest

def reclaimDeadConsumerSlots (oldRoleEpoch : Nat) : ChannelCode Unit :=
  match slotStride payloadSize with
  | none => .throw (makeError .invalidOptions "Consumer::open" "stride overflow")
  | some stride => reclaimSlots oldRoleEpoch stride (List.range slotCount)

/-- A registered consumer that is not known to be dead stops the opener. -/
def evictOldConsumer (old : ProcessIdentityAbi) : ChannelCode Unit :=
  if old.pid = 0 then .ret ()
  else do
    let state ← sharedLoad .consumerState
    if state ≠ EndpointState.online.code ∧ state ≠ EndpointState.stopping.code ∧
        state ≠ EndpointState.fault.code then
      return ()
    else
      let liveness ← probeLiveness old.pid old.procStartTicks
      match liveness with
      | .alive =>
          .throw (makeError .consumerAlreadyOwned "Consumer::open" "consumer alive")
      | .unverifiable =>
          .throw (makeError .recoveryBlocked "Consumer::open" "cannot verify old consumer")
      | .exited | .pidReused => reclaimDeadConsumerSlots payloadSize old.roleEpoch

def identityOf (id : ProcessIdentityAbi) : ProcessIdentity :=
  ⟨id.pid, id.procStartTicks, id.bootIdHashHi, id.bootIdHashLo⟩

/-- The takeover, from the old identity to the ONLINE store. -/
def registerConsumer : ChannelCode Nat := do
  let seen ← (identitySnapshotRead false).attempt
  match seen with
  | .error _ =>
      .throw (makeError .recoveryBlocked "Consumer::open" "consumer identity unreadable")
  | .ok old =>
      let oldState ← sharedLoad .consumerState
      if oldState ≠ EndpointState.offline.code ∧
          processIdentityValid (identityOf old) = false then
        .throw (makeError .recoveryBlocked "Consumer::open" "invalid old consumer")
      else
        evictOldConsumer payloadSize old
        let roleEpoch ← identitySnapshotWrite false self
        sharedStore .consumerState EndpointState.online.code
        return roleEpoch

/-- The words of a new handle. -/
def initConsumerHandle : ChannelCode Unit := do
  sharedStore (consumerWord n .lastSequence) 0
  sharedStore (consumerWord n .firstSampleInGeneration) 1
  sharedStore (consumerWord n .operationInUse) 0
  sharedStore (consumerWord n .shutdownPending) 0
  sharedStore (consumerWord n .shutdownStarted) 0

/-- Whether the object under the name is still the one that was opened. -/
def confirmInstance (dev ino : Nat) : Except Error Unit :=
  match options.transport with
  | .posixShm => do
      let (adev, aino) ← env.again
      if adev ≠ dev ∨ aino ≠ ino then
        .error (makeError .nameRaceDetected "Consumer::open" "instance replaced during open")
      else .ok ()
  | .memfdFdPass =>
      if env.reply.generation ≠ segment.header.generation ∨
          env.reply.nonceHi ≠ segment.header.instanceNonceHi ∨
          env.reply.nonceLo ≠ segment.header.instanceNonceLo ∨
          env.reply.mappingSize ≠ segment.header.mappingSize then
        .error (makeError .transportFailed "Consumer::open"
          "broker reply disagrees with header")
      else .ok ()

def openJournalCheck : Except Error Unit := do
  let channelHash ← env.journal
  if channelHash ≠ 0 ∧ channelHash ≠ channelNameHash options.name then
    .error (makeError .recoveryBlocked "Consumer::open" "journal channel mismatch")
  else .ok ()

/-- What happens under the control lock; `start` fills in the words of the handle. -/
def openLocked (dev ino : Nat) : ChannelCode ConsumerHandle := do
  Prog.lift (openJournalCheck env options)
  Prog.lift (confirmInstance segment env options dev ino)
  let roleEpoch ← registerConsumer self payloadSize
  start
  return ⟨options.name, options.transport, segment.header.generation, roleEpoch,
    segment.header.instanceNonceHi, segment.header.instanceNonceLo, schema.fingerprint,
    schema.version, payloadSize, options.reconnectTimeoutMs⟩

/-- The checks on the caller's arguments. -/
def openArgumentChecks : Except Error Unit := do
  if validateChannelName options.name = false then
    .error (makeError .invalidName "Consumer::open" options.name)
  else if payloadSize = 0 ∨ payloadSize > maxPayloadSize then
    .error (makeError .invalidOptions "Consumer::open" "payload size out of range")
  else
    validateChannelOptionContract options "Consumer::open"
    if options.reconnectTimeoutMs < 0 ∨
        options.reconnectTimeoutMs > (uint64Max / 1000000 : Nat) then
      .error (makeError .invalidOptions "Consumer::open" "reconnect timeout out of range")
    else if schemaFingerprintSet schema = false then
      .error (makeError .invalidOptions "Consumer::open" "schema fingerprint unset")
    else .ok ()

/-- The object behind the name, with its device, inode and size. -/
def openObject : Except Error (Nat × Nat × Nat) :=
  match env.openError with
  | none => env.stat
  | some e =>
      if options.transport = .posixShm ∧ e.code = .notFound ∧ env.socketPresent then
        .error (makeError .invalidOptions "Consumer::open"
          "channel is fd-pass; use Transport::kMemfdFdPass")
      else .error e

/-- The checks on the bootstrap record that was read through the descriptor. -/
def openBootstrapChecks (boot : BootstrapHeaderAbi) (size : Nat) : Except Error Unit := do
  validateBootstrapParse boot size
  if boot.expectedMappingSize ≠ size then
    .error (makeError .initializationIncomplete "Consumer::open"
      "mapping size mismatch (producer still initializing?)")
  else if boot.initState ≠ InitState.ready.code then
    .error (makeError .initializationIncomplete "Consumer::open" "producer not ready")
  else if boot.creator.bootIdHashHi ≠ self.bootIdHashHi ∨
      boot.creator.bootIdHashLo ≠ self.bootIdHashLo then
    .error (makeError .corruptHeader "Consumer::open" "segment from previous boot")
  else failWith env.mmapError

/-- From the opened object to the control lock. -/
def openMapped (dev ino size : Nat) : ChannelCode ConsumerHandle :=
  if size < bootstrapHeaderSize then
    .throw (makeError .initializationIncomplete "Consumer::open"
      "segment below bootstrap size")
  else do
    Prog.lift (failWith env.preadError)
    let initState ← sharedLoad .bootInitState
    Prog.lift (openBootstrapChecks env self { segment.bootstrap with initState } size)
    let recheck ← sharedLoad .bootInitState
    if recheck ≠ InitState.ready.code then
      .throw (makeError .initializationIncomplete "Consumer::open" "not ready on recheck")
    else
      Prog.lift (validateHeaderParse segment.header schema payloadSize)
      withControlLock (openLocked segment env self start options schema payloadSize dev ino)

/-- The open up to the handle's own words, which `start` fills in. -/
def openWith : ChannelCode ConsumerHandle := do
  Prog.lift (openArgumentChecks options schema payloadSize)
  Prog.lift (failWith env.identityError)
  let (dev, ino, size) ← Prog.lift (openObject env options)
  openMapped segment env self start options schema payloadSize dev ino size

def consumerOpenImpl : ChannelCode ConsumerHandle :=
  openWith segment env self (initConsumerHandle n) options schema payloadSize

end

structure ReconnectInfo where
  oldGeneration : Nat
  newGeneration : Nat
  oldNonceHi : Nat
  oldNonceLo : Nat
  newNonceHi : Nat
  newNonceLo : Nat
  schemaChanged : Bool
  deriving DecidableEq, Repr

/-- Where the name leads when a handle reconnects: to the instance it is attached to, or
to another one, whose open ends with the given outcome. -/
inductive ReconnectTarget
  | same (env : OpenEnvironment)
  | other (outcome : Except Error ConsumerHandle)
  deriving DecidableEq, Repr

section
variable (segment : ChannelSegment) (self : ProcessIdentity) (n : Nat)
  (handle : ConsumerHandle)

def reconnectOptions : ChannelOptions :=
  ⟨handle.channelName, 100, handle.reconnectTimeoutMs, true, handle.transport, 0⟩

def reconnectInfo (fresh : ConsumerHandle) : ReconnectInfo :=
  ⟨handle.generation, fresh.generation, handle.instanceNonceHi, handle.instanceNonceLo,
    fresh.instanceNonceHi, fresh.instanceNonceLo,
    handle.schemaFingerprint ≠ fresh.schemaFingerprint ||
      handle.schemaVersion ≠ fresh.schemaVersion⟩

/-- The handle takes over the fields of the fresh one. Its own words go with it: after
a move to another instance they are no longer words of this one. -/
def adoptHandle (fresh : ConsumerHandle) : ReconnectTarget →
    ChannelCode (ReconnectInfo × Option ConsumerHandle)
  | .same _ => do
      sharedStore (consumerWord n .lastSequence) 0
      sharedStore (consumerWord n .firstSampleInGeneration) 1
      return (reconnectInfo handle fresh, some fresh)
  | .other _ => return (reconnectInfo handle fresh, none)

/-- The instance behind the name, opened into a handle object of its own. -/
def reopen : ReconnectTarget → ChannelCode ConsumerHandle
  | .same env =>
      openWith segment env self (.ret ()) (reconnectOptions handle)
        ⟨handle.schemaFingerprint, handle.schemaVersion⟩ handle.payloadSize
  | .other outcome => Prog.lift outcome

/-- The result comes with the handle this instance has afterwards. -/
def consumerReconnectImpl (target : ReconnectTarget) :
    ChannelCode (ReconnectInfo × Option ConsumerHandle) :=
  withConsumerUse n "Consumer::reconnect" do
    let fresh ← reopen segment self handle target
    markConsumerOffline handle
    adoptHandle n handle fresh target

end
end EdgeRuntime

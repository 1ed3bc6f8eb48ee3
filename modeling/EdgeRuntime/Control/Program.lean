import EdgeRuntime.Channel.Abi
import EdgeRuntime.Channel.Journal
import EdgeRuntime.Channel.Producer
import EdgeRuntime.Common.ShmObject
import EdgeRuntime.Concurrent.Program

/-!
The control plane of a channel: how a producer creates an instance under the channel's
name, replaces the instance of a predecessor, cleans up after a creator that died, and
removes its own instance. Every program is written over the system calls and shared
accesses it makes, in their order, since a process may be killed between any two of them.
-/
namespace EdgeRuntime
open Concurrent

/-- Device and inode number. A descriptor is named by the file it is open on. -/
structure FileIdentity where
  dev : Nat
  ino : Nat
  deriving DecidableEq, Repr

structure FileStatus where
  identity : FileIdentity
  regular : Bool
  /-- The owner is the effective user. -/
  owned : Bool
  mode : Nat
  size : Nat
  deriving DecidableEq, Repr

/-- What `pwrite_full` and the journal's write loop put into a file. -/
inductive WriteTarget
  | journal (record : ControlJournalV1)
  | bootstrap (fd : FileIdentity) (boot : BootstrapHeaderAbi)
  deriving DecidableEq, Repr

def WriteTarget.size : WriteTarget → Nat
  | .journal _ => journalRecordSize
  | .bootstrap _ _ => bootstrapHeaderSize

def WriteTarget.operation : WriteTarget → String
  | .journal _ => "control_lock_write_journal"
  | .bootstrap _ _ => "pwrite_full"

/-- The outcome of a `bind` on the broker's socket path. -/
inductive BindAnswer
  | bound
  | addressInUse
  | failed (failure : SysFailure)
  deriving DecidableEq, Repr

inductive ControlInstr
  | currentIdentity
  | acquireLock
  | releaseLock
  | preadJournal
  /-- One `pwrite`, behind the bytes that are written already. -/
  | pwrite (target : WriteTarget) (written : Nat)
  | fdatasync
  | shmOpen
  | shmCreate
  | shmUnlink
  | memfdCreate
  | fstat (fd : FileIdentity)
  | statx (fd : FileIdentity)
  | preadBootstrap (fd : FileIdentity)
  | preadHeader (fd : FileIdentity)
  | ftruncate (fd : FileIdentity) (size : Nat)
  | mmap (fd : FileIdentity) (size : Nat)
  -- accesses through a mapping
  | readBootstrap (fd : FileIdentity)
  | loadBootInitState (fd : FileIdentity)
  | readHeader (fd : FileIdentity)
  | readProducer (fd : FileIdentity)
  | loadProducerState (fd : FileIdentity)
  | fillHeader (fd : FileIdentity) (header : ChannelHeaderAbi)
  | writeProducer (fd : FileIdentity) (snap : ProcessIdentity)
  | storeInitState (fd : FileIdentity) (state : InitState)
  | storeProducerState (fd : FileIdentity) (state : EndpointState)
  | storeBootInitState (fd : FileIdentity) (state : InitState)
  | probe (pid ticks : Nat)
  | getrandom
  -- the broker's socket of an instance that is passed by descriptor
  | socket
  | bind (fd : FileIdentity)
  | connect
  | unlinkPath
  | chmodPath
  | listen (fd : FileIdentity)
  | startServer (fd : FileIdentity)
  /-- The listener is shut down or closed. -/
  | stopServer (fd : FileIdentity)
  /-- The handle unlinks its path and notes that it did. -/
  | unlinkSocket (fd : FileIdentity)

def ControlReply : ControlInstr → Type
  | .currentIdentity => Except Error ProcessIdentity
  | .acquireLock => Except Error Unit
  | .preadJournal => Except Error ControlJournalV1
  | .pwrite _ _ => SysResult Nat
  | .shmOpen | .shmCreate | .memfdCreate => SysResult FileIdentity
  | .fstat _ => SysResult FileStatus
  -- with the mask of the fields that were filled in
  | .statx _ => SysResult (FileStatus × Bool)
  | .preadBootstrap _ => Except Error BootstrapHeaderAbi
  | .preadHeader _ => Except Error ChannelHeaderAbi
  | .readBootstrap _ => BootstrapHeaderAbi
  | .loadBootInitState _ | .loadProducerState _ => Nat
  | .readHeader _ => ChannelHeaderAbi
  | .readProducer _ => Except Error ProcessIdentityAbi
  | .writeProducer _ _ => Except Error Nat
  | .probe _ _ => Liveness
  | .getrandom => SysResult (Nat × Nat)
  | .bind _ => BindAnswer
  | .connect => Bool
  | .fdatasync | .shmUnlink | .ftruncate _ _ | .mmap _ _ | .socket | .unlinkPath
  | .chmodPath | .listen _ | .startServer _ => SysResult Unit
  | .releaseLock | .fillHeader _ _ | .storeInitState _ _ | .storeProducerState _ _
  | .storeBootInitState _ _ | .stopServer _ | .unlinkSocket _ => Unit

abbrev ControlCode (α : Type) : Type := Prog ControlInstr ControlReply Error α

/-! ### Shared-memory objects -/

def expectedShmMode : Nat := 0o600

def shmOpenCreate : ControlCode FileIdentity := .op .shmCreate (orErrno "shm_open_create")

def shmOpenExisting : ControlCode FileIdentity := .op .shmOpen (orErrno "shm_open_existing")

def checkShmStatus (status : FileStatus) : Except Error FileStatus :=
  let operation := "shm_fstat_and_capture"
  if status.regular = false then
    .error (makeError .corruptHeader operation "not a regular file")
  else if status.owned = false then
    .error (makeError .permissionDenied operation "owner uid mismatch")
  else if status.mode % 0o1000 ≠ expectedShmMode then
    .error (makeError .permissionDenied operation "unexpected mode")
  else .ok status

def shmFstatAndCapture (fd : FileIdentity) : ControlCode FileStatus := do
  let status ← .op (.fstat fd) (orErrno "shm_fstat_and_capture")
  Prog.lift (checkShmStatus status)

def checkCreatedIdentity : FileStatus × Bool → Except Error FileIdentity
  | (status, filled) =>
      if filled = false ∨ status.regular = false ∨ status.owned = false ∨
          status.mode % 0o1000 ≠ expectedShmMode ∨ status.identity.ino = 0 then
        .error (makeError .recoveryBlocked "shm_capture_created_identity"
          "created object retained; invalid identity")
      else .ok status.identity

def shmCaptureCreatedIdentity (fd : FileIdentity) : ControlCode FileIdentity :=
  .op (.statx fd) fun
    | .error failure =>
        .throw (makeErrnoErrorAs .recoveryBlocked failure.errno "shm_capture_created_identity"
          "created object retained; identity unavailable")
    | .ok status => Prog.lift (checkCreatedIdentity status)

/-- Forbidden are write and execute for group and others. -/
def memfdForbidden (mode : Nat) : Bool := mode &&& 0o033 ≠ 0

def checkMemfdStatus (status : FileStatus) : Except Error FileStatus :=
  let operation := "memfd_fstat_and_capture"
  if status.regular = false then
    .error (makeError .corruptHeader operation "not a regular file")
  else if status.owned = false then
    .error (makeError .permissionDenied operation "owner uid mismatch")
  else if memfdForbidden status.mode then
    .error (makeError .permissionDenied operation "unexpected mode")
  else .ok status

def memfdFstatAndCapture (fd : FileIdentity) : ControlCode FileStatus := do
  let status ← .op (.fstat fd) (orErrno "memfd_fstat_and_capture")
  Prog.lift (checkMemfdStatus status)

def memfdCreateObject : ControlCode FileIdentity :=
  .op .memfdCreate (orErrno "memfd_create_object")

def shmTruncate (fd : FileIdentity) (size : Nat) : ControlCode Unit :=
  if size > 2 ^ 63 - 1 then
    .throw (makeError .invalidOptions "shm_truncate" "size exceeds off_t")
  else .op (.ftruncate fd size) (orErrno "shm_truncate")

def mmapRegion (fd : FileIdentity) (size : Nat) : ControlCode Unit :=
  .op (.mmap fd size) (orErrno "mmap_region")

/-- Which file the descriptor is open on, by `statx` where `fstat` does not tell. -/
def captureIdentity (fd : FileIdentity) : ControlCode FileIdentity := do
  match ← (shmFstatAndCapture fd).attempt with
  | .ok status => return status.identity
  | .error _ => shmCaptureCreatedIdentity fd

/-- Whether the name leads to the object. -/
def sameInode (expected : FileIdentity) : ControlCode Bool := do
  let fd ← shmOpenExisting
  let found ← captureIdentity fd
  return found = expected

def Control.shmUnlinkChecked (expected : FileIdentity) : ControlCode Unit :=
  EdgeRuntime.shmUnlinkChecked (sameInode expected) (.op .shmUnlink .ret) (.op .shmOpen .ret)

/-! ### The control lock and its journal -/

/-- The write loop; every `pwrite` that does not fail moves at least one byte. -/
def pwriteFull (target : WriteTarget) : Nat → Nat → ControlCode Unit
  | 0, _ => .ret ()
  | fuel + 1, written =>
      if target.size ≤ written then .ret ()
      else
        .op (.pwrite target written) fun
          | .error failure =>
              .throw (makeErrnoError failure.errno target.operation failure.text)
          | .ok more =>
              pwriteFull target fuel (written + min (more + 1) (target.size - written))

def journalCreator (journal : ControlJournalV1) : ProcessIdentity :=
  ⟨journal.creator.pid, journal.creator.procStartTicks, journal.creator.bootIdHashHi,
    journal.creator.bootIdHashLo⟩

def lockWriteJournal (journal : ControlJournalV1) : ControlCode Unit := do
  let operation := "control_lock_write_journal"
  if journal.state ≠ JournalState.idle.code ∧
      processIdentityValid (journalCreator journal) = false then
    .throw (makeError .recoveryBlocked operation "invalid creator")
  else
    pwriteFull (.journal (sealJournal journal)) journalRecordSize 0
    .op .fdatasync fun
      | .ok () => .ret ()
      | .error failure => .throw (makeErrnoError failure.errno operation "fdatasync")

def lockReadJournal : ControlCode ControlJournalV1 := .op .preadJournal Prog.lift

/-- The lock is given back on every way out. -/
def withChannelLock {α : Type} (body : ControlCode α) : ControlCode α := do
  .op .acquireLock Prog.lift
  let outcome ← body.attempt
  .op .releaseLock .ret
  Prog.lift outcome

def nextGenerationFromJournal (journal : ControlJournalV1) : Option Nat :=
  let last := if journal.state = JournalState.idle.code then
    max journal.oldGeneration journal.newGeneration else 0
  if last ≥ uint64Max - 1 then none else some (last + 1)

/-! ### Cleaning up after a creator that died -/

/-- The object under the name, if there is one. -/
def openIfPresent : ControlCode (Option FileIdentity) := do
  match ← shmOpenExisting.attempt with
  | .ok fd => return some fd
  | .error e => if e.code ≠ .notFound then .throw e else return none

/-- What every branch does first: look at the object under the name. -/
def examinePresent {α : Type} (absent : α)
    (present : FileIdentity → FileStatus → ControlCode α) : ControlCode α := do
  match ← openIfPresent with
  | none => return absent
  | some fd =>
      let status ← shmFstatAndCapture fd
      present fd status

/-- The journal as it is to be left: no transaction, and the generation of before. -/
def resetJournal (journal : ControlJournalV1) : ControlJournalV1 :=
  { journal with
    state := JournalState.idle.code
    targetDev := 0
    targetIno := 0
    newGeneration := journal.oldGeneration
    newNonceHi := journal.oldNonceHi
    newNonceLo := journal.oldNonceLo }

def recoveryBlocked {α : Type} (context : String) : ControlCode α :=
  .throw (makeError .recoveryBlocked "Producer::create" context)

/-- The creator died before it recorded an object: only an empty one can be its own. -/
def reconcilePreObject (journal : ControlJournalV1) : ControlCode ControlJournalV1 :=
  examinePresent (resetJournal journal) fun _ status => do
    if status.size ≠ 0 then recoveryBlocked "object under name after preobject crash"
    else
      Control.shmUnlinkChecked status.identity
      return resetJournal journal

/-- A READY object is kept and its generation goes into the journal. -/
def adoptCommitted (journal : ControlJournalV1) (fd : FileIdentity) :
    ControlCode ControlJournalV1 :=
  .op (.preadHeader fd) fun
    | .error _ => recoveryBlocked "committed header unreadable"
    | .ok header =>
        .ret { resetJournal journal with
          newGeneration := header.generation
          newNonceHi := header.instanceNonceHi
          newNonceLo := header.instanceNonceLo }

/-- What becomes of the object, by its bootstrap record. -/
def reconcileBootstrap (journal : ControlJournalV1) (fd : FileIdentity) (status : FileStatus)
    (boot : BootstrapHeaderAbi) : ControlCode ControlJournalV1 :=
  match validateBootstrapParse boot status.size with
  | .error _ => recoveryBlocked "bootstrap corrupt after object crash"
  | .ok () =>
      if boot.creatorNonceHi ≠ journal.newNonceHi ∨ boot.creatorNonceLo ≠ journal.newNonceLo then
        recoveryBlocked "creator nonce does not bind to journal"
      else if boot.initState = InitState.ready.code then adoptCommitted journal fd
      else do
        Control.shmUnlinkChecked status.identity
        return resetJournal journal

/-- The creator recorded its object. -/
def reconcileObject (journal : ControlJournalV1) : ControlCode ControlJournalV1 :=
  examinePresent (resetJournal journal) fun fd status => do
    if status.identity ≠ ⟨journal.targetDev, journal.targetIno⟩ then
      .throw (makeError .nameRaceDetected "Producer::create"
        "object inode differs from journal target")
    else
      .op (.preadBootstrap fd) fun
        | .error _ => recoveryBlocked "bootstrap unreadable after object crash"
        | .ok boot => reconcileBootstrap journal fd status boot

/-- A removal that was begun is not completed: the object may stay. -/
def reconcileRemoving (journal : ControlJournalV1) : ControlCode ControlJournalV1 :=
  examinePresent (resetJournal journal) fun _ status => do
    if status.identity ≠ ⟨journal.targetDev, journal.targetIno⟩ then
      .throw (makeError .nameRaceDetected "Producer::create"
        "object inode differs from removal target")
    else return resetJournal journal

def reconcileByState (journal : ControlJournalV1) : ControlCode ControlJournalV1 :=
  if journal.state = JournalState.creatingPreObject.code then reconcilePreObject journal
  else if journal.state = JournalState.creatingObject.code ∨
      journal.state = JournalState.replacing.code then reconcileObject journal
  else if journal.state = JournalState.removing.code then reconcileRemoving journal
  else return resetJournal journal

def reconcileStaleJournal (journal : ControlJournalV1) : ControlCode ControlJournalV1 :=
  if journal.state = JournalState.idle.code then .ret journal
  else if processIdentityValid (journalCreator journal) = false then
    recoveryBlocked "invalid prior creator"
  else
    .op (.probe journal.creator.pid journal.creator.procStartTicks) fun
      | .alive | .unverifiable => recoveryBlocked "prior transaction owned or unverifiable"
      | .exited | .pidReused => do
          let reset ← reconcileByState journal
          lockWriteJournal reset
          return reset

/-! ### Creating an instance -/

/-- The journal a creation starts from. -/
def startingJournal (options : ChannelOptions) : ControlCode ControlJournalV1 := do
  let journal ← lockReadJournal
  if journal.channelHash ≠ 0 ∧ journal.channelHash ≠ channelNameHash options.name then
    recoveryBlocked "journal channel mismatch"
  else
    let journal := if journal.version = 0 then
      makeControlJournal options.name .idle 0 0 0 0 0 0 default else journal
    if journal.state ≠ JournalState.idle.code then reconcileStaleJournal journal
    else return journal

def Transport.code : Transport → Nat
  | .posixShm => 0
  | .memfdFdPass => 1

/-- The last creator used the other transport: it must be gone. -/
def checkOtherTransport (options : ChannelOptions) (journal : ControlJournalV1) :
    ControlCode Unit :=
  if journal.transport ≠ options.transport.code ∧ journal.creator.pid ≠ 0 then
    .op (.probe journal.creator.pid journal.creator.procStartTicks) fun
      | .alive =>
          .throw (makeError .alreadyOwned "Producer::create"
            "previous owner alive under other transport")
      | .unverifiable => recoveryBlocked "cannot verify previous owner transport"
      | .exited | .pidReused => .ret ()
  else .ret ()

def activelyOwned (producerState : Nat) : Bool :=
  producerState = EndpointState.online.code || producerState = EndpointState.stopping.code ||
    producerState = EndpointState.fault.code

/-- The old producer must have left or be gone. -/
def checkOldProducer (old : ProcessIdentityAbi) (producerState : Nat) : ControlCode Unit :=
  if activelyOwned producerState ∧ processIdentityValid ⟨old.pid, old.procStartTicks,
      old.bootIdHashHi, old.bootIdHashLo⟩ = false then
    recoveryBlocked "invalid old producer"
  else if old.pid ≠ 0 then
    .op (.probe old.pid old.procStartTicks) fun (liveness : Liveness) =>
      if liveness = .alive ∧ activelyOwned producerState then
        .throw (makeError .alreadyOwned "Producer::create" "producer alive")
      else if liveness = .unverifiable ∧ activelyOwned producerState then
        recoveryBlocked "cannot verify old producer"
      else .ret ()
  else .ret ()

def readOldProducer (fd : FileIdentity) : ControlCode ProcessIdentityAbi :=
  .op (.readProducer fd) fun
    | .error _ => recoveryBlocked "old producer identity unreadable"
    | .ok old => .ret old

/-- The generation after the one of the old instance. -/
def succeedGeneration (journal : ControlJournalV1) (header : ChannelHeaderAbi) :
    Except Error Nat :=
  if journal.newGeneration ≠ 0 ∧ journal.newGeneration ≠ header.generation then
    .error (makeError .recoveryBlocked "Producer::create"
      "journal and segment generations disagree")
  else if header.generation = uint64Max then
    .error (makeError .sequenceExhausted "Producer::create" "generation wrap")
  else .ok (header.generation + 1)

/-- The old producer is gone: its generation is followed. -/
def succeedInstance (journal : ControlJournalV1) (header : ChannelHeaderAbi)
    (old : ProcessIdentityAbi) (producerState : Nat) : ControlCode Nat := do
  checkOldProducer old producerState
  Prog.lift (succeedGeneration journal header)

/-- The checks on a READY instance under the name. -/
def checkReady (journal : ControlJournalV1) (fd : FileIdentity) : ControlCode Nat := do
  let header ← .op (.readHeader fd) .ret
  if header.magic ≠ channelHeaderMagic ∨ header.abiMajor ≠ abiMajor then
    .throw (makeError .corruptHeader "Producer::create" "existing header invalid")
  else
    let old ← readOldProducer fd
    let producerState ← .op (.loadProducerState fd) .ret
    succeedInstance journal header old producerState

/-- The checks on the bootstrap record that is read through the mapping. -/
def checkMapped (journal : ControlJournalV1) (fd : FileIdentity) (status : FileStatus)
    (boot : BootstrapHeaderAbi) : ControlCode Nat :=
  match validateBootstrapParse boot status.size with
  | .error _ => recoveryBlocked "existing bootstrap corrupt; use edge_shm_ctl"
  | .ok () => do
      let initState : Nat ← .op (.loadBootInitState fd) .ret
      if initState ≠ InitState.ready.code then
        .throw (makeError .initializationIncomplete "Producer::create"
          "existing instance not ready")
      else checkReady journal fd

/-- The checks on the object under the name; the result is the generation that follows. -/
def checkExisting (journal : ControlJournalV1) (fd : FileIdentity) (status : FileStatus) :
    ControlCode Nat := do
  if status.size < bootstrapHeaderSize then
    .throw (makeError .initializationIncomplete "Producer::create"
      "existing object below bootstrap size")
  else
    mmapRegion fd status.size
    let boot ← .op (.readBootstrap fd) .ret
    checkMapped journal fd status boot

/-- Take the instance of a predecessor out of the way. -/
def replaceExisting (journal : ControlJournalV1) (generation : Nat) : ControlCode Nat :=
  examinePresent generation fun fd status => do
    let generation ← checkExisting journal fd status
    Control.shmUnlinkChecked status.identity
    return generation

/-- What there is after the step that makes the object: the object, or the error and
whether the journal is to be restored. -/
inductive Creation
  | made (object : FileIdentity)
  | failed (e : Error) (armed : Bool)
  deriving DecidableEq, Repr

/-- The new object cannot be examined: the journal keeps its identity, as far as known. -/
def retainCreated (j0 : ControlJournalV1) (fd : FileIdentity) (e : Error) :
    ControlCode Creation := do
  let captured ← (shmCaptureCreatedIdentity fd).attempt
  let target := captured.toOption.getD ⟨0, 0⟩
  match ← (lockWriteJournal { j0 with
      state := JournalState.creatingObject.code
      targetDev := target.dev
      targetIno := target.ino }).attempt with
  | .error e => return .failed e false
  | .ok () =>
      match captured with
      | .error e => return .failed e false
      | .ok identity =>
          match ← (Control.shmUnlinkChecked identity).attempt with
          | .ok () => return .failed e true
          | .error unlinking =>
              if unlinking.code ≠ .notFound then return .failed unlinking false
              else return .failed e true

def createPosixObject (j0 : ControlJournalV1) : ControlCode Creation := do
  match ← shmOpenCreate.attempt with
  | .error e =>
      if e.code = .alreadyOwned then
        return .failed (makeError .nameRaceDetected "Producer::create"
          "object appeared under name") true
      else return .failed e true
  | .ok fd =>
      match ← (shmFstatAndCapture fd).attempt with
      | .ok status => return .made status.identity
      | .error e => retainCreated j0 fd e

def createMemfd : ControlCode Creation := do
  match ← memfdCreateObject.attempt with
  | .error e => return .failed e true
  | .ok fd =>
      match ← (memfdFstatAndCapture fd).attempt with
      | .ok status => return .made status.identity
      | .error e => return .failed e true

/-! ### The broker's socket -/

def channelSocketPath (uid : Nat) (channelName : String) : String :=
  "/run/user/" ++ toString uid ++ "/edgeruntime/" ++ channelName ++ ".sock"

def socketPathSize : Nat := 108

def bindFailed (failure : SysFailure) : ControlCode Unit :=
  .throw (makeErrnoError failure.errno "fd_broker_bind" failure.text)

/-- After the path is bound: a failure takes it back. -/
def announceSocket (fd : FileIdentity) : ControlCode Unit :=
  .op .chmodPath fun
    | .error failure => .op .unlinkPath fun _ => bindFailed failure
    | .ok () =>
        .op (.listen fd) fun
          | .error failure => .op .unlinkPath fun _ => bindFailed failure
          | .ok () => .ret ()

/-- The path is in use: a live listener is left alone, a dead one's path is taken over. -/
def rebindSocket (fd : FileIdentity) : ControlCode Unit :=
  .op .connect fun (live : Bool) =>
    if live then
      .throw (makeError .alreadyOwned "fd_broker_bind" "live broker socket under path")
    else
      .op .unlinkPath fun
        | .error failure =>
            if failure.errno ≠ enoent then bindFailed failure
            else .op (.bind fd) retry
        | .ok () => .op (.bind fd) retry
where
  retry : BindAnswer → ControlCode Unit
    | .bound => announceSocket fd
    | .addressInUse => bindFailed ⟨98, "Address already in use"⟩
    | .failed failure => bindFailed failure

def fdBrokerBind (uid : Nat) (channelName : String) (fd : FileIdentity) : ControlCode Unit := do
  .op .socket (orErrno "fd_broker_bind")
  if socketPathSize ≤ (channelSocketPath uid channelName).utf8ByteSize then
    .throw (makeError .invalidName "fd_broker_bind" "socket path too long")
  else
    .op (.bind fd) fun
      | .bound => announceSocket fd
      | .addressInUse => rebindSocket fd
      | .failed failure => bindFailed failure

/-! ### The transaction -/

/-- What one creation has settled before it touches the journal. -/
structure Plan where
  uid : Nat
  options : ChannelOptions
  schema : SchemaDescriptor
  payloadSize : Nat
  self : ProcessIdentity
  /-- The journal to go back to. -/
  journal : ControlJournalV1
  generation : Nat
  nonceHi : Nat
  nonceLo : Nat

/-- A handle with the fields that the control calls read. -/
structure InstanceHandle extends ProducerHandle where
  shm : FileIdentity
  channelName : String
  self : ProcessIdentity
  deriving DecidableEq, Repr

namespace Plan
variable (p : Plan)

/-- The journal record of this creation in the given state. -/
def record (state : JournalState) (target : FileIdentity) : ControlJournalV1 :=
  { makeControlJournal p.options.name state p.journal.oldGeneration p.generation
      p.journal.oldNonceHi p.journal.oldNonceLo p.nonceHi p.nonceLo p.self with
    transport := p.options.transport.code
    targetDev := target.dev
    targetIno := target.ino }

def handle (fd : FileIdentity) (roleEpoch : Nat) : InstanceHandle where
  generation := p.generation
  roleEpoch := roleEpoch
  instanceNonceHi := p.nonceHi
  instanceNonceLo := p.nonceLo
  payloadSize := p.payloadSize
  transport := p.options.transport
  socketUnlinked := false
  heartbeatIntervalNs := heartbeatIntervalOf p.options
  shm := fd
  channelName := p.options.name
  self := p.self

/-- The segment from its bootstrap record to the producer's ONLINE; the result is the
role epoch. -/
def initSegment (fd : FileIdentity) (mapping : Nat) : ControlCode Nat := do
  pwriteFull (.bootstrap fd (createBootstrap p.options mapping p.nonceHi p.nonceLo p.self))
    bootstrapHeaderSize 0
  shmTruncate fd mapping
  mmapRegion fd mapping
  .op (.fillHeader fd (createHeader p.options p.schema p.payloadSize mapping p.generation
    p.nonceHi p.nonceLo)) .ret
  let roleEpoch ← .op (.writeProducer fd p.self) Prog.lift
  .op (.storeInitState fd .initializing) .ret
  .op (.storeProducerState fd .online) .ret
  return roleEpoch

def bindSocket (fd : FileIdentity) : ControlCode Unit :=
  if p.options.transport = .memfdFdPass then fdBrokerBind p.uid p.options.name fd else .ret ()

/-- READY, and the journal says so; a journal that does not takes the socket's path back. -/
def commit (fd : FileIdentity) : ControlCode Unit := do
  .op (.storeInitState fd .ready) .ret
  .op (.storeBootInitState fd .ready) .ret
  match ← (lockWriteJournal (p.record .idle fd)).attempt with
  | .ok () => return ()
  | .error e =>
      if p.options.transport = .memfdFdPass then
        .op .unlinkPath fun _ => .op (.stopServer fd) fun _ => .throw e
      else .throw e

/-- From the recorded object to the committed instance. -/
def build (fd : FileIdentity) : ControlCode InstanceHandle := do
  lockWriteJournal (p.record .creatingObject fd)
  match mappingSizeForPayload p.payloadSize with
  | none =>
      .throw (makeError .invalidOptions "Producer::create" "mapping size overflow")
  | some mapping =>
      let roleEpoch ← p.initSegment fd mapping
      p.bindSocket fd
      p.commit fd
      return p.handle fd roleEpoch

/-- `JournalGuard`. -/
def restoreJournal (armed : Bool) : ControlCode Unit :=
  if armed then do
    let _ ← (lockWriteJournal p.journal).attempt
    return ()
  else .ret ()

/-- `CreatedObjectGuard`: only a POSIX object has a name to take back. The result says
whether the journal is still to be restored. -/
def withdrawObject (fd : FileIdentity) : ControlCode Bool :=
  match p.options.transport with
  | .memfdFdPass => .ret true
  | .posixShm => do
      match ← (Control.shmUnlinkChecked fd).attempt with
      | .ok () => return true
      | .error e => return decide (e.code = .notFound)

def createObject : ControlCode Creation :=
  match p.options.transport with
  | .memfdFdPass => createMemfd
  | .posixShm => createPosixObject (p.record .creatingPreObject ⟨0, 0⟩)

/-- The creation from its first journal record on, with what its guards do when it
fails. -/
def execute : ControlCode InstanceHandle := do
  lockWriteJournal (p.record .creatingPreObject ⟨0, 0⟩)
  match ← p.createObject with
  | .failed e armed =>
      p.restoreJournal armed
      .throw e
  | .made fd =>
      match ← (p.build fd).attempt with
      | .ok handle => return handle
      | .error e =>
          let armed ← p.withdrawObject fd
          p.restoreJournal armed
          .throw e

end Plan

/-- The thread that hands out the descriptor; without it the socket goes again. -/
def startServing (handle : InstanceHandle) : ControlCode InstanceHandle :=
  if handle.transport = .memfdFdPass then
    .op (.startServer handle.shm) fun
      | .ok () => .ret handle
      | .error _ =>
          .op .unlinkPath fun _ => .op (.stopServer handle.shm) fun _ =>
            .throw (makeError .systemError "Producer::create" "serving thread start failed")
  else .ret handle

section
variable (uid : Nat) (options : ChannelOptions) (schema : SchemaDescriptor) (payloadSize : Nat)

/-- What happens under the control lock. -/
def createLocked (self : ProcessIdentity) : ControlCode InstanceHandle := do
  let journal ← startingJournal options
  match nextGenerationFromJournal journal with
  | none =>
      .throw (makeError .sequenceExhausted "Producer::create" "generation exhausted")
  | some generation =>
      checkOtherTransport options journal
      let generation ← replaceExisting journal generation
      .op .getrandom fun
        | .error failure =>
            .throw (makeErrnoErrorAs .systemError failure.errno "Producer::create" "getrandom")
        | .ok (nonceHi, nonceLo) => do
            let handle ← Plan.execute ⟨uid, options, schema, payloadSize, self, journal,
              generation, nonceHi, nonceLo⟩
            startServing handle

def producerCreateImpl : ControlCode InstanceHandle :=
  if payloadAndSchemaValid options schema payloadSize = false then
    .throw (makeError .invalidOptions "Producer::create" "name/schema/payload invalid")
  else do
    Prog.lift (validateChannelOptionContract options "Producer::create")
    let self ← .op .currentIdentity Prog.lift
    withChannelLock (createLocked uid options schema payloadSize self)

end

/-! ### Leaving and removing -/

section
variable (handle : InstanceHandle)

/-- The path is unlinked if the journal still speaks of this instance. -/
def retireSocket : ControlCode Unit := do
  .op (.stopServer handle.shm) .ret
  withChannelLock do
    match ← lockReadJournal.attempt with
    | .error _ => return ()
    | .ok journal =>
        if journal.newGeneration = handle.generation ∧
            journal.newNonceHi = handle.instanceNonceHi ∧
            journal.newNonceLo = handle.instanceNonceLo then
          .op (.unlinkSocket handle.shm) .ret
        else return ()

/-- `mark_producer_offline`, with the journal and the socket. -/
def retireProducer : ControlCode Unit :=
  .op (.readProducer handle.shm) fun
    | .error _ => .ret ()
    | .ok id =>
        if id.roleEpoch ≠ handle.roleEpoch then .ret ()
        else do
          .op (.storeProducerState handle.shm .offline) .ret
          if handle.transport ≠ .memfdFdPass ∨ handle.socketUnlinked then return ()
          else
            let _ ← (retireSocket handle).attempt
            return ()

/-- The object under the name must be the handle's own. -/
def confirmNamed : ControlCode FileIdentity := do
  let fd ← shmOpenExisting
  let status ← shmFstatAndCapture fd
  if status.identity ≠ handle.shm then
    .throw (makeError .nameRaceDetected "Producer::remove_if_owner" "inode changed")
  else return status.identity

/-- The mapped instance must still be the one the handle was made for. -/
def confirmInstanceOwned : ControlCode Unit :=
  .op (.readHeader handle.shm) fun header =>
    if header.generation ≠ handle.generation ∨
        header.instanceNonceHi ≠ handle.instanceNonceHi ∨
        header.instanceNonceLo ≠ handle.instanceNonceLo then
      .throw (makeError .staleHandle "Producer::remove_if_owner" "instance changed")
    else
      .op (.readProducer handle.shm) fun
        | .error e => .throw e
        | .ok id =>
            if id.roleEpoch ≠ handle.roleEpoch then
              .throw (makeError .staleHandle "Producer::remove_if_owner" "producer role changed")
            else .ret ()

/-- The journal while the instance is being removed, and when it is gone. -/
def removalRecord (state : JournalState) (target : FileIdentity) : ControlJournalV1 :=
  let committed := state = .idle
  { makeControlJournal handle.channelName state handle.generation
      (if committed then handle.generation else 0) handle.instanceNonceHi handle.instanceNonceLo
      (if committed then handle.instanceNonceHi else 0)
      (if committed then handle.instanceNonceLo else 0) handle.self with
    transport := handle.transport.code
    targetDev := target.dev
    targetIno := target.ino }

/-- Take away the name: the socket's path, unless it is gone already, or the object's. -/
def removeName (target : FileIdentity) : ControlCode Unit :=
  if handle.transport = .memfdFdPass then
    if handle.socketUnlinked then .ret () else .op (.unlinkSocket handle.shm) .ret
  else Control.shmUnlinkChecked target

/-- The removal after its first journal record. -/
def finishRemoval (target : FileIdentity) : ControlCode Unit := do
  removeName handle target
  lockWriteJournal (removalRecord handle .idle target)

/-- The object to be removed. An instance that is passed by descriptor has no name. -/
def removalTarget : ControlCode FileIdentity :=
  if handle.transport = .memfdFdPass then .ret ⟨0, 0⟩ else confirmNamed handle

def stopServing : ControlCode Unit :=
  if handle.transport = .memfdFdPass then .op (.stopServer handle.shm) .ret else .ret ()

def removeLocked : ControlCode Unit := do
  let journal ← lockReadJournal
  let target ← removalTarget handle
  confirmInstanceOwned handle
  stopServing handle
  lockWriteJournal (removalRecord handle .removing target)
  match ← (finishRemoval handle target).attempt with
  | .ok () => return ()
  | .error e =>
      let _ ← (lockWriteJournal journal).attempt
      .throw e

def producerRemoveIfOwnerImpl : ControlCode Unit := withChannelLock (removeLocked handle)

end
end EdgeRuntime

import EdgeRuntime.Pool.Open

/-!
The client operations of a buffer pool, access by access: descriptors and their
validation, acquiring and publishing a block, reading it back, and the removal of the
pool by its creator.
-/
namespace EdgeRuntime
open Concurrent

abbrev PoolCode (α : Type) : Type := Code PoolLoc Error α

/-- A published block as it is passed between clients. -/
structure BufferHandle where
  poolGeneration : Nat
  blockGeneration : Nat
  instanceNonceHi : Nat
  instanceNonceLo : Nat
  offset : Nat
  blockId : Nat
  length : Nat
  schemaVersion : Nat
  reserved : Nat
  schemaFingerprint : List Nat
  deriving DecidableEq, Repr

/-- The block a client writes to or reads from. -/
structure BufferLease where
  block : Nat
  size : Nat
  descriptor : BufferHandle
  active : Bool
  deriving DecidableEq, Repr

def classifyBlockState (state : Nat) : OwnerStateKind :=
  if state = SharedBufferBlockState.free.code ∨
      state = SharedBufferBlockState.published.code then .inactive
  else if state = SharedBufferBlockState.writingClaiming.code ∨
      state = SharedBufferBlockState.readingClaiming.code then .claiming
  else if state = SharedBufferBlockState.writing.code ∨
      state = SharedBufferBlockState.reading.code then .owned
  else if state = SharedBufferBlockState.epochExhausted.code then .epochExhausted
  else if state = SharedBufferBlockState.ownerProtocolFault.code then .protocolFault
  else .unexpected

def snapshotBlockOwner (block : Nat) : PoolCode OwnerSnapshot :=
  snapshotOwnerSeqCst (.blockState block) (.blockEpoch block) (.blockOwner block)
    classifyBlockState ownerValid

def handleSchemaMatches (header : SharedBufferPoolHeaderAbi) (descriptor : BufferHandle) :
    Bool :=
  descriptor.schemaVersion = header.schemaVersion &&
    descriptor.schemaFingerprint = header.schemaFingerprint

/-- The payload offset that a failed computation leaves at zero. -/
def payloadOffsetOf (header : SharedBufferPoolHeaderAbi) (blockId : Nat) : Nat :=
  match sharedBufferPoolBlockOffsetFor header.blockSize blockId header.blockCount with
  | none => 0
  | some (_, payloadOffset) => payloadOffset

/-- The handle of a block at a generation. -/
def handleAt (header : SharedBufferPoolHeaderAbi) (blockId generation : Nat) : BufferHandle where
  poolGeneration := header.generation
  blockGeneration := generation
  instanceNonceHi := header.instanceNonceHi
  instanceNonceLo := header.instanceNonceLo
  offset := payloadOffsetOf header blockId
  blockId := blockId
  length := header.blockSize
  schemaVersion := header.schemaVersion
  reserved := 0
  schemaFingerprint := header.schemaFingerprint

def makeHandle (handle : SharedBufferPoolHandle) (blockId : Nat) : PoolCode BufferHandle := do
  let generation ← sharedLoad (.blockGeneration blockId)
  return handleAt handle.header blockId generation

def validateLivePool (handle : SharedBufferPoolHandle) (operation : String) :
    PoolCode Unit := do
  if handle.removed then .throw (makeError .staleHandle operation "pool handle is stale")
  else
    let initState ← sharedLoad .initState
    if initState ≠ SharedBufferPoolInitState.ready.code then
      .throw (makeError .initializationIncomplete operation "pool is not ready")
    else return ()

def validateDescriptor (handle : SharedBufferPoolHandle) (descriptor : BufferHandle)
    (operation : String) : PoolCode Unit := do
  validateLivePool handle operation
  let header := handle.header
  if descriptor.poolGeneration ≠ header.generation ∨
      descriptor.instanceNonceHi ≠ header.instanceNonceHi ∨
      descriptor.instanceNonceLo ≠ header.instanceNonceLo then
    .throw (makeError .bufferInvalidHandle operation
      "pool generation or instance nonce mismatch")
  else if ¬ handleSchemaMatches header descriptor then
    .throw (makeError .schemaMismatch operation "buffer schema mismatch")
  else if descriptor.reserved ≠ 0 ∨ descriptor.blockId ≥ header.blockCount ∨
      descriptor.length ≠ header.blockSize then
    .throw (makeError .bufferInvalidHandle operation "block id or length is invalid")
  else
    match sharedBufferPoolBlockOffsetFor header.blockSize descriptor.blockId
        header.blockCount with
    | none =>
        .throw (makeError .bufferInvalidHandle operation
          "block offset or generation is invalid")
    | some (_, expectedPayloadOffset) =>
        if descriptor.offset ≠ expectedPayloadOffset ∨ descriptor.blockGeneration = 0 then
          .throw (makeError .bufferInvalidHandle operation
            "block offset or generation is invalid")
        else
          match blockAt handle descriptor.blockId with
          | none =>
              .throw (makeError .bufferInvalidHandle operation "block generation is stale")
          | some _ =>
              let generation ← sharedLoad (.blockGeneration descriptor.blockId)
              if generation ≠ descriptor.blockGeneration then
                .throw (makeError .bufferInvalidHandle operation "block generation is stale")
              else return ()

/-- The error that tells why an active block cannot be used. -/
def classifyActiveBlock (handle : SharedBufferPoolHandle) (block : Nat)
    (operation : String) : PoolCode Error := do
  let observation ← snapshotBlockOwner block
  match observation.kind with
  | .inactive | .claiming | .unstable =>
      return makeError .bufferPoolContention operation "block owner snapshot is not stable"
  | .corrupt | .epochExhausted =>
      return makeError .recoveryBlocked operation "block owner protocol is not recoverable"
  | .stable =>
      if ownerMatches observation.owner handle.self then
        return makeError .concurrentHandleUse operation "block is owned by this process"
      else if observation.owner.bootIdHashHi ≠ handle.self.bootIdHashHi ∨
          observation.owner.bootIdHashLo ≠ handle.self.bootIdHashLo then
        return makeError .recoveryBlocked operation "block owner belongs to another boot"
      else
        let liveness ← probeLiveness observation.owner.pid observation.owner.procStartTicks
        if liveness = .alive then
          return makeError .bufferPoolContention operation "block is owned by a live process"
        else
          return makeError .recoveryBlocked operation "block owner is dead or unverifiable"

/-- What a search for a writable block has met. -/
structure Saw where
  contention : Bool
  recovery : Bool
  exhausted : Bool
  deriving DecidableEq, Repr

def Saw.busy (saw : Saw) (code : ErrorCode) : Saw where
  recovery := saw.recovery || code = .recoveryBlocked
  contention := saw.contention || code = .bufferPoolContention || code = .concurrentHandleUse
  exhausted := saw.exhausted

def Saw.refused (saw : Saw) (ownerCommit : OwnerCommitResult) : Saw :=
  if ownerCommit = .epochExhausted then { saw with exhausted := true }
  else { saw with recovery := true }

def markBlockProtocolFailure (block : Nat) (ownerCommit : OwnerCommitResult) : PoolCode Unit :=
  sharedStore (.blockState block)
    (if ownerCommit = .epochExhausted then SharedBufferBlockState.epochExhausted.code
      else SharedBufferBlockState.ownerProtocolFault.code)

/-- The commit of a claimed block; `inl` goes on to the next block. -/
def commitWriteClaim (handle : SharedBufferPoolHandle) (block previousGeneration : Nat)
    (saw : Saw) : PoolCode (Saw ⊕ BufferLease) := do
  let operation := "SharedBufferPool::try_acquire_write"
  let (ownerCommit, committedEpoch) ← beginOwnerCommit (.blockEpoch block) 4
  if ownerCommit ≠ .ready then
    markBlockProtocolFailure block ownerCommit
    return .inl (saw.refused ownerCommit)
  else
    sharedStore (.blockGeneration block) (addU64 previousGeneration 1)
    setOwner (.blockOwner block) handle.self
    sharedStore (.blockEpoch block) committedEpoch
    sharedStore (.blockState block) SharedBufferBlockState.writing.code
    match payloadAt handle block with
    | none =>
        sharedStore (.blockState block) SharedBufferBlockState.free.code
        .throw (makeError .corruptSlot operation "payload offset invalid")
    | some _ =>
        let descriptor ← makeHandle handle block
        return .inr ⟨block, handle.header.blockSize, descriptor, true⟩

def writeClaimed (handle : SharedBufferPoolHandle) (block : Nat) (saw : Saw) :
    PoolCode (Saw ⊕ BufferLease) := do
  let previousGeneration ← sharedLoad (.blockGeneration block)
  if previousGeneration = uint64Max then
    sharedStore (.blockState block) SharedBufferBlockState.free.code
    return .inl { saw with exhausted := true }
  else
    let epochCapacity ← ownerEpochCapacity (.blockEpoch block) 4
    if epochCapacity ≠ .ready then
      markBlockProtocolFailure block epochCapacity
      return .inl (saw.refused epochCapacity)
    else commitWriteClaim handle block previousGeneration saw

/-- The body of the search loop. -/
def tryAcquireBlock (handle : SharedBufferPoolHandle) (block : Nat) (saw : Saw) :
    PoolCode (Saw ⊕ BufferLease) := do
  let operation := "SharedBufferPool::try_acquire_write"
  match blockAt handle block with
  | none => .throw (makeError .corruptSlot operation "block offset invalid")
  | some _ =>
      let state ← sharedLoad (.blockState block)
      if state = SharedBufferBlockState.published.code then return .inl saw
      else if state ≠ SharedBufferBlockState.free.code then
        if state = SharedBufferBlockState.epochExhausted.code then
          return .inl { saw with exhausted := true }
        else
          let busy ← classifyActiveBlock handle block operation
          return .inl (saw.busy busy.code)
      else
        let claimed ← sharedCas (.blockState block) SharedBufferBlockState.free.code
          SharedBufferBlockState.writingClaiming.code
        if ¬ claimed then return .inl { saw with contention := true }
        else writeClaimed handle block saw

/-- The error of a search without a block. -/
def Saw.error (saw : Saw) : Error :=
  let operation := "SharedBufferPool::try_acquire_write"
  if saw.recovery then
    makeError .recoveryBlocked operation "an active block owner is dead or unverifiable"
  else if saw.exhausted then
    makeError .sequenceExhausted operation
      "all writable blocks exhausted their owner or generation epochs"
  else if saw.contention then
    makeError .bufferPoolContention operation "all writable blocks are actively owned"
  else makeError .bufferPoolFull operation "all blocks are published or unavailable"

/-- The search loop over the blocks from `block` on, `left` of them. -/
def tryAcquireWriteLoop (handle : SharedBufferPoolHandle) :
    (left block : Nat) → Saw → PoolCode BufferLease
  | 0, _, saw => .throw saw.error
  | left + 1, block, saw => do
      let found ← tryAcquireBlock handle block saw
      match found with
      | .inr buffer => return buffer
      | .inl saw => tryAcquireWriteLoop handle left (block + 1) saw

def sharedBufferPoolTryAcquireWriteImpl (handle : SharedBufferPoolHandle) :
    PoolCode BufferLease := do
  validateLivePool handle "SharedBufferPool::try_acquire_write"
  tryAcquireWriteLoop handle handle.header.blockCount 0 ⟨false, false, false⟩

def sharedBufferPoolPublishWriteImpl (handle : SharedBufferPoolHandle) (buffer : BufferLease) :
    PoolCode BufferHandle := do
  let operation := "WriteBuffer::publish"
  if ¬ buffer.active then .throw (makeError .invalidOptions operation "buffer inactive")
  else
    validateLivePool handle operation
    let state ← sharedLoad (.blockState buffer.block)
    if state ≠ SharedBufferBlockState.writing.code then
      .throw (makeError .bufferStateMismatch operation "block is not WRITING")
    else
      let observation ← snapshotBlockOwner buffer.block
      if observation.kind ≠ .stable then
        if observation.kind = .claiming ∨ observation.kind = .unstable then
          .throw (makeError .bufferPoolContention operation
            "write owner snapshot is not stable")
        else
          .throw (makeError .recoveryBlocked operation
            "write owner protocol is not recoverable")
      else if ¬ ownerMatches observation.owner handle.self then
        .throw (makeError .recoveryBlocked operation "write owner identity changed")
      else
        let generation ← sharedLoad (.blockGeneration buffer.block)
        if generation ≠ buffer.descriptor.blockGeneration then
          .throw (makeError .bufferInvalidHandle operation "block generation changed")
        else
          sharedStore (.blockState buffer.block) SharedBufferBlockState.published.code
          return buffer.descriptor

/-- Give a held block back if its record still is the holder's own. -/
def freeOwnBlock (handle : SharedBufferPoolHandle) (buffer : BufferLease)
    (state : SharedBufferBlockState) : PoolCode Unit := do
  if ¬ buffer.active then return ()
  else if handle.removed then return ()
  else
    let observation ← snapshotBlockOwner buffer.block
    if observation.kind = .stable ∧ observation.state = state.code ∧
        ownerMatches observation.owner handle.self then
      let generation ← sharedLoad (.blockGeneration buffer.block)
      if generation = buffer.descriptor.blockGeneration then
        sharedStore (.blockState buffer.block) SharedBufferBlockState.free.code
      else return ()
    else return ()

def sharedBufferPoolAbortWriteImpl (handle : SharedBufferPoolHandle) (buffer : BufferLease) :
    PoolCode Unit := freeOwnBlock handle buffer .writing

def sharedBufferPoolReleaseReadImpl (handle : SharedBufferPoolHandle) (buffer : BufferLease) :
    PoolCode Unit := freeOwnBlock handle buffer .reading

/-- Put a claimed block back and fail. -/
def rollbackReadClaim {α : Type} (block : Nat) (lost : String) (e : Error) : PoolCode α := do
  let restored ← sharedCas (.blockState block) SharedBufferBlockState.readingClaiming.code
    SharedBufferBlockState.published.code
  if ¬ restored then
    .throw (makeError .recoveryBlocked "SharedBufferPool::acquire_read" lost)
  else .throw e

def readerEpochError (ownerCommit : OwnerCommitResult) : Error :=
  let operation := "SharedBufferPool::acquire_read"
  if ownerCommit = .epochExhausted then
    makeError .sequenceExhausted operation
      "reader owner epoch exhausted; payload remains published"
  else makeError .recoveryBlocked operation "reader owner epoch protocol is corrupt"

def commitReadClaim (handle : SharedBufferPoolHandle) (descriptor : BufferHandle) :
    PoolCode BufferLease := do
  let block := descriptor.blockId
  let (ownerCommit, committedEpoch) ← beginOwnerCommit (.blockEpoch block) 2
  if ownerCommit ≠ .ready then
    rollbackReadClaim block "reader epoch rollback lost the reading claim"
      (readerEpochError ownerCommit)
  else
    setOwner (.blockOwner block) handle.self
    sharedStore (.blockEpoch block) committedEpoch
    sharedStore (.blockState block) SharedBufferBlockState.reading.code
    return ⟨block, descriptor.length, descriptor, true⟩

/-- The claim of a block that was seen published; the generation is checked again once
the claim is won. -/
def readPublished (handle : SharedBufferPoolHandle) (descriptor : BufferHandle) :
    PoolCode BufferLease := do
  let operation := "SharedBufferPool::acquire_read"
  let block := descriptor.blockId
  let claimed ← sharedCas (.blockState block) SharedBufferBlockState.published.code
    SharedBufferBlockState.readingClaiming.code
  if ¬ claimed then
    .throw (makeError .bufferPoolContention operation
      "published block was claimed concurrently")
  else
    let generation ← sharedLoad (.blockGeneration block)
    if generation ≠ descriptor.blockGeneration then
      rollbackReadClaim block "generation rollback lost the reading claim"
        (makeError .bufferInvalidHandle operation "block generation changed after read claim")
    else
      let epochCapacity ← ownerEpochCapacity (.blockEpoch block) 2
      if epochCapacity ≠ .ready then
        rollbackReadClaim block "reader epoch rollback lost the reading claim"
          (readerEpochError epochCapacity)
      else commitReadClaim handle descriptor

def sharedBufferPoolAcquireReadImpl (handle : SharedBufferPoolHandle)
    (descriptor : BufferHandle) : PoolCode BufferLease := do
  let operation := "SharedBufferPool::acquire_read"
  let block := descriptor.blockId
  validateDescriptor handle descriptor operation
  if blockAt handle block = none ∨ payloadAt handle block = none then
    .throw (makeError .corruptSlot operation "block offset invalid")
  else
    let state ← sharedLoad (.blockState block)
    if state ≠ SharedBufferBlockState.published.code then
      if state = SharedBufferBlockState.free.code then
        .throw (makeError .bufferStateMismatch operation "block is not PUBLISHED")
      else
        let busy ← classifyActiveBlock handle block operation
        .throw busy
    else
      let generation ← sharedLoad (.blockGeneration block)
      if generation ≠ descriptor.blockGeneration then
        .throw (makeError .bufferInvalidHandle operation "block generation changed")
      else readPublished handle descriptor

/-- What the system calls of `shm_unlink_checked` return. -/
structure ShmUnlinking where
  opened : Except Error Unit
  /-- The name still leads to the object that the handle has mapped. -/
  sameInode : Bool
  unlinked : SysResult Unit
  reopened : SysResult Unit

namespace ShmUnlinking

/-- Nothing is found under the name afterwards. -/
def gone (calls : ShmUnlinking) : Except Error Unit := checkNameGone calls.reopened

/-- The name is removed at one instant; what is found under it later is another matter. -/
def unlink (calls : ShmUnlinking) : PoolCode (SysResult Unit) :=
  match calls.unlinked with
  | .ok () => sharedStore .unlinked 1 >>= fun _ => .ret (.ok ())
  | .error failure => .ret (.error failure)

def unlinkChecked (calls : ShmUnlinking) : PoolCode Unit :=
  shmUnlinkChecked (Prog.lift calls.opened >>= fun _ => .ret calls.sameInode) calls.unlink
    (.ret calls.reopened)

end ShmUnlinking

/-- The scan of the blocks before a removal, from `block` on, `left` of them. -/
def removeScan (handle : SharedBufferPoolHandle) : (left block : Nat) → PoolCode Unit
  | 0, _ => return ()
  | left + 1, block => do
      let operation := "SharedBufferPool::remove_if_creator"
      match blockAt handle block with
      | none => .throw (makeError .corruptSlot operation "block offset invalid")
      | some _ =>
          let state ← sharedLoad (.blockState block)
          if state = SharedBufferBlockState.free.code then removeScan handle left (block + 1)
          else if state = SharedBufferBlockState.published.code then
            .throw (makeError .bufferPoolContention operation
              "pool still has published blocks")
          else
            let observation ← snapshotBlockOwner block
            if observation.kind = .corrupt ∨ observation.kind = .epochExhausted then
              .throw (makeError .recoveryBlocked operation
                "block owner protocol is not recoverable")
            else
              .throw (makeError .bufferPoolContention operation "pool still has active blocks")

def sharedBufferPoolRemoveIfCreatorImpl (handle : SharedBufferPoolHandle)
    (calls : ShmUnlinking) : PoolCode Unit := do
  let operation := "SharedBufferPool::remove_if_creator"
  validateLivePool handle operation
  if ¬ ownerMatches handle.header.creator handle.self then
    .throw (makeError .permissionDenied operation "handle is not the creator")
  else
    removeScan handle handle.header.blockCount 0
    calls.unlinkChecked

end EdgeRuntime

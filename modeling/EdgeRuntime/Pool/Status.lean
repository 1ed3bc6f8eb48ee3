import EdgeRuntime.Pool.Program

/-!
The status of a buffer pool: one pass over the blocks that counts their states and, for a
block that is written or read, asks whether its owner is still there.
-/
namespace EdgeRuntime
open Concurrent

structure SharedBufferPoolStatus where
  ready : Bool
  abiMajor : Nat
  abiMinor : Nat
  blockSize : Nat
  blockCount : Nat
  mappingSize : Nat
  generation : Nat
  instanceNonceHi : Nat
  instanceNonceLo : Nat
  freeBlocks : Nat
  writingBlocks : Nat
  publishedBlocks : Nat
  readingBlocks : Nat
  recoveryBlockedBlocks : Nat
  creatorPid : Nat
  creatorAlive : Bool
  deriving DecidableEq, Repr

/-- The owner is of another boot or not seen alive. -/
def ownerLost (handle : SharedBufferPoolHandle) (owner : OwnerAbi) : PoolCode Bool := do
  if owner.bootIdHashHi ≠ handle.self.bootIdHashHi ∨
      owner.bootIdHashLo ≠ handle.self.bootIdHashLo then
    return true
  else
    let liveness ← probeLiveness owner.pid owner.procStartTicks
    return decide (liveness ≠ .alive)

def poolCreatorAlive (handle : SharedBufferPoolHandle) : PoolCode Bool := do
  let creator := handle.header.creator
  if ¬ ownerValid creator then return false
  else
    let lost ← ownerLost handle creator
    return !lost

/-- The status before any block is looked at. -/
def statusHeader (header : SharedBufferPoolHeaderAbi) (creatorAlive : Bool) :
    SharedBufferPoolStatus :=
  ⟨true, header.abiMajor, header.abiMinor, header.blockSize, header.blockCount,
    header.mappingSize, header.generation, header.instanceNonceHi, header.instanceNonceLo,
    0, 0, 0, 0, 0, header.creator.pid, creatorAlive⟩

/-- A block that was seen WRITING or READING. -/
def countOwnedBlock (handle : SharedBufferPoolHandle) (block : Nat)
    (status : SharedBufferPoolStatus) : PoolCode SharedBufferPoolStatus := do
  let operation := "SharedBufferPool::status"
  let observation ← snapshotBlockOwner block
  match observation.kind with
  | .inactive | .claiming | .unstable =>
      .throw (makeError .bufferPoolContention operation "block owner snapshot is not stable")
  | .corrupt | .epochExhausted =>
      .throw (makeError .recoveryBlocked operation "block owner protocol is not recoverable")
  | .stable =>
      if observation.state = SharedBufferBlockState.writing.code then
        let lost ← ownerLost handle observation.owner
        return { status with
          writingBlocks := status.writingBlocks + 1
          recoveryBlockedBlocks := status.recoveryBlockedBlocks + lost.toNat }
      else if observation.state = SharedBufferBlockState.reading.code then
        let lost ← ownerLost handle observation.owner
        return { status with
          readingBlocks := status.readingBlocks + 1
          recoveryBlockedBlocks := status.recoveryBlockedBlocks + lost.toNat }
      else
        .throw (makeError .corruptSlot operation "stable owner snapshot has invalid state")

/-- The body of the block loop. -/
def countBlock (handle : SharedBufferPoolHandle) (block : Nat)
    (status : SharedBufferPoolStatus) : PoolCode SharedBufferPoolStatus := do
  let operation := "SharedBufferPool::status"
  match blockAt handle block with
  | none => .throw (makeError .corruptSlot operation "block offset invalid")
  | some _ =>
      let state ← sharedLoad (.blockState block)
      if state = SharedBufferBlockState.free.code then
        return { status with freeBlocks := status.freeBlocks + 1 }
      else if state = SharedBufferBlockState.published.code then
        return { status with publishedBlocks := status.publishedBlocks + 1 }
      else if state = SharedBufferBlockState.writing.code ∨
          state = SharedBufferBlockState.reading.code then
        countOwnedBlock handle block status
      else if state = SharedBufferBlockState.writingClaiming.code ∨
          state = SharedBufferBlockState.readingClaiming.code then
        .throw (makeError .bufferPoolContention operation
          "block owner claim is being committed")
      else if state = SharedBufferBlockState.epochExhausted.code ∨
          state = SharedBufferBlockState.ownerProtocolFault.code then
        .throw (makeError .recoveryBlocked operation "block owner protocol is not recoverable")
      else .throw (makeError .corruptSlot operation "invalid block state")

/-- The loop over the blocks from `block` on, `left` of them. -/
def countBlocks (handle : SharedBufferPoolHandle) :
    (left block : Nat) → SharedBufferPoolStatus → PoolCode SharedBufferPoolStatus
  | 0, _, status => return status
  | left + 1, block, status => do
      let status ← countBlock handle block status
      countBlocks handle left (block + 1) status

def sharedBufferPoolStatusImpl (handle : SharedBufferPoolHandle) :
    PoolCode SharedBufferPoolStatus := do
  validateLivePool handle "SharedBufferPool::status"
  let creatorAlive ← poolCreatorAlive handle
  countBlocks handle handle.header.blockCount 0 (statusHeader handle.header creatorAlive)

end EdgeRuntime

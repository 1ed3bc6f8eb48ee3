import EdgeRuntime.Common.Options
import EdgeRuntime.Common.Strided
import EdgeRuntime.Sync.OwnerSnapshot

/-!
The shared layout of a buffer pool: its header, its blocks and the checked
arithmetic that places them.
-/
namespace EdgeRuntime

def sharedBufferPoolMagic : List Nat := "ERBPOOL2".toList.map Char.toNat
def sharedBufferPoolLegacyMagic : List Nat := "ERBPOOL1".toList.map Char.toNat
def sharedBufferPoolAbiMajor : Nat := 2
def sharedBufferPoolAbiMinor : Nat := 0
def sharedBufferPoolEndianMarker : Nat := 0x01020304
def sharedBufferPoolMaxBlockCount : Nat := 4096
def sharedBufferPoolBlockSize4K : Nat := 4096
def sharedBufferPoolBlockSize16K : Nat := 16384
def sharedBufferPoolMaxNameLength : Nat := 64
def sharedBufferPoolHeaderSize : Nat := 192
def sharedBufferBlockHeaderSize : Nat := 64

inductive SharedBufferPoolInitState
  | initializing
  | ready
  deriving DecidableEq, Repr

def SharedBufferPoolInitState.code : SharedBufferPoolInitState → Nat
  | .initializing => 1
  | .ready => 2

inductive SharedBufferBlockState
  | free
  | writingClaiming
  | writing
  | published
  | readingClaiming
  | reading
  | epochExhausted
  | ownerProtocolFault
  deriving DecidableEq, Repr

def SharedBufferBlockState.code : SharedBufferBlockState → Nat
  | .free => 0
  | .writingClaiming => 1
  | .writing => 2
  | .published => 3
  | .readingClaiming => 4
  | .reading => 5
  | .epochExhausted => 6
  | .ownerProtocolFault => 7

/-- The mutable words of a pool segment, and the directory entry of its object. -/
inductive PoolLoc
  | initState
  /-- Not zero once the name of the object is gone. -/
  | unlinked
  | blockState (block : Nat)
  | blockGeneration (block : Nat)
  | blockOwner (block : Nat) (word : OwnerWord)
  | blockEpoch (block : Nat)
  | blockPayload (block offset : Nat)
  deriving DecidableEq, Repr

structure SharedBufferPoolOptions where
  name : String
  blockSize : Nat
  blockCount : Nat
  schema : SchemaDescriptor
  deriving DecidableEq, Repr

structure SharedBufferPoolHeaderAbi where
  magic : List Nat
  abiMajor : Nat
  abiMinor : Nat
  endianMarker : Nat
  headerSize : Nat
  blockSize : Nat
  blockCount : Nat
  /-- Four bytes that align the next field. -/
  padding : Nat
  mappingSize : Nat
  generation : Nat
  instanceNonceHi : Nat
  instanceNonceLo : Nat
  schemaFingerprint : List Nat
  schemaVersion : Nat
  initState : Nat
  headerChecksum : Nat
  creator : OwnerAbi
  /-- The bytes behind the creator. -/
  reserved : List Nat
  /-- The bytes that fill the record up to its alignment. -/
  tail : List Nat
  deriving DecidableEq, Repr

/-- What an opened handle holds: the size of its mapping and, through it, the
immutable header fields. -/
structure SharedBufferPoolHandle where
  self : ProcessIdentity
  size : Nat
  header : SharedBufferPoolHeaderAbi
  removed : Bool
  deriving DecidableEq, Repr

def sharedBufferPoolBlockSizeValid (blockSize : Nat) : Bool :=
  blockSize = sharedBufferPoolBlockSize4K || blockSize = sharedBufferPoolBlockSize16K

def sharedBufferPoolStrideFor (blockSize : Nat) : Option Nat :=
  if ¬ sharedBufferPoolBlockSizeValid blockSize then none
  else roundUpToMultipleU64 (sharedBufferBlockHeaderSize + blockSize) 64

def sharedBufferPoolMappingSizeFor (blockSize blockCount : Nat) : Option Nat :=
  if blockCount = 0 ∨ blockCount > sharedBufferPoolMaxBlockCount then none
  else do
    let stride ← sharedBufferPoolStrideFor blockSize
    let blocksSize ← checkedMulU64 stride blockCount
    checkedAddU64 sharedBufferPoolHeaderSize blocksSize

/-- Block and payload offset. -/
def sharedBufferPoolBlockOffsetFor (blockSize blockId blockCount : Nat) :
    Option (Nat × Nat) :=
  if blockId ≥ blockCount then none
  else do
    let _ ← sharedBufferPoolMappingSizeFor blockSize blockCount
    let stride ← sharedBufferPoolStrideFor blockSize
    let indexOffset ← checkedMulU64 stride blockId
    let blockOffset ← checkedAddU64 sharedBufferPoolHeaderSize indexOffset
    let payloadOffset ← checkedAddU64 blockOffset sharedBufferBlockHeaderSize
    return (blockOffset, payloadOffset)

/-- The pointer of `block_at`, as an offset into the mapping. -/
def blockAt (handle : SharedBufferPoolHandle) (blockId : Nat) : Option Nat :=
  match sharedBufferPoolBlockOffsetFor handle.header.blockSize blockId
      handle.header.blockCount with
  | none => none
  | some (blockOffset, _) =>
      if blockOffset > handle.size ∨
          sharedBufferBlockHeaderSize > handle.size - blockOffset then none
      else some blockOffset

/-- The pointer of `payload_at`, as an offset into the mapping. -/
def payloadAt (handle : SharedBufferPoolHandle) (blockId : Nat) : Option Nat :=
  match sharedBufferPoolBlockOffsetFor handle.header.blockSize blockId
      handle.header.blockCount with
  | none => none
  | some (_, payloadOffset) =>
      if payloadOffset > handle.size ∨
          handle.header.blockSize > handle.size - payloadOffset then none
      else some payloadOffset

theorem sharedBufferPoolBlockSizeValid_le {blockSize : Nat}
    (h : sharedBufferPoolBlockSizeValid blockSize) :
    blockSize ≤ sharedBufferPoolBlockSize16K := by
  simp only [sharedBufferPoolBlockSizeValid, Bool.or_eq_true, decide_eq_true_eq] at h
  rcases h with rfl | rfl <;> decide

theorem sharedBufferPoolStrideFor_some {blockSize stride : Nat}
    (h : sharedBufferPoolStrideFor blockSize = some stride) :
    64 ∣ stride ∧ sharedBufferBlockHeaderSize + blockSize ≤ stride := by
  unfold sharedBufferPoolStrideFor at h
  split at h
  · cases h
  · rename_i valid
    have small := sharedBufferPoolBlockSizeValid_le (Decidable.not_not.1 valid)
    simp only [sharedBufferPoolBlockSize16K] at small
    have fits : sharedBufferBlockHeaderSize + blockSize ≤ uint64Max := by
      simp only [sharedBufferBlockHeaderSize, uint64Max]
      omega
    obtain ⟨aligned, le, _⟩ := roundUpToMultipleU64_some fits h
    exact ⟨aligned, le⟩

theorem sharedBufferPoolMappingSizeFor_some {blockSize blockCount size : Nat}
    (h : sharedBufferPoolMappingSizeFor blockSize blockCount = some size) :
    ∃ stride, sharedBufferPoolStrideFor blockSize = some stride ∧
      size = sharedBufferPoolHeaderSize + blockCount * stride ∧ size ≤ uint64Max := by
  unfold sharedBufferPoolMappingSizeFor at h
  split at h
  · cases h
  · rw [Option.bind_eq_bind, Option.bind_eq_some_iff] at h
    obtain ⟨stride, hs, h⟩ := h
    rw [Option.bind_eq_some_iff] at h
    obtain ⟨blocks, hm, h⟩ := h
    obtain ⟨rfl, _⟩ := checkedMulU64_some hm
    obtain ⟨rfl, small⟩ := checkedAddU64_some (by decide) h
    rw [Nat.mul_comm]
    exact ⟨stride, hs, rfl, Nat.mul_comm stride blockCount ▸ small⟩

theorem sharedBufferPoolBlockOffsetFor_ge {blockSize blockId blockCount : Nat}
    (h : blockCount ≤ blockId) :
    sharedBufferPoolBlockOffsetFor blockSize blockId blockCount = none := if_pos h

/-- No checked step of a block offset fails once the mapping has a size. -/
theorem sharedBufferPoolBlockOffsetFor_eq {blockSize blockId blockCount size stride : Nat}
    (hm : sharedBufferPoolMappingSizeFor blockSize blockCount = some size)
    (hs : sharedBufferPoolStrideFor blockSize = some stride) (h : blockId < blockCount) :
    sharedBufferPoolBlockOffsetFor blockSize blockId blockCount =
      some (Strided.cell sharedBufferPoolHeaderSize stride blockId,
        Strided.cell sharedBufferPoolHeaderSize stride blockId +
          sharedBufferBlockHeaderSize) := by
  obtain ⟨stride', hs', hsize, small⟩ := sharedBufferPoolMappingSizeFor_some hm
  cases hs.symm.trans hs'
  obtain ⟨_, fits⟩ := sharedBufferPoolStrideFor_some hs
  have bound := @Strided.cell_add_le sharedBufferPoolHeaderSize stride _ _ h
  rw [← hsize] at bound
  simp only [Strided.cell] at bound ⊢
  unfold sharedBufferPoolBlockOffsetFor
  rw [if_neg (Nat.not_le.2 h), hm, hs, Nat.mul_comm blockId]
  rw [Nat.mul_comm blockId] at bound
  simp only [Option.bind_eq_bind, Option.bind_some]
  rw [checkedMulU64_of_le (by omega), Option.bind_some, checkedAddU64_of_le (by omega),
    Option.bind_some, checkedAddU64_of_le (by omega), Option.bind_some, Option.pure_def]

end EdgeRuntime

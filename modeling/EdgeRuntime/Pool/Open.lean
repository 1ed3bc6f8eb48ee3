import EdgeRuntime.Pool.Layout
import EdgeRuntime.Queue.Open

/-!
Creating a buffer pool and opening an existing one: the checks on options and
header, and where the blocks of an accepted segment lie.
-/
namespace EdgeRuntime

abbrev PoolMem : Type := Words PoolLoc

/-- The whole header, the two unsealed words included. -/
def SharedBufferPoolHeaderAbi.bytes (header : SharedBufferPoolHeaderAbi) : List Nat :=
  header.magic ++ littleEndian 2 header.abiMajor ++ littleEndian 2 header.abiMinor ++
    littleEndian 4 header.endianMarker ++ littleEndian 4 header.headerSize ++
    littleEndian 4 header.blockSize ++ littleEndian 4 header.blockCount ++
    littleEndian 4 header.padding ++ littleEndian 8 header.mappingSize ++
    littleEndian 8 header.generation ++ littleEndian 8 header.instanceNonceHi ++
    littleEndian 8 header.instanceNonceLo ++ header.schemaFingerprint ++
    littleEndian 4 header.schemaVersion ++ littleEndian 4 header.initState ++
    littleEndian 8 header.headerChecksum ++ header.creator.bytes ++ header.reserved ++
    header.tail

def sharedBufferPoolHeaderChecksum (header : SharedBufferPoolHeaderAbi) : Nat :=
  fnv1a64 { header with initState := 0, headerChecksum := 0 }.bytes

def sharedBufferPoolSameSchema (header : SharedBufferPoolHeaderAbi)
    (schema : SchemaDescriptor) : Bool :=
  header.schemaVersion = schema.version && header.schemaFingerprint = schema.fingerprint

def sharedBufferPoolValidateOptions (options : SharedBufferPoolOptions) :
    Except Error Unit :=
  if ¬ validateChannelName options.name ∨
      options.name.length > sharedBufferPoolMaxNameLength then
    .error (makeError .invalidName "SharedBufferPool::options" "invalid pool name")
  else if ¬ sharedBufferPoolBlockSizeValid options.blockSize ∨ options.blockCount = 0 ∨
      options.blockCount > sharedBufferPoolMaxBlockCount ∨ options.schema.version = 0 then
    .error (makeError .invalidOptions "SharedBufferPool::options"
      "unsupported block size, count, or schema version")
  else .ok ()

def sharedBufferPoolValidateHeader (header : SharedBufferPoolHeaderAbi) (actualSize : Nat)
    (options : SharedBufferPoolOptions) : Except Error Unit :=
  let operation := "SharedBufferPool::open"
  if header.magic = sharedBufferPoolLegacyMagic then
    .error (makeError .abiMismatch operation "legacy pool ABI requires recreation")
  else if header.magic ≠ sharedBufferPoolMagic then
    .error (makeError .corruptHeader operation "magic mismatch")
  else if header.abiMajor ≠ sharedBufferPoolAbiMajor ∨
      header.abiMinor > sharedBufferPoolAbiMinor then
    .error (makeError .abiMismatch operation "unsupported ABI version")
  else if header.headerSize ≠ sharedBufferPoolHeaderSize ∨
      header.endianMarker ≠ sharedBufferPoolEndianMarker then
    .error (makeError .corruptHeader operation "header shape mismatch")
  else if ¬ sharedBufferPoolBlockSizeValid header.blockSize ∨ header.blockCount = 0 ∨
      header.blockCount > sharedBufferPoolMaxBlockCount ∨ header.generation = 0 ∨
      (header.instanceNonceHi = 0 ∧ header.instanceNonceLo = 0) ∨
      header.schemaVersion = 0 ∨ ¬ ownerValid header.creator then
    .error (makeError .corruptHeader operation "invalid header values")
  else if sharedBufferPoolMappingSizeFor header.blockSize header.blockCount ≠
        some header.mappingSize ∨ actualSize ≠ header.mappingSize then
    .error (makeError .corruptHeader operation "mapping size mismatch")
  else if header.initState ≠ SharedBufferPoolInitState.ready.code then
    .error (makeError .initializationIncomplete operation "pool is not ready")
  else if header.headerChecksum ≠ sharedBufferPoolHeaderChecksum header then
    .error (makeError .corruptHeader operation "header checksum mismatch")
  else if header.blockSize ≠ options.blockSize ∨ header.blockCount ≠ options.blockCount then
    .error (makeError .invalidOptions operation "block layout mismatch")
  else if ¬ sharedBufferPoolSameSchema header options.schema then
    .error (makeError .schemaMismatch operation "schema mismatch")
  else .ok ()

def sharedBufferPoolOpenExisting (options : SharedBufferPoolOptions)
    (object : ShmOpening SharedBufferPoolHeaderAbi) :
    Except Error SharedBufferPoolHandle := do
  let operation := "SharedBufferPool::open"
  let self ← object.identity
  object.fd
  object.stat
  if object.size < sharedBufferPoolHeaderSize then
    .error (makeError .initializationIncomplete operation
      "object is smaller than the pool header")
  else do
    object.mapping
    if object.header.initState ≠ SharedBufferPoolInitState.ready.code then
      .error (makeError .initializationIncomplete operation "creator did not commit READY")
    else do
      sharedBufferPoolValidateHeader object.header object.size options
      .ok ⟨self, object.size, object.header, false⟩

def sharedBufferPoolOpenImpl (options : SharedBufferPoolOptions)
    (object : ShmOpening SharedBufferPoolHeaderAbi) :
    Except Error SharedBufferPoolHandle := do
  sharedBufferPoolValidateOptions options
  sharedBufferPoolOpenExisting options object

/-- The header as its creator fills it in. -/
def sharedBufferPoolCreateHeader (options : SharedBufferPoolOptions)
    (mapping nonceHi nonceLo : Nat) (self : ProcessIdentity) : SharedBufferPoolHeaderAbi :=
  let header : SharedBufferPoolHeaderAbi :=
    ⟨sharedBufferPoolMagic, sharedBufferPoolAbiMajor, sharedBufferPoolAbiMinor,
      sharedBufferPoolEndianMarker, sharedBufferPoolHeaderSize, options.blockSize,
      options.blockCount, 0, mapping, 1, nonceHi, nonceLo, options.schema.fingerprint,
      options.schema.version, SharedBufferPoolInitState.ready.code, 0,
      ownerFromProcess self, List.replicate 24 0, List.replicate 24 0⟩
  { header with headerChecksum := sharedBufferPoolHeaderChecksum header }

/-- The body of the block loop. -/
def sharedBufferPoolInitBlock (options : SharedBufferPoolOptions) (m : PoolMem)
    (blockId : Nat) : Except Error PoolMem :=
  match sharedBufferPoolBlockOffsetFor options.blockSize blockId options.blockCount with
  | none =>
      .error (makeError .invalidOptions "SharedBufferPool::create" "block offset overflow")
  | some _ =>
      .ok (((m.set (.blockState blockId) SharedBufferBlockState.free.code).set
        (.blockGeneration blockId) 0).set (.blockEpoch blockId) 0)

/-- Creation up to the READY store. The calls that make and size the object are taken
to succeed here; its mapping starts zeroed. -/
def sharedBufferPoolCreateImpl (options : SharedBufferPoolOptions)
    (identity : Except Error ProcessIdentity) (nonceHi nonceLo : Nat) :
    Except Error (SharedBufferPoolHandle × PoolMem) := do
  let operation := "SharedBufferPool::create"
  sharedBufferPoolValidateOptions options
  let self ← identity
  match sharedBufferPoolMappingSizeFor options.blockSize options.blockCount with
  | none => .error (makeError .invalidOptions operation "mapping size overflow")
  | some mapping =>
      if ¬ ownerValid (ownerFromProcess self) ∨ (nonceHi = 0 ∧ nonceLo = 0) then
        .error (makeError .systemError operation "identity or nonce failed")
      else
        let m : PoolMem := fun _ => 0
        let m := m.set .initState SharedBufferPoolInitState.initializing.code
        let m ← (List.range options.blockCount).foldlM (sharedBufferPoolInitBlock options) m
        return (⟨self, mapping, sharedBufferPoolCreateHeader options mapping nonceHi nonceLo
          self, false⟩, m.set .initState SharedBufferPoolInitState.ready.code)

/-- What holds of a segment that was accepted. -/
structure AcceptedPool (size : Nat) (handle : SharedBufferPoolHandle) : Prop where
  size_eq : handle.size = size
  mapping : sharedBufferPoolMappingSizeFor handle.header.blockSize handle.header.blockCount =
    some size

theorem sharedBufferPoolValidateHeader_ok {header : SharedBufferPoolHeaderAbi}
    {actualSize : Nat} {options : SharedBufferPoolOptions} :
    sharedBufferPoolValidateHeader header actualSize options = .ok () ↔
      header.magic ≠ sharedBufferPoolLegacyMagic ∧ header.magic = sharedBufferPoolMagic ∧
      (header.abiMajor = sharedBufferPoolAbiMajor ∧
        header.abiMinor ≤ sharedBufferPoolAbiMinor) ∧
      (header.headerSize = sharedBufferPoolHeaderSize ∧
        header.endianMarker = sharedBufferPoolEndianMarker) ∧
      (sharedBufferPoolBlockSizeValid header.blockSize ∧ header.blockCount ≠ 0 ∧
        header.blockCount ≤ sharedBufferPoolMaxBlockCount ∧ header.generation ≠ 0 ∧
        (header.instanceNonceHi = 0 → header.instanceNonceLo ≠ 0) ∧
        header.schemaVersion ≠ 0 ∧ ownerValid header.creator) ∧
      (sharedBufferPoolMappingSizeFor header.blockSize header.blockCount =
        some header.mappingSize ∧ actualSize = header.mappingSize) ∧
      header.initState = SharedBufferPoolInitState.ready.code ∧
      header.headerChecksum = sharedBufferPoolHeaderChecksum header ∧
      (header.blockSize = options.blockSize ∧ header.blockCount = options.blockCount) ∧
      sharedBufferPoolSameSchema header options.schema := by
  simp only [sharedBufferPoolValidateHeader, ite_error_eq_ok, not_or, not_and,
    Decidable.not_not, Nat.not_lt, gt_iff_lt, ne_eq, and_true]

theorem sharedBufferPoolOpenExisting_ok {options : SharedBufferPoolOptions}
    {object : ShmOpening SharedBufferPoolHeaderAbi} {handle : SharedBufferPoolHandle}
    (h : sharedBufferPoolOpenExisting options object = .ok handle) :
    AcceptedPool object.size handle := by
  simp only [sharedBufferPoolOpenExisting, except_bind_eq_ok, ite_error_eq_ok] at h
  obtain ⟨self, _, _, _, _, _, _, _, _, _, _, valid, h⟩ := h
  cases h
  obtain ⟨_, _, _, _, _, ⟨mapping, actual⟩, _⟩ := sharedBufferPoolValidateHeader_ok.1 valid
  exact ⟨rfl, actual ▸ mapping⟩

/-- The bytes of a block: its header and its payload. -/
def blockBytes (handle : SharedBufferPoolHandle) (blockId : Nat) : Set Nat :=
  {byte | (∃ block, blockAt handle blockId = some block ∧
      byte ∈ Set.Ico block (block + sharedBufferBlockHeaderSize)) ∨
    ∃ payload, payloadAt handle blockId = some payload ∧
      byte ∈ Set.Ico payload (payload + handle.header.blockSize)}

/-- The layout of a pool segment of `size` bytes: the blocks below the count have
their header and payload behind the pool header and inside the segment and share no
byte; there are no others. -/
structure PoolLayout (size : Nat) (handle : SharedBufferPoolHandle) : Prop where
  placed : ∀ blockId, blockId < handle.header.blockCount → ∃ block payload,
    blockAt handle blockId = some block ∧ payloadAt handle blockId = some payload ∧
    Strided.Placed 64 sharedBufferPoolHeaderSize size sharedBufferBlockHeaderSize
      handle.header.blockSize block payload
  apart : ∀ blockId other, blockId < handle.header.blockCount →
    other < handle.header.blockCount → blockId ≠ other →
    Disjoint (blockBytes handle blockId) (blockBytes handle other)
  null : ∀ blockId, handle.header.blockCount ≤ blockId →
    blockAt handle blockId = none ∧ payloadAt handle blockId = none

namespace AcceptedPool
variable {size : Nat} {handle : SharedBufferPoolHandle}

/-- Both pointers of a block exist: the bounds checks behind the offset never fail. -/
theorem block_eq (a : AcceptedPool size handle) {stride blockId : Nat}
    (hs : sharedBufferPoolStrideFor handle.header.blockSize = some stride)
    (h : blockId < handle.header.blockCount) :
    blockAt handle blockId =
        some (Strided.cell sharedBufferPoolHeaderSize stride blockId) ∧
      payloadAt handle blockId =
        some (Strided.cell sharedBufferPoolHeaderSize stride blockId +
          sharedBufferBlockHeaderSize) := by
  obtain ⟨stride', hs', hsize, _⟩ := sharedBufferPoolMappingSizeFor_some a.mapping
  cases hs.symm.trans hs'
  obtain ⟨_, fits⟩ := sharedBufferPoolStrideFor_some hs
  have bound := @Strided.cell_add_le sharedBufferPoolHeaderSize stride _ _ h
  rw [← hsize, ← a.size_eq] at bound
  have offset := sharedBufferPoolBlockOffsetFor_eq a.mapping hs h
  constructor
  · rw [blockAt, offset]
    exact if_neg (by omega)
  · rw [payloadAt, offset]
    exact if_neg (by omega)

theorem blockBytes_eq (a : AcceptedPool size handle) {stride blockId : Nat}
    (hs : sharedBufferPoolStrideFor handle.header.blockSize = some stride)
    (h : blockId < handle.header.blockCount) :
    blockBytes handle blockId =
      Set.Ico (Strided.cell sharedBufferPoolHeaderSize stride blockId)
        (Strided.cell sharedBufferPoolHeaderSize stride blockId +
          (sharedBufferBlockHeaderSize + handle.header.blockSize)) := by
  obtain ⟨block, payload⟩ := a.block_eq hs h
  ext byte
  simp only [blockBytes, block, payload, Option.some.injEq, exists_eq_left',
    Set.mem_ofPred_eq, Set.mem_Ico]
  omega

theorem layout (a : AcceptedPool size handle) : PoolLayout size handle := by
  obtain ⟨stride, hs, hsize, _⟩ := sharedBufferPoolMappingSizeFor_some a.mapping
  obtain ⟨aligned, fits⟩ := sharedBufferPoolStrideFor_some hs
  constructor
  · intro blockId h
    obtain ⟨block, payload⟩ := a.block_eq hs h
    refine ⟨_, _, block, payload, ?_⟩
    rw [hsize]
    exact Strided.placed_cell (by decide) aligned (by decide) fits h
  · intro blockId other h h' different
    rw [a.blockBytes_eq hs h, a.blockBytes_eq hs h']
    exact Strided.disjoint_cells fits different
  · intro blockId h
    have offset := @sharedBufferPoolBlockOffsetFor_ge handle.header.blockSize _ _ h
    constructor
    · rw [blockAt, offset]
    · rw [payloadAt, offset]

end AcceptedPool

theorem sharedBufferPoolCreateHeader_checksum (options : SharedBufferPoolOptions)
    (mapping nonceHi nonceLo : Nat) (self : ProcessIdentity) :
    (sharedBufferPoolCreateHeader options mapping nonceHi nonceLo self).headerChecksum =
      sharedBufferPoolHeaderChecksum
        (sharedBufferPoolCreateHeader options mapping nonceHi nonceLo self) := by
  simp only [sharedBufferPoolCreateHeader, sharedBufferPoolHeaderChecksum]

theorem sharedBufferPoolValidateOptions_ok {options : SharedBufferPoolOptions}
    (h : sharedBufferPoolValidateOptions options = .ok ()) :
    sharedBufferPoolBlockSizeValid options.blockSize ∧ options.blockCount ≠ 0 ∧
      options.blockCount ≤ sharedBufferPoolMaxBlockCount ∧ options.schema.version ≠ 0 := by
  simp only [sharedBufferPoolValidateOptions, ite_error_eq_ok, not_or, Decidable.not_not,
    Nat.not_lt, gt_iff_lt, and_true] at h
  exact h.2

/-- What a creator writes is accepted under the creator's options. -/
theorem sharedBufferPoolOpenExisting_create {options : SharedBufferPoolOptions}
    {mapping nonceHi nonceLo : Nat} {self creator : ProcessIdentity}
    (valid : sharedBufferPoolValidateOptions options = .ok ())
    (hm : sharedBufferPoolMappingSizeFor options.blockSize options.blockCount = some mapping)
    (owner : ownerValid (ownerFromProcess creator)) (nonce : nonceHi = 0 → nonceLo ≠ 0) :
    sharedBufferPoolOpenExisting options
      ⟨.ok self, .ok (), .ok (), .ok (), mapping,
        sharedBufferPoolCreateHeader options mapping nonceHi nonceLo creator⟩ =
      .ok ⟨self, mapping, sharedBufferPoolCreateHeader options mapping nonceHi nonceLo creator,
        false⟩ := by
  obtain ⟨size, count, few, version⟩ := sharedBufferPoolValidateOptions_ok valid
  obtain ⟨_, _, hsize, _⟩ := sharedBufferPoolMappingSizeFor_some hm
  have notLegacy : sharedBufferPoolMagic ≠ sharedBufferPoolLegacyMagic := by decide
  have accepted : sharedBufferPoolValidateHeader
      (sharedBufferPoolCreateHeader options mapping nonceHi nonceLo creator) mapping options =
      .ok () := by
    refine sharedBufferPoolValidateHeader_ok.2 ⟨notLegacy, rfl, ⟨rfl, Nat.le_refl _⟩,
      ⟨rfl, rfl⟩, ⟨size, count, few, Nat.one_ne_zero, nonce, version, owner⟩, ⟨hm, rfl⟩,
      rfl, sharedBufferPoolCreateHeader_checksum _ _ _ _ _, ⟨rfl, rfl⟩, ?_⟩
    simp [sharedBufferPoolSameSchema, sharedBufferPoolCreateHeader]
  have whole : ¬ mapping < sharedBufferPoolHeaderSize := by omega
  simp only [sharedBufferPoolOpenExisting, bind, Except.bind]
  rw [if_neg whole, if_neg, accepted]
  exact fun unready => unready rfl

/-- Whatever the segment holds and however large it is: once it is accepted, its slots
or blocks are in bounds, aligned and apart. -/
theorem accepted_segments_layout :
    (∀ options schema payloadSize object handle,
      mpmcOpenExisting options schema payloadSize object = .ok handle →
      QueueLayout object.size handle) ∧
    (∀ options object handle,
      sharedBufferPoolOpenExisting options object = .ok handle →
      PoolLayout object.size handle) := by
  constructor
  · intro options schema payloadSize object handle accepted
    exact (mpmcOpenExisting_ok accepted).layout
  · intro options object handle accepted
    exact (sharedBufferPoolOpenExisting_ok accepted).layout

/-- Three slots of 100 bytes in one segment, two blocks of 4 KiB in another. -/
theorem accepted_segments_layout_small :
    QueueLayout 896 ⟨⟨7, 1, 1, 1⟩, 3, 100, 192, false⟩ ∧
    PoolLayout 8512 ⟨⟨7, 1, 1, 1⟩, 8512,
      sharedBufferPoolCreateHeader ⟨"p", 4096, 2, ⟨[1], 1⟩⟩ 8512 5 6 ⟨7, 1, 1, 1⟩, false⟩ := by
  constructor
  · exact accepted_segments_layout.1 ⟨"q", 3⟩ ⟨[1], 1⟩ 100
      ⟨.ok ⟨7, 1, 1, 1⟩, .ok (), .ok (), .ok (), 896,
        mpmcCreateHeader ⟨"q", 3⟩ ⟨[1], 1⟩ 100 896 5 6 ⟨7, 1, 1, 1⟩⟩ _
      (mpmcOpenExisting_create (by decide) (by decide) (by decide))
  · exact accepted_segments_layout.2 ⟨"p", 4096, 2, ⟨[1], 1⟩⟩
      ⟨.ok ⟨7, 1, 1, 1⟩, .ok (), .ok (), .ok (), 8512,
        sharedBufferPoolCreateHeader ⟨"p", 4096, 2, ⟨[1], 1⟩⟩ 8512 5 6 ⟨7, 1, 1, 1⟩⟩ _
      (sharedBufferPoolOpenExisting_create (by decide) (by decide) (by decide) (by decide))

end EdgeRuntime

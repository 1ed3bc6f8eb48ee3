import EdgeRuntime.Common.Checksum
import EdgeRuntime.Common.ShmObject
import EdgeRuntime.Common.Strided
import EdgeRuntime.Queue.Creation

/-!
Opening an existing queue segment: the checks on what its header says, and where
the slots of an accepted segment lie.
-/
namespace EdgeRuntime

def mpmcHeaderMagic : List Nat := "EDGMPMC2".toList.map Char.toNat
def mpmcLegacyHeaderMagic : List Nat := "EDGMPMC1".toList.map Char.toNat
def mpmcAbiMajor : Nat := 2
def mpmcAbiMinor : Nat := 0
def mpmcEndianMarker : Nat := 0x01020304

/-- The header up to its positions, with the state word and the checksum. -/
structure MpmcQueueHeaderAbi where
  magic : List Nat
  abiMajor : Nat
  abiMinor : Nat
  headerSize : Nat
  endianMarker : Nat
  capacity : Nat
  payloadSize : Nat
  schemaVersion : Nat
  reserved0 : Nat
  /-- Four bytes that align the next field. -/
  padding : Nat
  mappingSize : Nat
  schemaFingerprint : List Nat
  generation : Nat
  instanceNonceHi : Nat
  instanceNonceLo : Nat
  creator : OwnerAbi
  initState : Nat
  headerChecksum : Nat
  deriving DecidableEq, Repr

def OwnerAbi.bytes (owner : OwnerAbi) : List Nat :=
  littleEndian 8 owner.pid ++ littleEndian 8 owner.procStartTicks ++
    littleEndian 8 owner.bootIdHashHi ++ littleEndian 8 owner.bootIdHashLo

/-- The bytes before `enqueue_position`. -/
def MpmcQueueHeaderAbi.immutableBytes (header : MpmcQueueHeaderAbi) : List Nat :=
  header.magic ++ littleEndian 2 header.abiMajor ++ littleEndian 2 header.abiMinor ++
    littleEndian 4 header.headerSize ++ littleEndian 4 header.endianMarker ++
    littleEndian 4 header.capacity ++ littleEndian 4 header.payloadSize ++
    littleEndian 4 header.schemaVersion ++ littleEndian 4 header.reserved0 ++
    littleEndian 4 header.padding ++ littleEndian 8 header.mappingSize ++
    header.schemaFingerprint ++ littleEndian 8 header.generation ++
    littleEndian 8 header.instanceNonceHi ++ littleEndian 8 header.instanceNonceLo ++
    header.creator.bytes

def mpmcHeaderChecksum (header : MpmcQueueHeaderAbi) : Nat := fnv1a64 header.immutableBytes

def mpmcSameSchema (header : MpmcQueueHeaderAbi) (schema : SchemaDescriptor) : Bool :=
  header.schemaVersion = schema.version && header.schemaFingerprint = schema.fingerprint

def mpmcValidateHeader (header : MpmcQueueHeaderAbi) (actualSize : Nat)
    (options : MpmcQueueOptions) (schema : SchemaDescriptor) (payloadSize : Nat) :
    Except Error Unit :=
  let operation := "MpmcQueue::open"
  if header.magic = mpmcLegacyHeaderMagic then
    .error (makeError .abiMismatch operation "legacy MPMC ABI requires recreation")
  else if header.magic ≠ mpmcHeaderMagic then
    .error (makeError .corruptHeader operation "magic mismatch")
  else if header.abiMajor ≠ mpmcAbiMajor ∨ header.abiMinor ≠ mpmcAbiMinor then
    .error (makeError .abiMismatch operation "unsupported ABI version")
  else if header.headerSize ≠ mpmcHeaderSize ∨ header.endianMarker ≠ mpmcEndianMarker then
    .error (makeError .corruptHeader operation "header shape mismatch")
  else if header.capacity = 0 ∨ header.capacity > mpmcMaxCapacity ∨
      header.payloadSize = 0 ∨ header.payloadSize > mpmcMaxPayloadSize ∨
      header.generation = 0 then
    .error (makeError .corruptHeader operation "invalid header values")
  else if mpmcMappingSizeFor header.capacity header.payloadSize ≠ some header.mappingSize ∨
      actualSize ≠ header.mappingSize then
    .error (makeError .corruptHeader operation "mapping size mismatch")
  else if header.headerChecksum ≠ mpmcHeaderChecksum header then
    .error (makeError .corruptHeader operation "header checksum mismatch")
  else if header.capacity ≠ options.capacity ∨ header.payloadSize ≠ payloadSize then
    .error (makeError .invalidOptions operation "queue capacity or payload size mismatch")
  else if ¬ mpmcSameSchema header schema then
    .error (makeError .schemaMismatch operation "schema mismatch")
  else if header.initState ≠ MpmcInitState.ready.code then
    .error (makeError .initializationIncomplete operation "queue is not ready")
  else .ok ()

/-- The bytes of the header up to the end of `init_state`. -/
def mpmcHeaderProbeSize : Nat := 164

def mpmcOpenExisting (options : MpmcQueueOptions) (schema : SchemaDescriptor)
    (payloadSize : Nat) (object : ShmOpening MpmcQueueHeaderAbi) :
    Except Error MpmcQueueHandle := do
  let operation := "MpmcQueue::open"
  let self ← object.identity
  object.fd
  object.stat
  if object.size < mpmcHeaderProbeSize then
    .error (makeError .initializationIncomplete operation
      "object is smaller than the queue header probe")
  else do
    object.mapping
    let header := object.header
    if header.magic = mpmcLegacyHeaderMagic ∨ header.abiMajor ≠ mpmcAbiMajor ∨
        header.headerSize ≠ mpmcHeaderSize ∨ object.size < mpmcHeaderSize then
      .error (makeError .abiMismatch operation "queue requires the v2 MPMC mapping ABI")
    else if header.initState ≠ MpmcInitState.ready.code then
      if header.initState = MpmcInitState.initializing.code then
        .error (makeError .initializationIncomplete operation
          "creator did not commit READY")
      else .error (makeError .corruptHeader operation "invalid init state")
    else do
      mpmcValidateHeader header object.size options schema payloadSize
      match roundUpToMultipleU64 (mpmcSlotHeaderSize + payloadSize) 64 with
      | none => .error (makeError .invalidOptions operation "slot stride overflow")
      | some stride => .ok ⟨self, header.capacity, header.payloadSize, stride, false⟩

def mpmcOpenImpl (options : MpmcQueueOptions) (schema : SchemaDescriptor)
    (payloadSize : Nat) (object : ShmOpening MpmcQueueHeaderAbi) :
    Except Error MpmcQueueHandle := do
  mpmcValidateOptions options schema payloadSize
  mpmcOpenExisting options schema payloadSize object

/-- The pointer of `slot_at`, as an offset into the mapping. -/
def slotOffsetAt (handle : MpmcQueueHandle) (position : Nat) : Option Nat :=
  mpmcSlotOffset (position % handle.capacity) handle.capacity handle.slotStride

/-- The pointer of `payload_at`, as an offset into the mapping. -/
def payloadOffsetAt (handle : MpmcQueueHandle) (position : Nat) : Option Nat :=
  (slotOffsetAt handle position).map (· + mpmcSlotHeaderSize)

/-- The bytes of a position: its slot header and its payload. -/
def slotBytes (handle : MpmcQueueHandle) (position : Nat) : Set Nat :=
  {byte | ∃ slot, slotOffsetAt handle position = some slot ∧
    byte ∈ Set.Ico slot (slot + (mpmcSlotHeaderSize + handle.payloadSize))}

theorem mpmcMappingSizeFor_some {capacity payloadSize size : Nat}
    (h : mpmcMappingSizeFor capacity payloadSize = some size) :
    (0 < capacity ∧ capacity ≤ mpmcMaxCapacity) ∧ ∃ stride,
      roundUpToMultipleU64 (mpmcSlotHeaderSize + payloadSize) 64 = some stride ∧
      size = mpmcFirstSlotOffset + capacity * stride ∧ size ≤ uint64Max := by
  unfold mpmcMappingSizeFor at h
  split at h
  · cases h
  · rename_i range
    rw [Option.bind_eq_bind, Option.bind_eq_some_iff] at h
    obtain ⟨stride, hs, h⟩ := h
    rw [Option.bind_eq_some_iff] at h
    obtain ⟨slots, hm, h⟩ := h
    obtain ⟨rfl, _⟩ := checkedMulU64_some hm
    obtain ⟨rfl, small⟩ := checkedAddU64_some (by decide) h
    exact ⟨by omega, stride, hs, rfl, small⟩

/-- What holds of a segment that was accepted. -/
structure AcceptedQueue (size : Nat) (handle : MpmcQueueHandle) : Prop where
  capacity_pos : 0 < handle.capacity
  payload_le : handle.payloadSize ≤ mpmcMaxPayloadSize
  stride : roundUpToMultipleU64 (mpmcSlotHeaderSize + handle.payloadSize) 64 =
    some handle.slotStride
  size_eq : size = mpmcFirstSlotOffset + handle.capacity * handle.slotStride
  size_le : size ≤ uint64Max

theorem mpmcValidateHeader_ok {header : MpmcQueueHeaderAbi} {actualSize : Nat}
    {options : MpmcQueueOptions} {schema : SchemaDescriptor} {payloadSize : Nat} :
    mpmcValidateHeader header actualSize options schema payloadSize = .ok () ↔
      header.magic ≠ mpmcLegacyHeaderMagic ∧ header.magic = mpmcHeaderMagic ∧
      (header.abiMajor = mpmcAbiMajor ∧ header.abiMinor = mpmcAbiMinor) ∧
      (header.headerSize = mpmcHeaderSize ∧ header.endianMarker = mpmcEndianMarker) ∧
      (header.capacity ≠ 0 ∧ header.capacity ≤ mpmcMaxCapacity ∧ header.payloadSize ≠ 0 ∧
        header.payloadSize ≤ mpmcMaxPayloadSize ∧ header.generation ≠ 0) ∧
      (mpmcMappingSizeFor header.capacity header.payloadSize = some header.mappingSize ∧
        actualSize = header.mappingSize) ∧
      header.headerChecksum = mpmcHeaderChecksum header ∧
      (header.capacity = options.capacity ∧ header.payloadSize = payloadSize) ∧
      mpmcSameSchema header schema ∧ header.initState = MpmcInitState.ready.code := by
  simp only [mpmcValidateHeader, ite_error_eq_ok, not_or, Decidable.not_not, Nat.not_lt,
    gt_iff_lt, ne_eq, and_true]

/-- Only a segment whose header passes every check is opened. -/
theorem mpmcOpenExisting_valid {options : MpmcQueueOptions} {schema : SchemaDescriptor}
    {payloadSize : Nat} {object : ShmOpening MpmcQueueHeaderAbi} {handle : MpmcQueueHandle}
    (h : mpmcOpenExisting options schema payloadSize object = .ok handle) :
    mpmcValidateHeader object.header object.size options schema payloadSize = .ok () ∧
      ∃ stride, roundUpToMultipleU64 (mpmcSlotHeaderSize + payloadSize) 64 = some stride ∧
        handle.capacity = object.header.capacity ∧
        handle.payloadSize = object.header.payloadSize ∧ handle.slotStride = stride := by
  simp only [mpmcOpenExisting, except_bind_eq_ok, ite_error_eq_ok] at h
  obtain ⟨self, _, _, _, _, _, _, _, _, _, h⟩ := h
  split at h
  · split at h <;> cases h
  · rw [except_bind_eq_ok] at h
    obtain ⟨_, valid, h⟩ := h
    refine ⟨valid, ?_⟩
    split at h
    · cases h
    · rename_i stride hs
      cases h
      exact ⟨stride, hs, rfl, rfl, rfl⟩

theorem mpmcOpenExisting_ok {options : MpmcQueueOptions} {schema : SchemaDescriptor}
    {payloadSize : Nat} {object : ShmOpening MpmcQueueHeaderAbi} {handle : MpmcQueueHandle}
    (h : mpmcOpenExisting options schema payloadSize object = .ok handle) :
    AcceptedQueue object.size handle := by
  obtain ⟨valid, stride, hs, hc, hp, hstride⟩ := mpmcOpenExisting_valid h
  obtain ⟨_, _, _, _, ⟨_, _, _, small, _⟩, ⟨mapping, actual⟩, _,
    ⟨_, rfl⟩, _⟩ := mpmcValidateHeader_ok.1 valid
  obtain ⟨⟨positive, _⟩, stride', hs', hsize, hle⟩ := mpmcMappingSizeFor_some mapping
  cases hs.symm.trans hs'
  rw [← hc] at positive hsize
  rw [← hp] at small hs
  rw [← hstride] at hsize hs
  exact ⟨positive, small, hs, actual.trans hsize, actual ▸ hle⟩

namespace AcceptedQueue
variable {size : Nat} {handle : MpmcQueueHandle}

theorem stride_spec (a : AcceptedQueue size handle) :
    64 ∣ handle.slotStride ∧
      mpmcSlotHeaderSize + handle.payloadSize ≤ handle.slotStride := by
  have bound := a.payload_le
  simp only [mpmcMaxPayloadSize] at bound
  have fits : mpmcSlotHeaderSize + handle.payloadSize ≤ uint64Max := by
    simp only [mpmcSlotHeaderSize, uint64Max]
    omega
  obtain ⟨aligned, le, _⟩ := roundUpToMultipleU64_some fits a.stride
  exact ⟨aligned, le⟩

/-- No checked step of `slot_at` fails. -/
theorem slotOffsetAt_eq (a : AcceptedQueue size handle) (position : Nat) :
    slotOffsetAt handle position =
      some (Strided.cell mpmcFirstSlotOffset handle.slotStride
        (position % handle.capacity)) := by
  have index := Nat.mod_lt position a.capacity_pos
  have bound := @Strided.cell_add_le mpmcFirstSlotOffset handle.slotStride _ _ index
  rw [← a.size_eq] at bound
  have small := a.size_le
  simp only [Strided.cell] at bound ⊢
  unfold slotOffsetAt mpmcSlotOffset
  rw [if_neg (Nat.not_le.2 index), checkedMulU64_of_le (by omega), Option.bind_eq_bind,
    Option.bind_some, checkedAddU64_of_le (by omega)]

theorem slotBytes_eq (a : AcceptedQueue size handle) (position : Nat) :
    slotBytes handle position =
      Set.Ico (Strided.cell mpmcFirstSlotOffset handle.slotStride (position % handle.capacity))
        (Strided.cell mpmcFirstSlotOffset handle.slotStride (position % handle.capacity) +
          (mpmcSlotHeaderSize + handle.payloadSize)) := by
  ext byte
  simp only [slotBytes, a.slotOffsetAt_eq, Option.some.injEq, exists_eq_left',
    Set.mem_ofPred_eq]

end AcceptedQueue

/-- The layout of a queue segment of `size` bytes: every position has its slot header
and its payload behind the queue header and inside the segment, and only positions of
one ring index share bytes. -/
structure QueueLayout (size : Nat) (handle : MpmcQueueHandle) : Prop where
  placed : ∀ position, position ≤ uint64Max → ∃ slot payload,
    slotOffsetAt handle position = some slot ∧
    payloadOffsetAt handle position = some payload ∧
    Strided.Placed 64 mpmcHeaderSize size mpmcSlotHeaderSize handle.payloadSize slot payload
  shared : ∀ position other, position ≤ uint64Max → other ≤ uint64Max →
    position % handle.capacity = other % handle.capacity →
    slotBytes handle position = slotBytes handle other
  apart : ∀ position other, position ≤ uint64Max → other ≤ uint64Max →
    position % handle.capacity ≠ other % handle.capacity →
    Disjoint (slotBytes handle position) (slotBytes handle other)

theorem AcceptedQueue.layout {size : Nat} {handle : MpmcQueueHandle}
    (a : AcceptedQueue size handle) : QueueLayout size handle := by
  obtain ⟨aligned, fits⟩ := a.stride_spec
  constructor
  · intro position _
    have index := Nat.mod_lt position a.capacity_pos
    have here := a.slotOffsetAt_eq position
    refine ⟨_, _, here, congrArg (Option.map (· + mpmcSlotHeaderSize)) here, ?_⟩
    rw [a.size_eq]
    exact Strided.placed_cell (by decide) aligned (by decide) fits index
  · intro position other _ _ same
    rw [a.slotBytes_eq, a.slotBytes_eq, same]
  · intro position other _ _ different
    rw [a.slotBytes_eq, a.slotBytes_eq]
    exact Strided.disjoint_cells fits different

/-- The header as its creator fills it in. -/
def mpmcCreateHeader (options : MpmcQueueOptions) (schema : SchemaDescriptor)
    (payloadSize mapping nonceHi nonceLo : Nat) (self : ProcessIdentity) :
    MpmcQueueHeaderAbi :=
  let header : MpmcQueueHeaderAbi :=
    ⟨mpmcHeaderMagic, mpmcAbiMajor, mpmcAbiMinor, mpmcHeaderSize, mpmcEndianMarker,
      options.capacity, payloadSize, schema.version, 0, 0, mapping, schema.fingerprint, 1,
      nonceHi, nonceLo, ownerFromProcess self, MpmcInitState.ready.code, 0⟩
  { header with headerChecksum := mpmcHeaderChecksum header }

/-- The checksum does not cover itself. -/
theorem mpmcCreateHeader_checksum (options : MpmcQueueOptions) (schema : SchemaDescriptor)
    (payloadSize mapping nonceHi nonceLo : Nat) (self : ProcessIdentity) :
    (mpmcCreateHeader options schema payloadSize mapping nonceHi nonceLo self).headerChecksum =
      mpmcHeaderChecksum
        (mpmcCreateHeader options schema payloadSize mapping nonceHi nonceLo self) := by
  simp only [mpmcCreateHeader, mpmcHeaderChecksum, MpmcQueueHeaderAbi.immutableBytes]

/-- What a creator writes is accepted under the creator's options. -/
theorem mpmcOpenExisting_create {options : MpmcQueueOptions} {schema : SchemaDescriptor}
    {payloadSize mapping stride nonceHi nonceLo : Nat} {self creator : ProcessIdentity}
    (valid : mpmcValidateOptions options schema payloadSize = .ok ())
    (hm : mpmcMappingSizeFor options.capacity payloadSize = some mapping)
    (hs : roundUpToMultipleU64 (mpmcSlotHeaderSize + payloadSize) 64 = some stride) :
    mpmcOpenExisting options schema payloadSize
      ⟨.ok self, .ok (), .ok (), .ok (), mapping,
        mpmcCreateHeader options schema payloadSize mapping nonceHi nonceLo creator⟩ =
      .ok ⟨self, options.capacity, payloadSize, stride, false⟩ := by
  obtain ⟨⟨positive, small⟩, payloadPositive, payloadSmall⟩ := mpmcValidateOptions_ok valid
  obtain ⟨_, _, _, size, _⟩ := mpmcMappingSizeFor_some hm
  have notLegacy : mpmcHeaderMagic ≠ mpmcLegacyHeaderMagic := by decide
  have accepted : mpmcValidateHeader
      (mpmcCreateHeader options schema payloadSize mapping nonceHi nonceLo creator) mapping
      options schema payloadSize = .ok () := by
    refine mpmcValidateHeader_ok.2 ⟨notLegacy, rfl, ⟨rfl, rfl⟩, ⟨rfl, rfl⟩,
      ⟨Nat.ne_of_gt positive, small, Nat.ne_of_gt payloadPositive, payloadSmall,
        Nat.one_ne_zero⟩,
      ⟨hm, rfl⟩, mpmcCreateHeader_checksum _ _ _ _ _ _ _, ⟨rfl, rfl⟩, ?_, rfl⟩
    simp [mpmcSameSchema, mpmcCreateHeader]
  have whole : ¬ mapping < mpmcHeaderSize := by
    simp only [mpmcFirstSlotOffset] at size
    omega
  have probe : ¬ mapping < mpmcHeaderProbeSize := fun short =>
    whole (Nat.lt_trans short (by decide))
  simp only [mpmcOpenExisting, bind, Except.bind]
  rw [if_neg probe, if_neg, if_neg, accepted, hs]
  · rfl
  · exact fun unready => unready rfl
  · rintro (legacy | major | header | short)
    · exact notLegacy legacy
    · exact major rfl
    · exact header rfl
    · exact whole short

end EdgeRuntime

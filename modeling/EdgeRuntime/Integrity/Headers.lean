import EdgeRuntime.Pool.Open

/-!
The headers of queues and pools as bytes. Every byte the checksum covers, and every byte
of the checksum itself, matters to the check of an opener.
-/
namespace EdgeRuntime

theorem OwnerAbi.length_bytes (owner : OwnerAbi) : owner.bytes.length = 32 := by
  unfold bytes
  simp only [List.length_append, length_littleEndian]

theorem OwnerAbi.isBytes_bytes (owner : OwnerAbi) : IsBytes owner.bytes := by
  unfold bytes
  simp only [isBytes_append, isBytes_littleEndian, and_self]

/-- A fingerprint is an array of 32 bytes. -/
structure SchemaDescriptor.Shaped (schema : SchemaDescriptor) : Prop where
  length : schema.fingerprint.length = 32
  bytes : IsBytes schema.fingerprint

instance (schema : SchemaDescriptor) : Decidable schema.Shaped :=
  decidable_of_iff (schema.fingerprint.length = 32 ∧ IsBytes schema.fingerprint)
    ⟨fun h => ⟨h.1, h.2⟩, fun h => ⟨h.1, h.2⟩⟩

def mpmcImmutableSize : Nat := 136

namespace MpmcQueueHeaderAbi
variable {header header' : MpmcQueueHeaderAbi} {b : List Nat}

/-- The bytes before `enqueue_position`, and the checksum that is stored for them. -/
def sealedBytes (header : MpmcQueueHeaderAbi) : List Nat :=
  header.immutableBytes ++ littleEndian 8 header.headerChecksum

/-- The header with these bytes and this state word. -/
def ofBytes (state : Nat) (b : List Nat) : MpmcQueueHeaderAbi where
  magic := slice 0 8 b
  abiMajor := wordAt 8 2 b
  abiMinor := wordAt 10 2 b
  headerSize := wordAt 12 4 b
  endianMarker := wordAt 16 4 b
  capacity := wordAt 20 4 b
  payloadSize := wordAt 24 4 b
  schemaVersion := wordAt 28 4 b
  reserved0 := wordAt 32 4 b
  padding := wordAt 36 4 b
  mappingSize := wordAt 40 8 b
  schemaFingerprint := slice 48 32 b
  generation := wordAt 80 8 b
  instanceNonceHi := wordAt 88 8 b
  instanceNonceLo := wordAt 96 8 b
  creator := ⟨wordAt 104 8 b, wordAt 112 8 b, wordAt 120 8 b, wordAt 128 8 b⟩
  initState := state
  headerChecksum := wordAt 136 8 b

theorem sealedBytes_ofBytes {state : Nat} (hb : IsBytes b)
    (length : b.length = mpmcImmutableSize + 8) : (ofBytes state b).sealedBytes = b := by
  have word : ∀ offset size, offset + size ≤ 144 →
      littleEndian size (wordAt offset size b) = slice offset size b :=
    fun _ _ h => littleEndian_wordAt hb (length ▸ h)
  have first : slice 0 8 b = b.take 8 := rfl
  unfold sealedBytes immutableBytes OwnerAbi.bytes ofBytes
  simp (disch := decide) only [word]
  simp only [first, ← List.append_assoc, take_append_slice, Nat.reduceAdd]
  exact List.take_of_length_le (Nat.le_of_eq length)

/-- The arrays of the header have their sizes. -/
structure Shaped (header : MpmcQueueHeaderAbi) : Prop where
  magic : header.magic.length = 8
  magic_bytes : IsBytes header.magic
  fingerprint : header.schemaFingerprint.length = 32
  fingerprint_bytes : IsBytes header.schemaFingerprint

theorem shaped_ofBytes {state : Nat} (hb : IsBytes b)
    (length : b.length = mpmcImmutableSize + 8) : (ofBytes state b).Shaped where
  magic := length_slice (by rw [length]; decide)
  magic_bytes := hb.slice
  fingerprint := length_slice (by rw [length]; decide)
  fingerprint_bytes := hb.slice

theorem Shaped.length_immutableBytes (h : header.Shaped) :
    header.immutableBytes.length = mpmcImmutableSize := by
  unfold immutableBytes
  simp only [List.length_append, length_littleEndian, OwnerAbi.length_bytes, h.magic,
    h.fingerprint]
  rfl

theorem Shaped.isBytes_immutableBytes (h : header.Shaped) : IsBytes header.immutableBytes := by
  unfold immutableBytes
  simp only [isBytes_append, isBytes_littleEndian, OwnerAbi.isBytes_bytes, h.magic_bytes,
    h.fingerprint_bytes, and_self]

theorem Shaped.length_sealedBytes (h : header.Shaped) :
    header.sealedBytes.length = mpmcImmutableSize + 8 := by
  rw [sealedBytes, List.length_append, h.length_immutableBytes, length_littleEndian]

theorem Shaped.isBytes_sealedBytes (h : header.Shaped) : IsBytes header.sealedBytes :=
  isBytes_append.2 ⟨h.isBytes_immutableBytes, isBytes_littleEndian 8 _⟩

end MpmcQueueHeaderAbi

/-- A queue whose header matched its checksum is not opened once one byte of the prefix or
of the checksum has changed, whatever its state word says. -/
theorem mpmcOpenImpl_changed {header : MpmcQueueHeaderAbi} {options : MpmcQueueOptions}
    {schema : SchemaDescriptor} {payloadSize state i x : Nat}
    {object : ShmOpening MpmcQueueHeaderAbi} (shaped : header.Shaped)
    (sealed : header.headerChecksum = mpmcHeaderChecksum header)
    (hi : i < mpmcImmutableSize + 8) (hx : x < 256) (other : header.sealedBytes[i]? ≠ some x)
    (found : object.header = .ofBytes state (header.sealedBytes.set i x)) :
    ∃ e, mpmcOpenImpl options schema payloadSize object = .error e := by
  have change := OneChange.set (shaped.length_sealedBytes.symm ▸ hi) other
  have hb : IsBytes (header.sealedBytes.set i x) := shaped.isBytes_sealedBytes.set hx
  generalize header.sealedBytes.set i x = b at change hb found
  have length := change.length_eq.symm.trans shaped.length_sealedBytes
  have shaped' : (MpmcQueueHeaderAbi.ofBytes state b).Shaped :=
    MpmcQueueHeaderAbi.shaped_ofBytes hb length
  have record : (MpmcQueueHeaderAbi.ofBytes state b).sealedBytes = b :=
    MpmcQueueHeaderAbi.sealedBytes_ofBytes hb length
  have fits : (MpmcQueueHeaderAbi.ofBytes state b).headerChecksum < 2 ^ 64 :=
    wordAt_lt hb (by rw [length]; decide)
  rw [← record] at change
  have parts := change.append_cases
    (shaped.length_immutableBytes.trans shaped'.length_immutableBytes.symm)
  rw [sealed, mpmcHeaderChecksum] at parts
  have mismatch := fnv1a64_ne_stored fits shaped.isBytes_immutableBytes
    shaped'.isBytes_immutableBytes parts
  cases opened : mpmcOpenImpl options schema payloadSize object with
  | error e => exact ⟨e, rfl⟩
  | ok handle =>
      rw [mpmcOpenImpl, except_bind_eq_ok] at opened
      obtain ⟨_, _, opened⟩ := opened
      obtain ⟨_, _, _, _, _, _, sum, _⟩ :=
        mpmcValidateHeader_ok.1 (mpmcOpenExisting_valid opened).1
      rw [found, mpmcHeaderChecksum] at sum
      exact (mismatch sum.symm).elim

theorem mpmcCreateHeader_shaped (options : MpmcQueueOptions) {schema : SchemaDescriptor}
    (payloadSize mapping nonceHi nonceLo : Nat) (self : ProcessIdentity)
    (h : schema.Shaped) :
    (mpmcCreateHeader options schema payloadSize mapping nonceHi nonceLo self).Shaped where
  magic := rfl
  magic_bytes := (by decide : IsBytes mpmcHeaderMagic)
  fingerprint := h.length
  fingerprint_bytes := h.bytes

namespace SharedBufferPoolHeaderAbi
variable {header header' : SharedBufferPoolHeaderAbi} {b : List Nat}

/-- The bytes before the state word. -/
def front (header : SharedBufferPoolHeaderAbi) : List Nat :=
  header.magic ++ littleEndian 2 header.abiMajor ++ littleEndian 2 header.abiMinor ++
    littleEndian 4 header.endianMarker ++ littleEndian 4 header.headerSize ++
    littleEndian 4 header.blockSize ++ littleEndian 4 header.blockCount ++
    littleEndian 4 header.padding ++ littleEndian 8 header.mappingSize ++
    littleEndian 8 header.generation ++ littleEndian 8 header.instanceNonceHi ++
    littleEndian 8 header.instanceNonceLo ++ header.schemaFingerprint ++
    littleEndian 4 header.schemaVersion

/-- The bytes behind the checksum. -/
def back (header : SharedBufferPoolHeaderAbi) : List Nat :=
  header.creator.bytes ++ header.reserved ++ header.tail

/-- What the checksum covers. -/
def masked (header : SharedBufferPoolHeaderAbi) : List Nat :=
  header.front ++ littleEndian 4 0 ++ littleEndian 8 0 ++ header.back

theorem bytes_eq (header : SharedBufferPoolHeaderAbi) :
    header.bytes = header.front ++ littleEndian 4 header.initState ++
      littleEndian 8 header.headerChecksum ++ header.back := by
  unfold bytes front back
  simp only [List.append_assoc]

/-- The record that 192 bytes are. -/
def ofBytes (b : List Nat) : SharedBufferPoolHeaderAbi where
  magic := slice 0 8 b
  abiMajor := wordAt 8 2 b
  abiMinor := wordAt 10 2 b
  endianMarker := wordAt 12 4 b
  headerSize := wordAt 16 4 b
  blockSize := wordAt 20 4 b
  blockCount := wordAt 24 4 b
  padding := wordAt 28 4 b
  mappingSize := wordAt 32 8 b
  generation := wordAt 40 8 b
  instanceNonceHi := wordAt 48 8 b
  instanceNonceLo := wordAt 56 8 b
  schemaFingerprint := slice 64 32 b
  schemaVersion := wordAt 96 4 b
  initState := wordAt 100 4 b
  headerChecksum := wordAt 104 8 b
  creator := ⟨wordAt 112 8 b, wordAt 120 8 b, wordAt 128 8 b, wordAt 136 8 b⟩
  reserved := slice 144 24 b
  tail := slice 168 24 b

theorem bytes_ofBytes (hb : IsBytes b) (length : b.length = sharedBufferPoolHeaderSize) :
    (ofBytes b).bytes = b := by
  have word : ∀ offset size, offset + size ≤ 192 →
      littleEndian size (wordAt offset size b) = slice offset size b :=
    fun _ _ h => littleEndian_wordAt hb (length ▸ h)
  have first : slice 0 8 b = b.take 8 := rfl
  unfold bytes OwnerAbi.bytes ofBytes
  simp (disch := decide) only [word]
  simp only [first, ← List.append_assoc, take_append_slice, Nat.reduceAdd]
  exact List.take_of_length_le (Nat.le_of_eq length)

/-- The arrays of the header have their sizes. -/
structure Shaped (header : SharedBufferPoolHeaderAbi) : Prop where
  magic : header.magic.length = 8
  magic_bytes : IsBytes header.magic
  fingerprint : header.schemaFingerprint.length = 32
  fingerprint_bytes : IsBytes header.schemaFingerprint
  reserved : header.reserved.length = 24
  reserved_bytes : IsBytes header.reserved
  tail : header.tail.length = 24
  tail_bytes : IsBytes header.tail

theorem shaped_ofBytes (hb : IsBytes b) (length : b.length = sharedBufferPoolHeaderSize) :
    (ofBytes b).Shaped where
  magic := length_slice (by rw [length]; decide)
  magic_bytes := hb.slice
  fingerprint := length_slice (by rw [length]; decide)
  fingerprint_bytes := hb.slice
  reserved := length_slice (by rw [length]; decide)
  reserved_bytes := hb.slice
  tail := length_slice (by rw [length]; decide)
  tail_bytes := hb.slice

theorem Shaped.length_front (h : header.Shaped) : header.front.length = 100 := by
  unfold front
  simp only [List.length_append, length_littleEndian, h.magic, h.fingerprint]

theorem Shaped.length_bytes (h : header.Shaped) :
    header.bytes.length = sharedBufferPoolHeaderSize := by
  rw [bytes_eq]
  unfold back
  simp only [List.length_append, length_littleEndian, OwnerAbi.length_bytes, h.length_front,
    h.reserved, h.tail]
  rfl

theorem Shaped.isBytes_masked (h : header.Shaped) : IsBytes header.masked := by
  unfold masked front back
  simp only [isBytes_append, isBytes_littleEndian, OwnerAbi.isBytes_bytes, h.magic_bytes,
    h.fingerprint_bytes, h.reserved_bytes, h.tail_bytes, and_self]

theorem Shaped.isBytes_bytes (h : header.Shaped) : IsBytes header.bytes := by
  rw [bytes_eq]
  unfold front back
  simp only [isBytes_append, isBytes_littleEndian, OwnerAbi.isBytes_bytes, h.magic_bytes,
    h.fingerprint_bytes, h.reserved_bytes, h.tail_bytes, and_self]

/-- The state word in its place. -/
theorem Shaped.slice_initState (h : header.Shaped) :
    slice 100 4 header.bytes = littleEndian 4 header.initState := by
  rw [bytes_eq, List.append_assoc]
  exact slice_append h.length_front (length_littleEndian 4 _)

/-- A change of one byte that spares the state word is in what the checksum covers, or in
the checksum. -/
theorem Shaped.changed (h : header.Shaped) (h' : header'.Shaped)
    (state : slice 100 4 header.bytes = slice 100 4 header'.bytes)
    (change : OneChange header.bytes header'.bytes) :
    (OneChange header.masked header'.masked ∧
      littleEndian 8 header.headerChecksum = littleEndian 8 header'.headerChecksum) ∨
    (header.masked = header'.masked ∧
      OneChange (littleEndian 8 header.headerChecksum)
        (littleEndian 8 header'.headerChecksum)) := by
  rw [h.slice_initState, h'.slice_initState] at state
  rw [bytes_eq, bytes_eq] at change
  have parts := OneChange.masked (b := []) (littleEndian 4 0) (littleEndian 8 0)
    (h.length_front.trans h'.length_front.symm) state rfl
    ((length_littleEndian 8 _).trans (length_littleEndian 8 _).symm)
    (by simpa only [List.append_nil] using change)
  simpa only [masked, List.append_nil] using parts

end SharedBufferPoolHeaderAbi

theorem sharedBufferPoolHeaderChecksum_eq (header : SharedBufferPoolHeaderAbi) :
    sharedBufferPoolHeaderChecksum header = fnv1a64 header.masked := by
  have same : { header with initState := 0, headerChecksum := 0 }.front = header.front := rfl
  have same' : { header with initState := 0, headerChecksum := 0 }.back = header.back := rfl
  rw [sharedBufferPoolHeaderChecksum, SharedBufferPoolHeaderAbi.bytes_eq, same, same',
    SharedBufferPoolHeaderAbi.masked]

/-- A header that matched its checksum is refused once one byte of it has changed and that
byte is not in the state word. -/
theorem sharedBufferPoolValidateHeader_changed {header : SharedBufferPoolHeaderAbi}
    {options : SharedBufferPoolOptions} {size i x : Nat} (shaped : header.Shaped)
    (sealed : header.headerChecksum = sharedBufferPoolHeaderChecksum header)
    (hi : i < sharedBufferPoolHeaderSize) (spared : i < 100 ∨ 104 ≤ i) (hx : x < 256)
    (other : header.bytes[i]? ≠ some x) :
    ∃ e, sharedBufferPoolValidateHeader (.ofBytes (header.bytes.set i x)) size options =
      .error e := by
  have change := OneChange.set (shaped.length_bytes.symm ▸ hi) other
  have hb : IsBytes (header.bytes.set i x) := shaped.isBytes_bytes.set hx
  have state : slice 100 4 (header.bytes.set i x) = slice 100 4 header.bytes :=
    slice_set x spared
  generalize header.bytes.set i x = b at change hb state
  have length := change.length_eq.symm.trans shaped.length_bytes
  have shaped' := SharedBufferPoolHeaderAbi.shaped_ofBytes hb length
  have fits : (SharedBufferPoolHeaderAbi.ofBytes b).headerChecksum < 2 ^ 64 :=
    wordAt_lt hb (by rw [length]; decide)
  rw [← SharedBufferPoolHeaderAbi.bytes_ofBytes hb length] at change state
  have parts := shaped.changed shaped' state.symm change
  rw [sealed, sharedBufferPoolHeaderChecksum_eq] at parts
  have mismatch := fnv1a64_ne_stored fits shaped.isBytes_masked shaped'.isBytes_masked parts
  rw [← sharedBufferPoolHeaderChecksum_eq] at mismatch
  cases checked : sharedBufferPoolValidateHeader (.ofBytes b) size options with
  | error e => exact ⟨e, rfl⟩
  | ok _ =>
      obtain ⟨_, _, _, _, _, _, _, sum, _⟩ := sharedBufferPoolValidateHeader_ok.1 checked
      exact (mismatch sum.symm).elim

theorem sharedBufferPoolCreateHeader_shaped {options : SharedBufferPoolOptions}
    (mapping nonceHi nonceLo : Nat) (self : ProcessIdentity) (h : options.schema.Shaped) :
    (sharedBufferPoolCreateHeader options mapping nonceHi nonceLo self).Shaped where
  magic := rfl
  magic_bytes := (by decide : IsBytes sharedBufferPoolMagic)
  fingerprint := h.length
  fingerprint_bytes := h.bytes
  reserved := List.length_replicate
  reserved_bytes := (by decide : IsBytes (List.replicate 24 0))
  tail := List.length_replicate
  tail_bytes := (by decide : IsBytes (List.replicate 24 0))

end EdgeRuntime

import EdgeRuntime.Channel.Layout
import EdgeRuntime.Common.Checksum
import EdgeRuntime.Common.Options

/-!
The fixed records of a channel segment: the bootstrap record a creator writes first
and the header fields that are settled before the instance is READY, with the
checks that an opener makes on them.
-/
namespace EdgeRuntime

def bootstrapMagic : List Nat := "EDGBOOT1".toList.map Char.toNat
def channelHeaderMagic : String := "EDGERT01"
def abiMajor : Nat := 1
def abiMinor : Nat := 0
def abiMinorMax : Nat := 1
def endianMarker : Nat := 0x01020304
def bootstrapHeaderSize : Nat := 128
def channelHeaderSize : Nat := 320

structure BootstrapHeaderAbi where
  magic : List Nat
  abiMajor : Nat
  abiMinor : Nat
  headerSize : Nat
  expectedMappingSize : Nat
  creatorNonceHi : Nat
  creatorNonceLo : Nat
  creator : ProcessIdentity
  initState : Nat
  reserved0 : Nat
  bootstrapChecksum : Nat
  /-- The last 40 bytes. -/
  reserved : List Nat
  deriving DecidableEq, Repr

namespace BootstrapHeaderAbi

/-- The bytes before the state word. -/
def front (boot : BootstrapHeaderAbi) : List Nat :=
  boot.magic ++ littleEndian 2 boot.abiMajor ++
    littleEndian 2 boot.abiMinor ++ littleEndian 4 boot.headerSize ++
    littleEndian 8 boot.expectedMappingSize ++ littleEndian 8 boot.creatorNonceHi ++
    littleEndian 8 boot.creatorNonceLo ++ littleEndian 8 boot.creator.pid ++
    littleEndian 8 boot.creator.procStartTicks ++
    littleEndian 8 boot.creator.bootIdHashHi ++
    littleEndian 8 boot.creator.bootIdHashLo

def bytes (boot : BootstrapHeaderAbi) : List Nat :=
  boot.front ++ littleEndian 4 boot.initState ++ littleEndian 4 boot.reserved0 ++
    littleEndian 8 boot.bootstrapChecksum ++ boot.reserved

/-- The record that 128 bytes are. -/
def ofBytes (b : List Nat) : BootstrapHeaderAbi where
  magic := slice 0 8 b
  abiMajor := wordAt 8 2 b
  abiMinor := wordAt 10 2 b
  headerSize := wordAt 12 4 b
  expectedMappingSize := wordAt 16 8 b
  creatorNonceHi := wordAt 24 8 b
  creatorNonceLo := wordAt 32 8 b
  creator := ⟨wordAt 40 8 b, wordAt 48 8 b, wordAt 56 8 b, wordAt 64 8 b⟩
  initState := wordAt 72 4 b
  reserved0 := wordAt 76 4 b
  bootstrapChecksum := wordAt 80 8 b
  reserved := slice 88 40 b

end BootstrapHeaderAbi

def bootstrapChecksumOf (boot : BootstrapHeaderAbi) : Nat :=
  fnv1a64 { boot with initState := 0, bootstrapChecksum := 0 }.bytes

def validateBootstrapParse (boot : BootstrapHeaderAbi) (shmSize : Nat) :
    Except Error Unit :=
  let operation := "validate_bootstrap_parse"
  if boot.magic ≠ bootstrapMagic then
    .error (makeError .corruptHeader operation "bootstrap magic")
  else if boot.abiMajor ≠ abiMajor ∨ boot.abiMinor > abiMinorMax then
    .error (makeError .abiMismatch operation "bootstrap abi")
  else if boot.headerSize ≠ bootstrapHeaderSize then
    .error (makeError .corruptHeader operation "bootstrap header size")
  else if boot.expectedMappingSize = 0 then
    .error (makeError .corruptHeader operation "bootstrap mapping size")
  else if bootstrapChecksumOf boot ≠ boot.bootstrapChecksum then
    .error (makeError .corruptHeader operation "bootstrap checksum")
  else if shmSize ≠ 0 ∧ shmSize < bootstrapHeaderSize then
    .error (makeError .initializationIncomplete operation "segment too small")
  else .ok ()

/-- The fields of the header that are fixed before the instance is READY. -/
structure ChannelHeaderAbi where
  magic : String
  abiMajor : Nat
  abiMinor : Nat
  headerSize : Nat
  endianMarker : Nat
  slotCount : Nat
  payloadSize : Nat
  schemaVersion : Nat
  mappingSize : Nat
  schemaFingerprint : List Nat
  generation : Nat
  instanceNonceHi : Nat
  instanceNonceLo : Nat
  heartbeatIntervalNs : Nat
  deriving DecidableEq, Repr

def validateHeaderParse (h : ChannelHeaderAbi) (schema : SchemaDescriptor)
    (payloadSize : Nat) : Except Error Unit :=
  let operation := "validate_header_parse"
  if h.magic ≠ channelHeaderMagic then
    .error (makeError .corruptHeader operation "header magic")
  else if h.abiMajor ≠ abiMajor ∨ h.abiMinor > abiMinorMax then
    .error (makeError .abiMismatch operation "header abi")
  else if h.headerSize ≠ channelHeaderSize then
    .error (makeError .corruptHeader operation "header size")
  else if h.endianMarker ≠ EdgeRuntime.endianMarker then
    .error (makeError .corruptHeader operation "endian marker")
  else if h.slotCount ≠ EdgeRuntime.slotCount then
    .error (makeError .corruptHeader operation "slot count")
  else if h.payloadSize ≠ payloadSize then
    .error (makeError .schemaMismatch operation "payload size")
  else if h.schemaVersion ≠ schema.version then
    .error (makeError .schemaMismatch operation "schema version")
  else if h.schemaFingerprint ≠ schema.fingerprint then
    .error (makeError .schemaMismatch operation "schema fingerprint")
  else if h.mappingSize < channelHeaderOffset + slotHeaderSize then
    .error (makeError .corruptHeader operation "mapping too small")
  else if h.generation = 0 then
    .error (makeError .corruptHeader operation "zero generation")
  else if h.instanceNonceHi = 0 ∧ h.instanceNonceLo = 0 then
    .error (makeError .corruptHeader operation "zero instance nonce")
  else .ok ()

def heartbeatIntervalOf (options : ChannelOptions) : Nat :=
  if options.heartbeatIntervalNs > 0 then options.heartbeatIntervalNs.toNat else 0

def abiMinorOf (options : ChannelOptions) : Nat :=
  if heartbeatIntervalOf options > 0 then abiMinorMax else abiMinor

/-- The bootstrap record as its creator writes it. -/
def createBootstrap (options : ChannelOptions) (mapping nonceHi nonceLo : Nat)
    (self : ProcessIdentity) : BootstrapHeaderAbi :=
  let boot : BootstrapHeaderAbi :=
    ⟨bootstrapMagic, abiMajor, abiMinorOf options, bootstrapHeaderSize, mapping, nonceHi,
      nonceLo, self, InitState.initializing.code, 0, 0, List.replicate 40 0⟩
  { boot with bootstrapChecksum := bootstrapChecksumOf boot }

/-- The header as its creator fills it in. -/
def createHeader (options : ChannelOptions) (schema : SchemaDescriptor)
    (payloadSize mapping generation nonceHi nonceLo : Nat) : ChannelHeaderAbi :=
  ⟨channelHeaderMagic, abiMajor, abiMinorOf options, channelHeaderSize, endianMarker,
    slotCount, payloadSize, schema.version, mapping, schema.fingerprint, generation,
    nonceHi, nonceLo, heartbeatIntervalOf options⟩

def payloadAndSchemaValid (options : ChannelOptions) (schema : SchemaDescriptor)
    (payloadSize : Nat) : Bool :=
  validateChannelName options.name && payloadSize ≠ 0 && payloadSize ≤ maxPayloadSize &&
    schemaFingerprintSet schema

theorem abiMinorOf_le (options : ChannelOptions) : abiMinorOf options ≤ abiMinorMax := by
  simp only [abiMinorOf]
  split <;> decide

/-- The checksum covers neither itself nor the state word. -/
theorem bootstrapChecksumOf_congr (boot : BootstrapHeaderAbi) (state checksum : Nat) :
    bootstrapChecksumOf { boot with initState := state, bootstrapChecksum := checksum } =
      bootstrapChecksumOf boot := by
  cases boot
  simp only [bootstrapChecksumOf]

theorem createBootstrap_checksum (options : ChannelOptions) (mapping nonceHi nonceLo : Nat)
    (self : ProcessIdentity) (state : Nat) :
    bootstrapChecksumOf
        { createBootstrap options mapping nonceHi nonceLo self with initState := state } =
      { createBootstrap options mapping nonceHi nonceLo self with
        initState := state }.bootstrapChecksum := by
  simp only [createBootstrap]
  generalize hb : (⟨bootstrapMagic, abiMajor, abiMinorOf options, bootstrapHeaderSize,
    mapping, nonceHi, nonceLo, self, InitState.initializing.code, 0, 0,
    List.replicate 40 0⟩ : BootstrapHeaderAbi) = boot
  have sum := bootstrapChecksumOf_congr boot state (bootstrapChecksumOf boot)
  subst hb
  exact sum

/-- What a creator writes passes the opener's check, in every state of the record. -/
theorem validateBootstrapParse_create (options : ChannelOptions)
    {mapping nonceHi nonceLo state size : Nat} {self : ProcessIdentity}
    (hm : mapping ≠ 0) (hs : bootstrapHeaderSize ≤ size) :
    validateBootstrapParse
      { createBootstrap options mapping nonceHi nonceLo self with initState := state } size =
      .ok () := by
  have minor := abiMinorOf_le options
  have large : ¬ (size ≠ 0 ∧ size < bootstrapHeaderSize) := by omega
  have sum := createBootstrap_checksum options mapping nonceHi nonceLo self state
  simp only [validateBootstrapParse, sum]
  simp [createBootstrap, hm, Nat.not_lt.2 minor, large]

namespace BootstrapHeaderAbi
variable {boot boot' : BootstrapHeaderAbi} {b : List Nat}

/-- What the checksum covers. -/
def masked (boot : BootstrapHeaderAbi) : List Nat :=
  boot.front ++ littleEndian 4 0 ++ littleEndian 4 boot.reserved0 ++ littleEndian 8 0 ++
    boot.reserved

theorem bytes_ofBytes (hb : IsBytes b) (length : b.length = bootstrapHeaderSize) :
    (ofBytes b).bytes = b := by
  have word : ∀ offset size, offset + size ≤ 128 →
      littleEndian size (wordAt offset size b) = slice offset size b :=
    fun _ _ h => littleEndian_wordAt hb (length ▸ h)
  have first : slice 0 8 b = b.take 8 := rfl
  unfold bytes front ofBytes
  simp (disch := decide) only [word]
  simp only [first, take_append_slice, Nat.reduceAdd]
  exact List.take_of_length_le (Nat.le_of_eq length)

/-- The arrays of the record have their sizes. -/
structure Shaped (boot : BootstrapHeaderAbi) : Prop where
  magic : boot.magic.length = 8
  magic_bytes : IsBytes boot.magic
  reserved : boot.reserved.length = 40
  reserved_bytes : IsBytes boot.reserved

theorem shaped_ofBytes (hb : IsBytes b) (length : b.length = bootstrapHeaderSize) :
    (ofBytes b).Shaped where
  magic := length_slice (by rw [length]; decide)
  magic_bytes := hb.slice
  reserved := length_slice (by rw [length]; decide)
  reserved_bytes := hb.slice

theorem Shaped.length_front (h : boot.Shaped) : boot.front.length = 72 := by
  unfold front
  simp only [List.length_append, length_littleEndian, h.magic]

theorem Shaped.length_bytes (h : boot.Shaped) : boot.bytes.length = bootstrapHeaderSize := by
  unfold bytes
  simp only [List.length_append, length_littleEndian, h.length_front, h.reserved]
  rfl

theorem Shaped.isBytes_masked (h : boot.Shaped) : IsBytes boot.masked := by
  unfold masked front
  simp only [isBytes_append, isBytes_littleEndian, h.magic_bytes, h.reserved_bytes, and_self]

theorem Shaped.isBytes_bytes (h : boot.Shaped) : IsBytes boot.bytes := by
  unfold bytes front
  simp only [isBytes_append, isBytes_littleEndian, h.magic_bytes, h.reserved_bytes, and_self]

/-- The state word in its place. -/
theorem Shaped.slice_initState (h : boot.Shaped) :
    slice 72 4 boot.bytes = littleEndian 4 boot.initState := by
  unfold bytes
  rw [List.append_assoc, List.append_assoc]
  exact slice_append h.length_front (length_littleEndian 4 _)

/-- A change of one byte that spares the state word is in what the checksum covers, or in
the checksum. -/
theorem Shaped.changed (h : boot.Shaped) (h' : boot'.Shaped)
    (state : slice 72 4 boot.bytes = slice 72 4 boot'.bytes)
    (change : OneChange boot.bytes boot'.bytes) :
    (OneChange boot.masked boot'.masked ∧
      littleEndian 8 boot.bootstrapChecksum = littleEndian 8 boot'.bootstrapChecksum) ∨
    (boot.masked = boot'.masked ∧
      OneChange (littleEndian 8 boot.bootstrapChecksum)
        (littleEndian 8 boot'.bootstrapChecksum)) := by
  rw [h.slice_initState, h'.slice_initState] at state
  refine OneChange.masked (littleEndian 4 0) (littleEndian 8 0) ?_ state ?_ ?_ change
  · rw [h.length_front, h'.length_front]
  · rw [length_littleEndian, length_littleEndian]
  · rw [length_littleEndian, length_littleEndian]

end BootstrapHeaderAbi

theorem bootstrapChecksumOf_eq (boot : BootstrapHeaderAbi) :
    bootstrapChecksumOf boot = fnv1a64 boot.masked := by
  have same : { boot with initState := 0, bootstrapChecksum := 0 }.bytes = boot.masked := rfl
  rw [bootstrapChecksumOf, same]

/-- A record that matches its checksum is refused once one byte of it has changed and that
byte is not in the state word. -/
theorem validateBootstrapParse_changed {boot : BootstrapHeaderAbi} {size i x : Nat}
    (shaped : boot.Shaped) (sealed : bootstrapChecksumOf boot = boot.bootstrapChecksum)
    (hi : i < bootstrapHeaderSize) (spared : i < 72 ∨ 76 ≤ i) (hx : x < 256)
    (other : boot.bytes[i]? ≠ some x) :
    ∃ e, validateBootstrapParse (.ofBytes (boot.bytes.set i x)) size = .error e := by
  have change := OneChange.set (shaped.length_bytes.symm ▸ hi) other
  have hb : IsBytes (boot.bytes.set i x) := shaped.isBytes_bytes.set hx
  have state : slice 72 4 (boot.bytes.set i x) = slice 72 4 boot.bytes := slice_set x spared
  generalize boot.bytes.set i x = b at change hb state
  have length := change.length_eq.symm.trans shaped.length_bytes
  have shaped' := BootstrapHeaderAbi.shaped_ofBytes hb length
  have fits : (BootstrapHeaderAbi.ofBytes b).bootstrapChecksum < 2 ^ 64 :=
    wordAt_lt hb (by rw [length]; decide)
  rw [← BootstrapHeaderAbi.bytes_ofBytes hb length] at change state
  have parts := shaped.changed shaped' state.symm change
  rw [← sealed, bootstrapChecksumOf_eq] at parts
  have mismatch := fnv1a64_ne_stored fits shaped.isBytes_masked shaped'.isBytes_masked parts
  rw [← bootstrapChecksumOf_eq] at mismatch
  cases checked : validateBootstrapParse (.ofBytes b) size with
  | error e => exact ⟨e, rfl⟩
  | ok _ =>
      simp only [validateBootstrapParse, ite_error_eq_ok] at checked
      exact (checked.2.2.2.2.1 mismatch).elim

theorem createBootstrap_shaped (options : ChannelOptions) (mapping nonceHi nonceLo : Nat)
    (self : ProcessIdentity) (state : Nat) :
    { createBootstrap options mapping nonceHi nonceLo self with initState := state }.Shaped where
  magic := rfl
  magic_bytes := (by decide : IsBytes bootstrapMagic)
  reserved := List.length_replicate
  reserved_bytes := (by decide : IsBytes (List.replicate 40 0))

theorem validateHeaderParse_ok {h : ChannelHeaderAbi} {schema : SchemaDescriptor}
    {payloadSize : Nat} : validateHeaderParse h schema payloadSize = .ok () ↔
      h.magic = channelHeaderMagic ∧ (h.abiMajor = abiMajor ∧ h.abiMinor ≤ abiMinorMax) ∧
      h.headerSize = channelHeaderSize ∧ h.endianMarker = endianMarker ∧
      h.slotCount = slotCount ∧ h.payloadSize = payloadSize ∧
      h.schemaVersion = schema.version ∧ h.schemaFingerprint = schema.fingerprint ∧
      channelHeaderOffset + slotHeaderSize ≤ h.mappingSize ∧ h.generation ≠ 0 ∧
      (h.instanceNonceHi = 0 → h.instanceNonceLo ≠ 0) := by
  simp only [validateHeaderParse, ite_error_eq_ok, not_or, not_and, Decidable.not_not,
    Nat.not_lt, gt_iff_lt, ne_eq, and_true]

theorem validateHeaderParse_create (options : ChannelOptions) (schema : SchemaDescriptor)
    {payloadSize mapping generation nonceHi nonceLo : Nat}
    (hm : channelHeaderOffset + slotHeaderSize ≤ mapping) (hg : generation ≠ 0)
    (hn : nonceHi = 0 → nonceLo ≠ 0) :
    validateHeaderParse
      (createHeader options schema payloadSize mapping generation nonceHi nonceLo) schema
      payloadSize = .ok () :=
  validateHeaderParse_ok.2 ⟨rfl, ⟨rfl, abiMinorOf_le options⟩, rfl, rfl, rfl, rfl, rfl, rfl,
    hm, hg, hn⟩

end EdgeRuntime

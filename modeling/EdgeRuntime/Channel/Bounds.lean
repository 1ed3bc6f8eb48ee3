import EdgeRuntime.Channel.Runs
import EdgeRuntime.Sync.Alone

/-!
Where the words of a channel lie in its segment, and whether a consumer's accesses stay
inside. The checks of an open compare the size of the segment with the bootstrap record
only, and never with the slots that the payload size asks for.
-/
namespace EdgeRuntime
open Concurrent

def IdentityWord.offset : IdentityWord → Nat
  | .roleEpoch => 0
  | .pid => 8
  | .procStartTicks => 16
  | .bootIdHashHi => 24
  | .bootIdHashLo => 32

/-- The first byte and the number of bytes of a word; handles lie outside the segment. -/
def ChannelLoc.place (stride : Nat) : ChannelLoc → Option (Nat × Nat)
  | .bootInitState => some (72, 4)
  | .identity true word => some (channelHeaderOffset + 128 + word.offset, 8)
  | .identity false word => some (channelHeaderOffset + 192 + word.offset, 8)
  | .latestTicket => some (channelHeaderOffset + 256, 8)
  | .notifyEpoch => some (channelHeaderOffset + 264, 4)
  | .initState => some (channelHeaderOffset + 268, 4)
  | .producerState => some (channelHeaderOffset + 272, 4)
  | .consumerState => some (channelHeaderOffset + 276, 4)
  | .publishCount => some (channelHeaderOffset + 280, 8)
  | .readCount => some (channelHeaderOffset + 288, 8)
  | .lastPublishBootNs => some (channelHeaderOffset + 296, 8)
  | .heartbeatBootNs => some (channelHeaderOffset + 304, 8)
  | .slotState i => some (firstSlotOffset + i * stride, 4)
  | .slotPayloadSize i => some (firstSlotOffset + i * stride + 4, 4)
  | .slotSequence i => some (firstSlotOffset + i * stride + 8, 8)
  | .slotPublishBootNs i => some (firstSlotOffset + i * stride + 16, 8)
  | .slotChecksum i => some (firstSlotOffset + i * stride + 24, 8)
  | .slotReaderEpoch i => some (firstSlotOffset + i * stride + 32, 8)
  | .slotPayload i j => some (firstSlotOffset + i * stride + slotHeaderSize + j, 1)
  | .handle _ _ => none

/-- The word an instruction touches. -/
def Instr.word? {L : Type} : Instr L → Option L
  | .load l | .store l _ | .cas l _ _ | .fetchAdd l _ _ | .watch l | .futexWake l _
  | .futexSleep l _ => some l
  | _ => none

/-- The instruction touches no byte of the segment beyond its size. -/
def Inside (stride size : Nat) (i : Instr ChannelLoc) : Prop :=
  ∀ l offset width, i.word? = some l → l.place stride = some (offset, width) →
    offset + width ≤ size

section
variable {stride size payloadSize n i : Nat} {l : ChannelLoc} {α : Type}
  {handle : ConsumerHandle} {operation : String}

/-- The slots that a payload size asks for. -/
def SlotsFit (stride payloadSize size : Nat) : Prop :=
  firstSlotOffset + 2 * stride + slotHeaderSize + payloadSize ≤ size

/-- A word of the header, of one of the three slots, or of its payload. -/
def ChannelLoc.Known (payloadSize : Nat) : ChannelLoc → Prop
  | .slotState i | .slotPayloadSize i | .slotSequence i | .slotPublishBootNs i
  | .slotChecksum i | .slotReaderEpoch i => i < slotCount
  | .slotPayload i j => i < slotCount ∧ j < payloadSize
  | _ => True

/-- If the slots fit, so does every word. -/
theorem place_le (fit : SlotsFit stride payloadSize size) {offset width : Nat}
    (known : l.Known payloadSize) (place : l.place stride = some (offset, width)) :
    offset + width ≤ size := by
  have inside : ∀ i, i < slotCount → i * stride ≤ 2 * stride := fun i hi =>
    Nat.mul_le_mul_right stride (Nat.le_of_lt_succ hi)
  unfold SlotsFit firstSlotOffset slotHeaderSize at fit
  cases l with
  | identity producer word =>
      cases producer <;> cases word <;> cases place <;>
        simp only [channelHeaderOffset, IdentityWord.offset] <;> omega
  | handle e w => cases place
  | slotPayload i j =>
      have le := inside i known.1
      have lt := known.2
      cases place
      simp only [firstSlotOffset, slotHeaderSize]
      omega
  | slotState i | slotPayloadSize i | slotSequence i | slotPublishBootNs i | slotChecksum i
  | slotReaderEpoch i =>
      have le := inside i known
      cases place
      simp only [firstSlotOffset]
      omega
  | bootInitState =>
      cases place
      omega
  | _ =>
      cases place
      simp only [channelHeaderOffset]
      omega

/-- Every word the program touches is one of the channel's. -/
def Confined (payloadSize : Nat) (p : ChannelCode α) : Prop :=
  p.All fun i => ∀ l, i.word? = some l → l.Known payloadSize

theorem Confined.inside {p : ChannelCode α} (fit : SlotsFit stride payloadSize size)
    (confined : Confined payloadSize p) : p.All (Inside stride size) :=
  Prog.All.mono (fun _ known l _ _ word place => place_le fit (known l word) place) confined

theorem confined_load {k : Nat → ChannelCode α} (known : l.Known payloadSize)
    (h : ∀ v, Confined payloadSize (k v)) : Confined payloadSize (sharedLoad l >>= k) :=
  ⟨fun _ word => Option.some.inj word ▸ known, h⟩

theorem confined_store {v : Nat} {k : Unit → ChannelCode α} (known : l.Known payloadSize)
    (h : Confined payloadSize (k ())) : Confined payloadSize (sharedStore l v >>= k) :=
  ⟨fun _ word => Option.some.inj word ▸ known, fun _ => h⟩

theorem confined_cas {expected v : Nat} {k : Bool → ChannelCode α} (known : l.Known payloadSize)
    (h : ∀ b, Confined payloadSize (k b)) : Confined payloadSize (sharedCas l expected v >>= k) :=
  ⟨fun _ word => Option.some.inj word ▸ known, h⟩

theorem confined_bind {β : Type} {p : ChannelCode β} {k : β → ChannelCode α}
    (hp : Confined payloadSize p) (hk : ∀ b, Confined payloadSize (k b)) :
    Confined payloadSize (p >>= k) := Prog.all_bind hp hk

theorem confined_slotReleaseRead (slot : i < slotCount) :
    Confined payloadSize (slotReleaseRead i) :=
  confined_store slot ⟨fun _ word => Option.some.inj word ▸ slot, fun _ => trivial⟩

theorem confined_reclaimSlot {old : Nat} (slot : i < slotCount) :
    Confined payloadSize (reclaimSlot old i) := by
  rw [reclaimSlot]
  refine confined_load slot fun state => ?_
  split
  · refine confined_load slot fun epoch => ?_
    split
    · trivial
    · exact confined_slotReleaseRead slot
  · split
    · refine confined_load slot fun epoch => ?_
      split
      · trivial
      · exact confined_slotReleaseRead slot
    · trivial

theorem confined_reclaimSlots {old : Nat} {slots : List Nat} (known : ∀ i ∈ slots, i < slotCount) :
    Confined payloadSize (reclaimSlots old stride slots) := by
  induction slots with
  | nil => trivial
  | cons i rest ih =>
      rw [reclaimSlots]
      split
      · trivial
      · apply confined_bind (confined_reclaimSlot (known i (by simp)))
        exact fun _ => ih fun j hj => known j (by simp [hj])

theorem confined_reclaimDeadConsumerSlots (old size : Nat) :
    Confined payloadSize (reclaimDeadConsumerSlots size old) := by
  unfold reclaimDeadConsumerSlots
  split
  · trivial
  · exact confined_reclaimSlots fun i hi => List.mem_range.1 hi

theorem confined_fnv1a64From (slot : i < slotCount) {j count hash : Nat}
    (bound : j + count ≤ payloadSize) :
    Confined payloadSize (fnv1a64From (.slotPayload i) j count hash) := by
  induction count generalizing j hash with
  | zero => trivial
  | succ count ih =>
      refine confined_load ⟨slot, by omega⟩ fun _ => ?_
      exact ih (by omega)

theorem confined_releaseAndThrow {e : Error} (slot : i < slotCount) :
    Confined payloadSize (releaseAndThrow i e : ChannelCode α) :=
  confined_bind (confined_slotReleaseRead slot) fun _ => trivial

theorem confined_checkClaimedSlot (slot : i < slotCount) :
    Confined handle.payloadSize (checkClaimedSlot n handle operation i) := by
  rw [checkClaimedSlot]
  refine confined_load slot fun size => ?_
  refine confined_load slot fun sequence => ?_
  refine confined_load slot fun publishBootNs => ?_
  refine confined_load slot fun expected => ?_
  split
  · exact confined_releaseAndThrow slot
  · rename_i fits
    have fits : size = handle.payloadSize := Decidable.not_not.1 fits
    refine ⟨fun _ word => (nomatch word), fun (receiveBootNs : Nat) => ?_⟩
    change Confined handle.payloadSize (if receiveBootNs = 0 then _ else _)
    split
    · exact confined_releaseAndThrow slot
    · apply confined_bind
      · exact confined_fnv1a64From slot (by omega)
      · intro actual
        split
        · exact confined_releaseAndThrow slot
        · rw [acceptSample]
          refine confined_load trivial fun first => ?_
          refine confined_load trivial fun last => ?_
          refine confined_store trivial ?_
          refine confined_store trivial ?_
          exact ⟨fun _ word => Option.some.inj word ▸ trivial, fun _ => trivial⟩

theorem confined_claimAttempt :
    Confined handle.payloadSize (claimAttempt n handle operation stride) := by
  rw [claimAttempt]
  refine confined_load trivial fun ticket => ?_
  refine confined_load trivial fun last => ?_
  split
  · trivial
  · split
    · trivial
    · rename_i offset ho
      -- a ticket that names a fourth slot has no offset
      have slot : ticketSlot ticket < slotCount := by
        unfold slotByteOffset at ho
        split at ho
        · cases ho
        · rename_i lt
          exact Nat.not_le.1 lt
      refine confined_cas slot fun claimed => ?_
      split
      · trivial
      · rw [readClaimedSlot, slotMarkReading]
        refine confined_store slot ?_
        refine confined_store slot ?_
        refine confined_load slot fun sequence => ?_
        refine confined_load trivial fun latest => ?_
        split
        · exact confined_bind (confined_slotReleaseRead slot) fun _ => trivial
        · exact confined_bind (confined_checkClaimedSlot slot) fun _ => trivial

theorem confined_claimLatestUnlocked :
    Confined handle.payloadSize (claimLatestUnlocked n handle operation) := by
  unfold claimLatestUnlocked
  split
  · trivial
  · rename_i stride _
    generalize maxReadRetries = attempts
    induction attempts with
    | zero => trivial
    | succ attempts ih =>
        rw [claimLoop]
        apply confined_bind confined_claimAttempt
        intro claimed
        cases claimed with
        | some loan => trivial
        | none => exact ih

/-- Header and slots lie in the segment, and no access of a consumer leaves it, whatever
the words of the segment hold. -/
structure StaysInside (stride payloadSize size : Nat) : Prop where
  header : channelHeaderOffset + channelHeaderSize ≤ size
  slots : ∀ i, i < slotCount → ∃ offset, slotByteOffset i stride = some offset ∧
    offset + slotHeaderSize + payloadSize ≤ size
  claims : ∀ n handle operation, handle.payloadSize = payloadSize →
    (claimLatestUnlocked n handle operation).All (Inside stride size)
  reclaims : ∀ epoch, (reclaimDeadConsumerSlots payloadSize epoch).All (Inside stride size)

theorem slotStride_bounds (hs : slotStride payloadSize = some stride)
    (small : payloadSize ≤ maxPayloadSize) :
    slotHeaderSize + payloadSize ≤ stride ∧ stride < slotHeaderSize + payloadSize + 64 := by
  have fits : slotHeaderSize + payloadSize ≤ uint64Max := by
    have : slotHeaderSize + maxPayloadSize ≤ uint64Max := by decide
    omega
  obtain ⟨_, lower, upper, _⟩ := roundUpToMultipleU64_some fits hs
  exact ⟨lower, upper⟩

theorem slotByteOffset_eq (hs : slotStride payloadSize = some stride)
    (small : payloadSize ≤ maxPayloadSize) (slot : i < slotCount) :
    slotByteOffset i stride = some (firstSlotOffset + i * stride) := by
  have bound := (slotStride_bounds hs small).2
  have le : i * stride ≤ 2 * stride := Nat.mul_le_mul_right stride (Nat.le_of_lt_succ slot)
  have total : firstSlotOffset + i * stride ≤ uint64Max := by
    simp only [firstSlotOffset, slotHeaderSize, maxPayloadSize, uint64Max] at small bound ⊢
    omega
  have offset : checkedMulU64 i stride = some (i * stride) :=
    checkedMulU64_of_le (Nat.le_trans (Nat.le_add_left _ _) total)
  simp only [slotByteOffset, if_neg (Nat.not_le.2 slot), offset, Option.bind_eq_bind,
    Option.bind_some]
  exact checkedAddU64_of_le total

/-- The last slot decides. -/
theorem staysInside_iff (hs : slotStride payloadSize = some stride)
    (small : payloadSize ≤ maxPayloadSize) :
    StaysInside stride payloadSize size ↔ SlotsFit stride payloadSize size := by
  constructor
  · intro inside
    obtain ⟨offset, ho, le⟩ := inside.slots 2 (by decide)
    rw [slotByteOffset_eq hs small (by decide)] at ho
    cases ho
    exact le
  · intro fit
    refine ⟨?_, ?_, ?_, ?_⟩
    · have le : channelHeaderOffset + channelHeaderSize ≤ firstSlotOffset := by decide
      unfold SlotsFit at fit
      omega
    · intro i slot
      have le : i * stride ≤ 2 * stride :=
        Nat.mul_le_mul_right stride (Nat.le_of_lt_succ slot)
      refine ⟨_, slotByteOffset_eq hs small slot, ?_⟩
      unfold SlotsFit at fit
      omega
    · rintro n handle operation rfl
      exact confined_claimLatestUnlocked.inside fit
    · exact fun epoch => (confined_reclaimDeadConsumerSlots epoch payloadSize).inside fit

end

section
variable {segment : ChannelSegment} {env : OpenEnvironment} {self : ProcessIdentity}
  {n payloadSize stride dev ino size : Nat} {options : ChannelOptions}
  {schema : SchemaDescriptor} {handle : ConsumerHandle}

theorem payloadSize_le_of_open
    (opened : (consumerOpenImpl segment env self n options schema payloadSize).Returns
      handle) : payloadSize ≤ maxPayloadSize := by
  rw [consumerOpenImpl, openWith] at opened
  obtain ⟨_, checked, _⟩ := Prog.returns_bind opened
  have checked := Prog.returns_lift checked
  unfold openArgumentChecks at checked
  have range := (ite_error_eq_ok.1 (ite_error_eq_ok.1 checked).2).1
  omega

/-- The size of the segment is the one its bootstrap record gives. -/
theorem size_eq_of_open
    (opened : (consumerOpenImpl segment env self n options schema payloadSize).Returns handle)
    (object : openObject env options = .ok (dev, ino, size)) :
    size = segment.bootstrap.expectedMappingSize := by
  rw [consumerOpenImpl, openWith] at opened
  obtain ⟨_, _, opened⟩ := Prog.returns_bind opened
  obtain ⟨_, _, opened⟩ := Prog.returns_bind opened
  obtain ⟨found, same, opened⟩ := Prog.returns_bind opened
  have same := Prog.returns_lift same
  rw [object] at same
  cases same
  dsimp only [openMapped] at opened
  split at opened
  · exact opened.elim
  · obtain ⟨_, _, opened⟩ := Prog.returns_bind opened
    obtain ⟨initState, _, opened⟩ := Prog.returns_bind opened
    obtain ⟨_, checked, _⟩ := Prog.returns_bind opened
    have checked := Prog.returns_lift checked
    unfold openBootstrapChecks at checked
    obtain ⟨_, _, checked⟩ := except_bind_eq_ok.1 checked
    exact (Decidable.not_not.1 (ite_error_eq_ok.1 checked).1).symm

/-- After an open that succeeded, on whatever segment, no access leaves the segment,
exactly when the size in its bootstrap record leaves room for the third slot. -/
theorem open_staysInside_iff
    (opened : (consumerOpenImpl segment env self n options schema payloadSize).Returns handle)
    (object : openObject env options = .ok (dev, ino, size))
    (hs : slotStride payloadSize = some stride) :
    StaysInside stride payloadSize size ↔
      firstSlotOffset + 2 * stride + slotHeaderSize + payloadSize ≤
        segment.bootstrap.expectedMappingSize := by
  rw [← size_eq_of_open opened object]
  exact staysInside_iff hs (payloadSize_le_of_open opened)

end

namespace ChannelSystem

/-- An open of a segment that nobody else uses; its words are those of a new channel. -/
def lonelyOpen (segment : ChannelSegment) (env : OpenEnvironment) (payloadSize : Nat) :
    Except Error ConsumerHandle :=
  (tiny.memory.alone (fun _ _ _ => .alive) (fun _ => 5) (.consumer 0)
    (consumerOpenImpl segment env (tiny.self (.consumer 0)) 0 tiny.options tiny.schema
      payloadSize) (tiny.init fun _ _ => 0)).1

theorem open_staysInside_iff_tiny : StaysInside 128 1 832 := by
  have opened : (lonelyOpen tiny.segment tinyEnvironment 1).isOk = true := by decide +kernel
  obtain ⟨handle, opened⟩ := except_exists_ok opened
  exact (open_staysInside_iff (Prog.returns_solo _ opened) rfl rfl).2 (by decide)

/-- A segment that ends with its header, for payloads of 64 bytes. -/
def truncatedSegment : ChannelSegment :=
  ⟨createBootstrap tiny.options 448 1 1 ⟨1, 1, 1, 1⟩,
    createHeader tiny.options tiny.schema 64 448 1 1 1⟩

def truncatedEnvironment : OpenEnvironment := { tinyEnvironment with stat := .ok (1, 1, 448) }

/-- Its open succeeds, and already its first slot lies outside. -/
theorem truncated_segment_opens :
    (∃ handle, lonelyOpen truncatedSegment truncatedEnvironment 64 = .ok handle) ∧
      slotByteOffset 0 128 = some 448 ∧ ¬ 448 + slotHeaderSize + 64 ≤ 448 ∧
      ¬ StaysInside 128 64 448 := by
  have first : slotByteOffset 0 128 = some 448 := by decide
  refine ⟨except_exists_ok (by decide +kernel), first, by decide, ?_⟩
  intro inside
  obtain ⟨offset, ho, le⟩ := inside.slots 0 (by decide)
  rw [first] at ho
  cases ho
  exact absurd le (by decide)

end ChannelSystem
end EdgeRuntime

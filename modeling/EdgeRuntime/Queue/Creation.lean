import EdgeRuntime.Common.Options
import EdgeRuntime.Queue.Operations

/-!
Creation of a queue: the checks on its options and the words its segment starts
with.
-/
namespace EdgeRuntime

structure MpmcQueueOptions where
  name : String
  capacity : Nat
  deriving DecidableEq, Repr

def mpmcMaxNameLength : Nat := 64

def mpmcValidateOptions (options : MpmcQueueOptions) (schema : SchemaDescriptor)
    (payloadSize : Nat) : Except Error Unit :=
  if ¬ validateChannelName options.name ∨ options.name.length > mpmcMaxNameLength then
    .error (makeError .invalidName "MpmcQueue::options" "invalid queue name")
  else if options.capacity = 0 ∨ options.capacity > mpmcMaxCapacity ∨
      payloadSize = 0 ∨ payloadSize > mpmcMaxPayloadSize ∨ schema.version = 0 then
    .error (makeError .invalidOptions "MpmcQueue::options"
      "capacity, payload, or schema version out of range")
  else .ok ()

abbrev QueueMem : Type := Words QueueLoc

/-- The header words after the mapping is zeroed and before the slots are set. -/
def mpmcInitHeader : QueueMem :=
  let m : QueueMem := fun _ => 0
  let m := m.set .notifyEpoch 0
  let m := m.set (.gateEpoch true) 0
  let m := m.set (.gateEpoch false) 0
  m.set .initState MpmcInitState.initializing.code

/-- The body of the slot loop. -/
def mpmcInitSlot (capacity stride : Nat) (m : QueueMem) (i : Nat) :
    Except Error QueueMem :=
  match mpmcSlotOffset i capacity stride with
  | none => .error (makeError .invalidOptions "MpmcQueue::create" "slot offset overflow")
  | some _ =>
      .ok ((((m.set (.slotSequence i) i).set (.slotState i) MpmcSlotState.free.code).set
        (.slotTicket i) i).set (.slotEpoch i) 0)

/-- Creation up to the READY store. The object itself (its name, size and
immutable header) is settled by system calls that are taken to succeed here. -/
def mpmcCreateImpl (options : MpmcQueueOptions) (schema : SchemaDescriptor)
    (payloadSize : Nat) (identity : Except Error ProcessIdentity) :
    Except Error (MpmcQueueHandle × QueueMem) := do
  mpmcValidateOptions options schema payloadSize
  let self ← identity
  match mpmcMappingSizeFor options.capacity payloadSize with
  | none => .error (makeError .invalidOptions "MpmcQueue::create" "mapping size overflow")
  | some _ =>
    if self.pid = 0 ∨ self.procStartTicks = 0 ∨ self.bootIdHashHi = 0 ∨
        self.bootIdHashLo = 0 then
      .error (makeError .systemError "MpmcQueue::create" "identity or nonce failed")
    else
      match roundUpToMultipleU64 (mpmcSlotHeaderSize + payloadSize) 64 with
      | none =>
          .error (makeError .invalidOptions "MpmcQueue::create" "slot stride overflow")
      | some stride =>
          let m ← (List.range options.capacity).foldlM
            (mpmcInitSlot options.capacity stride) mpmcInitHeader
          return (⟨self, options.capacity, payloadSize, stride, false⟩,
            m.set .initState MpmcInitState.ready.code)

/-- What the slot loop leaves: the first `n` slots have an offset and are free and
numbered, every word outside the slots is untouched. -/
structure SlotsInitialised (capacity stride n : Nat) (m m' : QueueMem) : Prop where
  offset : ∀ i, i < n → (mpmcSlotOffset i capacity stride).isSome
  sequence : ∀ i, i < n → m' (.slotSequence i) = i
  state : ∀ i, i < n → m' (.slotState i) = MpmcSlotState.free.code
  epoch : ∀ i, i < n → m' (.slotEpoch i) = 0
  positions : m' .enqueuePosition = m .enqueuePosition ∧
    m' .dequeuePosition = m .dequeuePosition
  gates : ∀ g, m' (.gateState g) = m (.gateState g) ∧
    m' (.gateEpoch g) = m (.gateEpoch g)

theorem mpmcInitSlot_ok {capacity stride i : Nat} {m m' : QueueMem}
    (h : mpmcInitSlot capacity stride m i = .ok m') :
    (mpmcSlotOffset i capacity stride).isSome ∧
    m' = (((m.set (.slotSequence i) i).set (.slotState i) MpmcSlotState.free.code).set
      (.slotTicket i) i).set (.slotEpoch i) 0 := by
  unfold mpmcInitSlot at h
  split at h
  · cases h
  · rename_i offset ho
    cases h
    simp [ho]

theorem mpmcInitSlots_ok {capacity stride n : Nat} {m m' : QueueMem}
    (h : (List.range n).foldlM (mpmcInitSlot capacity stride) m = .ok m') :
    SlotsInitialised capacity stride n m m' := by
  induction n generalizing m' with
  | zero =>
      cases h
      constructor <;> simp
  | succ n ih =>
      rw [List.range_succ, List.foldlM_append, except_bind_eq_ok] at h
      obtain ⟨m₁, hm, h⟩ := h
      rw [List.foldlM_cons, except_bind_eq_ok] at h
      obtain ⟨m₂, hn, h⟩ := h
      cases h
      obtain ⟨offset, sequence, state, epoch, positions, gates⟩ := ih hm
      obtain ⟨last, rfl⟩ := mpmcInitSlot_ok hn
      refine ⟨?_, ?_, ?_, ?_, by simpa using positions, by simpa using gates⟩
      · intro i hi
        by_cases hin : i = n
        · exact hin ▸ last
        · exact offset i (by omega)
      · intro i hi
        by_cases hin : i = n
        · simp [hin]
        · simpa [hin] using sequence i (by omega)
      · intro i hi
        by_cases hin : i = n
        · simp [hin]
        · simpa [hin] using state i (by omega)
      · intro i hi
        by_cases hin : i = n
        · simp [hin]
        · simpa [hin] using epoch i (by omega)

/-- A created queue is within bounds, empty, and both its gates are free. -/
structure FreshQueue (handle : MpmcQueueHandle) (m : QueueMem) : Prop where
  capacity_pos : 0 < handle.capacity
  capacity_le : handle.capacity ≤ mpmcMaxCapacity
  payload_pos : 0 < handle.payloadSize
  payload_le : handle.payloadSize ≤ mpmcMaxPayloadSize
  stride : roundUpToMultipleU64 (mpmcSlotHeaderSize + handle.payloadSize) 64 =
    some handle.slotStride
  initState : m .initState = MpmcInitState.ready.code
  slots : SlotsInitialised handle.capacity handle.slotStride handle.capacity
    (fun _ => 0) m

theorem mpmcValidateOptions_ok {options : MpmcQueueOptions} {schema : SchemaDescriptor}
    {payloadSize : Nat} (h : mpmcValidateOptions options schema payloadSize = .ok ()) :
    (0 < options.capacity ∧ options.capacity ≤ mpmcMaxCapacity) ∧
      0 < payloadSize ∧ payloadSize ≤ mpmcMaxPayloadSize := by
  unfold mpmcValidateOptions at h
  split at h
  · cases h
  · split at h
    · cases h
    · omega

theorem mpmcCreateImpl_ok {options : MpmcQueueOptions} {schema : SchemaDescriptor}
    {payloadSize : Nat} {self : ProcessIdentity} {handle : MpmcQueueHandle} {m : QueueMem}
    (h : mpmcCreateImpl options schema payloadSize (.ok self) = .ok (handle, m)) :
    handle.capacity = options.capacity ∧ handle.payloadSize = payloadSize ∧
      FreshQueue handle m := by
  unfold mpmcCreateImpl at h
  rw [except_bind_eq_ok] at h
  obtain ⟨_, hv, h⟩ := h
  obtain ⟨⟨hc, hc'⟩, hp, hp'⟩ := mpmcValidateOptions_ok hv
  rw [except_bind_eq_ok] at h
  obtain ⟨_, hself, h⟩ := h
  cases hself
  split at h
  · cases h
  · split at h
    · cases h
    · split at h
      · cases h
      · rename_i stride hs
        rw [except_bind_eq_ok] at h
        obtain ⟨m₁, hm, h⟩ := h
        cases h
        obtain ⟨h₀, h₁, h₂, h₃, h₄, h₅⟩ := mpmcInitSlots_ok hm
        refine ⟨rfl, rfl, hc, hc', hp, hp', hs, by simp, ?_⟩
        constructor <;> simp_all [mpmcInitHeader]

end EdgeRuntime

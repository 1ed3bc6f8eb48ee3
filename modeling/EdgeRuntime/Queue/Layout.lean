import EdgeRuntime.Common.CheckedMath
import EdgeRuntime.Sync.OwnerSnapshot

/-!
The shared layout of the bounded queue: its state words, its slots and the
checked arithmetic that places them.
-/
namespace EdgeRuntime

def mpmcHeaderSize : Nat := 320
def mpmcFirstSlotOffset : Nat := mpmcHeaderSize
def mpmcSlotHeaderSize : Nat := 64
def mpmcMaxCapacity : Nat := 4096
def mpmcMaxPayloadSize : Nat := 64 * 1024

inductive MpmcInitState
  | empty
  | initializing
  | ready
  deriving DecidableEq, Repr

def MpmcInitState.code : MpmcInitState → Nat
  | .empty => 0
  | .initializing => 1
  | .ready => 2

inductive MpmcLockState
  | free
  | claiming
  | owned
  | epochExhausted
  | ownerProtocolFault
  deriving DecidableEq, Repr

def MpmcLockState.code : MpmcLockState → Nat
  | .free => 0
  | .claiming => 1
  | .owned => 2
  | .epochExhausted => 3
  | .ownerProtocolFault => 4

inductive MpmcSlotState
  | free
  | enqueueClaiming
  | enqueueOwned
  | ready
  | dequeueClaiming
  | dequeueOwned
  | epochExhausted
  | ownerProtocolFault
  deriving DecidableEq, Repr

def MpmcSlotState.code : MpmcSlotState → Nat
  | .free => 0
  | .enqueueClaiming => 1
  | .enqueueOwned => 2
  | .ready => 3
  | .dequeueClaiming => 4
  | .dequeueOwned => 5
  | .epochExhausted => 6
  | .ownerProtocolFault => 7

/-- The mutable words of a queue segment. Gates come in an enqueue and a dequeue
copy; slots are numbered by their index in the ring. -/
inductive QueueLoc
  | enqueuePosition
  | dequeuePosition
  | initState
  | notifyEpoch
  | gateState (enqueue : Bool)
  | gateEpoch (enqueue : Bool)
  | gateOwner (enqueue : Bool) (word : OwnerWord)
  | slotSequence (index : Nat)
  | slotState (index : Nat)
  | slotOwner (index : Nat) (word : OwnerWord)
  | slotTicket (index : Nat)
  | slotEpoch (index : Nat)
  | slotPayload (index offset : Nat)
  deriving DecidableEq, Repr

def mpmcMappingSizeFor (capacity payloadSize : Nat) : Option Nat :=
  if capacity = 0 ∨ capacity > mpmcMaxCapacity ∨ payloadSize = 0 ∨
      payloadSize > mpmcMaxPayloadSize then none
  else do
    let stride ← roundUpToMultipleU64 (mpmcSlotHeaderSize + payloadSize) 64
    let slots ← checkedMulU64 capacity stride
    checkedAddU64 mpmcFirstSlotOffset slots

def mpmcSlotOffset (slotIndex capacity stride : Nat) : Option Nat :=
  if slotIndex ≥ capacity then none
  else do
    let offset ← checkedMulU64 slotIndex stride
    checkedAddU64 mpmcFirstSlotOffset offset

/-- The ticket after `ticket` and the sequence that frees its slot again. -/
def mpmcCheckedTicketBounds (ticket capacity : Nat) : Option (Nat × Nat) :=
  if capacity = 0 then none
  else do
    let nextTicket ← checkedAddU64 ticket 1
    let reclaimSequence ← checkedAddU64 ticket capacity
    return (nextTicket, reclaimSequence)

theorem mpmcCheckedTicketBounds_some {ticket capacity next reclaim : Nat}
    (ht : ticket ≤ uint64Max)
    (h : mpmcCheckedTicketBounds ticket capacity = some (next, reclaim)) :
    next = ticket + 1 ∧ reclaim = ticket + capacity ∧ reclaim ≤ uint64Max ∧
      0 < capacity := by
  unfold mpmcCheckedTicketBounds at h
  split at h
  · cases h
  · rename_i hc
    cases hn : checkedAddU64 ticket 1 with
    | none => simp [hn] at h
    | some n =>
        cases hr : checkedAddU64 ticket capacity with
        | none => simp [hn, hr] at h
        | some r =>
            simp only [hn, hr, Option.pure_def, Option.bind_eq_bind,
              Option.bind_some, Option.some.injEq, Prod.mk.injEq] at h
            obtain ⟨hn', _⟩ := checkedAddU64_some ht hn
            obtain ⟨hr', hle⟩ := checkedAddU64_some ht hr
            obtain ⟨rfl, rfl⟩ := h
            exact ⟨hn', hr', hle, Nat.pos_of_ne_zero hc⟩

theorem mpmcCheckedTicketBounds_of_le {ticket capacity : Nat} (hc : 0 < capacity)
    (h : ticket + capacity ≤ uint64Max) :
    mpmcCheckedTicketBounds ticket capacity = some (ticket + 1, ticket + capacity) := by
  unfold mpmcCheckedTicketBounds
  rw [if_neg (by omega), checkedAddU64_of_le (by omega), checkedAddU64_of_le h]
  rfl

end EdgeRuntime

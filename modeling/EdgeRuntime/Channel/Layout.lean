import EdgeRuntime.Common.CheckedMath
import EdgeRuntime.Sync.SharedAtomic

/-!
The shared layout of a channel: three slots, a ticket that names the latest one,
and the identity records of its two endpoints.
-/
namespace EdgeRuntime

def slotCount : Nat := 3
def maxPayloadSize : Nat := 64 * 1024
def maxSampleSequence : Nat := 2 ^ 62 - 1
def invalidSlot : Nat := 0xFFFFFFFF
def channelHeaderOffset : Nat := 128
def firstSlotOffset : Nat := 128 + 320
def slotHeaderSize : Nat := 64

inductive InitState
  | empty
  | initializing
  | ready
  | aborted
  deriving DecidableEq, Repr

def InitState.code : InitState → Nat
  | .empty => 0
  | .initializing => 1
  | .ready => 2
  | .aborted => 3

inductive EndpointState
  | offline
  | online
  | stopping
  | fault
  deriving DecidableEq, Repr

def EndpointState.code : EndpointState → Nat
  | .offline => 0
  | .online => 1
  | .stopping => 2
  | .fault => 3

inductive SlotState
  | free
  | writing
  | published
  | readingClaiming
  | reading
  deriving DecidableEq, Repr

def SlotState.code : SlotState → Nat
  | .free => 0
  | .writing => 1
  | .published => 2
  | .readingClaiming => 3
  | .reading => 4

/-- The sequence in the upper 62 bits of the word, the slot in the lower two. -/
def makeTicket (sequence slotIndex : Nat) : Nat :=
  sequence * 4 % 2 ^ 64 + slotIndex % 4

def ticketSlot (ticket : Nat) : Nat := ticket % 4
def ticketSequence (ticket : Nat) : Nat := ticket / 4

def slotStride (payloadSize : Nat) : Option Nat :=
  roundUpToMultipleU64 (slotHeaderSize + payloadSize) 64

def mappingSizeForPayload (payloadSize : Nat) : Option Nat := do
  let stride ← slotStride payloadSize
  let slotsTotal ← checkedMulU64 slotCount stride
  checkedAddU64 firstSlotOffset slotsTotal

def slotByteOffset (slotIndex stride : Nat) : Option Nat :=
  if slotIndex ≥ slotCount then none
  else do
    let offset ← checkedMulU64 slotIndex stride
    checkedAddU64 firstSlotOffset offset

/-- The two sides of a channel: its producer handle and the handles of its
successive consumers. -/
inductive Endpoint
  | producer
  | consumer (n : Nat)
  deriving DecidableEq, Repr

inductive IdentityWord
  | roleEpoch
  | pid
  | procStartTicks
  | bootIdHashHi
  | bootIdHashLo
  deriving DecidableEq, Repr

structure ProcessIdentityAbi where
  roleEpoch : Nat
  pid : Nat
  procStartTicks : Nat
  bootIdHashHi : Nat
  bootIdHashLo : Nat
  deriving DecidableEq, Repr, Inhabited

/-- The words of a handle that its calls change. They lie in the process's own
memory. -/
inductive HandleWord
  | operationInUse
  | shutdownPending
  | shutdownStarted
  | lastSequence
  | firstSampleInGeneration
  deriving DecidableEq, Repr

/-- The mutable words of a channel instance, and of the handles on it. -/
inductive ChannelLoc
  | bootInitState
  | initState
  | producerState
  | consumerState
  | identity (producer : Bool) (word : IdentityWord)
  | latestTicket
  | notifyEpoch
  | publishCount
  | readCount
  | lastPublishBootNs
  | heartbeatBootNs
  | slotState (index : Nat)
  | slotPayloadSize (index : Nat)
  | slotSequence (index : Nat)
  | slotPublishBootNs (index : Nat)
  | slotChecksum (index : Nat)
  | slotReaderEpoch (index : Nat)
  | slotPayload (index offset : Nat)
  | handle (endpoint : Endpoint) (word : HandleWord)
  deriving DecidableEq, Repr

abbrev ChannelMem : Type := Words ChannelLoc
abbrev ChannelCode (α : Type) : Type := Code ChannelLoc Error α

theorem ticketSequence_makeTicket {sequence slotIndex : Nat}
    (h : sequence ≤ maxSampleSequence) :
    ticketSequence (makeTicket sequence slotIndex) = sequence := by
  simp only [ticketSequence, makeTicket, maxSampleSequence] at *
  omega

theorem ticketSlot_makeTicket {sequence slotIndex : Nat} (h : slotIndex < slotCount) :
    ticketSlot (makeTicket sequence slotIndex) = slotIndex := by
  simp only [ticketSlot, makeTicket, slotCount] at *
  omega

end EdgeRuntime

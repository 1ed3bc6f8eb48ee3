import EdgeRuntime.Channel.Layout

/-!
The slot protocol and the identity records, access by access. A slot changes hands
by its state word; an identity record is replaced between an odd and an even epoch.
-/
namespace EdgeRuntime
open Concurrent

def checkedNextSequence (currentTicket : Nat) : Option Nat :=
  let currentSeq := ticketSequence currentTicket
  if currentSeq ≥ maxSampleSequence then none else some (currentSeq + 1)

def saturatedGap (lastSequence currentSequence : Nat) : Nat :=
  if currentSequence ≤ lastSequence then 0 else currentSequence - lastSequence - 1

def slotClaimWritable (i observed : Nat) : ChannelCode Bool :=
  sharedCas (.slotState i) observed SlotState.writing.code

def slotPublish (i : Nat) : ChannelCode Unit :=
  sharedStore (.slotState i) SlotState.published.code

def slotAbortWrite (i : Nat) : ChannelCode Unit :=
  sharedStore (.slotState i) SlotState.free.code

def slotClaimReadable (i : Nat) : ChannelCode Bool :=
  sharedCas (.slotState i) SlotState.published.code SlotState.readingClaiming.code

def slotMarkReading (i consumerRoleEpoch : Nat) : ChannelCode Unit := do
  sharedStore (.slotReaderEpoch i) consumerRoleEpoch
  sharedStore (.slotState i) SlotState.reading.code

def slotReleaseRead (i : Nat) : ChannelCode Unit := do
  sharedStore (.slotReaderEpoch i) 0
  sharedStore (.slotState i) SlotState.published.code

def identitySnapshotRetries : Nat := 8

/-- The retry loop, by the number of attempts that are left. -/
def identitySnapshotReadLoop (producer : Bool) : Nat → ChannelCode ProcessIdentityAbi
  | 0 => .throw (makeError .recoveryBlocked "identity_snapshot_read"
      "identity epoch unstable")
  | n + 1 => do
      let before ← sharedLoad (.identity producer .roleEpoch)
      if before % 2 ≠ 0 then
        identitySnapshotReadLoop producer n
      else
        let pid ← sharedLoad (.identity producer .pid)
        let ticks ← sharedLoad (.identity producer .procStartTicks)
        let hi ← sharedLoad (.identity producer .bootIdHashHi)
        let lo ← sharedLoad (.identity producer .bootIdHashLo)
        let after ← sharedLoad (.identity producer .roleEpoch)
        if after % 2 ≠ 0 ∨ after ≠ before then
          identitySnapshotReadLoop producer n
        else
          return ⟨after, pid, ticks, hi, lo⟩

def identitySnapshotRead (producer : Bool) : ChannelCode ProcessIdentityAbi :=
  identitySnapshotReadLoop producer identitySnapshotRetries

/-- The stores of a write that found the record at an even epoch. -/
def identitySnapshotStores (producer : Bool) (cur : Nat) (snap : ProcessIdentity) :
    ChannelCode Nat := do
  sharedStore (.identity producer .roleEpoch) (cur + 1)
  sharedStore (.identity producer .pid) snap.pid
  sharedStore (.identity producer .procStartTicks) snap.procStartTicks
  sharedStore (.identity producer .bootIdHashHi) snap.bootIdHashHi
  sharedStore (.identity producer .bootIdHashLo) snap.bootIdHashLo
  sharedStore (.identity producer .roleEpoch) (cur + 2)
  return cur + 2

def identitySnapshotWrite (producer : Bool) (snap : ProcessIdentity) :
    ChannelCode Nat := do
  let cur ← sharedLoad (.identity producer .roleEpoch)
  if cur % 2 ≠ 0 then
    .throw (makeError .recoveryBlocked "identity_snapshot_write" "identity epoch busy")
  else if cur > uint64Max - 2 then
    .throw (makeError .recoveryBlocked "identity_snapshot_write"
      "identity epoch exhausted")
  else
    identitySnapshotStores producer cur snap

end EdgeRuntime

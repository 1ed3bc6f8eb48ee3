import EdgeRuntime.Common.CheckedMath
import EdgeRuntime.Sync.SharedAtomic

/-!
Owner records and their snapshots. A record is a state word, an epoch word and
four identity words; a writer makes the epoch odd while it replaces the identity,
and a reader accepts what it saw only between two equal even epochs.
-/
namespace EdgeRuntime
open Concurrent

inductive OwnerSnapshotKind
  | inactive
  | claiming
  | stable
  | unstable
  | corrupt
  | epochExhausted
  deriving DecidableEq, Repr

inductive OwnerStateKind
  | inactive
  | claiming
  | owned
  | epochExhausted
  | protocolFault
  | unexpected
  deriving DecidableEq, Repr

/-- The identity words of a record. The queue and the pool use the same shape. -/
structure OwnerAbi where
  pid : Nat
  procStartTicks : Nat
  bootIdHashHi : Nat
  bootIdHashLo : Nat
  deriving DecidableEq, Repr, Inhabited

inductive OwnerWord
  | pid
  | procStartTicks
  | bootIdHashHi
  | bootIdHashLo
  deriving DecidableEq, Repr

def OwnerAbi.word (owner : OwnerAbi) : OwnerWord → Nat
  | .pid => owner.pid
  | .procStartTicks => owner.procStartTicks
  | .bootIdHashHi => owner.bootIdHashHi
  | .bootIdHashLo => owner.bootIdHashLo

/-- A record is known by its words. -/
theorem OwnerAbi.ext_word {owner owner' : OwnerAbi} (h : ∀ w, owner.word w = owner'.word w) :
    owner = owner' := by
  cases owner with
  | mk pid ticks hi lo =>
      cases owner' with
      | mk pid' ticks' hi' lo' =>
          obtain rfl : pid = pid' := h .pid
          obtain rfl : ticks = ticks' := h .procStartTicks
          obtain rfl : hi = hi' := h .bootIdHashHi
          obtain rfl : lo = lo' := h .bootIdHashLo
          rfl

structure OwnerSnapshot where
  kind : OwnerSnapshotKind
  state : Nat
  owner : OwnerAbi
  epoch : Nat
  deriving DecidableEq, Repr

def noOwner : OwnerAbi := ⟨0, 0, 0, 0⟩

def ownerFromProcess (id : ProcessIdentity) : OwnerAbi :=
  ⟨id.pid, id.procStartTicks, id.bootIdHashHi, id.bootIdHashLo⟩

def ownerValid (owner : OwnerAbi) : Bool :=
  owner.pid ≠ 0 && owner.procStartTicks ≠ 0 && owner.bootIdHashHi ≠ 0 &&
    owner.bootIdHashLo ≠ 0

def ownerMatches (owner : OwnerAbi) (id : ProcessIdentity) : Bool :=
  owner = ownerFromProcess id

def ownerSnapshotRetries : Nat := 4
def maxCommittedOwnerEpoch : Nat := uint64Max - 1

inductive OwnerCommitResult
  | ready
  | epochExhausted
  | corrupt
  deriving DecidableEq, Repr

section
variable {L ε : Type}

def loadOwnerSeqCst (owner : OwnerWord → L) : Code L ε OwnerAbi := do
  let pid ← sharedLoad (owner .pid)
  let ticks ← sharedLoad (owner .procStartTicks)
  let hi ← sharedLoad (owner .bootIdHashHi)
  let lo ← sharedLoad (owner .bootIdHashLo)
  return ⟨pid, ticks, hi, lo⟩

def storeOwnerSeqCst (owner : OwnerWord → L) (value : OwnerAbi) : Code L ε Unit := do
  sharedStore (owner .pid) value.pid
  sharedStore (owner .procStartTicks) value.procStartTicks
  sharedStore (owner .bootIdHashHi) value.bootIdHashHi
  sharedStore (owner .bootIdHashLo) value.bootIdHashLo

def setOwner (owner : OwnerWord → L) (id : ProcessIdentity) : Code L ε Unit :=
  storeOwnerSeqCst owner (ownerFromProcess id)

/-- The commit result together with the committed epoch it hands out. -/
def beginOwnerCommit (epoch : L) (reserveAfterCommit : Nat) :
    Code L ε (OwnerCommitResult × Nat) := do
  let current ← sharedLoad epoch
  if current % 2 ≠ 0 ∨ current > maxCommittedOwnerEpoch then
    return (.corrupt, 0)
  else if reserveAfterCommit > maxCommittedOwnerEpoch - current then
    return (.epochExhausted, 0)
  else
    let swapped ← sharedCas epoch current (addU64 current 1)
    if swapped then return (.ready, addU64 current 2) else return (.corrupt, 0)

def ownerEpochCapacity (epoch : L) (reserveAfterCommit : Nat) :
    Code L ε OwnerCommitResult := do
  let current ← sharedLoad epoch
  if current % 2 ≠ 0 ∨ current > maxCommittedOwnerEpoch then
    return .corrupt
  else if reserveAfterCommit ≤ maxCommittedOwnerEpoch - current then
    return .ready
  else
    return .epochExhausted

/-- The last look after every attempt met a moving record. -/
def snapshotOwnerFinal (state epoch : L) (classify : Nat → OwnerStateKind) :
    Code L ε OwnerSnapshot := do
  let finalState ← sharedLoad state
  let finalEpoch ← sharedLoad epoch
  match classify finalState with
  | .epochExhausted => return ⟨.epochExhausted, finalState, noOwner, finalEpoch⟩
  | .protocolFault | .unexpected => return ⟨.corrupt, finalState, noOwner, finalEpoch⟩
  | _ => return ⟨.unstable, finalState, noOwner, finalEpoch⟩

/-- The attempt that met an inactive state word; `none` asks for a retry. -/
def snapshotOwnerInactive (state epoch : L) (classify : Nat → OwnerStateKind)
    (stateBefore : Nat) : Code L ε (Option OwnerSnapshot) := do
  let epochBefore ← sharedLoad epoch
  let stateAfter ← sharedLoad state
  let epochAfter ← sharedLoad epoch
  if stateAfter = stateBefore ∧ epochBefore = epochAfter then
    if epochAfter % 2 ≠ 0 ∨ epochAfter > maxCommittedOwnerEpoch then
      return some ⟨.corrupt, stateAfter, noOwner, epochAfter⟩
    else
      return some ⟨.inactive, stateAfter, noOwner, epochAfter⟩
  else
    match classify stateAfter with
    | .claiming => return some ⟨.claiming, stateAfter, noOwner, epochAfter⟩
    | .epochExhausted => return some ⟨.epochExhausted, stateAfter, noOwner, epochAfter⟩
    | .protocolFault | .unexpected =>
        return some ⟨.corrupt, stateAfter, noOwner, epochAfter⟩
    | .inactive | .owned => return none

/-- The attempt that met an owned state word. -/
def snapshotOwnerOwned (state epoch : L) (owner : OwnerWord → L)
    (classify : Nat → OwnerStateKind) (valid : OwnerAbi → Bool) :
    Code L ε (Option OwnerSnapshot) := do
  let epochBefore ← sharedLoad epoch
  if epochBefore % 2 ≠ 0 then
    return none
  else
    let candidate ← loadOwnerSeqCst owner
    let epochAfterFields ← sharedLoad epoch
    let stateAfter ← sharedLoad state
    let epochAfterState ← sharedLoad epoch
    if classify stateAfter = .owned ∧ epochBefore = epochAfterFields ∧
        epochAfterFields = epochAfterState ∧ epochAfterState % 2 = 0 then
      if valid candidate then
        return some ⟨.stable, stateAfter, candidate, epochAfterState⟩
      else
        return some ⟨.corrupt, stateAfter, candidate, epochAfterState⟩
    else
      match classify stateAfter with
      | .epochExhausted =>
          return some ⟨.epochExhausted, stateAfter, noOwner, epochAfterState⟩
      | .protocolFault | .unexpected =>
          return some ⟨.corrupt, stateAfter, noOwner, epochAfterState⟩
      | _ => return none

def snapshotOwnerAttempt (state epoch : L) (owner : OwnerWord → L)
    (classify : Nat → OwnerStateKind) (valid : OwnerAbi → Bool) :
    Code L ε (Option OwnerSnapshot) := do
  let stateBefore ← sharedLoad state
  match classify stateBefore with
  | .inactive => snapshotOwnerInactive state epoch classify stateBefore
  | .claiming =>
      let current ← sharedLoad epoch
      return some ⟨.claiming, stateBefore, noOwner, current⟩
  | .epochExhausted =>
      let current ← sharedLoad epoch
      return some ⟨.epochExhausted, stateBefore, noOwner, current⟩
  | .protocolFault | .unexpected =>
      let current ← sharedLoad epoch
      return some ⟨.corrupt, stateBefore, noOwner, current⟩
  | .owned => snapshotOwnerOwned state epoch owner classify valid

/-- The retry loop, by the number of attempts that are left. -/
def snapshotOwnerLoop (state epoch : L) (owner : OwnerWord → L)
    (classify : Nat → OwnerStateKind) (valid : OwnerAbi → Bool) :
    Nat → Code L ε OwnerSnapshot
  | 0 => snapshotOwnerFinal state epoch classify
  | n + 1 => do
      let seen ← snapshotOwnerAttempt state epoch owner classify valid
      match seen with
      | some snapshot => return snapshot
      | none => snapshotOwnerLoop state epoch owner classify valid n

def snapshotOwnerSeqCst (state epoch : L) (owner : OwnerWord → L)
    (classify : Nat → OwnerStateKind) (valid : OwnerAbi → Bool) :
    Code L ε OwnerSnapshot :=
  snapshotOwnerLoop state epoch owner classify valid ownerSnapshotRetries

end
end EdgeRuntime

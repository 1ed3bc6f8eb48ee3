import EdgeRuntime.Queue.Drain
import EdgeRuntime.Sync.Alone

/-!
What a failed operation leaves behind. The words of the queue are arbitrary here, healthy
or corrupt, and the operation runs alone. Up to the commit of the slot it has written to
its own gate and to the state of one slot only, and no check comes after that commit.
-/
namespace EdgeRuntime
open Concurrent

def MpmcLockState.terminal (code : Nat) : Prop :=
  code = MpmcLockState.epochExhausted.code ∨ code = MpmcLockState.ownerProtocolFault.code

def MpmcSlotState.terminal (code : Nat) : Prop :=
  code = MpmcSlotState.epochExhausted.code ∨ code = MpmcSlotState.ownerProtocolFault.code

namespace QueueSystem
variable {T : Type}

/-- What a failed operation through gate `g` leaves as it was, and what it may change. -/
structure FailedCleanly (g : Bool) (capacity : Nat) (t : T) (w w' : QueueWorld T) : Prop where
  enqueuePosition : w'.mem .enqueuePosition = w.mem .enqueuePosition
  dequeuePosition : w'.mem .dequeuePosition = w.mem .dequeuePosition
  sequence : ∀ i, w'.mem (.slotSequence i) = w.mem (.slotSequence i)
  ticket : ∀ i, w'.mem (.slotTicket i) = w.mem (.slotTicket i)
  payload : ∀ i j, w'.mem (.slotPayload i j) = w.mem (.slotPayload i j)
  out : (w'.client t).out = (w.client t).out
  otherState : w'.mem (.gateState !g) = w.mem (.gateState !g)
  otherEpoch : w'.mem (.gateEpoch !g) = w.mem (.gateEpoch !g)
  otherOwner : ∀ word, w'.mem (.gateOwner (!g) word) = w.mem (.gateOwner (!g) word)
  slotState : ∀ i, w'.mem (.slotState i) = w.mem (.slotState i) ∨
    g = true ∧ i = w.mem .enqueuePosition % capacity ∧
      w.mem (.slotState i) = MpmcSlotState.free.code ∧
      MpmcSlotState.terminal (w'.mem (.slotState i))
  gateState : w'.mem (.gateState g) = w.mem (.gateState g) ∨
    w.mem (.gateState g) = MpmcLockState.free.code ∧
      MpmcLockState.terminal (w'.mem (.gateState g))

/-- The words that an operation writes before it commits its slot. -/
def OwnWord (g : Bool) (slot : Option Nat) : QueueLoc → Prop
  | .gateState g' | .gateEpoch g' | .gateOwner g' _ => g' = g
  | .slotState i => slot = some i
  | _ => False

/-- The operation has claimed a free gate, and since then only written its own words. -/
structure Claimed (g : Bool) (slot : Option Nat) (t : T) (w₀ w : QueueWorld T) : Prop where
  free : w₀.mem (.gateState g) = MpmcLockState.free.code
  words : ∀ l, ¬ OwnWord g slot l → w.mem l = w₀.mem l
  out : (w.client t).out = (w₀.client t).out

/-- An operation may fail in the world. -/
def MayFailIn (g : Bool) (capacity : Nat) (t : T) (w₀ : QueueWorld T) {α : Type}
    (x : Except Error α) (w : QueueWorld T) : Prop :=
  ∀ e, x = .error e → FailedCleanly g capacity t w₀ w

variable {g : Bool} {capacity : Nat} {slot : Option Nat} {t : T} {w₀ w : QueueWorld T}

theorem failedCleanly_refl : FailedCleanly g capacity t w w :=
  ⟨rfl, rfl, fun _ => rfl, fun _ => rfl, fun _ _ => rfl, rfl, rfl, rfl, fun _ => rfl,
    fun _ => .inl rfl, .inl rfl⟩

theorem Claimed.failed (h : Claimed g slot t w₀ w)
    (gate : w.mem (.gateState g) = MpmcLockState.free.code ∨
      MpmcLockState.terminal (w.mem (.gateState g)))
    (kept : ∀ i, slot = some i → w.mem (.slotState i) = w₀.mem (.slotState i) ∨
      g = true ∧ i = w₀.mem .enqueuePosition % capacity ∧
        w₀.mem (.slotState i) = MpmcSlotState.free.code ∧
        MpmcSlotState.terminal (w.mem (.slotState i))) :
    FailedCleanly g capacity t w₀ w := by
  have other : (!g) ≠ g := by cases g <;> exact nofun
  refine ⟨h.words _ id, h.words _ id, fun _ => h.words _ id, fun _ => h.words _ id,
    fun _ _ => h.words _ id, h.out, h.words _ other, h.words _ other, fun _ => h.words _ other,
    ?_, ?_⟩
  · intro i
    by_cases own : slot = some i
    · exact kept i own
    · exact .inl (h.words _ own)
  · rcases gate with free | terminal
    · exact .inl (free.trans h.free.symm)
    · exact .inr ⟨h.free, terminal⟩

variable [DecidableEq T] {q : QueueSystem T} {handle : MpmcQueueHandle} {α β : Type}

theorem Claimed.write {l : QueueLoc} {v : Nat} (h : Claimed g slot t w₀ w)
    (own : OwnWord g slot l) : Claimed g slot t w₀ (q.write t l v w) where
  free := h.free
  words l' other := by
    have ne : l' ≠ l := fun same => other (same ▸ own)
    rw [write_mem, Words.set_apply, if_neg ne]
    exact h.words l' other
  out := write_out.trans h.out

/-- The gate is given back, and the operation fails. -/
theorem Claimed.release (h : Claimed g slot t w₀ w)
    (kept : ∀ i, slot = some i → w.mem (.slotState i) = w₀.mem (.slotState i) ∨
      g = true ∧ i = w₀.mem .enqueuePosition % capacity ∧
        w₀.mem (.slotState i) = MpmcSlotState.free.code ∧
        MpmcSlotState.terminal (w.mem (.slotState i))) (v : Nat)
    (gate : v = MpmcLockState.free.code ∨ MpmcLockState.terminal v) :
    FailedCleanly g capacity t w₀ (q.write t (.gateState g) v w) := by
  have own : OwnWord g slot (.gateState g) := rfl
  refine (h.write own).failed ?_ ?_
  · rw [write_mem, Words.set_apply, if_pos rfl]
    exact gate
  · intro i own
    rw [write_mem, Words.set_apply, if_neg nofun]
    exact kept i own

theorem fails_throw {e : Error} (h : FailedCleanly g capacity t w₀ w) :
    q.memory.Undisturbed t (MayFailIn g capacity t w₀) (.throw e : QueueCode α) w :=
  Memory.undisturbed_throw fun _ _ => h

/-- Give the gate back and fail, with no slot touched. -/
theorem fails_release_throw {e : Error} (h : Claimed g none t w₀ w) :
    q.memory.Undisturbed t (MayFailIn g capacity t w₀)
      (releaseGate g >>= fun _ => (.throw e : QueueCode α)) w :=
  Memory.undisturbed_store (fails_throw (h.release nofun _ (.inl rfl)))

/-- A check under the gate: go on with the same world, or give the gate back. -/
theorem fails_releaseOnError_look {p : QueueCode β} {k : β → QueueCode α}
    (h : Claimed g none t w₀ w) (all : p.All Memory.Reads)
    (ok : ∀ b, q.memory.Solo t p w (.ok b) w →
      q.memory.Undisturbed t (MayFailIn g capacity t w₀) (k b) w) :
    q.memory.Undisturbed t (MayFailIn g capacity t w₀) (releaseOnError g p >>= k) w := by
  unfold releaseOnError
  rw [Prog.bind_assoc]
  have seen : q.memory.Undisturbed t (fun x w' => q.memory.Solo t p w x w' ∧ w' = w) p w :=
    fun x w' run => ⟨run, Memory.solo_world all run⟩
  refine Memory.undisturbed_attempt_seq seen ?_
  rintro x _ ⟨run, rfl⟩
  cases x with
  | ok b => exact ok b run
  | error e => exact fails_release_throw h

theorem fails_claimGate {k : Unit → QueueCode α}
    (ok : ∀ w', Claimed g none t w w' → q.memory.Undisturbed t
      (MayFailIn g capacity t w) (k ()) w') :
    q.memory.Undisturbed t (MayFailIn g capacity t w) (claimGate handle g >>= k) w := by
  unfold claimGate
  rw [Prog.bind_assoc]
  refine Memory.undisturbed_load ?_
  split
  · rw [Prog.bind_assoc]
    exact Memory.undisturbed_looks (looks_gateBusyResult _ _) fun busy =>
      fails_throw failedCleanly_refl
  · rw [Prog.bind_assoc]
    refine Memory.undisturbed_cas ?_ fun _ => fails_throw failedCleanly_refl
    intro free
    refine ok _ ⟨free, ?_, write_out⟩
    intro l other
    have ne : l ≠ .gateState g := by
      rintro rfl
      exact other rfl
    change (q.write t _ _ w).mem l = w.mem l
    rw [write_mem, Words.set_apply, if_neg ne]

/-- The commit of an epoch succeeds, or it has written nothing. -/
theorem cases_beginOwnerCommit {epoch : QueueLoc} {reserve : Nat}
    {k : OwnerCommitResult × Nat → QueueCode α}
    {Q : Except Error α → QueueWorld T → Prop}
    (ready : ∀ v v', q.memory.Undisturbed t Q (k (.ready, v)) (q.write t epoch v' w))
    (fails : ∀ r, r ≠ .ready → q.memory.Undisturbed t Q (k (r, 0)) w) :
    q.memory.Undisturbed t Q (beginOwnerCommit epoch reserve >>= k) w := by
  unfold beginOwnerCommit
  rw [Prog.bind_assoc]
  refine Memory.undisturbed_load ?_
  split
  · exact fails .corrupt (by rintro ⟨⟩)
  · split
    · exact fails .epochExhausted (by rintro ⟨⟩)
    · rw [Prog.bind_assoc]
      exact Memory.undisturbed_cas (fun _ => ready _ _) fun changed => (changed rfl).elim

theorem fails_commitClaimedGate {k : Unit → QueueCode α} (h : Claimed g none t w₀ w)
    (ok : ∀ w', Claimed g none t w₀ w' → q.memory.Undisturbed t
      (MayFailIn g capacity t w₀) (k ()) w') :
    q.memory.Undisturbed t (MayFailIn g capacity t w₀)
      (commitClaimedGate handle g >>= k) w := by
  have state : OwnWord g none (.gateState g) := rfl
  have epoch : OwnWord g none (.gateEpoch g) := rfl
  have owner : ∀ word, OwnWord g none (.gateOwner g word) := fun _ => rfl
  unfold commitClaimedGate
  rw [Prog.bind_assoc]
  refine cases_beginOwnerCommit ?_ ?_
  · intro v v'
    have h₁ : Claimed g none t w₀ (q.write t (.gateEpoch g) v' w) := h.write epoch
    refine Memory.undisturbed_store ?_
    refine Memory.undisturbed_store (Memory.undisturbed_store (Memory.undisturbed_store ?_))
    refine Memory.undisturbed_store (Memory.undisturbed_store (ok _ ?_))
    exact (((((h₁.write (owner .pid)).write (owner .procStartTicks)).write
      (owner .bootIdHashHi)).write (owner .bootIdHashLo)).write epoch).write state
  · intro r notReady
    dsimp only
    rw [if_pos notReady]
    refine Memory.undisturbed_store (fails_throw (h.release nofun _ (.inr ?_)))
    split
    · exact .inl rfl
    · exact .inr rfl

/-- Code without a way to fail. -/
theorem fails_never {p : QueueCode α} (looks : p.Looks fun _ => True) :
    q.memory.Undisturbed t (MayFailIn g capacity t w₀) p w := by
  intro x w' run e failed
  obtain ⟨_, done⟩ := Memory.solo_ends looks.ends run
  cases done.symm.trans failed

theorem looks_store (l : QueueLoc) (v : Nat) :
    (sharedStore l v : QueueCode Unit).Looks fun _ => True := ⟨trivial, fun _ => trivial⟩

theorem looks_setOwner (owner : OwnerWord → QueueLoc) (id : ProcessIdentity) :
    (setOwner owner id : QueueCode Unit).Looks fun _ => True := by
  refine Prog.looks_bind (looks_store _ _) fun _ => Prog.looks_bind (looks_store _ _) fun _ => ?_
  exact Prog.looks_bind (looks_store _ _) fun _ => looks_store _ _

theorem looks_copyIn (dst : Nat → QueueLoc) (j : Nat) (bytes : List Nat) :
    (copyIn dst j bytes : QueueCode Unit).Looks fun _ => True := by
  induction bytes generalizing j with
  | nil => trivial
  | cons b rest ih => exact Prog.looks_bind (looks_store _ _) fun _ => ih (j + 1)

theorem looks_copyFrom (src : Nat → QueueLoc) (j n : Nat) :
    (copyFrom src j n : QueueCode Unit).Looks fun _ => True := by
  induction n generalizing j with
  | zero => trivial
  | succ n ih => exact ⟨trivial, fun _ => ⟨trivial, fun _ => ih (j + 1)⟩⟩

theorem looks_notifyWaiters : notifyWaiters.Looks fun _ => True :=
  ⟨trivial, fun _ => ⟨trivial, fun _ => trivial⟩⟩

/-- The push has claimed the free slot of the enqueue position. -/
theorem fails_pushClaimed {payload : List Nat} {i enqueue next : Nat}
    (h : Claimed true (some i) t w₀ w)
    (here : i = w₀.mem .enqueuePosition % capacity)
    (vacant : w₀.mem (.slotState i) = MpmcSlotState.free.code) :
    q.memory.Undisturbed t (MayFailIn true capacity t w₀)
      (pushClaimed handle payload i enqueue next) w := by
  unfold pushClaimed
  refine cases_beginOwnerCommit ?_ ?_
  · intro v v'
    apply fails_never
    refine Prog.looks_bind (looks_setOwner _ _) fun _ => ?_
    refine Prog.looks_bind (looks_store _ _) fun _ => Prog.looks_bind (looks_store _ _) fun _ => ?_
    refine Prog.looks_bind (looks_store _ _) fun _ => Prog.looks_bind (looks_copyIn _ _ _) ?_
    intro _
    refine Prog.looks_bind (looks_store _ _) fun _ => Prog.looks_bind (looks_store _ _) fun _ => ?_
    refine Prog.looks_bind (looks_store _ _) fun _ => Prog.looks_bind (looks_store _ _) fun _ => ?_
    exact looks_notifyWaiters
  · intro r notReady
    dsimp only
    rw [if_pos notReady]
    have own : OwnWord true (some i) (.slotState i) := rfl
    refine Memory.undisturbed_store (Memory.undisturbed_store (fails_throw ?_))
    refine (h.write own).release ?_ _ (.inl rfl)
    intro j same
    cases same
    refine .inr ⟨rfl, here, vacant, ?_⟩
    rw [write_mem, Words.set_apply, if_pos rfl]
    split
    · exact .inl rfl
    · exact .inr rfl

/-- The slot is not what its position promises. -/
theorem fails_slotInvalidResult {i : Nat} {operation context : String}
    (h : Claimed g none t w₀ w) :
    q.memory.Undisturbed t (MayFailIn g capacity t w₀)
      (slotInvalidResult i g operation context) w := by
  unfold slotInvalidResult
  refine Memory.undisturbed_looks (looks_snapshotSlotOwner g i) fun owner => ?_
  refine Memory.undisturbed_store ?_
  split
  · exact fails_throw (h.release (by rintro _ ⟨⟩) _ (.inl rfl))
  · exact fails_throw (h.release (by rintro _ ⟨⟩) _ (.inl rfl))

/-- The check of a slot answers for the words that are there. -/
theorem cases_slotMatches {i sequence : Nat} {state : MpmcSlotState} {k : Bool → QueueCode α}
    {Q : Except Error α → QueueWorld T → Prop}
    (matched : w.mem (.slotState i) = state.code → q.memory.Undisturbed t Q (k true) w)
    (fails : q.memory.Undisturbed t Q (k false) w) :
    q.memory.Undisturbed t Q (slotMatches i sequence state >>= k) w := by
  unfold slotMatches
  rw [Prog.bind_assoc]
  refine Memory.undisturbed_load ?_
  split
  · exact fails
  · rw [Prog.bind_assoc]
    refine Memory.undisturbed_load ?_
    change q.memory.Undisturbed t Q (k (decide (w.mem (.slotState i) = state.code))) w
    by_cases same : w.mem (.slotState i) = state.code
    · rw [decide_eq_true same]
      exact matched same
    · rw [decide_eq_false same]
      exact fails

/-- A claim of a slot adds its state to what the operation has written. -/
theorem Claimed.claimSlot {i v : Nat} (h : Claimed g none t w₀ w) :
    Claimed g (some i) t w₀ (q.write t (.slotState i) v w) := by
  have wider : Claimed g (some i) t w₀ w := by
    refine ⟨h.free, fun l other => h.words l fun own => other ?_, h.out⟩
    cases l with
    | gateState | gateEpoch | gateOwner => exact own
    | slotState j => cases own
    | _ => exact own.elim
  have own : OwnWord g (some i) (.slotState i) := rfl
  exact wider.write own

theorem fails_pushSlot {payload : List Nat} {i enqueue next : Nat}
    (h : Claimed true none t w₀ w) (here : i = w₀.mem .enqueuePosition % capacity) :
    q.memory.Undisturbed t (MayFailIn true capacity t w₀)
      (pushSlot handle payload i enqueue next) w := by
  have same : w.mem (.slotState i) = w₀.mem (.slotState i) := h.words _ nofun
  unfold pushSlot
  refine cases_slotMatches (fun free => ?_) (fails_slotInvalidResult h)
  rw [same] at free
  rw [if_neg (by simp)]
  refine Memory.undisturbed_looks (looks_ownerEpochCapacity _ _) fun result => ?_
  split
  · refine Memory.undisturbed_store (Memory.undisturbed_store (fails_throw ?_))
    refine h.claimSlot.release ?_ _ (.inl rfl)
    intro j eq
    cases eq
    refine .inr ⟨rfl, here, free, ?_⟩
    rw [write_mem, Words.set_apply, if_pos rfl]
    split
    · exact .inl rfl
    · exact .inr rfl
  · refine Memory.undisturbed_cas ?_ ?_
    · exact fun _ => fails_pushClaimed h.claimSlot here free
    · exact fun _ => fails_release_throw h

/-- The positions that are seen are the ones that are there. -/
theorem snapshot_positions {operation : String} {positions : Nat × Nat}
    (run : q.memory.Solo t (snapshotQueuePositions operation) w (.ok positions) w) :
    positions = (w.mem .enqueuePosition, w.mem .dequeuePosition) := by
  have seen : q.memory.Undisturbed t (fun x _ => ∀ positions, x = .ok positions →
      positions = (w.mem .enqueuePosition, w.mem .dequeuePosition))
      (snapshotQueuePositions operation) w := by
    change q.memory.Undisturbed t _ (snapshotQueuePositionsLoop operation (3 + 1)) w
    unfold snapshotQueuePositionsLoop
    refine Memory.undisturbed_load (Memory.undisturbed_load ?_)
    refine Memory.undisturbed_load (Memory.undisturbed_load ?_)
    rw [if_pos ⟨rfl, rfl⟩]
    refine Memory.undisturbed_ret fun positions same => ?_
    exact (Except.ok.inj same).symm
  exact seen _ _ run positions rfl

/-- A push is admitted at the enqueue position. -/
theorem admitted_validatePushDrainAdmissionLoop {operation : String} {e d : Nat} (n : Nat)
    (current : e = w.mem .enqueuePosition) :
    q.memory.Undisturbed t
      (fun x _ => ∀ admitted, x = .ok admitted → admitted.1 = w.mem .enqueuePosition)
      (validatePushDrainAdmissionLoop handle operation n e d) w := by
  have refused : ∀ (e : Error) (admitted : Nat × Nat),
      (.error e : Except Error (Nat × Nat)) = .ok admitted →
        admitted.1 = w.mem .enqueuePosition := by
    rintro e admitted ⟨⟩
  induction n generalizing e d with
  | zero => exact Memory.undisturbed_throw (refused _)
  | succ n ih =>
      refine Memory.undisturbed_look (Prog.all_lift _) (fun _ _ => ?_) refused
      dsimp only
      split
      · exact Memory.undisturbed_throw (refused _)
      · refine Memory.undisturbed_look (all_dequeueDrainBudget _ _) (fun budget _ => ?_) refused
        split
        · split
          · exact Memory.undisturbed_throw (refused _)
          · exact Memory.undisturbed_throw (refused _)
        · refine Memory.undisturbed_look (all_snapshotQueuePositionsLoop _ _) ?_ refused
          intro positions seen
          cases snapshot_positions seen
          split
          · exact ih rfl
          · split
            · exact Memory.undisturbed_throw (refused _)
            · refine Memory.undisturbed_ret fun admitted same => ?_
              cases same
              exact current

theorem fails_reads {p : QueueCode α} (all : p.All Memory.Reads)
    (failed : FailedCleanly g capacity t w₀ w) :
    q.memory.Undisturbed t (MayFailIn g capacity t w₀) p w := by
  intro x w' run e _
  rw [Memory.solo_world all run]
  exact failed

theorem all_pushFullResult (consumer : OwnerObservationDisposition) :
    (pushFullResult handle consumer).All Memory.Reads := by
  cases consumer with
  | changed | unrecoverable => trivial
  | notUnrecoverable =>
      refine Prog.all_bind (Prog.all_attempt (all_dequeueDrainBudget _ _)) fun budget => ?_
      split
      · split <;> trivial
      · trivial
      · trivial

theorem all_pushFull : (pushFull handle).All Memory.Reads := by
  refine reads_load fun state => ?_
  split
  · exact Prog.all_bind (looks_gateBusyResult _ _).all fun _ => trivial
  · refine Prog.all_bind (looks_snapshotGateOwner _).all fun consumer => ?_
    refine Prog.all_bind (looks_ownerObservationIsUnrecoverable _ _ _).all fun _ => ?_
    exact all_pushFullResult _

theorem fails_pushFullGated (h : Claimed true none t w₀ w) :
    q.memory.Undisturbed t (MayFailIn true capacity t w₀) (pushFullGated handle) w := by
  refine Memory.undisturbed_looks (looks_snapshotGateOwner _) fun consumer => ?_
  refine Memory.undisturbed_looks (looks_ownerObservationIsUnrecoverable _ _ _) fun _ => ?_
  refine Memory.undisturbed_store ?_
  exact fails_reads (all_pushFullResult _) (h.release nofun _ (.inl rfl))

theorem slotAt_eq_some {position i : Nat} (h : slotAt handle position = some i) :
    i = position % handle.capacity := by
  obtain ⟨_, _, rfl⟩ := Option.map_eq_some_iff.1 h
  rfl

theorem fails_pushGated {payload : List Nat} (h : Claimed true none t w₀ w) :
    q.memory.Undisturbed t (MayFailIn true handle.capacity t w₀)
      (pushGated handle payload) w := by
  have enq : w.mem .enqueuePosition = w₀.mem .enqueuePosition := h.words _ id
  unfold pushGated
  refine fails_releaseOnError_look h (all_snapshotQueuePositionsLoop _ _) fun positions seen => ?_
  cases snapshot_positions seen
  refine fails_releaseOnError_look h (Prog.all_lift _) fun _ _ => ?_
  refine fails_releaseOnError_look h (Prog.all_lift _) fun bounds _ => ?_
  dsimp only
  split
  · exact fails_pushFullGated h
  · refine fails_releaseOnError_look h (all_validatePushDrainAdmissionLoop _ _ _ _ _) ?_
    intro admitted result
    have here : admitted.1 = w.mem .enqueuePosition :=
      admitted_validatePushDrainAdmissionLoop ownerSnapshotRetries rfl _ _ result admitted rfl
    split
    · exact fails_release_throw h
    · rename_i i at_
      refine fails_pushSlot h ?_
      rw [slotAt_eq_some at_, here, enq]

theorem fails_mpmcTryPushImpl {payload : List Nat} :
    q.memory.Undisturbed t (MayFailIn true handle.capacity t w)
      (mpmcTryPushImpl handle payload) w := by
  have unchanged : ∀ e : Error, MayFailIn true handle.capacity t w
      (.error e : Except Error Unit) w := fun _ _ _ => failedCleanly_refl
  refine Memory.undisturbed_look (all_validateLiveHandle _ _) (fun _ _ => ?_) unchanged
  split
  · exact fails_throw failedCleanly_refl
  · refine Memory.undisturbed_look (all_snapshotQueuePositionsLoop _ _) ?_ unchanged
    intro positions _
    refine Memory.undisturbed_look (Prog.all_lift _) (fun _ _ => ?_) unchanged
    refine Memory.undisturbed_look (Prog.all_lift _) (fun _ _ => ?_) unchanged
    split
    · exact fails_reads all_pushFull failedCleanly_refl
    · refine Memory.undisturbed_look (all_validatePushDrainAdmissionLoop _ _ _ _ _) ?_
        unchanged
      intro _ _
      unfold acquireGate
      rw [Prog.bind_assoc]
      refine fails_claimGate fun w₁ h₁ => ?_
      exact fails_commitClaimedGate h₁ fun w₂ h₂ => fails_pushGated h₂

theorem all_popEmptyResult (producer : OwnerObservationDisposition) :
    (popEmptyResult producer).All Memory.Reads := by
  cases producer with
  | changed | unrecoverable | notUnrecoverable => trivial

theorem all_popEmpty : (popEmpty handle).All Memory.Reads := by
  refine reads_load fun state => ?_
  split
  · exact Prog.all_bind (looks_gateBusyResult _ _).all fun _ => trivial
  · refine Prog.all_bind (looks_snapshotGateOwner _).all fun producer => ?_
    refine Prog.all_bind (looks_ownerObservationIsUnrecoverable _ _ _).all fun _ => ?_
    exact all_popEmptyResult _

theorem fails_popEmptyGated (h : Claimed false none t w₀ w) :
    q.memory.Undisturbed t (MayFailIn false capacity t w₀) (popEmptyGated handle) w := by
  refine Memory.undisturbed_looks (looks_snapshotGateOwner _) fun producer => ?_
  refine Memory.undisturbed_looks (looks_ownerObservationIsUnrecoverable _ _ _) fun _ => ?_
  refine Memory.undisturbed_store ?_
  exact fails_reads (all_popEmptyResult _) (h.release nofun _ (.inl rfl))

/-- The pop has claimed a slot that was READY, and makes it READY again if it fails. -/
theorem fails_popClaimed {i dequeue next reclaim : Nat} (h : Claimed false (some i) t w₀ w)
    (ready : w₀.mem (.slotState i) = MpmcSlotState.ready.code) :
    q.memory.Undisturbed t (MayFailIn false capacity t w₀)
      (popClaimed handle i dequeue next reclaim) w := by
  unfold popClaimed
  refine cases_beginOwnerCommit ?_ ?_
  · intro v v'
    apply fails_never
    refine Prog.looks_bind (looks_setOwner _ _) fun _ => ?_
    refine Prog.looks_bind (looks_store _ _) fun _ => Prog.looks_bind (looks_store _ _) fun _ => ?_
    refine Prog.looks_bind (looks_store _ _) fun _ => Prog.looks_bind (looks_copyFrom _ _ _) ?_
    intro _
    refine Prog.looks_bind (looks_store _ _) fun _ => Prog.looks_bind (looks_store _ _) fun _ => ?_
    refine Prog.looks_bind (looks_store _ _) fun _ => Prog.looks_bind (looks_store _ _) fun _ => ?_
    exact looks_notifyWaiters
  · intro r notReady
    dsimp only
    rw [if_pos notReady]
    have own : OwnWord false (some i) (.slotState i) := rfl
    refine Memory.undisturbed_store (Memory.undisturbed_store (fails_throw ?_))
    refine (h.write own).release ?_ _ (.inl rfl)
    intro j same
    cases same
    left
    rw [write_mem, Words.set_apply, if_pos rfl, ready]

theorem fails_popSlot {i dequeue next reclaim : Nat} (h : Claimed false none t w₀ w) :
    q.memory.Undisturbed t (MayFailIn false capacity t w₀)
      (popSlot handle i dequeue next reclaim) w := by
  have same : w.mem (.slotState i) = w₀.mem (.slotState i) := h.words _ nofun
  unfold popSlot
  refine cases_slotMatches (fun ready => ?_) (fails_slotInvalidResult h)
  rw [same] at ready
  rw [if_neg (by simp)]
  refine Memory.undisturbed_looks (looks_ownerEpochCapacity _ _) fun result => ?_
  split
  · exact fails_release_throw h
  · refine Memory.undisturbed_cas ?_ ?_
    · exact fun _ => fails_popClaimed h.claimSlot ready
    · exact fun _ => fails_release_throw h

theorem fails_popGated (h : Claimed false none t w₀ w) :
    q.memory.Undisturbed t (MayFailIn false capacity t w₀) (popGated handle) w := by
  unfold popGated
  refine fails_releaseOnError_look h (all_snapshotQueuePositionsLoop _ _) fun positions _ => ?_
  refine fails_releaseOnError_look h (Prog.all_lift _) fun _ _ => ?_
  refine fails_releaseOnError_look h (Prog.all_lift _) fun bounds _ => ?_
  dsimp only
  split
  · exact fails_popEmptyGated h
  · refine fails_commitClaimedGate h fun w₁ h₁ => ?_
    split
    · exact fails_release_throw h₁
    · exact fails_popSlot h₁

theorem fails_mpmcTryPopImpl {payloadSize : Nat} :
    q.memory.Undisturbed t (MayFailIn false capacity t w)
      (mpmcTryPopImpl handle payloadSize) w := by
  have unchanged : ∀ e : Error, MayFailIn false capacity t w
      (.error e : Except Error Unit) w := fun _ _ _ => failedCleanly_refl
  refine Memory.undisturbed_look (all_validateLiveHandle _ _) (fun _ _ => ?_) unchanged
  split
  · exact fails_throw failedCleanly_refl
  · refine Memory.undisturbed_look (all_snapshotQueuePositionsLoop _ _) ?_ unchanged
    intro positions _
    refine Memory.undisturbed_look (Prog.all_lift _) (fun _ _ => ?_) unchanged
    refine Memory.undisturbed_look (Prog.all_lift _) (fun _ _ => ?_) unchanged
    split
    · exact fails_reads all_popEmpty failedCleanly_refl
    · refine Memory.undisturbed_look (all_dequeueDrainBudget _ _) (fun budget _ => ?_)
        unchanged
      split
      · exact fails_throw failedCleanly_refl
      · exact fails_claimGate fun w₁ h₁ => fails_popGated h₁

/-- The gate that a call goes through. -/
def gateOf : QueueCall → Bool
  | .push _ => true
  | .pop _ => false

/-- A push or a pop that runs undisturbed on any contents of the shared words, and fails,
has changed no position, no message, no output and nothing of the other gate. At most the
slot at the enqueue position has been retired, by a push that found it FREE, and the own
gate, if the call claimed it, is FREE again or retired. -/
theorem failed_call_clean {a : QueueCall} {e : Error} {w' : QueueWorld T}
    (failed : q.memory.Solo t (attemptImpl handle a) w (.error e) w') :
    FailedCleanly (gateOf a) handle.capacity t w w' := by
  cases a with
  | push payload => exact fails_mpmcTryPushImpl _ _ failed e rfl
  | pop payloadSize => exact fails_mpmcTryPopImpl _ _ failed e rfl

/-- A slot that is READY although the enqueue position has reached it: the push gives its
gate back. -/
def tinyCorrupt : QueueWorld Bool :=
  tiny.write false (.slotState 0) MpmcSlotState.ready.code (tiny.init fun _ _ => 0)

theorem failed_call_clean_tiny :
    ∃ e w', tiny.memory.Solo false (attemptImpl (tiny.handleOf false) (.push [7])) tinyCorrupt
        (.error e) w' ∧ w'.mem (.gateEpoch true) ≠ tinyCorrupt.mem (.gateEpoch true) ∧
      FailedCleanly true 1 false tinyCorrupt w' := by
  have run : (Memory.trace (tiny.memory.answer (fun _ _ _ => .alive) (fun _ => 0) false)
      (attemptImpl (tiny.handleOf false) (.push [7])) tinyCorrupt).map
        (fun y => (y.1.toBool, decide (y.2.mem (.gateEpoch true) =
          tinyCorrupt.mem (.gateEpoch true)))) = some (false, false) := by
    decide +kernel
  obtain ⟨⟨x, w'⟩, traced, shape⟩ := Option.map_eq_some_iff.1 run
  have solo := Memory.solo_trace (tiny.memory.answer_exec (fun _ _ _ => trivial) false) traced
  cases x with
  | ok _ => cases shape
  | error e =>
      have moved : w'.mem (.gateEpoch true) ≠ tinyCorrupt.mem (.gateEpoch true) :=
        of_decide_eq_false (Prod.mk.inj shape).2
      exact ⟨e, w', solo, moved, failed_call_clean solo⟩

end QueueSystem
end EdgeRuntime

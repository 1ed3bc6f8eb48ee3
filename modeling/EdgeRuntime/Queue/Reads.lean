import EdgeRuntime.Sync.OwnerReads
import EdgeRuntime.Queue.Invariant

/-!
The parts of the queue operations that only look at shared words, and what their
answers say about the queue: a position snapshot and a drain budget were exact at
one instant of the call, and recovery is called blocked only for a gate whose owner
was dead when the owner record was confirmed.
-/
namespace EdgeRuntime
open Concurrent Prog

section All
variable (handle : MpmcQueueHandle) (enqueue : Bool) (operation : String)

/-- Looking at the gates and at their owners is allowed. -/
structure LooksAtGates (P : Instr QueueLoc → Prop) : Prop where
  state : ∀ g, P (.load (.gateState g))
  epoch : ∀ g, P (.load (.gateEpoch g))
  owner : ∀ g w, P (.load (.gateOwner g w))
  probe : ∀ pid ticks, P (.probe pid ticks)

theorem looksAtGates_reads : LooksAtGates Memory.Reads :=
  ⟨fun _ => trivial, fun _ => trivial, fun _ _ => trivial, fun _ _ => trivial⟩

namespace LooksAtGates
variable {P : Instr QueueLoc → Prop} (h : LooksAtGates P)
include h

theorem snapshotGateOwner : (snapshotGateOwner enqueue).Looks P :=
  looks_snapshotOwnerSeqCst _ _ (h.state enqueue) (h.epoch enqueue) (h.owner enqueue)

theorem ownerLiveness (owner : OwnerAbi) : (ownerLiveness handle owner).Looks P := by
  unfold EdgeRuntime.ownerLiveness
  split
  · trivial
  · exact ⟨h.probe _ _, fun _ => trivial⟩

theorem confirmOwnerLiveness (observation : OwnerSnapshot) :
    (confirmOwnerLiveness handle enqueue observation).Looks P := by
  refine looks_bind (h.ownerLiveness handle _) fun _ => ?_
  refine looks_bind (h.snapshotGateOwner enqueue) fun _ => ?_
  split
  · trivial
  · split
    · trivial
    · split <;> trivial

end LooksAtGates

theorem looks_snapshotGateOwner : (snapshotGateOwner enqueue).Looks Memory.Reads :=
  looksAtGates_reads.snapshotGateOwner enqueue

theorem looks_snapshotSlotOwner (slot : Nat) :
    (snapshotSlotOwner slot enqueue).Looks Memory.Reads :=
  looks_snapshotOwnerSeqCst _ _ trivial trivial fun _ => trivial

theorem looks_ownerLiveness (owner : OwnerAbi) :
    (ownerLiveness handle owner).Looks Memory.Reads :=
  looksAtGates_reads.ownerLiveness handle owner

theorem looks_confirmOwnerLiveness (observation : OwnerSnapshot) :
    (confirmOwnerLiveness handle enqueue observation).Looks Memory.Reads :=
  looksAtGates_reads.confirmOwnerLiveness handle enqueue observation

theorem looks_gateBusyResult : (gateBusyResult handle enqueue).Looks Memory.Reads := by
  refine looks_bind (looks_snapshotGateOwner enqueue) fun _ => ?_
  split
  · trivial
  · trivial
  · trivial
  · trivial
  · trivial
  · refine looks_bind (looks_confirmOwnerLiveness handle enqueue _) fun _ => ?_
    split
    · split <;> trivial
    · split <;> trivial

theorem looks_ownerObservationIsUnrecoverable (observation : OwnerSnapshot) :
    (ownerObservationIsUnrecoverable handle enqueue observation).Looks Memory.Reads := by
  unfold ownerObservationIsUnrecoverable
  split
  · trivial
  · trivial
  · trivial
  · trivial
  · trivial
  · exact looks_confirmOwnerLiveness handle enqueue observation

theorem all_settledDrainBudget (observation : OwnerSnapshot) :
    (settledDrainBudget handle operation observation).All Memory.Reads := by
  unfold settledDrainBudget
  split
  · trivial
  · split
    · refine all_bind (looks_ownerObservationIsUnrecoverable handle false _).all fun _ => ?_
      split <;> trivial
    · trivial

theorem all_dequeueDrainBudget :
    (dequeueDrainBudget handle operation).All Memory.Reads := by
  refine all_bind (looks_snapshotGateOwner false).all fun observation => ?_
  split
  · trivial
  · trivial
  · trivial
  · trivial
  · exact all_settledDrainBudget handle operation observation
  · exact all_settledDrainBudget handle operation observation

theorem all_snapshotQueuePositionsLoop (n : Nat) :
    (snapshotQueuePositionsLoop operation n).All Memory.Reads := by
  induction n with
  | zero => trivial
  | succ n ih =>
      refine all_bind (looks_sharedLoad _).all fun _ => ?_
      refine all_bind (looks_sharedLoad _).all fun _ => ?_
      refine all_bind (looks_sharedLoad _).all fun _ => ?_
      refine all_bind (looks_sharedLoad _).all fun _ => ?_
      split
      · trivial
      · exact ih

theorem all_validatePushDrainAdmissionLoop (n enq deq : Nat) :
    (validatePushDrainAdmissionLoop handle operation n enq deq).All Memory.Reads := by
  induction n generalizing enq deq with
  | zero => trivial
  | succ n ih =>
      refine all_bind (all_lift _) fun _ => ?_
      dsimp only
      split
      · trivial
      · refine all_bind (all_dequeueDrainBudget handle operation) fun _ => ?_
        split
        · split <;> trivial
        · refine all_bind (all_snapshotQueuePositionsLoop operation _) fun _ => ?_
          split
          · exact ih _ _
          · split <;> trivial

theorem all_validateLiveHandle :
    (validateLiveHandle handle operation).All Memory.Reads := by
  unfold validateLiveHandle
  split
  · trivial
  · refine all_bind (looks_sharedLoad _).all fun _ => ?_
    split <;> trivial

end All

/-- The outcome does not call recovery blocked. -/
def Tame {α : Type} (x : Except Error α) : Prop :=
  ∀ e, x = .error e → e.code ≠ .recoveryBlocked

theorem tame_ok {α : Type} (a : α) : Tame (.ok a) := nofun

theorem tame_error {α : Type} {e : Error} (h : e.code ≠ .recoveryBlocked) :
    Tame (.error e : Except Error α) := by
  rintro _ ⟨⟩
  exact h

theorem ends_snapshotQueuePositionsLoop (operation : String) (n : Nat) :
    (snapshotQueuePositionsLoop operation n).Ends Tame := by
  induction n with
  | zero => exact tame_error nofun
  | succ n ih =>
      refine ends_load fun _ => ends_load fun _ => ends_load fun _ => ends_load fun _ => ?_
      split
      · exact tame_ok _
      · exact ih

theorem ends_validateLiveHandle (handle : MpmcQueueHandle) (operation : String) :
    (validateLiveHandle handle operation).Ends Tame := by
  unfold validateLiveHandle
  split
  · exact tame_error nofun
  · refine ends_load fun _ => ?_
    split
    · exact tame_error nofun
    · exact tame_ok _

theorem tame_validateTicketBounds (ticket capacity : Nat) (operation : String) :
    Tame (validateTicketBounds ticket capacity operation) := by
  unfold validateTicketBounds
  split
  · exact tame_ok _
  · exact tame_error nofun

theorem validateQueuePositions_of_le {e d cap : Nat} {operation : String} (order : d ≤ e)
    (room : e ≤ d + cap) : validateQueuePositions e d cap operation = .ok () := by
  unfold validateQueuePositions
  rw [if_neg (by omega), if_neg (by omega)]

section Positions
variable {T W S : Type} [DecidableEq T] {L : Logic T (Instr QueueLoc) Reply W S}
  {D : Memory T QueueLoc W} {t : T}

/-- At one instant between `s` and `s'` the positions were `e` and `d`. -/
def SeenTogether (L : Logic T (Instr QueueLoc) Reply W S) (D : Memory T QueueLoc W) (t : T)
    (s s' : S) (e d : Nat) : Prop :=
  ∃ s₁, L.rely t s s₁ ∧ L.inv s₁ ∧ L.rely t s₁ s' ∧
    D.read (L.world s₁) .enqueuePosition = e ∧ D.read (L.world s₁) .dequeuePosition = d

/-- Where the enqueue position only grows, a snapshot that succeeds saw both positions at
its first load of the dequeue position. -/
theorem obs_positionsLoop (hx : ∀ i w r w', L.exec t i w r w' → D.exec t i w r w')
    (climbs : ∀ s s', L.rely t s s' →
      D.read (L.world s) .enqueuePosition ≤ D.read (L.world s') .enqueuePosition)
    (operation : String) (n : Nat) {s₀ s : S} (hs : L.rely t s₀ s) :
    L.obs t (fun x s' => ∀ e d, x = .ok (e, d) → SeenTogether L D t s₀ s' e d)
      (snapshotQueuePositionsLoop operation n) s := by
  induction n generalizing s with
  | zero =>
      intro _ _ _ e d h
      cases h
  | succ n ih =>
      refine Access.obs_load_of hx fun s₁ r₁ _ => ?_
      refine Access.obs_load_of hx fun s₂ r₂ i₂ => ?_
      refine Access.obs_load_of hx fun s₃ r₃ _ => ?_
      refine Access.obs_load_of hx fun s₄ r₄ _ => ?_
      have h₂ := L.rely_trans _ _ _ _ (L.rely_trans _ _ _ _ hs r₁) r₂
      have h₄ := L.rely_trans _ _ _ _ (L.rely_trans _ _ _ _ h₂ r₃) r₄
      split
      · rename_i same
        have up := climbs _ _ r₂
        have up' := climbs _ _ r₃
        have enq := same.1
        intro s' r' _ e d h
        cases h
        refine ⟨s₂, h₂, i₂, L.rely_trans _ _ _ _ (L.rely_trans _ _ _ _ r₃ r₄) r', ?_, same.2⟩
        omega
      · exact ih h₄

end Positions

/-- The owner record of a gate. -/
def gateRecord (g : Bool) : OwnerRecord QueueLoc where
  state := .gateState g
  epoch := .gateEpoch g
  owner := .gateOwner g
  classify := classifyGateState
  valid := ownerValid

namespace QueueSystem
variable {T : Type} {q : QueueSystem T} {t : T} {s s' : QueueState T} {g : Bool}

/-- The outcome of a call that ended at `s`. -/
def Explains {α : Type} (q : QueueSystem T) (x : Except Error α) (s : QueueState T) : Prop :=
  ∀ e, x = .error e → q.Explained e s

theorem explains_ok {α : Type} (a : α) : q.Explains (.ok a) s := nofun

theorem explains_error {α : Type} {e : Error} (h : q.Explained e s) :
    q.Explains (.error e : Except Error α) s := by
  rintro _ ⟨⟩
  exact h

theorem explained_of_ne {e : Error} (h : e.code ≠ .recoveryBlocked) : q.Explained e s :=
  fun code => (h code).elim

theorem explains_of_tame {α : Type} {x : Except Error α} (h : Tame x) : q.Explains x s :=
  fun e he => explained_of_ne (h e he)

/-- At some instant between `s` and `s'` the positions were `e` and `d`. -/
def PositionsAt (q : QueueSystem T) (t : T) (s s' : QueueState T) (e d : Nat) : Prop :=
  ∃ s₁, q.Rely t s s₁ ∧ q.Inv s₁ ∧ q.Rely t s₁ s' ∧ s₁.enq = e ∧ s₁.deq = d

theorem PositionsAt.bounds {e d : Nat} (h : q.PositionsAt t s s' e d) :
    (s.enq ≤ e ∧ e ≤ s'.enq) ∧ s.deq ≤ d ∧ d ≤ s'.deq := by
  obtain ⟨s₁, before, _, after, rfl, rfl⟩ := h
  exact ⟨⟨before.enq, after.enq⟩, before.deq, after.deq⟩

/-- Positions that were seen together are consistent. -/
theorem PositionsAt.valid {e d : Nat} (h : q.PositionsAt t s s' e d) (operation : String) :
    validateQueuePositions e d q.handle.capacity operation = .ok () := by
  obtain ⟨s₁, _, inv, _, rfl, rfl⟩ := h
  exact validateQueuePositions_of_le inv.order inv.room

theorem free_of_classify {v : Nat} (h : classifyGateState v = .inactive) :
    v = MpmcLockState.free.code := by
  unfold classifyGateState classifyState at h
  split at h
  · assumption
  · repeat' split at h
    all_goals cases h

theorem owned_of_classify {v : Nat} (h : classifyGateState v = .owned) :
    v = MpmcLockState.owned.code := by
  unfold classifyGateState classifyState at h
  repeat' split at h
  all_goals first | assumption | cases h

/-- The gate of a healthy queue follows the owner protocol. -/
theorem Healthy.not_broken (healthy : q.Healthy s) (sound : q.Sound) :
    ¬ (gateRecord g).Broken s.mem := by
  intro broken
  rcases healthy.known g with state | state | state
  all_goals simp only [OwnerRecord.Broken, gateRecord, state] at broken
  · have even := healthy.even g (by rw [state]; decide)
    exact broken ⟨even, healthy.bounded g⟩
  · exact broken
  · obtain ⟨_, o, words, invalid⟩ := broken
    obtain ⟨u, _, self⟩ := healthy.owned g state
    obtain rfl : o = ownerFromProcess (q.self u) :=
      OwnerAbi.ext_word fun w => (words w).symm.trans (self w)
    cases invalid.symm.trans (sound.valid u)

theorem Healthy.not_exhausted (healthy : q.Healthy s) :
    classifyGateState (s.mem (.gateState g)) ≠ .epochExhausted := by
  intro exhausted
  rcases healthy.known g with state | state | state
  all_goals
    rw [state] at exhausted
    cases exhausted

/-- What an outcome of the drain budget says: a value is what the dequeue gate could
still spend at one instant at which it was free. -/
def BudgetAt (q : QueueSystem T) (s : QueueState T) (x : Except Error Nat)
    (s' : QueueState T) : Prop :=
  q.Explains x s' ∧ ∀ b, x = .ok b → ∃ d, s.deq ≤ d ∧ d ≤ s'.deq ∧
    b = (maxCommittedOwnerEpoch - 2 * d) / 2

theorem budgetAt_error {s₀ : QueueState T} {e : Error} (h : q.Explained e s) :
    q.BudgetAt s₀ (.error e) s := ⟨explains_error h, nofun⟩

variable [DecidableEq T]

theorem guarded_gate (g : Bool) : Guarded q.logic q.memory t (gateRecord g) where
  mono _ _ h := Onward.epoch (Rely.onward h) g
  kept _ _ h := Onward.owner (Rely.onward h) g

/-- What a snapshot of a gate says while nothing is out of epochs. -/
theorem kind_of_shown {snapshot : OwnerSnapshot}
    (shown : ShownAt q.logic q.memory t (gateRecord g) s s' snapshot) (sound : q.Sound)
    (fresh : s'.world.exhausted = false) :
    snapshot.kind ≠ .corrupt ∧ snapshot.kind ≠ .epochExhausted ∧
      (snapshot.kind = .stable → snapshot.epoch % 2 = 0 ∧
        snapshot.epoch ≤ maxCommittedOwnerEpoch) := by
  obtain ⟨s₁, _, inv, after, shows⟩ := shown
  have healthy := inv.healthy sound (Onward.fresh (Rely.onward after) fresh)
  refine ⟨?_, ?_, ?_⟩
  · intro kind
    simp only [OwnerRecord.Shows, kind] at shows
    exact healthy.not_broken sound shows
  · intro kind
    simp only [OwnerRecord.Shows, kind] at shows
    exact healthy.not_exhausted shows
  · intro kind
    simp only [OwnerRecord.Shows, kind] at shows
    obtain ⟨_, _, epoch, even, _⟩ := shows
    exact ⟨even, epoch ▸ healthy.bounded g⟩

variable (handle : MpmcQueueHandle) (operation : String)

/-- Any part that only reads keeps what is stable. -/
theorem obs_reads {α : Type} {p : QueueCode α} (all : p.All Memory.Reads)
    {P : QueueState T → Prop} (stable : q.logic.Stable t P) {s : QueueState T}
    (pre : P s) : q.logic.obs t (fun _ => P) p s :=
  Access.obs_frame (D := q.memory) rfl all P stable pre

theorem obs_tame {α : Type} {p : QueueCode α} (all : p.All Memory.Reads)
    (ends : p.Ends Tame) {s : QueueState T} : q.logic.obs t q.Explains p s :=
  Logic.obs_mono (fun _ _ _ => explains_of_tame) (Access.obs_ends (D := q.memory) rfl all ends)

/-- The positions were those of one instant of the call. -/
theorem obs_snapshotQueuePositions (s : QueueState T) :
    q.logic.obs t (fun x s' => ∀ e d, x = .ok (e, d) → q.PositionsAt t s s' e d)
      (snapshotQueuePositions operation) s :=
  obs_positionsLoop (L := q.logic) (D := q.memory) (fun _ _ _ _ h => h)
    (fun _ _ h => Rely.enq h) operation _ (rely_refl t s)

/-- A snapshot of the positions never calls recovery blocked. -/
theorem obs_snapshotPositions (s : QueueState T) :
    q.logic.obs t (fun x s' => q.Explains x s' ∧
      ∀ e d, x = .ok (e, d) → q.PositionsAt t s s' e d) (snapshotQueuePositions operation) s :=
  Logic.obs_and (obs_tame (all_snapshotQueuePositionsLoop operation _)
    (ends_snapshotQueuePositionsLoop operation _)) (obs_snapshotQueuePositions operation s)

theorem obs_snapshotGateOwner (g : Bool) (s : QueueState T) :
    q.logic.obs t (fun x s' => ∀ snapshot, x = .ok snapshot →
      ShownAt q.logic q.memory t (gateRecord g) s s' snapshot) (snapshotGateOwner g) s := by
  refine Logic.obs_mono ?_
    (obs_snapshotOwnerSeqCst (M := q.logic) (D := q.memory) rfl (guarded_gate g) s)
  intro x s' _ reports snapshot hx
  exact reports snapshot (by rw [hx]; rfl)

/-- The answer of a probe, at the instant it was given. -/
theorem obs_ownerLiveness (owner : OwnerAbi) (s : QueueState T) :
    q.logic.obs t (fun x s' => ∀ l, x = .ok l → foreignBoot handle owner = false →
      ∃ s₁, q.answers s₁.world owner.pid owner.procStartTicks l ∧ q.Rely t s₁ s')
      (ownerLiveness handle owner) s := by
  unfold ownerLiveness
  split
  · rename_i foreign
    intro _ _ _ _ _ home
    cases foreign.symm.trans home
  · intro s₁ _ _ l w hx
    obtain ⟨answer, rfl⟩ := hx
    refine ⟨rfl, ?_⟩
    intro s' hr _ l' hl _
    cases hl
    exact ⟨s₁, answer, hr⟩

/-- A verdict on the owner of a gate: unrecoverable only when a gate is lost. -/
def Verdict (q : QueueSystem T) (x : Except Error OwnerObservationDisposition)
    (s : QueueState T) : Prop :=
  ∀ d, x = .ok d → d = .unrecoverable → q.Lost s

theorem obs_fine {d : OwnerObservationDisposition} (h : d ≠ .unrecoverable)
    {s : QueueState T} : q.logic.obs t q.Verdict (.ret d) s := by
  rintro _ _ _ _ ⟨⟩ hd
  exact (h hd).elim

theorem obs_lost {d : OwnerObservationDisposition} {s : QueueState T} (h : q.Lost s) :
    q.logic.obs t q.Verdict (.ret d) s :=
  fun _ hr _ _ _ _ => Onward.lost (Rely.onward hr) h

/-- An owner that was confirmed after its process was found dead still holds the gate. -/
theorem obs_confirmOwnerLiveness (hself : handle.self = q.self t) (g : Bool)
    {observation : OwnerSnapshot} (s : QueueState T) :
    q.logic.obs t q.Verdict (confirmOwnerLiveness handle g observation) s := by
  refine Access.obs_look (D := q.memory) rfl (looks_ownerLiveness handle _)
    (obs_ownerLiveness handle observation.owner s) fun liveness s₁ answered => ?_
  refine Access.obs_look (D := q.memory) rfl (looks_snapshotGateOwner g)
    (obs_snapshotGateOwner g s₁) ?_
  intro confirmed s₂ shown
  have lost : sameStableOwnerObservation observation confirmed = true →
      (foreignBoot handle observation.owner = false → liveness ≠ .alive) → q.Lost s₂ := by
    intro same dead sound fresh
    simp only [sameStableOwnerObservation, Bool.and_eq_true, decide_eq_true_eq] at same
    obtain ⟨⟨⟨⟨_, stable⟩, _⟩, _⟩, owner⟩ := same
    obtain ⟨s₃, before, inv, after, shows⟩ := shown
    simp only [OwnerRecord.Shows, stable] at shows
    obtain ⟨state, owned, _, _, words, _⟩ := shows
    have owned := owned_of_classify owned
    have healthy := inv.healthy sound (Onward.fresh (Rely.onward after) fresh)
    obtain ⟨u, holds, self⟩ := healthy.owned g (state.trans owned)
    have identity : observation.owner = ownerFromProcess (q.self u) :=
      owner.trans (OwnerAbi.ext_word fun w => (words w).symm.trans (self w))
    have home : foreignBoot handle observation.owner = false := by
      have boot := sound.boot t u
      simp [foreignBoot, identity, ownerFromProcess, hself, boot.1, boot.2]
    obtain ⟨s₀, answer, later⟩ := answered home
    have crashed := sound.probe _ _ _ _ answer (dead home)
    simp only [identity] at crashed
    have stopped : q.Stopped u s₃.world := fun u' pid ticks =>
      Onward.dies (Rely.onward (rely_trans later before)) u' (crashed u' pid ticks)
    exact Onward.blocked (Rely.onward after) ⟨g, u, holds, stopped, state.trans owned⟩
  split
  · exact obs_fine (by decide)
  · rename_i same
    have same := Decidable.not_not.1 same
    split
    · rename_i foreign
      refine obs_lost (lost same fun home => ?_)
      cases foreign.symm.trans home
    · split
      · exact obs_fine (by decide)
      · rename_i dead
        exact obs_lost (lost same fun _ => dead)

/-- A gate is called unrecoverable only when it is lost. -/
theorem obs_ownerObservationIsUnrecoverable (hself : handle.self = q.self t) (g : Bool)
    {observation : OwnerSnapshot} {s₀ s : QueueState T}
    (shown : ShownAt q.logic q.memory t (gateRecord g) s₀ s observation) :
    q.logic.obs t q.Verdict (ownerObservationIsUnrecoverable handle g observation) s := by
  have broken : observation.kind = .corrupt ∨ observation.kind = .epochExhausted →
      q.Lost s := by
    intro kind sound fresh
    obtain ⟨corrupt, exhausted, _⟩ := kind_of_shown shown sound fresh
    exact (kind.elim corrupt exhausted).elim
  unfold ownerObservationIsUnrecoverable
  split
  · exact obs_fine (by decide)
  · exact obs_fine (by decide)
  · exact obs_fine (by decide)
  · rename_i kind
    exact obs_lost (broken (.inl kind))
  · rename_i kind
    exact obs_lost (broken (.inr kind))
  · exact obs_confirmOwnerLiveness handle hself g s

/-- Why a gate could not be entered, if that was for good. -/
theorem obs_gateBusyResult (hself : handle.self = q.self t) (g : Bool) (s : QueueState T) :
    q.logic.obs t (fun x s' => ∀ e, x = .ok e → q.Explained e s')
      (gateBusyResult handle g) s := by
  refine Access.obs_look (D := q.memory) rfl (looks_snapshotGateOwner g)
    (obs_snapshotGateOwner g s) ?_
  intro observation s₁ shown
  have tame : ∀ {code : ErrorCode} {context : String} {s₂ : QueueState T},
      code ≠ .recoveryBlocked → q.logic.obs t (fun x s' => ∀ e, x = .ok e → q.Explained e s')
        (.ret (makeError code (gateOperation g) context) : QueueCode Error) s₂ := by
    intro code context s₂ ne s' _ _ e he
    cases he
    exact explained_of_ne ne
  have broken : observation.kind = .corrupt ∨ observation.kind = .epochExhausted →
      q.Lost s₁ := by
    intro kind sound fresh
    obtain ⟨corrupt, exhausted, _⟩ := kind_of_shown shown sound fresh
    exact (kind.elim corrupt exhausted).elim
  split
  · exact tame nofun
  · exact tame nofun
  · exact tame nofun
  · rename_i kind
    intro s' hr _ e _ _
    exact Onward.lost (Rely.onward hr) (broken (.inl kind))
  · rename_i kind
    intro s' hr _ e _ _
    exact Onward.lost (Rely.onward hr) (broken (.inr kind))
  · refine Access.obs_look (D := q.memory) rfl (looks_confirmOwnerLiveness handle g _)
      (obs_confirmOwnerLiveness handle hself g s₁) fun disposition s₂ lost => ?_
    split
    · split
      · exact tame nofun
      · exact tame nofun
    · split
      · exact tame nofun
      · exact tame nofun
      · intro s' hr _ e _ _
        exact Onward.lost (Rely.onward hr) (lost rfl)

theorem obs_settledDrainBudget (hself : handle.self = q.self t) {observation : OwnerSnapshot}
    {s₀ s : QueueState T}
    (shown : ShownAt q.logic q.memory t (gateRecord false) s₀ s observation)
    (kinds : observation.kind = .inactive ∨ observation.kind = .stable) :
    q.logic.obs t (q.BudgetAt s₀) (settledDrainBudget handle operation observation) s := by
  unfold settledDrainBudget
  split
  · rename_i bad
    intro s' hr _
    refine budgetAt_error fun _ => Onward.lost (Rely.onward hr) ?_
    intro sound fresh
    rcases kinds with kind | kind
    · obtain ⟨s₁, _, _, _, shows⟩ := shown
      simp only [OwnerRecord.Shows, kind] at shows
      obtain ⟨_, _, _, even, bounded⟩ := shows
      omega
    · obtain ⟨even, bounded⟩ := (kind_of_shown shown sound fresh).2.2 kind
      omega
  · split
    · refine Access.obs_look (D := q.memory) rfl
        (looks_ownerObservationIsUnrecoverable handle false _)
        (obs_ownerObservationIsUnrecoverable handle hself false shown) ?_
      intro disposition s₁ lost
      split
      · exact fun _ _ _ => budgetAt_error (explained_of_ne (by rintro ⟨⟩))
      · intro s' hr _
        exact budgetAt_error fun _ => Onward.lost (Rely.onward hr) (lost rfl)
      · exact fun _ _ _ => budgetAt_error (explained_of_ne (by rintro ⟨⟩))
    · rename_i hk
      obtain ⟨s₁, before, inv, after, shows⟩ := shown
      have kind := kinds.resolve_right hk
      simp only [OwnerRecord.Shows, kind] at shows
      obtain ⟨state, inactive, epoch, _⟩ := shows
      have unheld := inv.freeGate false (state.trans (free_of_classify inactive))
      have spent := (inv.drainGate unheld).2.1
      intro s' r' _
      refine ⟨explains_ok _, fun b h => ?_⟩
      cases h
      refine ⟨s₁.deq, Rely.deq before, Rely.deq (rely_trans after r'), ?_⟩
      change s₁.mem (.gateEpoch false) = observation.epoch at epoch
      rw [← epoch, spent]

theorem obs_dequeueDrainBudget (hself : handle.self = q.self t) (s : QueueState T) :
    q.logic.obs t (q.BudgetAt s) (dequeueDrainBudget handle operation) s := by
  refine Access.obs_look (D := q.memory) rfl (looks_snapshotGateOwner false)
    (obs_snapshotGateOwner false s) ?_
  intro observation s₁ shown
  split
  · exact fun _ _ _ => budgetAt_error (explained_of_ne nofun)
  · exact fun _ _ _ => budgetAt_error (explained_of_ne nofun)
  · exact fun _ _ _ => budgetAt_error (explained_of_ne nofun)
  · rename_i kind
    intro s' hr _
    refine budgetAt_error fun _ => Onward.lost (Rely.onward hr) fun sound fresh => ?_
    exact ((kind_of_shown shown sound fresh).1 kind).elim
  · rename_i kind
    exact obs_settledDrainBudget handle operation hself shown (.inl kind)
  · rename_i kind
    exact obs_settledDrainBudget handle operation hself shown (.inr kind)

end QueueSystem
end EdgeRuntime

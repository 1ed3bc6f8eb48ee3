import EdgeRuntime.Queue.Gates

/-!
The pop. A consumer that has claimed the dequeue gate and seen a message finds
its slot published, so every check that follows succeeds: no path gives the gate
up between its commit and the store of the position.
-/
namespace EdgeRuntime
open Concurrent

namespace QueueSystem
variable {T α : Type} {q : QueueSystem T} {t : T}
  {s : QueueState T} {k : Phase} {slot : Option Nat} {c : QueueClient}
  {f : QueueMem} {Q : Except Error α → QueueState T → Prop}
  {handle : MpmcQueueHandle} {operation : String}

variable [DecidableEq T]

theorem wp_copyOut_owned {g : Bool} {j v : Nat} {next : Unit → QueueCode α}
    (h : q.Owner g t slot c k f s)
    (cont : ∀ s', q.Owner g t slot { c with out := Function.update c.out j v } k f s' →
      q.logic.wp t Q (next ()) s') :
    q.logic.wp t Q (copyOut j v >>= next) s := by
  refine Access.wp_copyOut (D := q.memory) rfl fun s₁ r₁ i₁ => ?_
  have h₁ := owner_stable s s₁ h r₁ i₁
  refine ⟨{ s₁ with world := fill t j v s₁.world }, rfl, ?_, ?_, cont _ ?_⟩
  · exact inv_world i₁ rfl rfl rfl rfl rfl (fun _ hu => hu) fun _ hr => .inl hr
  · intro u hne
    exact rely_world rfl (Function.update_of_ne hne _ _) rfl (fun _ hu => hu) rfl
  · refine ⟨h₁.holder, h₁.single, h₁.opened, h₁.words, ?_, h₁.alive, h₁.working, h₁.floor,
      h₁.clear⟩
    simp [fill, h₁.client]

/-- The byte copy out of the slot. -/
theorem wp_copyFrom {g : Bool} {i j n : Nat} {next : Unit → QueueCode α}
    (h : q.Owner g t (some i) c k f s)
    (cont : ∀ s' out, q.Owner g t (some i) { c with out := out } k f s' →
      (∀ o, o < j → out o = c.out o) →
      (∀ m, m < n → out (j + m) = f (.slotPayload i (j + m))) →
      q.logic.wp t Q (next ()) s') :
    q.logic.wp t Q (copyFrom (.slotPayload i) j n >>= next) s := by
  induction n generalizing j c s with
  | zero => exact cont s c.out h (fun _ _ => rfl) (fun m hm => by omega)
  | succ n ih =>
      unfold copyFrom
      simp only [Prog.bind_assoc]
      refine wp_load_owned h (.inr ⟨i, rfl, rfl⟩) fun s₁ h₁ => ?_
      refine wp_copyOut_owned h₁ fun s₂ h₂ => ?_
      refine ih h₂ fun s₃ out h₃ before copied => cont s₃ out h₃ ?_ ?_
      · intro o ho
        rw [before o (by omega)]
        exact Function.update_of_ne (by omega) _ _
      · intro m hm
        cases m with
        | zero =>
            rw [Nat.add_zero, before j (by omega)]
            exact Function.update_self _ _ _
        | succ m =>
            rw [show j + (m + 1) = j + 1 + m by omega]
            exact copied m (by omega)

/-- The state after the store that makes a pop visible. -/
def finishTake (q : QueueSystem T) (t : T) (d : Nat) (s : QueueState T) : QueueState T :=
  setWork false false (q.store t .dequeuePosition d s)

/-- The oldest message leaves the window together with the position store. -/
theorem inv_finishTake {D : Nat} (hi : q.Inv s)
    (h : q.Owner false t (some (q.ring D)) c k f s) (hD : f .dequeuePosition = D)
    (copied : q.received c =
      (List.range q.payloadSize).map fun j => f (.slotPayload (q.ring D) j))
    (onward : Onward s (q.finishTake t (D + 1) s))
    (vacant : q.Vacant f (D + q.handle.capacity)) :
    q.Inv (q.finishTake t (D + 1) s) := by
  have deq : s.deq = D := h.deq.trans hD
  have opened := (h.opened _ rfl).2
  have hdeq : (q.finishTake t (D + 1) s).deq = D + 1 := by
    change s.mem.set .dequeuePosition (D + 1) .dequeuePosition = D + 1
    simp
  have same : ∀ l, l ≠ .dequeuePosition →
      (q.finishTake t (D + 1) s).mem l = s.mem l := by
    intro l hl
    change s.mem.set .dequeuePosition (D + 1) _ = _
    simp [hl]
  have henq : (q.finishTake t (D + 1) s).enq = s.enq := same _ (by simp)
  have hpushed : (q.finishTake t (D + 1) s).world.pushed = s.world.pushed := by
    simp [finishTake, setWork, QueueSystem.store, write]
  have filling : (q.finishTake t (D + 1) s).working true = s.working true := by
    simp [finishTake, setWork]
  have slots : ∀ p l, l.slot? = some (q.ring p) →
      (q.finishTake t (D + 1) s).mem l = s.mem l := by
    intro p l hl
    refine same l ?_
    rintro rfl
    cases hl
  constructor
  case ready => rw [same _ (by simp)]; exact hi.ready
  case order => omega
  case room =>
      have := hi.room
      omega
  case drainable => rw [henq]; exact hi.drainable
  case pushed => rw [hpushed, henq]; exact hi.pushed
  case popped =>
      have oldest := hi.payloads D (by omega) (by omega)
      have words : ∀ j, s.mem (.slotPayload (q.ring D) j) =
          f (.slotPayload (q.ring D) j) := fun j => h.words _ (.inr ⟨_, rfl, rfl⟩)
      simp only [words, ← copied] at oldest
      have hpopped : (q.finishTake t (D + 1) s).world.popped =
          s.world.popped ++ [q.received c] := by
        simp [finishTake, setWork, QueueSystem.store, write, h.client]
      rw [hpopped, hpushed, hdeq, List.take_add_one, oldest, hi.popped, deq]
      rfl
  case payloads =>
      intro p hp hp'
      rw [hdeq] at hp
      rw [henq] at hp'
      simp only [same _ (show QueueLoc.slotPayload _ _ ≠ .dequeuePosition by simp), hpushed]
      exact hi.payloads p (by omega) hp'
  case published =>
      intro p hp hp'
      rw [hdeq] at hp
      rw [henq] at hp'
      rcases hi.published p (by omega) hp' with ⟨_, hd⟩ | hp''
      · omega
      · exact .inr (published_congr (slots p) hp'')
  case freeGate =>
      intro g
      rw [same _ (by simp)]
      exact hi.freeGate g
  case drainGate =>
      intro hnone
      cases h.holder.symm.trans hnone
  case fillGate =>
      rw [filling]
      exact hi.fillGate
  case lasting => rw [same _ (by simp)]; exact hi.lasting
  case counts =>
      have deq' : s.world.mem .dequeuePosition = D := deq
      simp [finishTake, setWork, QueueSystem.store, write, hi.counts, QueueLoc.isCounter, deq']
  case finished => exact hi.finished
  case healthy =>
      intro sound fresh
      have healthy := hi.healthy sound (onward.fresh fresh)
      refine healthy.transfer onward (fun l _ _ hl => same l hl) rfl rfl ?_
      intro p hp hp'
      rw [henq] at hp ⊢
      rw [hdeq] at hp'
      rw [filling]
      by_cases hpD : p = D + q.handle.capacity
      · -- the slot just handed back serves the next round
        subst hpD
        refine .inr (vacant_congr (fun l hl => ?_) vacant)
        rw [slots _ l hl]
        refine h.words l (.inr ⟨_, rfl, ?_⟩)
        rw [hl]
        simp [ring]
      · exact (healthy.vacant p hp (by omega)).imp id (vacant_congr (slots p))

theorem wp_store_dequeuePosition {D : Nat} {next : Unit → QueueCode α}
    (h : q.Owner false t (some (q.ring D)) c k f s) (hD : f .dequeuePosition = D)
    (copied : q.received c =
      (List.range q.payloadSize).map fun j => f (.slotPayload (q.ring D) j))
    (vacant : q.Vacant f (D + q.handle.capacity))
    (cont : ∀ s', q.Owner false t none { c with dequeueStores := c.dequeueStores + 1 }
      { k with working := false } (f.set .dequeuePosition (D + 1)) s' →
      q.logic.wp t Q (next ()) s') :
    q.logic.wp t Q (sharedStore .dequeuePosition (D + 1) >>= next) s := by
  refine Access.wp_store (D := q.memory) rfl fun s₁ r₁ i₁ => ?_
  have h₁ := owner_stable s s₁ h r₁ i₁
  have mine : Mine false (some (q.ring D)) .dequeuePosition := .inl rfl
  have proper : Proper false k f .dequeuePosition (D + 1) :=
    proper_dequeuePosition (by omega)
  have onward : Onward s₁ (q.finishTake t (D + 1) s₁) :=
    (h₁.onward mine proper).trans (onward_ghost fun _ _ hu _ => hu)
  refine ⟨q.finishTake t (D + 1) s₁, rfl, inv_finishTake i₁ h₁ hD copied onward vacant, ?_,
    cont _ ?_⟩
  · intro u hne
    exact rely_trans (guar_store h₁ mine proper u hne) (rely_setWork h₁.holder hne)
  · refine ⟨h₁.holder, h₁.single, fun _ hi => (nomatch hi), ?_, ?_, h₁.alive, ?_, ?_,
      fun sound fresh => h₁.clear sound (onward.fresh fresh)⟩
    · intro l hl
      change s₁.mem.set .dequeuePosition (D + 1) l = _
      simp [h₁.closeSlot.words l hl]
    · change (q.store t .dequeuePosition (D + 1) s₁).world.client t = _
      simp [store_client_self, h₁.client]
    · simp [finishTake, setWork]
    · change _ ≤ s₁.mem.set .dequeuePosition (D + 1) .enqueuePosition
      rw [Words.set_apply, if_neg (by simp)]
      exact h₁.floor

section Results
variable {Q : Except Error Unit → QueueState T → Prop}

/-- From the claim of the slot to the end of the pop: nothing can fail any more. -/
theorem wp_popClaimed {D : Nat} (h : q.Owner false t (some (q.ring D)) c k f s)
    (hk : k.working = true) (hD : f .dequeuePosition = D)
    (hsize : handle.payloadSize = q.payloadSize)
    (even : f (.slotEpoch (q.ring D)) % 2 = 0)
    (reserve : f (.slotEpoch (q.ring D)) + 2 ≤ maxCommittedOwnerEpoch)
    (budget : f (.gateEpoch false) = 2 * (D + 1))
    (done : ∀ out s', Outside t { c with
      out := out, dequeueStores := c.dequeueStores + 1 } s' → Q (.ok ()) s') :
    q.logic.wp t Q
      (popClaimed handle (q.ring D) D (D + 1) (D + q.handle.capacity)) s := by
  have mine : ∀ {l : QueueLoc}, l.slot? = some (q.ring D) →
      Mine false (some (q.ring D)) l := fun hl => .inr ⟨_, rfl, hl⟩
  have quiet : ∀ {l : QueueLoc}, l.slot? = some (q.ring D) → l.isPayload = false →
      Quiet false k l := fun hl hp => quiet_slot hl (.inr ⟨hk, hp⟩)
  unfold popClaimed
  refine wp_beginOwnerCommit h (mine rfl) (quiet rfl rfl) (by omega)
    (fun _ => proper_slot rfl hk fun _ => by omega) ?_ ?_
  · intro _ _ s₁ h₁
    simp only [ne_eq, not_true_eq_false, if_false]
    refine wp_setOwner h₁ (fun _ => mine rfl) (fun _ => quiet rfl rfl)
      (fun _ _ _ _ => proper_slot rfl hk (by rintro ⟨⟩))
      (fun w w' hw => (QueueLoc.slotOwner.inj hw).2) ?_
    intro s₂ f₂ hf₂ _ h₂
    refine wp_store_owned h₂ (mine rfl) (quiet rfl rfl) (proper_slot rfl hk (by rintro ⟨⟩)) ?_
    intro s₃ h₃
    refine wp_store_owned h₃ (mine rfl) (quiet rfl rfl) (proper_slot rfl hk fun _ => ?_) ?_
    · simp [hf₂]
    intro s₄ h₄
    refine wp_store_owned h₄ (mine rfl) (quiet rfl rfl) (proper_slot rfl hk (by rintro ⟨⟩)) ?_
    intro s₅ h₅
    refine wp_copyFrom h₅ fun s₆ out h₆ _ copied => ?_
    refine wp_store_owned h₆ (mine rfl) (quiet rfl rfl) (proper_slot rfl hk (by rintro ⟨⟩)) ?_
    intro s₇ h₇
    refine wp_store_owned h₇ (mine rfl) (quiet rfl rfl) (proper_slot rfl hk (by rintro ⟨⟩)) ?_
    intro s₈ h₈
    have again : q.ring (D + q.handle.capacity) = q.ring D := by simp [ring]
    refine wp_store_dequeuePosition h₈ (by simp [hf₂, hD]) ?_ ⟨?_, ?_, ?_, ?_⟩ ?_
    · refine List.map_congr_left fun j hj => ?_
      have := copied j (by simpa [hsize] using hj)
      rw [Nat.zero_add] at this
      simp [this]
    · simp [again]
    · simp [again]
    · simp [again]
      omega
    · simp [again]
      omega
    · intro s₉ h₉
      refine wp_releaseGate h₉ ⟨?_, fun _ => rfl, fun _ => ⟨rfl, ?_⟩⟩ fun s' h' _ => ?_
      · simp [hf₂, budget]
      · simp [hf₂, budget]
      · exact wp_notifyWaiters h' fun s'' h'' => done out s'' h''
  · exact fun hbad => (hbad ⟨even, reserve⟩).elim

theorem wp_popSlot {D : Nat} (h : q.Owner false t (some (q.ring D)) c k f s)
    (hD : f .dequeuePosition = D) (hsize : handle.payloadSize = q.payloadSize)
    (published : q.Published f D) (budget : f (.gateEpoch false) = 2 * (D + 1))
    (done : ∀ out s', Outside t { c with
      out := out, dequeueStores := c.dequeueStores + 1 } s' → Q (.ok ()) s') :
    q.logic.wp t Q
      (popSlot handle (q.ring D) D (D + 1) (D + q.handle.capacity)) s := by
  obtain ⟨sequence, state, even, reserve⟩ := published
  have mine : ∀ {l : QueueLoc}, l.slot? = some (q.ring D) →
      Mine false (some (q.ring D)) l := fun hl => .inr ⟨_, rfl, hl⟩
  unfold popSlot slotMatches ownerEpochCapacity
  simp only [Prog.bind_assoc]
  refine wp_load_owned h (mine rfl) fun s₁ h₁ => ?_
  simp only [sequence, ne_eq, not_true_eq_false, if_false, Prog.bind_assoc]
  refine wp_load_owned h₁ (mine rfl) fun s₂ h₂ => ?_
  simp only [state, decide_true, Prog.pure_eq, Prog.ret_bind, not_true_eq_false, if_false]
  refine wp_load_owned h₂ (mine rfl) fun s₃ h₃ => ?_
  rw [if_neg (by omega), if_pos (by omega)]
  simp only [Prog.ret_bind, not_true_eq_false, if_false]
  refine wp_claimSlot h₃ state fun s₄ h₄ => ?_
  exact wp_popClaimed h₄ rfl (by simpa using hD) hsize (by simpa using even)
    (by simpa using reserve) (by simpa using budget) done

theorem wp_popEmptyResult {producer : OwnerObservationDisposition} (h : Outside t c s)
    (lost : producer = .unrecoverable → q.Lost s) (fails : q.MayFail t c Q) :
    q.logic.wp t Q (popEmptyResult producer) s := by
  cases producer with
  | notUnrecoverable => exact h.throw (explained_of_ne nofun) fails
  | changed => exact h.throw (explained_of_ne nofun) fails
  | unrecoverable => exact h.throw (fun _ => lost rfl) fails

theorem wp_popEmpty (hself : handle.self = q.self t) (h : Outside t c s)
    (fails : q.MayFail t c Q) : q.logic.wp t Q (popEmpty handle) s := by
  refine Access.wp_looks (D := q.memory) rfl (looks_sharedLoad _) (Outside t c)
    outside_stable h fun state s₁ _ h₁ => ?_
  split
  · refine Access.wp_learn (D := q.memory) rfl (looks_gateBusyResult handle false)
      (Outside t c) outside_stable h₁ (obs_gateBusyResult handle hself false s₁) ?_
    exact fun busy s₂ _ h₂ told => h₂.throw told fails
  · refine Access.wp_learn (D := q.memory) rfl (looks_snapshotGateOwner true)
      (Outside t c) outside_stable h₁ (obs_snapshotGateOwner true s₁) ?_
    intro producer s₂ _ h₂ shown
    refine Access.wp_learn (D := q.memory) rfl
      (looks_ownerObservationIsUnrecoverable handle true _) (Outside t c) outside_stable h₂
      (obs_ownerObservationIsUnrecoverable handle hself true shown) ?_
    exact fun _ s₃ _ h₃ lost => wp_popEmptyResult h₃ lost fails

theorem wp_popEmptyGated (hself : handle.self = q.self t)
    (h : q.Owner false t slot c k f s) (rest : AtRest false k f)
    (fails : q.MayFail t c Q) : q.logic.wp t Q (popEmptyGated handle) s := by
  refine Access.wp_learn (D := q.memory) rfl (looks_snapshotGateOwner true) _ owner_stable h
    (obs_snapshotGateOwner true s) fun producer s₁ _ h₁ shown => ?_
  refine Access.wp_learn (D := q.memory) rfl
    (looks_ownerObservationIsUnrecoverable handle true _) _ owner_stable h₁
    (obs_ownerObservationIsUnrecoverable handle hself true shown) fun _ s₂ _ h₂ lost => ?_
  refine wp_releaseGate h₂ rest fun s₃ h₃ onward => ?_
  exact wp_popEmptyResult h₃ (fun hu => onward.lost (lost hu)) fails

theorem wp_popGated (h : q.Owner false t none c ⟨false, 0, Steady false f⟩ f s)
    (claimed : f (.gateState false) = MpmcLockState.claiming.code)
    (budget : f (.gateEpoch false) = 2 * f .dequeuePosition)
    (done : ∀ out s', Outside t { c with
      out := out, dequeueStores := c.dequeueStores + 1 } s' → Q (.ok ()) s')
    (fails : q.MayFail t c Q) :
    q.logic.wp t Q (popGated (q.handleOf t)) s := by
  have rest : AtRest false ⟨false, 0, Steady false f⟩ f :=
    ⟨by omega, fun _ => rfl, fun _ => ⟨rfl, budget⟩⟩
  unfold popGated
  refine wp_releaseOnError h (all_snapshotQueuePositionsLoop _ _)
    (obs_snapshotPositions _ s) rest (fun e _ told => told.1 e rfl) ?_ fails
  rintro ⟨e, d⟩ s₁ h₁ ⟨_, seen⟩
  have positions := seen e d rfl
  obtain ⟨⟨_, he⟩, hd, hd'⟩ := positions.bounds
  rw [h.deq] at hd
  rw [h₁.deq] at hd'
  obtain rfl : d = f .dequeuePosition := by omega
  have valid := positions.valid "MpmcQueue::try_pop"
  refine wp_releaseOnError_lift h₁ rest (valid ▸ tame_ok ()) (fun _ _ => ?_) fails
  refine wp_releaseOnError_lift h₁ rest (tame_validateTicketBounds _ _ _) ?_ fails
  rintro ⟨next, reclaim⟩ bounds
  dsimp only
  split
  · exact wp_popEmptyGated rfl h₁ rest fails
  · rename_i hne
    have ahead : f .dequeuePosition + 1 ≤ s₁.enq := by
      have := (validateQueuePositions_ok valid).1
      omega
    refine Logic.wp_intro fun s₂ r₂ i₂ => ?_
    have h₂ := owner_stable s₁ s₂ (h₁.raise ahead) r₂ i₂
    have room : 2 * f .dequeuePosition + 2 ≤ maxCommittedOwnerEpoch := by
      have := h₂.floor
      have := i₂.drainable
      dsimp only at *
      omega
    obtain ⟨rfl, rfl⟩ := validateTicketBounds_ok
      (by unfold maxCommittedOwnerEpoch at room; omega) bounds
    refine wp_commitClaimedGate rfl h₂ claimed rfl id (fun _ => ⟨by omega, by omega⟩) ?_ fails
    intro s₃ f₃ h₃ _ hepoch _ hdeq
    rw [q.slotAt_handleOf]
    refine Logic.wp_intro fun s₄ r₄ i₄ => ?_
    have h₄ := owner_stable s₃ s₄ h₃ r₄ i₄
    have deq₄ : s₄.deq = f .dequeuePosition := h₄.deq.trans hdeq
    have opened : q.SlotOpen false (q.ring (f .dequeuePosition)) s₄ := by
      have := h₄.floor
      exact ⟨by rw [deq₄], by dsimp only at *; omega⟩
    have published : q.Published s₄.mem (f .dequeuePosition) := by
      have := h₄.floor
      refine (i₄.published _ (by omega) (by dsimp only at *; omega)).resolve_left ?_
      rintro ⟨taking, _⟩
      cases taking.symm.trans h₄.working
    have epoch₄ := h₄.words (.gateEpoch false) (.inl rfl)
    exact wp_popSlot (h₄.openSlot opened) deq₄ q.payloadSize_eq published (by omega) done

/-- Every pop keeps the invariant and stores the position exactly when it succeeds. -/
theorem wp_mpmcTryPopImpl {payloadSize : Nat} (h : Outside t c s)
    (done : ∀ out s', Outside t { c with
      out := out, dequeueStores := c.dequeueStores + 1 } s' → Q (.ok ()) s')
    (fails : q.MayFail t c Q) :
    q.logic.wp t Q (mpmcTryPopImpl (q.handleOf t) payloadSize) s := by
  unfold mpmcTryPopImpl
  refine wp_look h (all_validateLiveHandle _ _)
    (obs_tame (all_validateLiveHandle _ _) (ends_validateLiveHandle _ _))
    (fun e _ told => told e rfl) (fun _ s₁ h₁ _ => ?_) fails
  split
  · exact h₁.throw (explained_of_ne nofun) fails
  · refine wp_look h₁ (all_snapshotQueuePositionsLoop _ _) (obs_snapshotPositions _ s₁)
      (fun e _ told => told.1 e rfl) ?_ fails
    rintro ⟨e, d⟩ s₂ h₂ ⟨_, seen⟩
    have valid := (seen e d rfl).valid "MpmcQueue::try_pop"
    refine wp_lift h₂ (valid ▸ tame_ok ()) (fun _ _ => ?_) fails
    refine wp_lift h₂ (tame_validateTicketBounds _ _ _) (fun _ _ => ?_) fails
    split
    · exact wp_popEmpty rfl h₂ fails
    · refine wp_look h₂ (all_dequeueDrainBudget _ _) (obs_dequeueDrainBudget _ _ rfl s₂)
        (fun e _ told => told.1 e rfl) (fun budget s₅ h₅ _ => ?_) fails
      split
      · exact h₅.throw (explained_of_ne nofun) fails
      · refine wp_claimGate rfl h₅ (fun s₆ f₆ h₆ claimed budget₆ => ?_) fails
        exact wp_popGated h₆ claimed (budget₆ rfl) done fails

end Results
end QueueSystem
end EdgeRuntime

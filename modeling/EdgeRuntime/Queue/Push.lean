import EdgeRuntime.Queue.Gates

/-!
The push. Under the enqueue gate the enqueue position stands still, so the last
admission check and the store of the position speak of the same message; the slot
it fills is outside the window a consumer may read until that store.
-/
namespace EdgeRuntime
open Concurrent

namespace QueueSystem
variable {T α : Type} [DecidableEq T] {q : QueueSystem T} {t : T}
  {s : QueueState T} {g : Bool} {k : Phase} {slot : Option Nat} {c : QueueClient}
  {f : QueueMem} {Q : Except Error α → QueueState T → Prop}
  {handle : MpmcQueueHandle} {operation : String}

/-- What an admitted push knows: its position is current, the queue has room for
it, and the dequeue gate can still drain it. -/
structure Admitted (q : QueueSystem T) (E d : Nat) (s : QueueState T) : Prop where
  seen : d ≤ s.deq
  room : E < d + q.handle.capacity
  drainable : 2 * (E + 1) ≤ maxCommittedOwnerEpoch

/-- Positions that were seen together stay consistent through the admission. -/
theorem obs_admission_explains (hc : handle.capacity = q.handle.capacity)
    (hself : handle.self = q.self t) (n : Nat) {e d : Nat}
    (valid : validateQueuePositions e d handle.capacity operation = .ok ()) :
    q.logic.obs t q.Explains (validatePushDrainAdmissionLoop handle operation n e d) s := by
  induction n generalizing s e d with
  | zero => exact fun _ _ _ => explains_error (explained_of_ne nofun)
  | succ n ih =>
      refine Logic.obs_bind (Logic.obs_lift fun s₀ _ _ => ?_)
      rw [valid]
      dsimp only
      split
      · exact fun _ _ _ => explains_error (explained_of_ne nofun)
      · refine Logic.obs_bind (Logic.obs_mono ?_
          (obs_dequeueDrainBudget handle operation hself s₀))
        rintro (err | budget) s₁ _ ⟨told, _⟩
        · exact explains_error (told err rfl)
        dsimp only
        split
        · split
          · exact fun _ _ _ => explains_error (explained_of_ne nofun)
          · exact fun _ _ _ => explains_error (explained_of_ne nofun)
        · refine Logic.obs_bind (Logic.obs_mono ?_ (obs_snapshotPositions operation s₁))
          rintro (err | ⟨newE, newD⟩) s₂ _ ⟨told, seen⟩
          · exact explains_error (told err rfl)
          dsimp only
          split
          · refine ih ?_
            rw [hc]
            exact (seen newE newD rfl).valid operation
          · split
            · exact fun _ _ _ => explains_error (explained_of_ne nofun)
            · exact fun _ _ _ => explains_ok _

/-- The budget was exact at an instant between two equal reads of the dequeue
position, so it was exact for the position that was checked. -/
theorem obs_validatePushDrainAdmissionLoop (hc : handle.capacity = q.handle.capacity)
    (hself : handle.self = q.self t) (n : Nat) {e d : Nat}
    (h : q.Owner true t slot c k f s) (he : e = f .enqueuePosition) (hd : d ≤ s.deq) :
    q.logic.obs t (fun x s' => ∀ e' d', x = .ok (e', d') →
      e' = f .enqueuePosition ∧ Admitted q e' d' s')
      (validatePushDrainAdmissionLoop handle operation n e d) s := by
  induction n generalizing s e d with
  | zero =>
      intro _ _ _ e' d' hx
      cases hx
  | succ n ih =>
      refine Logic.obs_bind (Logic.obs_lift ?_)
      intro s₁ r₁ i₁
      have h₁ := owner_stable s s₁ h r₁ i₁
      have hd₁ : d ≤ s₁.deq := Nat.le_trans hd (Rely.deq r₁)
      cases hv : validateQueuePositions e d handle.capacity operation with
      | error _ =>
          intro e' d' hx
          cases hx
      | ok _ =>
          obtain ⟨hle, hcap⟩ := validateQueuePositions_ok hv
          dsimp only
          cases hp : checkedAddU64 (e - d) 1 with
          | none =>
              intro _ _ _ e' d' hx
              cases hx
          | some pendingAfter =>
              have hlt : e ≤ uint64Max := by
                have := i₁.drainable
                have := h₁.enq
                unfold maxCommittedOwnerEpoch at *
                omega
              have hpa := (checkedAddU64_some (by omega) hp).1
              refine Logic.obs_bind (Logic.obs_mono ?_ (Logic.obs_and
                (obs_dequeueDrainBudget handle operation hself s₁)
                (obs_reads (all_dequeueDrainBudget handle operation) owner_stable h₁)))
              rintro (_ | budget) s₂ _ ⟨⟨_, hb⟩, h₂⟩
              · intro e' d' hx
                cases hx
              · obtain ⟨d₀, hd₀, hd₀', hbudget⟩ := hb budget rfl
                dsimp only
                split
                · split
                  all_goals
                    intro _ _ _ e' d' hx
                    cases hx
                · rename_i hfull
                  refine Logic.obs_bind (Logic.obs_mono ?_ (Logic.obs_and
                    (obs_snapshotQueuePositions operation s₂)
                    (obs_reads (all_snapshotQueuePositionsLoop operation _)
                      owner_stable h₂)))
                  rintro (_ | ⟨newE, newD⟩) s₃ _ ⟨hpos, h₃⟩
                  · intro e' d' hx
                    cases hx
                  · obtain ⟨⟨hE, hE'⟩, hD, hD'⟩ := (hpos newE newD rfl).bounds
                    rw [h₂.enq] at hE
                    rw [h₃.enq] at hE'
                    dsimp only
                    split
                    · exact ih h₃ (by omega) hD'
                    · split
                      · intro _ _ _ e' d' hx
                        cases hx
                      · intro s₄ r₄ _ e' d' hx
                        cases hx
                        have hd₄ := Rely.deq r₄
                        refine ⟨he, by omega, by omega, ?_⟩
                        unfold maxCommittedOwnerEpoch uint64Max at *
                        omega

theorem obs_validatePushDrainAdmission (hc : handle.capacity = q.handle.capacity)
    (hself : handle.self = q.self t) {e d : Nat} (h : q.Owner true t slot c k f s)
    (he : e = f .enqueuePosition) (hd : d ≤ s.deq)
    (valid : validateQueuePositions e d handle.capacity operation = .ok ()) :
    q.logic.obs t (fun x s' => q.Explains x s' ∧ ∀ e' d', x = .ok (e', d') →
      e' = f .enqueuePosition ∧ Admitted q e' d' s')
      (validatePushDrainAdmission handle e d operation) s :=
  Logic.obs_and (obs_admission_explains hc hself _ valid)
    (obs_validatePushDrainAdmissionLoop hc hself _ h he hd)

/-- The slot of position `E` holds the payload as it will be delivered. -/
structure Filled (q : QueueSystem T) (E : Nat) (payload : List Nat) (f : QueueMem) :
    Prop where
  published : q.Published f E
  payload : payload =
    (List.range q.payloadSize).map fun j => f (.slotPayload (q.ring E) j)

/-- The state after the store that makes a push visible. -/
def finishFill (q : QueueSystem T) (t : T) (e : Nat) (s : QueueState T) : QueueState T :=
  setWork true false (q.store t .enqueuePosition e s)

/-- The position and the history move together. -/
theorem inv_finishFill {E : Nat} {payload : List Nat} (hi : q.Inv s)
    (h : q.Owner true t (some (q.ring E)) c k f s) (hE : f .enqueuePosition = E)
    (call : c.call = some (.push payload)) (filled : Filled q E payload f)
    (drainable : 2 * (E + 1) ≤ maxCommittedOwnerEpoch)
    (onward : Onward s (q.finishFill t (E + 1) s)) :
    q.Inv (q.finishFill t (E + 1) s) := by
  have enq : s.enq = E := h.enq.trans hE
  have opened := (h.opened _ rfl).2
  have henq : (q.finishFill t (E + 1) s).enq = E + 1 := by
    change s.mem.set .enqueuePosition (E + 1) .enqueuePosition = E + 1
    simp
  have same : ∀ l, l ≠ .enqueuePosition →
      (q.finishFill t (E + 1) s).mem l = s.mem l := by
    intro l hl
    change s.mem.set .enqueuePosition (E + 1) _ = _
    simp [hl]
  have hdeq : (q.finishFill t (E + 1) s).deq = s.deq := same _ (by simp)
  have hpushed : (q.finishFill t (E + 1) s).world.pushed =
      s.world.pushed ++ [payload] := by
    simp [finishFill, setWork, QueueSystem.store, write, h.client, call, QueueCall.payload]
  have slots : ∀ p, ∀ l, l.slot? = some (q.ring p) →
      (q.finishFill t (E + 1) s).mem l = s.mem l := by
    intro p l hl
    refine same l ?_
    rintro rfl
    cases hl
  have taking : (q.finishFill t (E + 1) s).working false = s.working false := by
    simp [finishFill, setWork]
  constructor
  case ready => rw [same _ (by simp)]; exact hi.ready
  case order =>
      have := hi.order
      omega
  case room => omega
  case drainable => rw [henq]; exact drainable
  case pushed => rw [hpushed, henq, List.length_append, hi.pushed, enq]; rfl
  case popped =>
      rw [hpushed, hdeq, List.take_append_of_le_length]
      · simpa [finishFill, setWork, QueueSystem.store, write] using hi.popped
      · rw [hi.pushed]
        exact hi.order
  case payloads =>
      intro p hp hp'
      rw [hdeq] at hp
      rw [henq] at hp'
      simp only [same _ (show QueueLoc.slotPayload _ _ ≠ .enqueuePosition by simp), hpushed]
      by_cases hpE : p = E
      · subst hpE
        rw [List.getElem?_append_right (by rw [hi.pushed]; omega), hi.pushed, enq]
        have words : ∀ j, s.mem (.slotPayload (q.ring p) j) =
            f (.slotPayload (q.ring p) j) := fun j => h.words _ (.inr ⟨_, rfl, rfl⟩)
        simp [words, ← filled.payload]
      · rw [List.getElem?_append_left (by rw [hi.pushed]; omega)]
        exact hi.payloads p hp (by omega)
  case published =>
      intro p hp hp'
      rw [hdeq] at hp ⊢
      rw [henq] at hp'
      rw [taking]
      by_cases hpE : p = E
      · subst hpE
        refine .inr (published_congr (fun l hl => ?_) filled.published)
        rw [slots p l hl]
        exact h.words l (.inr ⟨_, rfl, hl⟩)
      · exact (hi.published p hp (by omega)).imp id (published_congr (slots p))
  case freeGate =>
      intro g
      rw [same _ (by simp)]
      exact hi.freeGate g
  case drainGate =>
      intro hnone
      rw [same _ (by simp), same _ (by simp), hdeq, taking]
      exact hi.drainGate hnone
  case fillGate =>
      intro hnone
      cases h.holder.symm.trans hnone
  case lasting => rw [same _ (by simp)]; exact hi.lasting
  case counts =>
      have enq' : s.world.mem .enqueuePosition = E := enq
      simp [finishFill, setWork, QueueSystem.store, write, hi.counts, QueueLoc.isCounter, enq']
  case finished => exact hi.finished
  case healthy =>
      intro sound fresh
      have healthy := hi.healthy sound (onward.fresh fresh)
      refine healthy.transfer onward (fun l _ hl _ => same l hl) rfl rfl ?_
      intro p hp hp'
      rw [henq] at hp
      rw [hdeq] at hp'
      -- the filled slot has left the free ones
      have vacant := (healthy.vacant p (by omega) hp').resolve_left (fun h => by omega)
      exact .inr (vacant_congr (slots p) vacant)

theorem wp_store_enqueuePosition {E : Nat} {payload : List Nat}
    {next : Unit → QueueCode α} (h : q.Owner true t (some (q.ring E)) c k f s)
    (hE : f .enqueuePosition = E) (call : c.call = some (.push payload))
    (filled : Filled q E payload f) (drainable : 2 * (E + 1) ≤ maxCommittedOwnerEpoch)
    (cont : ∀ s', q.Owner true t none { c with enqueueStores := c.enqueueStores + 1 }
      { k with working := false } (f.set .enqueuePosition (E + 1)) s' →
      q.logic.wp t Q (next ()) s') :
    q.logic.wp t Q (sharedStore .enqueuePosition (E + 1) >>= next) s := by
  refine Access.wp_store (D := q.memory) rfl fun s' hr hi => ?_
  have h' := owner_stable s s' h hr hi
  have mine : Mine true (some (q.ring E)) .enqueuePosition := .inl rfl
  have proper : Proper true k f .enqueuePosition (E + 1) :=
    proper_enqueuePosition (by omega)
  have onward : Onward s' (q.finishFill t (E + 1) s') :=
    (h'.onward mine proper).trans (onward_ghost fun _ _ hu _ => hu)
  refine ⟨q.finishFill t (E + 1) s', rfl,
    inv_finishFill hi h' hE call filled drainable onward, ?_, cont _ ?_⟩
  · intro u hne
    exact rely_trans (guar_store h' mine proper u hne) (rely_setWork h'.holder hne)
  · refine ⟨h'.holder, h'.single, fun _ hi => (nomatch hi), ?_, ?_, h'.alive, ?_, ?_,
      fun sound fresh => h'.clear sound (onward.fresh fresh)⟩
    · intro l hl
      change s'.mem.set .enqueuePosition (E + 1) l = _
      simp [h'.closeSlot.words l hl]
    · change (q.store t .enqueuePosition (E + 1) s').world.client t = _
      simp [store_client_self, h'.client]
    · simp [finishFill, setWork]
    · exact Nat.le_trans h'.floor onward.enq

/-- The byte copy into the slot. -/
theorem wp_copyIn {i : Nat} {bytes : List Nat} {j : Nat} {next : Unit → QueueCode α}
    (h : q.Owner true t (some i) c k f s) (hk : k.working = true)
    (cont : ∀ s' f', q.Owner true t (some i) c k f' s' →
      (∀ l, l.isPayload = false → f' l = f l) →
      (∀ o, o < j → f' (.slotPayload i o) = f (.slotPayload i o)) →
      (∀ n b, bytes[n]? = some b → f' (.slotPayload i (j + n)) = b) →
      q.logic.wp t Q (next ()) s') :
    q.logic.wp t Q (copyIn (.slotPayload i) j bytes >>= next) s := by
  induction bytes generalizing j f s with
  | nil =>
      refine cont s f h (fun _ _ => rfl) (fun _ _ => rfl) ?_
      intro n b hb
      cases hb
  | cons b bs ih =>
      unfold copyIn
      rw [Prog.bind_assoc]
      refine wp_store_owned h (.inr ⟨i, rfl, rfl⟩) (quiet_slot rfl (.inl rfl))
        (proper_slot rfl hk nofun) fun s₁ h₁ => ?_
      refine ih h₁ fun s₂ f₂ h₂ plain before bytes => cont s₂ f₂ h₂ ?_ ?_ ?_
      · intro l hl
        rw [plain l hl, Words.set_apply, if_neg]
        rintro rfl
        cases hl
      · intro o ho
        rw [before o (by omega)]
        simp
        omega
      · intro n b' hb
        cases n with
        | zero =>
            cases hb
            rw [Nat.add_zero, before j (by omega)]
            simp
        | succ n =>
            rw [show j + (n + 1) = j + 1 + n by omega]
            exact bytes n b' hb

/-- A producer gives its slot up when something is out of epochs. -/
theorem wp_markSlot {i v : Nat} {next : Unit → QueueCode α}
    (h : q.Owner true t (some i) c k f s)
    (lost : v ≠ MpmcSlotState.epochExhausted.code → ¬ k.clear)
    (cont : ∀ s', q.Owner true t (some i) c { k with clear := False }
      (f.set (.slotState i) v) s' → q.logic.wp t Q (next ()) s') :
    q.logic.wp t Q (sharedStore (.slotState i) v >>= next) s := by
  have mine : Mine true (some i) (.slotState i) := .inr ⟨i, rfl, rfl⟩
  have quiet : Quiet true k (.slotState i) := quiet_slot rfl (.inl rfl)
  refine Access.wp_store (D := q.memory) rfl fun s' hr hi => ?_
  have h' := owner_stable s s' h hr hi
  have onward : Onward s' (q.store t (.slotState i) v s') :=
    onward_store nofun nofun (h'.live mine)
  have broken : q.Sound → (q.store t (.slotState i) v s').world.exhausted = false → False := by
    intro sound fresh
    change (s'.world.exhausted || decide (v = MpmcSlotState.epochExhausted.code)) = false
      at fresh
    rw [Bool.or_eq_false_iff, decide_eq_false_iff_not] at fresh
    exact lost fresh.2 (h'.clear sound fresh.1)
  refine ⟨q.store t (.slotState i) v s', rfl, ?_, ?_, cont _ ((h'.store quiet).learn broken)⟩
  · exact inv_store hi (h'.harmless hi mine quiet) nofun onward
      fun sound fresh => (broken sound fresh).elim
  · intro u hne
    exact rely_store hne (fun ho => hne (owns_unique ho (h'.owns mine))) onward

/-- From the claim of the slot to the end of the push. -/
theorem wp_pushClaimed {E : Nat} {payload : List Nat}
    {Q : Except Error Unit → QueueState T → Prop}
    (h : q.Owner true t (some (q.ring E)) c k f s) (hk : k.working = true)
    (hE : f .enqueuePosition = E) (gate : f (.gateEpoch true) % 2 = 0)
    (vacant : k.clear → f (.slotEpoch (q.ring E)) % 2 = 0 ∧
      f (.slotEpoch (q.ring E)) ≤ maxCommittedOwnerEpoch)
    (call : c.call = some (.push payload)) (size : payload.length = q.payloadSize)
    (drainable : 2 * (E + 1) ≤ maxCommittedOwnerEpoch)
    (done : ∀ s', Outside t { c with enqueueStores := c.enqueueStores + 1 } s' →
      Q (.ok ()) s')
    (fails : q.MayFail t c Q) :
    q.logic.wp t Q (pushClaimed handle payload (q.ring E) E (E + 1)) s := by
  have mine : ∀ {l : QueueLoc}, l.slot? = some (q.ring E) →
      Mine true (some (q.ring E)) l := fun hl => .inr ⟨_, rfl, hl⟩
  have quiet : ∀ {l : QueueLoc}, l.slot? = some (q.ring E) → Quiet true k l :=
    fun hl => quiet_slot hl (.inl rfl)
  unfold pushClaimed
  refine wp_beginOwnerCommit h (mine rfl) (quiet rfl) (by omega)
    (fun _ => proper_slot rfl hk fun _ => by omega) ?_ ?_
  · intro even reserve s₁ h₁
    simp only [ne_eq, not_true_eq_false, if_false]
    refine wp_setOwner h₁ (fun _ => mine rfl) (fun _ => quiet rfl)
      (fun _ _ _ _ => proper_slot rfl hk (by rintro ⟨⟩))
      (fun w w' hw => (QueueLoc.slotOwner.inj hw).2) ?_
    intro s₂ f₂ hf₂ _ h₂
    refine wp_store_owned h₂ (mine rfl) (quiet rfl) (proper_slot rfl hk (by rintro ⟨⟩)) ?_
    intro s₃ h₃
    refine wp_store_owned h₃ (mine rfl) (quiet rfl) (proper_slot rfl hk fun _ => ?_) ?_
    · simp [hf₂]
    intro s₄ h₄
    refine wp_store_owned h₄ (mine rfl) (quiet rfl) (proper_slot rfl hk (by rintro ⟨⟩)) ?_
    intro s₅ h₅
    refine wp_copyIn h₅ hk fun s₆ f₆ h₆ plain _ bytes => ?_
    refine wp_store_owned h₆ (mine rfl) (quiet rfl) (proper_slot rfl hk (by rintro ⟨⟩)) ?_
    intro s₇ h₇
    refine wp_store_owned h₇ (mine rfl) (quiet rfl) (proper_slot rfl hk (by rintro ⟨⟩)) ?_
    intro s₈ h₈
    have position : f₆ .enqueuePosition = E := by
      rw [plain _ rfl]
      simp [hf₂, hE]
    have epoch : f₆ (.slotEpoch (q.ring E)) = f (.slotEpoch (q.ring E)) + 2 := by
      rw [plain _ rfl]
      simp
    have settled : f₆ (.gateEpoch true) = f (.gateEpoch true) := by
      rw [plain _ rfl]
      simp [hf₂]
    refine wp_store_enqueuePosition h₈ (by simp [position]) call ⟨?_, ?_⟩ drainable ?_
    · constructor
      · simp
      · simp
      · simp [epoch]
        omega
      · simp [epoch]
        omega
    · refine List.ext_getElem (by simp [size]) fun n hn hn' => ?_
      have := bytes n payload[n] (List.getElem?_eq_getElem hn)
      rw [Nat.zero_add] at this
      simp [this]
    · intro s₉ h₉
      refine wp_releaseGate h₉ ⟨?_, fun _ => rfl, by rintro ⟨⟩⟩ fun s' h' _ => ?_
      · simpa [settled] using gate
      · exact wp_notifyWaiters h' done
  · intro _ r s₁ hr why h₁
    simp only [ne_eq, hr, not_false_eq_true, if_true, markSlotProtocolFailure]
    refine wp_markSlot h₁ (fun ne clear => ?_) fun s₂ h₂ => ?_
    · exact why.resolve_left (fun he => ne (if_pos he)) (vacant clear)
    refine wp_releaseGate h₂ ⟨?_, False.elim, by rintro ⟨⟩⟩ fun s' h' onward => ?_
    · simpa using gate
    · exact h'.throw (fun _ => onward.lost (h₂.lost id)) fails

section Results
variable {Q : Except Error Unit → QueueState T → Prop}

theorem wp_slotInvalidResult {i : Nat} {context : String}
    (h : q.Owner true t slot c k f s) (rest : AtRest true k f) (broken : ¬ k.clear)
    (fails : q.MayFail t c Q) :
    q.logic.wp t Q (slotInvalidResult i true operation context) s := by
  refine Access.wp_looks (D := q.memory) rfl (looks_snapshotSlotOwner true i) _ owner_stable h
    fun _ s₁ _ h₁ => ?_
  refine wp_releaseGate h₁ rest fun s₂ h₂ onward => ?_
  have lost : q.Lost s₂ := onward.lost (h₁.lost broken)
  split
  · exact h₂.throw (fun _ => lost) fails
  · exact h₂.throw (fun _ => lost) fails

theorem wp_pushFullResult {consumer : OwnerObservationDisposition}
    (hself : handle.self = q.self t) (h : Outside t c s)
    (lost : consumer = .unrecoverable → q.Lost s) (fails : q.MayFail t c Q) :
    q.logic.wp t Q (pushFullResult handle consumer) s := by
  cases consumer with
  | changed => exact h.throw (explained_of_ne nofun) fails
  | unrecoverable => exact h.throw (fun _ => lost rfl) fails
  | notUnrecoverable =>
      have seen := obs_dequeueDrainBudget handle "MpmcQueue::try_push" hself s
      have explained : q.logic.obs t (fun x s' => ∀ b,
          (.ok x : Except Error (Except Error Nat)) = .ok b → q.Explains b s')
          (dequeueDrainBudget handle "MpmcQueue::try_push") s := by
        refine Logic.obs_mono ?_ seen
        rintro x s' _ told _ ⟨⟩
        exact told.1
      refine Access.wp_learn (D := q.memory) rfl
        (Prog.looks_attempt (all_dequeueDrainBudget handle _)) (Outside t c) outside_stable h
        (Logic.obs_attempt explained) ?_
      intro budget s' _ h' told
      split
      · rename_i e
        split
        · exact h'.throw (told e rfl) fails
        · exact h'.throw (explained_of_ne nofun) fails
      · exact h'.throw (explained_of_ne nofun) fails
      · exact h'.throw (explained_of_ne nofun) fails

theorem wp_pushFull (hself : handle.self = q.self t) (h : Outside t c s)
    (fails : q.MayFail t c Q) : q.logic.wp t Q (pushFull handle) s := by
  refine Access.wp_looks (D := q.memory) rfl (looks_sharedLoad _) (Outside t c)
    outside_stable h fun state s₁ _ h₁ => ?_
  split
  · refine Access.wp_learn (D := q.memory) rfl (looks_gateBusyResult handle true)
      (Outside t c) outside_stable h₁ (obs_gateBusyResult handle hself true s₁) ?_
    exact fun busy s₂ _ h₂ told => h₂.throw told fails
  · refine Access.wp_learn (D := q.memory) rfl (looks_snapshotGateOwner false)
      (Outside t c) outside_stable h₁ (obs_snapshotGateOwner false s₁) ?_
    intro consumer s₂ _ h₂ shown
    refine Access.wp_learn (D := q.memory) rfl
      (looks_ownerObservationIsUnrecoverable handle false _) (Outside t c) outside_stable h₂
      (obs_ownerObservationIsUnrecoverable handle hself false shown) ?_
    exact fun _ s₃ _ h₃ lost => wp_pushFullResult hself h₃ lost fails

theorem wp_pushFullGated (hself : handle.self = q.self t)
    (h : q.Owner true t slot c k f s) (rest : AtRest true k f)
    (fails : q.MayFail t c Q) : q.logic.wp t Q (pushFullGated handle) s := by
  refine Access.wp_learn (D := q.memory) rfl (looks_snapshotGateOwner false) _ owner_stable h
    (obs_snapshotGateOwner false s) fun consumer s₁ _ h₁ shown => ?_
  refine Access.wp_learn (D := q.memory) rfl
    (looks_ownerObservationIsUnrecoverable handle false _) _ owner_stable h₁
    (obs_ownerObservationIsUnrecoverable handle hself false shown) fun _ s₂ _ h₂ lost => ?_
  refine wp_releaseGate h₂ rest fun s₃ h₃ onward => ?_
  exact wp_pushFullResult hself h₃ (fun hu => onward.lost (lost hu)) fails

theorem wp_pushSlot {E : Nat} {payload : List Nat}
    (h : q.Owner true t (some (q.ring E)) c k f s) (hE : f .enqueuePosition = E)
    (rest : AtRest true k f) (vacant : k.clear → q.Vacant f E)
    (call : c.call = some (.push payload)) (size : payload.length = q.payloadSize)
    (drainable : 2 * (E + 1) ≤ maxCommittedOwnerEpoch)
    (done : ∀ s', Outside t { c with enqueueStores := c.enqueueStores + 1 } s' →
      Q (.ok ()) s')
    (fails : q.MayFail t c Q) :
    q.logic.wp t Q (pushSlot handle payload (q.ring E) E (E + 1)) s := by
  have mine : ∀ {l : QueueLoc}, l.slot? = some (q.ring E) →
      Mine true (some (q.ring E)) l := fun hl => .inr ⟨_, rfl, hl⟩
  unfold pushSlot slotMatches ownerEpochCapacity
  simp only [Prog.bind_assoc]
  refine wp_load_owned h (mine rfl) fun s₁ h₁ => ?_
  split
  · rename_i sequence
    exact wp_slotInvalidResult h₁ rest (fun clear => sequence (vacant clear).sequence) fails
  simp only [Prog.bind_assoc]
  refine wp_load_owned h₁ (mine rfl) fun s₂ h₂ => ?_
  simp only [Prog.pure_eq, Prog.ret_bind]
  split
  · rename_i state
    refine wp_slotInvalidResult h₂ rest (fun clear => state ?_) fails
    exact decide_eq_true (vacant clear).state
  rename_i state
  have free : f (.slotState (q.ring E)) = MpmcSlotState.free.code := by simpa using state
  refine wp_load_owned h₂ (mine rfl) fun s₃ h₃ => ?_
  -- the slot is lost: mark it, and report that
  have marked : ∀ {r : OwnerCommitResult} {context : String},
      (r ≠ .epochExhausted → ¬ k.clear) → q.logic.wp t Q (do
        markSlotProtocolFailure (q.ring E) r
        releaseGate true
        .throw (makeError .recoveryBlocked "MpmcQueue::try_push" context)) s₃ := by
    intro r context broken
    refine wp_markSlot h₃ (fun ne => broken fun he => ne (if_pos he)) fun s₄ h₄ => ?_
    refine wp_releaseGate h₄ ⟨?_, False.elim, fun hg => nomatch hg⟩ fun s₅ h₅ onward => ?_
    · simpa using rest.even
    · exact h₅.throw (fun _ => onward.lost (h₄.lost id)) fails
  split
  · rename_i bad
    refine marked fun _ clear => ?_
    have := (vacant clear).even
    have := (vacant clear).bounded
    omega
  split
  · simp only [Prog.ret_bind, ne_eq, not_true_eq_false, if_false]
    refine wp_claimSlot h₃ free fun s₄ h₄ => ?_
    refine wp_pushClaimed h₄ rfl (by simpa using hE) (by simpa using rest.even) ?_ call size
      drainable done fails
    intro clear
    simpa using And.intro (vacant clear).even (vacant clear).bounded
  · exact marked fun ne => (ne rfl).elim

theorem wp_pushGated {payload : List Nat} (h : q.Owner true t none c k f s)
    (hk : k.working = false) (even : f (.gateEpoch true) % 2 = 0)
    (call : c.call = some (.push payload)) (size : payload.length = q.payloadSize)
    (done : ∀ s', Outside t { c with enqueueStores := c.enqueueStores + 1 } s' →
      Q (.ok ()) s')
    (fails : q.MayFail t c Q) :
    q.logic.wp t Q (pushGated (q.handleOf t) payload) s := by
  have rest : AtRest true k f := ⟨even, fun _ => hk, fun hg => nomatch hg⟩
  unfold pushGated
  refine wp_releaseOnError h (all_snapshotQueuePositionsLoop _ _)
    (obs_snapshotPositions _ s) rest (fun e _ told => told.1 e rfl) ?_ fails
  rintro ⟨e, d⟩ s₁ h₁ ⟨_, seen⟩
  have positions := seen e d rfl
  obtain ⟨⟨he, he'⟩, _, hd⟩ := positions.bounds
  rw [h.enq] at he
  rw [h₁.enq] at he'
  obtain rfl : e = f .enqueuePosition := by omega
  have valid := positions.valid "MpmcQueue::try_push"
  refine wp_releaseOnError_lift h₁ rest (valid ▸ tame_ok ()) (fun _ _ => ?_) fails
  refine wp_releaseOnError_lift h₁ rest (tame_validateTicketBounds _ _ _) ?_ fails
  rintro ⟨next, reclaim⟩ bounds
  dsimp only
  split
  · exact wp_pushFullGated rfl h₁ rest fails
  · refine wp_releaseOnError h₁ (all_validatePushDrainAdmissionLoop _ _ _ _ _)
      (obs_validatePushDrainAdmission (q.handleOf_capacity t) rfl h₁ rfl hd valid) rest
      (fun e _ told => told.1 e rfl) ?_ fails
    rintro ⟨admitted, d'⟩ s₂ h₂ ⟨_, hadm⟩
    obtain ⟨rfl, seen, room, drainable⟩ := hadm admitted d' rfl
    obtain ⟨rfl, _⟩ := validateTicketBounds_ok
      (by unfold maxCommittedOwnerEpoch at drainable; omega) bounds
    rw [q.slotAt_handleOf]
    refine Logic.wp_intro fun s₃ r₃ i₃ => ?_
    have h₃ := owner_stable s₂ s₃ h₂ r₃ i₃
    have ahead := Rely.deq r₃
    have opened : q.SlotOpen true (q.ring (f .enqueuePosition)) s₃ := by
      refine ⟨by rw [h₃.enq], ?_⟩
      rw [h₃.enq]
      omega
    have vacant : q.Sound → s₃.world.exhausted = false →
        q.Vacant s₃.mem (f .enqueuePosition) := by
      intro sound fresh
      have free := (i₃.healthy sound fresh).vacant (f .enqueuePosition)
        (Nat.le_of_eq h₃.enq) (by omega)
      refine free.resolve_left ?_
      rintro ⟨filling, _⟩
      cases filling.symm.trans (h₃.working.trans hk)
    refine wp_pushSlot ((h₃.openSlot opened).learn vacant) h₃.enq ⟨?_, fun _ => hk, ?_⟩ id
      call size drainable done fails
    · rw [h₃.words (.gateEpoch true) (.inl rfl)]
      exact even
    · exact fun hg => nomatch hg

/-- Every push keeps the invariant and stores the position exactly when it succeeds. -/
theorem wp_mpmcTryPushImpl {payload : List Nat} (h : Outside t c s)
    (call : c.call = some (.push payload))
    (done : ∀ s', Outside t { c with enqueueStores := c.enqueueStores + 1 } s' →
      Q (.ok ()) s')
    (fails : q.MayFail t c Q) :
    q.logic.wp t Q (mpmcTryPushImpl (q.handleOf t) payload) s := by
  unfold mpmcTryPushImpl
  refine wp_look h (all_validateLiveHandle _ _)
    (obs_tame (all_validateLiveHandle _ _) (ends_validateLiveHandle _ _))
    (fun e _ told => told e rfl) (fun _ s₁ h₁ _ => ?_) fails
  split
  · exact h₁.throw (explained_of_ne nofun) fails
  · rename_i hsize
    have size : payload.length = q.payloadSize := by
      rw [← q.payloadSize_eq]
      exact not_not.1 hsize
    refine wp_look h₁ (all_snapshotQueuePositionsLoop _ _) (obs_snapshotPositions _ s₁)
      (fun e _ told => told.1 e rfl) ?_ fails
    rintro ⟨e, d⟩ s₂ h₂ ⟨_, seen⟩
    have valid := (seen e d rfl).valid "MpmcQueue::try_push"
    refine wp_lift h₂ (valid ▸ tame_ok ()) (fun _ _ => ?_) fails
    refine wp_lift h₂ (tame_validateTicketBounds _ _ _) (fun _ _ => ?_) fails
    split
    · exact wp_pushFull rfl h₂ fails
    · refine wp_look h₂ (all_validatePushDrainAdmissionLoop _ _ _ _ _)
        (obs_admission_explains (q.handleOf_capacity t) rfl _ valid)
        (fun e _ told => told e rfl) ?_ fails
      intro _ s₅ h₅ _
      unfold acquireGate
      rw [Prog.bind_assoc]
      refine wp_claimGate rfl h₅ (fun s₆ f₆ h₆ claimed _ => ?_) fails
      refine wp_commitClaimedGate rfl h₆ claimed rfl id (fun hg => nomatch hg) ?_ fails
      intro s₇ f₇ h₇ even _ _ _
      exact wp_pushGated h₇ rfl even call size done fails

end Results
end QueueSystem
end EdgeRuntime

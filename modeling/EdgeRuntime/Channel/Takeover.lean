import EdgeRuntime.Channel.ConsumerCalls

/-!
Opening a channel under the control lock. The lock keeps the identity record still, so
the opener judges the consumer that is really registered; once that one is known to be
gone, the slots it held and the registry belong to the opener.
-/
namespace EdgeRuntime
open Concurrent

/-- The identity record a memory holds. -/
def identityAt (producer : Bool) (f : ChannelMem) : ProcessIdentityAbi :=
  ⟨f (.identity producer .roleEpoch), f (.identity producer .pid),
    f (.identity producer .procStartTicks), f (.identity producer .bootIdHashHi),
    f (.identity producer .bootIdHashLo)⟩

namespace ChannelSystem
variable {q : ChannelSystem} {t : Endpoint} {s s' : ChannelState} {n i v top : Nat}
  {c : ChannelClient} {rest : List Nat} {f f' : ChannelMem} {α : Type}
  {Q : Except Error α → ChannelState → Prop}

/-- A record nobody changes reads as what it holds. -/
theorem wp_identitySnapshotReadLoop {producer : Bool} {attempts : Nat}
    {P : ChannelState → Prop} (stable : q.logic.Stable t P)
    (known : ∀ s, P s → ∀ w, s.mem (.identity producer w) = f (.identity producer w))
    (pre : P s) :
    q.logic.wp t
      (fun x s => P s ∧ ∀ id, x = .ok id → id = identityAt producer f ∧
        f (.identity producer .roleEpoch) % 2 = 0)
      (identitySnapshotReadLoop producer attempts) s := by
  have load : ∀ {w} {k : Nat → ChannelCode ProcessIdentityAbi} {Q s}, P s →
      (∀ s, P s → q.logic.wp t Q (k (f (.identity producer w))) s) →
      q.logic.wp t Q (sharedLoad (.identity producer w) >>= k) s := by
    intro w k Q s hp hk
    apply Access.wp_load (D := q.memory) rfl
    intro s' hr hi
    have hp' := stable s s' hp hr hi
    have value : q.memory.read (q.logic.world s') (.identity producer w) =
        f (.identity producer w) := known s' hp' w
    rw [value]
    exact hk s' hp'
  induction attempts generalizing s with
  | zero =>
      refine Logic.wp_throw P stable pre ?_
      exact fun s' _ hp => ⟨hp, fun _ he => nomatch he⟩
  | succ attempts ih =>
      rw [identitySnapshotReadLoop]
      apply load pre
      intro s₁ h₁
      split
      · exact ih h₁
      · rename_i even
        apply load h₁
        intro s₂ h₂
        apply load h₂
        intro s₃ h₃
        apply load h₃
        intro s₄ h₄
        apply load h₄
        intro s₅ h₅
        apply load h₅
        intro s₆ h₆
        split
        · exact ih h₆
        · refine Logic.wp_ret P stable h₆ ?_
          intro s₇ _ h₇
          refine ⟨h₇, ?_⟩
          intro id he
          cases he
          exact ⟨rfl, Decidable.not_not.1 even⟩

/-- What the holder of the control lock knows before it has judged anybody. -/
structure Locked (n : Nat) (c : ChannelClient) (f : ChannelMem) (s : ChannelState) :
    Prop where
  alive : s.world.crashed (.consumer n) = false
  client : s.world.client (.consumer n) = c
  lock : s.world.lock = some (.consumer n)
  words : ∀ w, s.mem (.identity false w) = f (.identity false w)

theorem locked_stable : q.logic.Stable (.consumer n) (Locked n c f) := by
  intro s s' h hr _
  refine ⟨hr.crashed.trans h.alive, hr.client.trans h.client, hr.lock h.lock, ?_⟩
  exact fun w => (hr.words _ (.identity h.lock)).trans (h.words w)

/-- What the holder of the control lock knows once no living consumer is registered;
`rest` are the slots it has still to look at, `top` bounds the epochs of all handles. -/
structure Taking (n : Nat) (c : ChannelClient) (top : Nat) (rest : List Nat)
    (f : ChannelMem) (s : ChannelState) : Prop where
  alive : s.world.crashed (.consumer n) = false
  client : s.world.client (.consumer n) = c
  lock : s.world.lock = some (.consumer n)
  vacant : s.Vacant
  words : ∀ l, l.isConsumerWord = true → s.mem l = f l
  clear : ∀ i, i < slotCount → i ∉ rest → ¬ Held s.mem i
  issued : ∀ m h, (s.world.client (.consumer m)).handle = some h → h.roleEpoch ≤ top

/-- The channel is found vacant: from here on the whole registry stands still. -/
theorem Locked.take (h : Locked n c f s) (hi : q.Inv s) (vacant : s.Vacant)
    (clear : ∀ i, i < slotCount → i ∉ rest → ¬ Held s.mem i) :
    Taking n c (f (.identity false .roleEpoch)) rest s.mem s := by
  refine ⟨h.alive, h.client, h.lock, vacant, fun _ _ => rfl, clear, ?_⟩
  intro m handle hs
  rw [← h.words]
  exact (hi.registry.handles m handle hs).1

namespace Taking

theorem keeper (h : Taking n c top rest f s) : s.Keeper (.consumer n) := .inr ⟨h.lock, h.vacant⟩

theorem stable : q.logic.Stable (.consumer n) (Taking n c top rest f) := by
  intro s s' h hr _
  have keeper := hr.keeper h.keeper
  refine ⟨hr.crashed.trans h.alive, hr.client.trans h.client, hr.lock h.lock, ?_, ?_, ?_, ?_⟩
  · rcases keeper.keeper with ⟨m, he, reader, alive⟩ | ⟨_, vacant⟩
    · cases he
      have dead := h.vacant n (keeper.reader.symm.trans reader)
      rw [← hr.crashed, alive] at dead
      cases dead
    · exact vacant
  · exact fun l hl => (hr.words l (.registry h.keeper hl)).trans (h.words l hl)
  · exact fun i hlt hi hh => h.clear i hlt hi (keeper.held i hh)
  · exact fun m handle hs => h.issued m handle (keeper.handles m handle hs)

theorem unread (h : Taking n c top [] f s) : Unread s.mem :=
  fun i hlt => h.clear i hlt (by simp)

theorem wp_load {l : ChannelLoc} {k : Nat → ChannelCode α} (h : Taking n c top rest f s)
    (hl : l.isConsumerWord = true)
    (hk : ∀ s, q.Inv s → Taking n c top rest f s → q.logic.wp (.consumer n) Q (k (f l)) s) :
    q.logic.wp (.consumer n) Q (sharedLoad l >>= k) s := by
  apply Access.wp_load (D := q.memory) rfl
  intro s' hr hi
  have h' := stable s s' h hr hi
  have value : q.memory.read (q.logic.world s') l = f l := h'.words l hl
  rw [value]
  exact hk s' hi h'

/-- What the opener knows after a store to the registry. -/
theorem store_word {l : ChannelLoc} (h : Taking n c top rest f s)
    (hl : l.isConsumerWord = true) :
    Taking n c top rest (f.set l v) (store (.consumer n) l v s) := by
  have slot : l.isSlotWord = false := by
    cases l with
    | consumerState | identity | slotReaderEpoch => rfl
    | _ => cases hl
  have record : recordStore l v c = c := by
    cases l with
    | consumerState | identity | slotReaderEpoch => rfl
    | _ => cases hl
  refine ⟨h.alive, ?_, h.lock, h.vacant, ?_, ?_, ?_⟩
  · rw [store_client_self, h.client, record]
  · intro l' hl'
    rw [store_mem, Words.set_apply, Words.set_apply, h.words l' hl']
  · intro i hlt hi
    rw [store_held slot]
    exact h.clear i hlt hi
  · intro m handle hs
    rw [store_client_handle] at hs
    exact h.issued m handle hs

theorem wp_store_identity {word : IdentityWord} {k : Unit → ChannelCode α}
    (h : Taking n c top [] f s)
    (odd : word ≠ .roleEpoch → f (.identity false .roleEpoch) % 2 ≠ 0)
    (epoch : word = .roleEpoch → f (.identity false .roleEpoch) < v ∧ v ≤ uint64Max ∧
      (v % 2 = 0 → ∃ r, IdentityIs f (q.self (.consumer r))))
    (hk : ∀ s, q.Inv s → Taking n c top [] (f.set (.identity false word) v) s →
      q.logic.wp (.consumer n) Q (k ()) s) :
    q.logic.wp (.consumer n) Q (sharedStore (.identity false word) v >>= k) s := by
  apply Access.wp_store (D := q.memory) rfl
  intro s₁ hr hi
  have h₁ := stable s s₁ h hr hi
  have words := h₁.words
  have inv : q.Inv (store (.consumer n) (.identity false word) v s₁) := by
    apply inv_store_identity hi h₁.unread h₁.vacant
    · intro hw
      rw [words _ rfl]
      exact odd hw
    · intro hw
      obtain ⟨later, h₂, h₃⟩ := epoch hw
      rw [words _ rfl]
      refine ⟨later, h₂, ?_⟩
      intro heven
      obtain ⟨r, hid⟩ := h₃ heven
      exact ⟨r, (words _ rfl).trans hid.pid, (words _ rfl).trans hid.ticks,
        (words _ rfl).trans hid.hi, (words _ rfl).trans hid.lo⟩
  refine ⟨_, rfl, inv, guar_outside ?_ rfl, hk _ inv (h₁.store_word rfl)⟩
  intro u hne
  apply not_fixed_registry h₁.keeper hne rfl
  intro w _ locked
  cases h₁.lock.symm.trans locked
  exact hne rfl

/-- A field of the record, while the odd epoch keeps readers away. -/
theorem wp_store_field {word : IdentityWord} {k : Unit → ChannelCode α}
    (h : Taking n c top [] f s) (odd : f (.identity false .roleEpoch) % 2 ≠ 0)
    (field : word ≠ .roleEpoch)
    (hk : ∀ s, q.Inv s → Taking n c top [] (f.set (.identity false word) v) s →
      q.logic.wp (.consumer n) Q (k ()) s) :
    q.logic.wp (.consumer n) Q (sharedStore (.identity false word) v >>= k) s :=
  h.wp_store_identity (fun _ => odd) (fun he => (field he).elim) hk

/-- The registration itself. -/
theorem wp_online {k : Unit → ChannelCode α} (h : Taking n c top [] f s) (parses : q.Parses)
    (identity : IdentityIs f (q.self (.consumer n)))
    (even : f (.identity false .roleEpoch) % 2 = 0)
    (epoch : top < f (.identity false .roleEpoch))
    (hk : ∀ s f', q.Inv s → Reader n c none 0 none f' s →
      s.world.lock = some (.consumer n) →
      f' (.identity false .roleEpoch) = f (.identity false .roleEpoch) →
      q.logic.wp (.consumer n) Q (k ()) s) :
    q.logic.wp (.consumer n) Q
      (sharedStore .consumerState EndpointState.online.code >>= k) s := by
  apply Access.wp_store (D := q.memory) rfl
  intro s₁ hr hi
  have h₁ := stable s s₁ h hr hi
  have words := h₁.words
  have inv : q.Inv ((store (.consumer n) .consumerState EndpointState.online.code s₁).register
      (some n) none) := by
    apply inv_online hi h₁.unread parses
    · exact ⟨(words _ rfl).trans identity.pid, (words _ rfl).trans identity.ticks,
        (words _ rfl).trans identity.hi, (words _ rfl).trans identity.lo⟩
    · rw [words _ rfl]
      exact even
    · rw [words _ rfl]
      exact Nat.ne_of_gt (Nat.lt_of_le_of_lt (Nat.zero_le _) epoch)
    · intro m handle hs
      rw [words _ rfl]
      exact Nat.lt_of_le_of_lt (h₁.issued m handle hs) epoch
  have next := h₁.store_word (v := EndpointState.online.code) (l := .consumerState) rfl
  refine ⟨_, rfl, inv, guar_register (guar_outside ?_ rfl) next.keeper (.inr (.inl rfl)),
    hk _ (s₁.mem.set .consumerState EndpointState.online.code) inv ?_ h₁.lock ?_⟩
  · intro u hne
    apply not_fixed_registry h₁.keeper hne rfl
    intro w he
    cases he
  · refine ⟨h₁.alive, rfl, next.client, fun _ _ => rfl, (fun _ he => nomatch he), ?_,
      Nat.zero_le _, fun _ he => nomatch he⟩
    intro i hlt
    exact ⟨fun hh => (next.unread i hlt hh).elim, fun he => nomatch he⟩
  · simpa using words (.identity false .roleEpoch) rfl

/-- Give back a slot the dead consumer held. -/
theorem wp_slotReleaseRead {k : Unit → ChannelCode α} (h : Taking n c top (i :: rest) f s)
    (held : Held s.mem i)
    (hk : ∀ s, q.Inv s → Taking n c top rest (f.set (.slotReaderEpoch i) 0) s →
      q.logic.wp (.consumer n) Q (k ()) s) :
    q.logic.wp (.consumer n) Q (slotReleaseRead i >>= k) s := by
  have kept : ∀ {s s' rest f}, Taking n c top rest f s → Held s.mem i →
      q.logic.rely (.consumer n) s s' → Held s'.mem i := by
    intro s s' rest f h held hr
    have same := hr.words _ (.heldState h.keeper held)
    simp only [Held, same]
    exact held
  rw [slotReleaseRead, Prog.bind_assoc]
  apply Access.wp_store (D := q.memory) rfl
  intro s₁ hr₁ hi₁
  have h₁ := stable s s₁ h hr₁ hi₁
  have inv₁ : q.Inv (store (.consumer n) (.slotReaderEpoch i) 0 s₁) :=
    inv_store_readerEpoch hi₁ (.inl rfl)
  have next₁ := h₁.store_word (v := 0) (l := .slotReaderEpoch i) rfl
  have held₁ : Held (store (.consumer n) (.slotReaderEpoch i) 0 s₁).mem i :=
    (store_held rfl).2 (kept h held hr₁)
  refine ⟨_, rfl, inv₁, guar_outside ?_ rfl, ?_⟩
  · intro u hne
    apply not_fixed_registry h₁.keeper hne rfl
    intro w he
    cases he
  apply Access.wp_store (D := q.memory) rfl
  intro s₂ hr₂ hi₂
  have h₂ := stable _ s₂ next₁ hr₂ hi₂
  have read := (kept next₁ held₁ hr₂).readable
  have inv₂ : q.Inv (store (.consumer n) (.slotState i) SlotState.published.code s₂) := by
    apply inv_store_readable hi₂ read (.inl rfl)
    · intro hh
      simp [HeldCode, SlotState.code] at hh
    · exact .inr ((h₂.words _ rfl).trans (by simp))
    · -- a loan in use would need a living consumer
      intro _ m loan hl ha hc _
      have dead := h₂.vacant m (hi₂.clients.loans m loan hl ha hc).reader
      rw [ha] at dead
      cases dead
  refine ⟨_, rfl, inv₂, guar_readable h₂.keeper read (.inl rfl), hk _ inv₂ ?_⟩
  refine ⟨h₂.alive, ?_, h₂.lock, h₂.vacant, ?_, ?_, ?_⟩
  · rw [store_client_self, h₂.client]
    rfl
  · intro l hl
    rw [store_mem, Words.set_apply, if_neg, h₂.words l hl]
    intro he
    rw [he] at hl
    cases hl
  · intro j hj hr
    rw [store_mem, held_set]
    split
    · simp [HeldCode, SlotState.code]
    · rename_i hne
      apply h₂.clear j hj
      intro hm
      rcases List.mem_cons.1 hm with he | he
      · exact hne (by rw [he])
      · exact hr he
  · intro m handle hs
    rw [store_client_handle] at hs
    exact h₂.issued m handle hs

/-- The identity record stays as it was. -/
def SameIdentity (f f' : ChannelMem) : Prop :=
  ∀ w, f' (.identity false w) = f (.identity false w)

theorem wp_reclaimSlot {epoch : Nat} (h : Taking n c top (i :: rest) f s) :
    q.logic.wp (.consumer n)
      (fun x s => match x with
        | .ok _ => ∃ f', Taking n c top rest f' s ∧ SameIdentity f f'
        | .error _ => Taking n c top (i :: rest) f s)
      (reclaimSlot epoch i) s := by
  apply Access.wp_load (D := q.memory) rfl
  intro s₁ hr₁ hi₁
  have h₁ := stable s s₁ h hr₁ hi₁
  have release : ∀ s, Taking n c top (i :: rest) f s → Held s.mem i →
      q.logic.wp (.consumer n)
        (fun x s => match x with
          | .ok _ => ∃ f', Taking n c top rest f' s ∧ SameIdentity f f'
          | .error _ => Taking n c top (i :: rest) f s)
        (slotReleaseRead i) s := by
    intro s h held
    have step := h.wp_slotReleaseRead (q := q) (k := .ret)
      (Q := fun x s => match x with
        | .ok _ => ∃ f', Taking n c top rest f' s ∧ SameIdentity f f'
        | .error _ => Taking n c top (i :: rest) f s) held (by
      intro s' _ h'
      refine Logic.wp_ret _ stable h' ?_
      exact fun s'' _ h'' => ⟨_, h'', fun w => by simp⟩)
    exact step
  have decide : ∀ (refuse : Nat → Prop) [DecidablePred refuse] (e : Error), Held s₁.mem i →
      q.logic.wp (.consumer n)
        (fun x s => match x with
          | .ok _ => ∃ f', Taking n c top rest f' s ∧ SameIdentity f f'
          | .error _ => Taking n c top (i :: rest) f s)
        (do
          let epoch ← sharedLoad (.slotReaderEpoch i)
          if refuse epoch then .throw e else slotReleaseRead i) s₁ := by
    intro refuse _ e held
    apply Access.wp_load (D := q.memory) rfl
    intro s₂ hr₂ hi₂
    have h₂ := stable s₁ s₂ h₁ hr₂ hi₂
    split
    · refine Logic.wp_throw _ stable h₂ ?_
      exact fun s₃ _ h₃ => h₃
    · apply release s₂ h₂
      have same := hr₂.words _ (.heldState h₁.keeper held)
      simp only [Held, same]
      exact held
  have state : q.memory.read (q.logic.world s₁) (.slotState i) = s₁.mem (.slotState i) := rfl
  rw [state]
  split
  · rename_i claiming
    exact decide (fun e => e ≠ 0 ∧ e ≠ epoch) _ (.inl claiming)
  · rename_i notClaiming
    split
    · rename_i reading
      exact decide (fun e => e ≠ epoch) _ (.inr reading)
    · rename_i notReading
      have free : Taking n c top rest f s₁ := by
        refine ⟨h₁.alive, h₁.client, h₁.lock, h₁.vacant, h₁.words, ?_, h₁.issued⟩
        intro j hj hr hh
        by_cases he : j = i
        · rw [he] at hh
          exact hh.elim notClaiming notReading
        · exact h₁.clear j hj (by simp [he, hr]) hh
      refine Logic.wp_ret _ stable free ?_
      exact fun s₂ _ h₂ => ⟨f, h₂, fun _ => rfl⟩

/-- How the reclaim pass ends: with every slot free of readers, or refused. -/
def Reclaimed (n : Nat) (c : ChannelClient) (top : Nat) (f : ChannelMem) (x : Except Error Unit)
    (s : ChannelState) : Prop :=
  match x with
  | .ok _ => ∃ f', Taking n c top [] f' s ∧ SameIdentity f f'
  | .error _ => ∃ rest f', Taking n c top rest f' s

theorem wp_reclaimSlots {epoch stride : Nat} (h : Taking n c top rest f' s)
    (same : SameIdentity f f') :
    q.logic.wp (.consumer n) (Reclaimed n c top f) (reclaimSlots epoch stride rest) s := by
  induction rest generalizing s f' with
  | nil =>
      refine Logic.wp_ret _ stable h ?_
      exact fun s₁ _ h₁ => ⟨f', h₁, same⟩
  | cons i rest ih =>
      rw [reclaimSlots]
      cases slotByteOffset i stride with
      | none =>
          refine Logic.wp_throw _ stable h ?_
          exact fun s₁ _ h₁ => ⟨_, f', h₁⟩
      | some offset =>
          apply Logic.wp_seq h.wp_reclaimSlot
          · intro _ s₁ _ post
            obtain ⟨f'', h₁, same₁⟩ := post
            exact ih h₁ fun w => (same₁ w).trans (same w)
          · exact fun e s₁ _ h₁ => ⟨_, f', h₁⟩

theorem wp_reclaimDeadConsumerSlots {epoch payloadSize : Nat}
    (h : Taking n c top (List.range slotCount) f s) :
    q.logic.wp (.consumer n) (Reclaimed n c top f)
      (reclaimDeadConsumerSlots payloadSize epoch) s := by
  rw [reclaimDeadConsumerSlots]
  cases slotStride payloadSize with
  | none =>
      refine Logic.wp_throw _ stable h ?_
      exact fun s₁ _ h₁ => ⟨_, f, h₁⟩
  | some stride =>
      exact h.wp_reclaimSlots fun _ => rfl

theorem locked (h : Taking n c top rest f s) : Locked n c f s :=
  ⟨h.alive, h.client, h.lock, fun _ => h.words _ rfl⟩

end Taking

/-- Nobody is registered with an offline channel, so nothing is being read. -/
theorem Locked.take_offline (h : Locked n c f s) (hi : q.Inv s)
    (offline : s.mem .consumerState = EndpointState.offline.code) :
    Taking n c (s.mem (.identity false .roleEpoch)) [] s.mem s := by
  have reader := hi.registry.offline offline
  rw [h.words]
  apply h.take hi
  · intro r hr
    cases reader.symm.trans hr
  · intro i hlt _ hh
    cases (hi.registry.unread reader).symm.trans (hi.slots.hold i hlt hh)

/-- A consumer found dead is no longer anybody's reader. -/
theorem Locked.vacant (h : Locked n c f s) (hi : q.Inv s) {verdict : Liveness}
    (dead : verdict = .exited ∨ verdict = .pidReused)
    (accurate : q.Accurate s.world (f (.identity false .pid))
      (f (.identity false .procStartTicks)) verdict) : s.Vacant := by
  intro r reader
  by_contra alive
  obtain ⟨identity, _⟩ := hi.registry.registered r reader (by simpa using alive)
  apply alive
  apply accurate dead
  · rw [← h.words, identity.pid]
  · rw [← h.words, identity.ticks]

/-- A record without a process number was never written. -/
theorem Locked.offline_of_pid (h : Locked n c f s) (hi : q.Inv s)
    (even : f (.identity false .roleEpoch) % 2 = 0) (pid : f (.identity false .pid) = 0) :
    s.mem .consumerState = EndpointState.offline.code := by
  have hr := hi.registry
  refine hr.states.resolve_right ?_
  intro online
  obtain ⟨r, identity⟩ := hr.identity (by rw [h.words]; exact even) (hr.online online).1
  have valid := q.self_valid (.consumer r)
  have absent := identity.pid
  rw [h.words, pid] at absent
  simp [processIdentityValid, ← absent] at valid

/-- How the examination of the old consumer ends. -/
def Evicted (n : Nat) (c : ChannelClient) (x : Except Error Unit) (s : ChannelState) :
    Prop :=
  match x with
  | .ok _ => ∃ f', Taking n c (f' (.identity false .roleEpoch)) [] f' s
  | .error _ => ∃ f', Locked n c f' s

theorem Locked.wp_evictOldConsumer {payloadSize : Nat} (h : Locked n c f s)
    (even : f (.identity false .roleEpoch) % 2 = 0) :
    q.logic.wp (.consumer n) (Evicted n c)
      (evictOldConsumer payloadSize (identityAt false f)) s := by
  have refuse : ∀ {s} (e : Error), Locked n c f s → q.logic.wp (.consumer n) (Evicted n c)
      (.throw e : ChannelCode Unit) s := by
    intro s e h
    refine Logic.wp_throw _ locked_stable h ?_
    exact fun s' _ h' => ⟨f, h'⟩
  rw [evictOldConsumer]
  split
  · rename_i pid
    refine Logic.wp_ret _ locked_stable h ?_
    exact fun s₁ hi₁ h₁ => ⟨_, h₁.take_offline hi₁ (h₁.offline_of_pid hi₁ even pid)⟩
  · apply Access.wp_load (D := q.memory) rfl
    intro s₁ hr₁ hi₁
    have h₁ := locked_stable s s₁ h hr₁ hi₁
    split
    · rename_i idle
      have offline : s₁.mem .consumerState = EndpointState.offline.code :=
        hi₁.registry.states.resolve_right idle.1
      refine Logic.wp_ret _ Taking.stable (h₁.take_offline hi₁ offline) ?_
      exact fun s₂ _ h₂ => ⟨_, h₂⟩
    · have reclaim : ∀ s₂, q.Inv s₂ → Locked n c f s₂ → s₂.Vacant →
          q.logic.wp (.consumer n) (Evicted n c)
            (reclaimDeadConsumerSlots payloadSize (identityAt false f).roleEpoch) s₂ := by
        intro s₂ hi₂ h₂ vacant
        have taking : Taking n c (f (.identity false .roleEpoch)) (List.range slotCount)
            s₂.mem s₂ :=
          h₂.take hi₂ vacant fun i hlt hout => (hout (List.mem_range.2 hlt)).elim
        apply Logic.wp_mono _ taking.wp_reclaimDeadConsumerSlots
        intro x s₃ _ reclaimed
        cases x with
        | ok _ =>
            obtain ⟨f', h₃, same⟩ := reclaimed
            refine ⟨f', ?_⟩
            rw [same, h₂.words]
            exact h₃
        | error e =>
            obtain ⟨rest, f', h₃⟩ := reclaimed
            exact ⟨f', h₃.locked⟩
      intro s₂ hr₂ hi₂ verdict w exec
      have h₂ := locked_stable s₁ s₂ h₁ hr₂ hi₂
      obtain ⟨accurate, rfl⟩ := exec
      refine ⟨s₂, rfl, hi₂, q.logic.guar_refl _ s₂, ?_⟩
      cases verdict with
      | alive | unverifiable => exact refuse _ h₂
      | exited => exact reclaim s₂ hi₂ h₂ (h₂.vacant hi₂ (.inl rfl) accurate)
      | pidReused => exact reclaim s₂ hi₂ h₂ (h₂.vacant hi₂ (.inr rfl) accurate)

/-- The opener is registered and still holds the control lock. -/
def Registered (n : Nat) (c : ChannelClient) (f : ChannelMem) (s : ChannelState) : Prop :=
  Reader n c none 0 none f s ∧ s.world.lock = some (.consumer n)

theorem registered_stable : q.logic.Stable (.consumer n) (Registered n c f) :=
  fun s s' h hr hi => ⟨Reader.stable s s' h.1 hr hi, hr.lock h.2⟩

/-- How the registration ends: with the opener registered, or with nothing decided. -/
def Registers (n : Nat) (c : ChannelClient) (x : Except Error Nat) (s : ChannelState) :
    Prop :=
  match x with
  | .ok epoch => ∃ f, Registered n c f s ∧ f (.identity false .roleEpoch) = epoch
  | .error _ => ∃ f, Locked n c f s

/-- The new identity, and with it the registration. -/
theorem Taking.wp_writeIdentity (parses : q.Parses)
    (h : Taking n c (f (.identity false .roleEpoch)) [] f s) :
    q.logic.wp (.consumer n) (Registers n c)
      (do
        let roleEpoch ← identitySnapshotWrite false (q.self (.consumer n))
        sharedStore .consumerState EndpointState.online.code
        return roleEpoch) s := by
  have refuse : ∀ {s} (e : Error), Taking n c (f (.identity false .roleEpoch)) [] f s →
      q.logic.wp (.consumer n) (Registers n c) (.throw e : ChannelCode Nat) s := by
    intro s e h
    refine Logic.wp_throw _ stable h ?_
    exact fun s' _ h' => ⟨f, h'.locked⟩
  rw [identitySnapshotWrite, Prog.bind_assoc]
  apply h.wp_load rfl
  intro s₁ _ h₁
  split
  · exact refuse _ h₁
  split
  · exact refuse _ h₁
  rename_i even room
  have even : f (.identity false .roleEpoch) % 2 = 0 := Decidable.not_not.1 even
  have room : f (.identity false .roleEpoch) + 2 ≤ uint64Max := by
    unfold uint64Max at room ⊢
    omega
  -- the epoch is odd from here until the record is complete
  rw [identitySnapshotStores]
  simp only [Prog.bind_assoc]
  apply h₁.wp_store_identity (fun hne => (hne rfl).elim) (fun _ => ⟨by omega, by omega, by omega⟩)
  intro s₂ _ h₂
  apply h₂.wp_store_field (by simp; omega) (by decide)
  intro s₃ _ h₃
  apply h₃.wp_store_field (by simp; omega) (by decide)
  intro s₄ _ h₄
  apply h₄.wp_store_field (by simp; omega) (by decide)
  intro s₅ _ h₅
  apply h₅.wp_store_field (by simp; omega) (by decide)
  intro s₆ _ h₆
  apply h₆.wp_store_identity (fun hne => (hne rfl).elim)
  · intro _
    refine ⟨by simp, room, fun _ => ⟨n, ?_⟩⟩
    constructor <;> simp
  intro s₇ _ h₇
  apply h₇.wp_online parses
  · constructor <;> simp
  · simp
    omega
  · simp
  intro s₈ f' _ reader lock epoch
  have registered : Registered n c f' s₈ := ⟨reader, lock⟩
  refine Logic.wp_ret _ registered_stable registered ?_
  exact fun s₉ _ h₉ => ⟨f', h₉, epoch.trans (by simp)⟩

/-- The takeover: the old consumer is read and judged, the new one registered. -/
theorem Locked.wp_registerConsumer {payloadSize : Nat} (parses : q.Parses)
    (h : Locked n c f s) :
    q.logic.wp (.consumer n) (Registers n c)
      (registerConsumer (q.self (.consumer n)) payloadSize) s := by
  have refuse : ∀ {s} (e : Error), Locked n c f s → q.logic.wp (.consumer n) (Registers n c)
      (.throw e : ChannelCode Nat) s := by
    intro s e h
    refine Logic.wp_throw _ locked_stable h ?_
    exact fun s' _ h' => ⟨f, h'⟩
  rw [registerConsumer, identitySnapshotRead]
  apply Logic.wp_attempt_seq (wp_identitySnapshotReadLoop locked_stable (fun _ h => h.words) h)
  intro seen s₁ _ post
  obtain ⟨h₁, known⟩ := post
  cases seen with
  | error e => exact refuse _ h₁
  | ok old =>
      obtain ⟨rfl, even⟩ := known old rfl
      apply Access.wp_load (D := q.memory) rfl
      intro s₂ hr₂ hi₂
      have h₂ := locked_stable s₁ s₂ h₁ hr₂ hi₂
      split
      · exact refuse _ h₂
      · apply Logic.wp_seq (h₂.wp_evictOldConsumer even)
        · intro _ s₃ _ evicted
          obtain ⟨f', h₃⟩ := evicted
          exact h₃.wp_writeIdentity parses
        · exact fun e s₃ _ barred => barred

end ChannelSystem
end EdgeRuntime

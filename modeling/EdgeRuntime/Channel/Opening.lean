import EdgeRuntime.Channel.Takeover

/-!
The whole open, from the caller's arguments to the registered handle, and the calls of
a consumer as the machine makes them: with what each leaves for the next one.
-/
namespace EdgeRuntime
open Concurrent

namespace ChannelSystem
variable {q : ChannelSystem} {s s' : ChannelState} {n i v : Nat} {c : ChannelClient}
  {held : Option Nat} {f f' : ChannelMem} {α : Type}
  {Q : Except Error α → ChannelState → Prop} {handle : ConsumerHandle} {operation : String}
  {a : ChannelCall} {x : Except Error ChannelResult}

/-- A word of the new handle, before anything was delivered through it. -/
theorem Registered.wp_store_own {w : HandleWord} {k : Unit → ChannelCode α}
    (h : Registered n c f s) (fresh : c.delivered = [])
    (hk : ∀ s, q.Inv s → Registered n c (f.set (consumerWord n w) v) s →
      q.logic.wp (.consumer n) Q (k ()) s) :
    q.logic.wp (.consumer n) Q (sharedStore (consumerWord n w) v >>= k) s := by
  apply Access.wp_store (D := q.memory) rfl
  intro s₁ hr hi
  obtain ⟨hv, lock⟩ := registered_stable s s₁ h hr hi
  have next := hv.store_word (v := v) (l := consumerWord n w) rfl
  by_cases hw : w = .lastSequence
  · subst hw
    have inv : q.Inv (store (.consumer n) (consumerWord n .lastSequence) v s₁) := by
      apply inv_store_lastSequence hi
      intro d hd
      rw [hv.client, fresh] at hd
      cases hd
    exact ⟨_, rfl, inv, guar_outside (fun u hne => not_fixed_own hne) rfl,
      hk _ inv ⟨next, lock⟩⟩
  · obtain ⟨inv, guar, _⟩ := hv.step_own (v := v) hi hw
    exact ⟨_, rfl, inv, guar, hk _ inv ⟨next, lock⟩⟩

/-- A handle nothing was done with yet. -/
structure Fresh (n : Nat) (f : ChannelMem) (handle : ConsumerHandle) : Prop where
  epoch : f (.identity false .roleEpoch) = handle.roleEpoch
  unused : f (consumerWord n .operationInUse) = 0
  inService : f (consumerWord n .shutdownPending) = 0

/-- How the part under the lock ends. -/
def OpensLocked (n : Nat) (c : ChannelClient) (x : Except Error ConsumerHandle)
    (s : ChannelState) : Prop :=
  match x with
  | .ok handle => ∃ f, Registered n c f s ∧ Fresh n f handle
  | .error _ => ∃ f, Locked n c f s

/-- How an open ends. -/
def Opens (n : Nat) (c : ChannelClient) (x : Except Error ConsumerHandle)
    (s : ChannelState) : Prop :=
  match x with
  | .ok handle => ∃ f, Reader n c none 0 none f s ∧ Fresh n f handle
  | .error _ => Outside n c s

section
variable {segment : ChannelSegment} {env : OpenEnvironment} {options : ChannelOptions}
  {schema : SchemaDescriptor} {payloadSize dev ino size : Nat}

theorem Locked.wp_openLocked (parses : q.Parses) (h : Locked n c f s)
    (fresh : c.delivered = []) :
    q.logic.wp (.consumer n) (OpensLocked n c)
      (openLocked segment env (q.self (.consumer n)) (initConsumerHandle n) options schema
        payloadSize dev ino) s := by
  have refuse : ∀ {s} (e : Error), Locked n c f s → q.logic.wp (.consumer n)
      (OpensLocked n c) (.throw e : ChannelCode ConsumerHandle) s := by
    intro s e h
    refine Logic.wp_throw _ locked_stable h ?_
    exact fun s' _ h' => ⟨f, h'⟩
  rw [openLocked]
  cases openJournalCheck env options with
  | error e => exact refuse e h
  | ok _ =>
  cases confirmInstance segment env options dev ino with
  | error e => exact refuse e h
  | ok _ =>
  apply Logic.wp_seq (h.wp_registerConsumer parses)
  · intro epoch s₁ _ registers
    obtain ⟨f₁, h₁, hepoch⟩ := registers
    rw [initConsumerHandle]
    simp only [Prog.bind_assoc]
    apply h₁.wp_store_own fresh
    intro s₂ _ h₂
    apply h₂.wp_store_own fresh
    intro s₃ _ h₃
    apply h₃.wp_store_own fresh
    intro s₄ _ h₄
    apply h₄.wp_store_own fresh
    intro s₅ _ h₅
    apply h₅.wp_store_own fresh
    intro s₆ _ h₆
    refine Logic.wp_ret _ registered_stable h₆ ?_
    refine fun s₇ _ h₇ => ⟨_, h₇, ?_⟩
    constructor <;> simp [consumerWord, hepoch]
  · exact fun e s₁ _ barred => barred

/-- The checks before the lock only look; the rest happens under it. -/
theorem wp_openWith {start : ChannelCode Unit} {self : ProcessIdentity}
    {B Q : Except Error ConsumerHandle → ChannelState → Prop} (P : ChannelState → Prop)
    (stable : q.logic.Stable (.consumer n) P)
    (alive : ∀ s, P s → s.world.crashed (.consumer n) = false)
    (locked : ∀ s dev ino, q.Inv s → P s →
      validateHeaderParse segment.header schema payloadSize = .ok () →
      q.logic.wp (.consumer n) B
        (openLocked segment env self start options schema payloadSize dev ino)
        (s.setWorld (setLock (some (.consumer n)) s.world)))
    (frees : ∀ x s, q.Inv s → B x s → s.world.lock = some (.consumer n) ∧
      ∀ s', q.logic.rely (.consumer n) (s.setWorld (setLock none s.world)) s' → q.Inv s' →
        Q x s')
    (fails : ∀ e s, q.Inv s → P s → Q (.error e) s) (pre : P s) :
    q.logic.wp (.consumer n) Q
      (openWith segment env self start options schema payloadSize) s := by
  have refuse : ∀ {s} (e : Error), P s → q.logic.wp (.consumer n) Q
      (.throw e : ChannelCode ConsumerHandle) s :=
    fun e hp => Logic.wp_throw _ stable hp fun s' hi' hp' => fails e s' hi' hp'
  rw [openWith]
  cases openArgumentChecks options schema payloadSize with
  | error e => exact refuse e pre
  | ok _ =>
  cases failWith env.identityError with
  | error e => exact refuse e pre
  | ok _ =>
  cases openObject env options with
  | error e => exact refuse e pre
  | ok object =>
  change q.logic.wp (.consumer n) Q
    (openMapped segment env self start options schema payloadSize _ _ _) s
  rw [openMapped]
  split
  · exact refuse _ pre
  cases failWith env.preadError with
  | error e => exact refuse e pre
  | ok _ =>
  apply Access.wp_looks (D := q.memory) rfl (looks_sharedLoad _) P stable pre
  intro initState s₁ _ h₁
  cases openBootstrapChecks env self { segment.bootstrap with initState } _ with
  | error e => exact refuse e h₁
  | ok _ =>
  apply Access.wp_looks (D := q.memory) rfl (looks_sharedLoad _) P stable h₁
  intro recheck s₂ _ h₂
  split
  · exact refuse _ h₂
  cases parsed : validateHeaderParse segment.header schema payloadSize with
  | error e => exact refuse e h₂
  | ok _ =>
  apply Access.wp_withControlLock (D := q.memory) rfl
  · intro s₃ hr hi w taken
    have h₃ := stable s₂ s₃ h₂ hr hi
    obtain ⟨rfl, inv, guar⟩ := step_lock hi (alive s₃ h₃) taken
    exact ⟨_, rfl, inv, guar, locked s₃ _ _ hi h₃ parsed⟩
  · exact fun e s₃ hr hi => fails e s₃ hi (stable s₂ s₃ h₂ hr hi)
  · intro x s₃ hi post
    obtain ⟨lock, done⟩ := frees x s₃ hi post
    obtain ⟨inv, guar⟩ := step_unlock hi lock
    exact ⟨_, rfl, inv, guar, done⟩

theorem Outside.wp_consumerOpenImpl (out : Outside n c s) (fresh : c.delivered = []) :
    q.logic.wp (.consumer n) (Opens n c)
      (consumerOpenImpl q.segment env (q.self (.consumer n)) n options schema payloadSize)
      s := by
  apply wp_openWith (B := OpensLocked n c) (Outside n c) outside_stable
    (fun _ out => out.alive) _ _ (fun _ _ _ out => out) out
  · intro s dev ino _ out parsed
    have locked : Locked n c s.mem (s.setWorld (setLock (some (.consumer n)) s.world)) :=
      ⟨out.alive, out.client, rfl, fun _ => rfl⟩
    exact locked.wp_openLocked ⟨schema, payloadSize, parsed⟩ fresh
  · intro x s hi post
    cases x with
    | ok handle =>
        obtain ⟨f, ⟨hv, lock⟩, handleFresh⟩ := post
        refine ⟨lock, fun s' hr hi' => ⟨f, Reader.stable _ s' ?_ hr hi', handleFresh⟩⟩
        exact ⟨hv.alive, hv.reader, hv.client, hv.words, hv.slot, hv.held, hv.floor, hv.known⟩
    | error e =>
        obtain ⟨f, h⟩ := post
        refine ⟨h.lock, fun s' hr hi' => outside_stable _ s' ?_ hr hi'⟩
        exact ⟨h.alive, h.client⟩

/-- A registered consumer that lives is never displaced, not even by itself. -/
theorem Registered.wp_registerConsumer (h : Registered n c f s) {self : ProcessIdentity} :
    q.logic.wp (.consumer n) (fun x s => (∃ e, x = .error e) ∧ Registered n c f s)
      (registerConsumer self payloadSize) s := by
  have refuse : ∀ {α s} (e : Error), Registered n c f s → q.logic.wp (.consumer n)
      (fun x s => (∃ e, x = .error e) ∧ Registered n c f s)
      (.throw e : ChannelCode α) s := by
    intro α s e h
    refine Logic.wp_throw _ registered_stable h ?_
    exact fun s' _ h' => ⟨⟨e, rfl⟩, h'⟩
  have known : ∀ s, Registered n c f s → ∀ w, s.mem (.identity false w) =
      f (.identity false w) := fun s h w => h.1.words _ (.registry rfl)
  rw [registerConsumer, identitySnapshotRead]
  apply Logic.wp_attempt_seq (wp_identitySnapshotReadLoop registered_stable known h)
  intro seen s₁ hi₁ post
  obtain ⟨h₁, read⟩ := post
  cases seen with
  | error e => exact refuse _ h₁
  | ok old =>
  obtain ⟨rfl, _⟩ := read old rfl
  obtain ⟨identity, _⟩ := hi₁.registry.registered n h₁.1.reader h₁.1.alive
  have pid : (identityAt false f).pid = (q.self (.consumer n)).pid :=
    (known s₁ h₁ .pid).symm.trans identity.pid
  have ticks : (identityAt false f).procStartTicks =
      (q.self (.consumer n)).procStartTicks :=
    (known s₁ h₁ .procStartTicks).symm.trans identity.ticks
  have present : (identityAt false f).pid ≠ 0 := by
    have valid := q.self_valid (.consumer n)
    rw [pid]
    intro absent
    simp [processIdentityValid, absent] at valid
  have online : ∀ s, q.Inv s → Registered n c f s →
      s.mem .consumerState = EndpointState.online.code := by
    intro s hi h
    refine hi.registry.states.resolve_left ?_
    intro offline
    cases (hi.registry.offline offline).symm.trans h.1.reader
  apply Access.wp_looks (D := q.memory) rfl (looks_sharedLoad _) _ registered_stable h₁
  intro state s₂ _ h₂
  split
  · exact refuse _ h₂
  apply Logic.wp_seq (P := fun x s => (∃ e, x = .error e) ∧ Registered n c f s)
  · rw [evictOldConsumer, if_neg present]
    apply Access.wp_load (D := q.memory) rfl
    intro s₃ hr₃ hi₃
    have h₃ := registered_stable s₂ s₃ h₂ hr₃ hi₃
    have state : q.memory.read (q.logic.world s₃) .consumerState = EndpointState.online.code :=
      online s₃ hi₃ h₃
    rw [if_neg (fun idle => idle.1 state)]
    intro s₄ hr₄ hi₄ verdict w exec
    have h₄ := registered_stable s₃ s₄ h₃ hr₄ hi₄
    obtain ⟨accurate, rfl⟩ := exec
    have living : ¬ (verdict = .exited ∨ verdict = .pidReused) := by
      intro dead
      have crashed := accurate dead (.consumer n) pid.symm ticks.symm
      cases crashed.symm.trans h₄.1.alive
    refine ⟨s₄, rfl, hi₄, q.logic.guar_refl _ s₄, ?_⟩
    cases verdict with
    | alive | unverifiable => exact refuse _ h₄
    | exited => exact (living (.inl rfl)).elim
    | pidReused => exact (living (.inr rfl)).elim
  · intro _ s₃ _ post
    obtain ⟨⟨_, he⟩, _⟩ := post
    cases he
  · exact fun e s₃ _ post => ⟨⟨e, rfl⟩, post.2⟩

/-- Opening the instance the handle is attached to fails and changes nothing. -/
theorem Reader.wp_openWith {start : ChannelCode Unit} {self : ProcessIdentity}
    (hv : Reader n c none 0 none f s) :
    q.logic.wp (.consumer n) (fun x s => (∃ e, x = .error e) ∧ Reader n c none 0 none f s)
      (openWith segment env self start options schema payloadSize) s := by
  apply ChannelSystem.wp_openWith
    (B := fun x s => (∃ e, x = .error e) ∧ Registered n c f s)
    (Reader n c none 0 none f) stable (fun _ hv => hv.alive) _ _
    (fun e _ _ hv => ⟨⟨e, rfl⟩, hv⟩) hv
  · intro s dev ino _ hv _
    have h : Registered n c f (s.setWorld (setLock (some (.consumer n)) s.world)) :=
      ⟨⟨hv.alive, hv.reader, hv.client, hv.words, hv.slot, hv.held, hv.floor, hv.known⟩, rfl⟩
    rw [openLocked]
    cases openJournalCheck env options with
    | error e =>
        refine Logic.wp_throw _ registered_stable h ?_
        exact fun s' _ h' => ⟨⟨e, rfl⟩, h'⟩
    | ok _ =>
    cases confirmInstance segment env options dev ino with
    | error e =>
        refine Logic.wp_throw _ registered_stable h ?_
        exact fun s' _ h' => ⟨⟨e, rfl⟩, h'⟩
    | ok _ =>
    apply Logic.wp_seq h.wp_registerConsumer
    · intro _ s₁ _ post
      obtain ⟨⟨_, he⟩, _⟩ := post
      cases he
    · exact fun e s₁ _ post => ⟨⟨e, rfl⟩, post.2⟩
  · intro x s _ post
    obtain ⟨failed, hv, lock⟩ := post
    refine ⟨lock, fun s' hr hi' => ⟨failed, stable _ s' ?_ hr hi'⟩⟩
    exact ⟨hv.alive, hv.reader, hv.client, hv.words, hv.slot, hv.held, hv.floor, hv.known⟩

end

/-- How a reconnect ends: the handle has left the instance, or is what it was. -/
def Moved (n : Nat) (c : ChannelClient)
    (x : Except Error (ReconnectInfo × Option ConsumerHandle)) (s : ChannelState) : Prop :=
  match x with
  | .ok moved => moved.2 = none ∧ c.readLoan = none ∧ Outside n c s
  | .error _ => Refused n c s

theorem wp_consumerReconnectImpl {target : ReconnectTarget}
    (hv : Reader n c held 0 none f s) (settled : Settled n c held f) :
    q.logic.wp (.consumer n) (Moved n c)
      (consumerReconnectImpl q.segment (q.self (.consumer n)) n handle target) s := by
  apply wp_consumerUse
    (B := fun x s => match x with
      | .ok moved => moved.2 = none ∧ Outside n c s
      | .error _ => Reader n c none 0 none (f.set (consumerWord n .operationInUse) 1) s)
    hv settled (fun _ _ refused => refused)
  · intro s₁ h₁ _
    cases target with
    | same env =>
        apply Logic.wp_seq h₁.wp_openWith
        · intro _ s₂ _ post
          obtain ⟨⟨_, he⟩, _⟩ := post
          cases he
        · exact fun e s₂ _ post => post.2
    | other outcome =>
        cases outcome with
        | error e =>
            refine h₁.wp_throw ?_
            exact fun s₂ _ h₂ => h₂
        | ok fresh =>
            apply Logic.wp_seq h₁.wp_markConsumerOffline
            · intro _ s₂ _ post
              refine Logic.wp_ret _ outside_stable post.2 ?_
              exact fun s₃ _ out => ⟨rfl, out⟩
            · intro e s₂ _ post
              cases post.1
  · intro y s₂ _ post unlent
    cases y with
    | ok moved =>
        obtain ⟨left, out⟩ := post
        apply out.wp_store_own (by simp)
        intro s₃ _ out₃
        refine Logic.wp_ret _ outside_stable out₃ ?_
        exact fun s₄ _ out₄ => ⟨left, unlent, out₄⟩
    | error e =>
        have h₂ : Reader n c none 0 none (f.set (consumerWord n .operationInUse) 1) s₂ := post
        apply h₂.wp_store_own (by simp)
        intro s₃ _ h₃
        refine h₃.wp_throw ?_
        exact fun s₄ _ h₄ => ⟨none, _, h₄, settled.cleared unlent (.refl n _)⟩

theorem readEnds_mono {y : Except Error ReadSnapshot} (flags : SameFlags n f f')
    (h : ReadEnds n c f' y s) : ReadEnds n c f y s := by
  cases y with
  | ok snapshot =>
      obtain ⟨f'', out, sample, hv, flags', rest⟩ := h
      exact ⟨f'', out, sample, hv, flags.trans flags', rest⟩
  | error e =>
      obtain ⟨f'', hv, flags'⟩ := h
      exact ⟨f'', hv, flags.trans flags'⟩

theorem claimEnds_mono {y : Except Error ReadLoan} (flags : SameFlags n f f')
    (h : ClaimEnds n c f' y s) : ClaimEnds n c f y s := by
  cases y with
  | ok loan =>
      obtain ⟨f'', sample, hv, flags', rest⟩ := h
      exact ⟨f'', sample, hv, flags.trans flags', rest⟩
  | error e =>
      obtain ⟨f'', hv, flags'⟩ := h
      exact ⟨f'', hv, flags.trans flags'⟩

section
variable {idle : Endpoint → ChannelState → Prop}
  (rest : ∀ s, ConsumerIdle n s → idle (.consumer n) s)
include rest

theorem wp_openCall {env : OpenEnvironment} {options : ChannelOptions}
    {schema : SchemaDescriptor} {payloadSize : Nat} (out : Outside n c s)
    (call : a = .openConsumer env options schema payloadSize) (closed : c.handle = none)
    (unlent : c.readLoan = none) (fresh : c.delivered = []) (quiet : c.ticketStores = 0) :
    q.logic.wp (.consumer n) (q.logic.Returns q.machine idle (.consumer n) a)
      (consumerOpenImpl q.segment env (q.self (.consumer n)) n options schema payloadSize >>=
        fun handle => .ret (.opened handle)) s := by
  subst call
  apply Logic.wp_map (out.wp_consumerOpenImpl fresh)
  · intro handle s₁ hi opens
    obtain ⟨f, hv, new⟩ := opens
    apply hv.returns handle rest hi
    · rfl
    · exact quiet
    · intro loan hl
      cases unlent.symm.trans hl
    · exact ⟨by simp [keepResult, fresh], by simp [keepResult, fresh]⟩
    · refine ⟨?_, ?_, fun _ => new.inService⟩
      · simp only [keepResult, unlent]
        exact ⟨trivial, new.unused⟩
      · intro h hh
        cases hh
        exact new.epoch
  · intro e s₁ hi out₁
    exact Outside.returns rest out₁ hi closed unlent rfl ⟨quiet, by rintro ⟨⟩⟩

theorem wp_reconnectCall {target : ReconnectTarget} (hv : Reader n c held 0 none f s)
    (settled : Settled n c held f) (opened : c.handle = some handle)
    (quiet : c.ticketStores = 0) (busy : c.call = some (.reconnect target)) :
    q.logic.wp (.consumer n)
      (q.logic.Returns q.machine idle (.consumer n) (.reconnect target))
      (consumerReconnectImpl q.segment (q.self (.consumer n)) n handle target >>=
        fun moved => .ret (.reconnected moved.1 moved.2)) s := by
  apply Logic.wp_map (wp_consumerReconnectImpl hv settled)
  · intro moved s₁ hi post
    obtain ⟨left, unlent, out⟩ := post
    exact Outside.returns rest out hi left unlent rfl quiet
  · intro e s₁ hi refused
    exact Refused.returns rest hi refused opened quiet busy rfl (by simp)

/-- Every call on an open handle keeps the invariant and ends idle. -/
theorem wp_handleCall (hv : Reader n c held 0 none f s) (settled : Settled n c held f)
    (opened : c.handle = some handle) (quiet : c.ticketStores = 0)
    (busy : c.call = some a)
    (lent : a = .release → c.readLoan.isSome = true)
    (unclosed : a ≠ .release → c.closed = false) (w : ChannelWorld)
    (same : (w.client (.consumer n)).handle = c.handle ∧
      (w.client (.consumer n)).readLoan = c.readLoan)
    (own : allowed (.consumer n) a w = true) :
    q.logic.wp (.consumer n) (q.logic.Returns q.machine idle (.consumer n) a)
      (q.code (.consumer n) a w) s := by
  have opened' := same.1.trans opened
  have free : c.readLoan = none → Reader.LoanFree c := .inl
  have epoch : ∀ {f : ChannelMem}, (∀ handle, c.handle = some handle →
      f (.identity false .roleEpoch) = handle.roleEpoch) →
      f (.identity false .roleEpoch) = handle.roleEpoch := fun h => h handle opened
  cases a with
  | tryRead encodedCap =>
      simp only [code, opened']
      apply wp_readCall rest opened quiet busy (fun _ => rfl) (by simp) (fun _ _ => rfl)
      apply wp_withConsumerUse hv settled
      exact fun s₁ f₁ h₁ hl he => h₁.wp_tryReadLatestUnlocked (free hl) (epoch he)
  | waitRead encodedCap timeoutNs rounds =>
      simp only [code, opened']
      apply wp_readCall rest opened quiet busy (fun _ => rfl) (by simp) (fun _ _ => rfl)
      apply wp_withConsumerUse hv settled
      intro s₁ f₁ h₁ hl he
      apply wp_waitUntil (fun _ _ => Iff.rfl) _ ⟨f₁, h₁, .refl n f₁⟩
      intro s₂ empty
      obtain ⟨f₂, h₂, flags⟩ := empty
      apply Logic.wp_mono (fun _ _ _ => readEnds_mono flags)
      exact h₂.wp_tryReadLatestUnlocked (free hl) (flags.epoch.trans (epoch he))
  | tryLoan =>
      simp only [code, opened']
      apply wp_loanCall rest opened quiet busy (fun _ => rfl) (by simp) (fun _ _ => rfl)
      apply wp_withConsumerLoan hv settled (unclosed (by simp))
      exact fun s₁ f₁ h₁ hl he => h₁.wp_claimLatestUnlocked (free hl) (epoch he)
  | waitLoan timeoutNs rounds =>
      simp only [code, opened']
      apply wp_loanCall rest opened quiet busy (fun _ => rfl) (by simp) (fun _ _ => rfl)
      apply wp_withConsumerLoan hv settled (unclosed (by simp))
      intro s₁ f₁ h₁ hl he
      apply wp_waitUntil (fun _ _ => Iff.rfl) _ ⟨f₁, h₁, .refl n f₁⟩
      intro s₂ empty
      obtain ⟨f₂, h₂, flags⟩ := empty
      apply Logic.wp_mono (fun _ _ _ => claimEnds_mono flags)
      exact h₂.wp_claimLatestUnlocked (free hl) (flags.epoch.trans (epoch he))
  | release =>
      obtain ⟨loan, hl⟩ := Option.isSome_iff_exists.1 (lent rfl)
      simp only [code, opened', same.2, hl]
      exact wp_releaseCall rest hv settled opened quiet busy hl
  | destroy =>
      simp only [code, opened']
      exact wp_destroyCall rest hv settled opened quiet busy
  | reconnect target =>
      simp only [code, opened']
      exact wp_reconnectCall rest hv settled opened quiet busy
  | openConsumer => simp [allowed, opened'] at own
  | publish | loan | loanWrite | commit | abort | heartbeat | shutdown => cases own

end

/-- Every call of a consumer keeps the invariant and ends idle. -/
theorem consumer_call_sound {idle : Endpoint → ChannelState → Prop}
    (rest : ∀ s, ConsumerIdle n s → idle (.consumer n) s) (hi : q.Inv s)
    (ready : ConsumerIdle n s) (own : allowed (.consumer n) a s.world = true) :
    ∃ s', s'.world = q.machine.enter (.consumer n) a s.world ∧ q.Inv s' ∧
      q.logic.guar (.consumer n) s s' ∧
      q.logic.wp (.consumer n) (q.logic.Returns q.machine idle (.consumer n) a)
        (q.code (.consumer n) a s.world) s' := by
  obtain ⟨c, out, call, state⟩ := ready
  have client := out.client
  obtain ⟨inv, guar⟩ := step_enter (a := a) hi (by rw [client]; exact call)
  refine ⟨_, rfl, inv, guar, ?_⟩
  cases hh : c.handle with
  | none =>
      rw [hh] at state
      have out' : Outside n (enterClient (.consumer n) a s.world)
          (s.setWorld (q.machine.enter (.consumer n) a s.world)) :=
        ⟨out.alive, enter_client_self (q := q) _⟩
      cases a with
      | openConsumer env options schema payloadSize =>
          apply wp_openCall rest out' rfl _ _ rfl rfl
          · exact (congrArg ChannelClient.handle client).trans hh
          · exact (congrArg ChannelClient.readLoan client).trans state
      | release => simp [allowed, client, state] at own
      | tryRead | waitRead | tryLoan | waitLoan | destroy | reconnect =>
          simp [allowed, client, hh] at own
      | publish | loan | loanWrite | commit | abort | heartbeat | shutdown => cases own
  | some handle =>
      rw [hh] at state
      obtain ⟨held, f, hv, settled⟩ := state
      have settled' : Settled n (enterClient (.consumer n) a s.world) held f := by
        have same := settled
        rw [← client] at same
        exact ⟨same.loan, same.epoch, same.inService⟩
      have opened : (enterClient (.consumer n) a s.world).handle = some handle :=
        (congrArg ChannelClient.handle client).trans hh
      apply wp_handleCall rest hv.enter settled' opened rfl rfl _ _ _ ⟨rfl, rfl⟩ own
      · rintro rfl
        exact own
      · intro other
        cases a with
        | release => exact (other rfl).elim
        | openConsumer => simp [allowed, client, hh] at own
        | tryRead | waitRead | tryLoan | waitLoan | destroy | reconnect =>
            simp only [allowed, Bool.and_eq_true, Bool.not_eq_true'] at own
            exact own.2
        | publish | loan | loanWrite | commit | abort | heartbeat | shutdown => cases own

end ChannelSystem
end EdgeRuntime

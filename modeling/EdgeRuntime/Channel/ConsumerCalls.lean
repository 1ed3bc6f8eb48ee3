import EdgeRuntime.Channel.Read

/-!
The calls of an open consumer: reads and loans, waiting for them, the release of a loan,
and the destructor, which gives up the registration once nothing is lent.
-/
namespace EdgeRuntime
open Concurrent

namespace ChannelSystem
variable {q : ChannelSystem} {s s' : ChannelState} {n i v floor : Nat} {c : ChannelClient}
  {held : Option Nat} {known : Option Sample} {f f' : ChannelMem} {α : Type}
  {Q : Except Error α → ChannelState → Prop} {handle : ConsumerHandle} {operation : String}
  {a : ChannelCall} {x : Except Error ChannelResult}

theorem empty_stable : q.logic.Stable (.consumer n) (Empty n c f) := by
  intro s s' empty hr hi
  obtain ⟨f', hv, flags⟩ := empty
  exact ⟨f', Reader.stable s s' hv hr hi, flags⟩

theorem empty_quiet (s : ChannelState) (hi : q.Inv s) (empty : Empty n c f s)
    (log : FutexLog Endpoint) : ∃ s', s'.world = setFutex log s.world ∧ q.Inv s' ∧
      q.logic.guar (.consumer n) s s' ∧ Empty n c f s' := by
  obtain ⟨f', hv, flags⟩ := empty
  obtain ⟨inv, guar⟩ := step_futex (t := .consumer n) log hi
  refine ⟨_, rfl, inv, guar, f', ?_, flags⟩
  exact ⟨hv.alive, hv.reader, hv.client, hv.words, hv.slot, hv.held, hv.floor, hv.known⟩

section
variable {header : ChannelHeaderAbi} {body : ChannelCode α} {deadline rounds : Nat}
  {B : Except Error α → ChannelState → Prop}
  (failed : ∀ e s, B (.error e) s ↔ Empty n c f s)
  (spec : ∀ s, Empty n c f s → q.logic.wp (.consumer n) B body s)
include failed spec

/-- Waiting repeats a search that leaves nothing behind when it fails. -/
theorem wp_waitLoop (empty : Empty n c f s) :
    q.logic.wp (.consumer n) B (waitLoop header n operation deadline body rounds) s := by
  induction rounds generalizing s with
  | zero =>
      intro s' _ _ r w never
      exact never.elim
  | succ rounds ih =>
      apply Logic.wp_attempt_seq (Logic.wp_closed (spec s empty))
      intro y s₁ hi₁ closed
      cases y with
      | ok a => exact fun s₂ hr hi => closed s₂ hr hi
      | error e =>
          have empty₁ := (failed e s₁).1 (closed s₁ (rely_refl _ s₁) hi₁)
          dsimp only
          split
          · exact fun s₂ hr hi => closed s₂ hr hi
          · apply Access.wp_waits (D := q.memory) rfl waits_waitForNotice (Prog.ends_true _)
              _ empty_stable _ empty₁
            · exact fun _ s₂ _ _ empty₂ => ih empty₂
            · exact fun e s₂ _ _ empty₂ => (failed e s₂).2 empty₂
            · exact empty_quiet

theorem wp_waitUntil {timeoutNs : Nat} (empty : Empty n c f s) :
    q.logic.wp (.consumer n) B (waitUntil header n operation timeoutNs rounds body) s := by
  apply Access.wp_looks (D := q.memory) rfl (looks_monotonicDeadlineNs timeoutNs) _
    empty_stable empty
  intro deadline s₁ _ empty₁
  split
  · refine Logic.wp_throw _ empty_stable empty₁ ?_
    exact fun s₂ _ empty₂ => (failed _ s₂).2 empty₂
  · exact wp_waitLoop failed spec empty₁

end

/-- The endpoint's own part of the world, whether it is registered or not. -/
structure Outside (n : Nat) (c : ChannelClient) (s : ChannelState) : Prop where
  alive : s.world.crashed (.consumer n) = false
  client : s.world.client (.consumer n) = c

theorem outside_stable : q.logic.Stable (.consumer n) (Outside n c) :=
  fun _ _ h hr _ => ⟨hr.crashed.trans h.alive, hr.client.trans h.client⟩

theorem Reader.outside (hv : Reader n c held floor known f s) : Outside n c s :=
  ⟨hv.alive, hv.client⟩

/-- The flags of a handle agree with what its client keeps. -/
structure Settled (n : Nat) (c : ChannelClient) (held : Option Nat) (f : ChannelMem) :
    Prop where
  loan : match c.readLoan with
    | none => held = none ∧ f (consumerWord n .operationInUse) = 0
    | some loan => held = some loan.slotIndex ∧ f (consumerWord n .operationInUse) ≠ 0
  epoch : ∀ handle, c.handle = some handle →
    f (.identity false .roleEpoch) = handle.roleEpoch
  inService : c.closed = false → f (consumerWord n .shutdownPending) = 0

/-- Between two calls. -/
def ConsumerIdle (n : Nat) (s : ChannelState) : Prop :=
  ∃ c, Outside n c s ∧ c.call = none ∧
    match c.handle with
    | none => c.readLoan = none
    | some _ => ∃ held f, Reader n c held 0 none f s ∧ Settled n c held f

theorem consumerIdle_stable : q.logic.Stable (.consumer n) (ConsumerIdle n) := by
  intro s s' idle hr hi
  obtain ⟨c, out, call, rest⟩ := idle
  refine ⟨c, outside_stable s s' out hr hi, call, ?_⟩
  cases hh : c.handle with
  | none =>
      rw [hh] at rest
      exact rest
  | some handle =>
      rw [hh] at rest
      obtain ⟨held, f, hv, settled⟩ := rest
      exact ⟨held, f, Reader.stable s s' hv hr hi, settled⟩

theorem Reader.enter (hv : Reader n c held 0 none f s) :
    Reader n (enterClient (.consumer n) a s.world) held 0 none f
      (s.setWorld (q.machine.enter (.consumer n) a s.world)) :=
  ⟨hv.alive, hv.reader, enter_client_self (q := q) _, hv.words, hv.slot, hv.held, hv.floor,
    fun _ he => nomatch he⟩

section
variable {idle : Endpoint → ChannelState → Prop}
  (rest : ∀ s, ConsumerIdle n s → idle (.consumer n) s)
include rest

variable (handle) in
/-- The end of a call that leaves the handle open. -/
theorem Reader.returns (hv : Reader n c held floor known f s) (hi : q.Inv s)
    (opened : (keepResult a x c).handle = some handle)
    (ok : ReturnOk s.world.committed ⟨.consumer n, a, x, c.passed, c.out,
      s.world.seen (.consumer n), c.ticketStores⟩)
    (loans : ∀ loan, (keepResult a x c).readLoan = some loan → LoanInv s n loan)
    (delivered : (keepResult a x c).delivered.Pairwise (· < ·) ∧
      ∀ d ∈ (keepResult a x c).delivered, d ≤ f (consumerWord n .lastSequence))
    (settled : Settled n (keepResult a x c) held f) :
    q.logic.Returns q.machine idle (.consumer n) a x s := by
  have client := hv.client
  have step := step_leave (t := .consumer n) (a := a) (x := x) hi
    (by rw [client]; exact ok)
    (fun m loan he hl => by
      cases he
      rw [client] at hl
      exact loans loan hl)
    (fun m he => by
      cases he
      rw [client, hv.words _ .own]
      exact delivered)
    (fun m h he hs => by
      cases he
      rw [client] at hs
      refine .inr ⟨hv.keeper, hv.reader, ?_⟩
      rw [hv.words _ (.registry rfl)]
      exact (settled.epoch h hs).symm)
  have left : (q.machine.leave (.consumer n) a x s.world).client (.consumer n) =
      leaveClient a x c := by
    rw [leave_client_self, client]
  have handle' : (leaveClient a x c).handle = some handle := opened
  refine ⟨_, rfl, step.1, step.2, rest _ ⟨leaveClient a x c, ⟨hv.alive, left⟩, rfl, ?_⟩⟩
  rw [handle']
  refine ⟨held, f, ?_, ⟨settled.loan, settled.epoch, settled.inService⟩⟩
  exact ⟨hv.alive, hv.reader, left, hv.words, hv.slot, hv.held, Nat.zero_le _,
    fun _ he => nomatch he⟩

/-- The end of a call after which the endpoint has no handle. -/
theorem Outside.returns (out : Outside n c s) (hi : q.Inv s)
    (closed : (keepResult a x c).handle = none)
    (unlent : (keepResult a x c).readLoan = none)
    (delivered : (keepResult a x c).delivered = c.delivered)
    (ok : ReturnOk s.world.committed ⟨.consumer n, a, x, c.passed, c.out,
      s.world.seen (.consumer n), c.ticketStores⟩) :
    q.logic.Returns q.machine idle (.consumer n) a x s := by
  have client := out.client
  have step := step_leave (t := .consumer n) (a := a) (x := x) hi
    (by rw [client]; exact ok)
    (fun m loan he hl => by
      cases he
      rw [client, unlent] at hl
      cases hl)
    (fun m he => by
      cases he
      rw [client, delivered, ← client]
      exact hi.clients.delivered n)
    (fun m h he hs => by
      cases he
      rw [client, closed] at hs
      cases hs)
  have left : (q.machine.leave (.consumer n) a x s.world).client (.consumer n) =
      leaveClient a x c := by
    rw [leave_client_self, client]
  have handle' : (leaveClient a x c).handle = none := closed
  refine ⟨_, rfl, step.1, step.2, rest _ ⟨leaveClient a x c, ⟨out.alive, left⟩, rfl, ?_⟩⟩
  rw [handle']
  exact unlent

/-- A call that failed keeps everything as it was. -/
theorem Reader.returns_error {e : Error} (hv : Reader n c held floor known f s)
    (hi : q.Inv s) (opened : c.handle = some handle) (settled : Settled n c held f)
    (quiet : c.ticketStores = 0) (busy : c.call = some a)
    (keeps : keepResult a (.error e) c = c) (other : a ≠ .release) :
    q.logic.Returns q.machine idle (.consumer n) a (.error e) s := by
  apply hv.returns handle rest hi
  · rw [keeps]
    exact opened
  · exact ⟨quiet, fun he => nomatch he⟩
  · intro loan hl
    rw [keeps] at hl
    apply hi.clients.loans n loan (by rw [hv.client]; exact hl) hv.alive
    rw [hv.client, busy]
    exact fun he => other (Option.some.inj he)
  · rw [keeps, ← hv.words (consumerWord n .lastSequence) .own, ← hv.client]
    exact hi.clients.delivered n
  · rw [keeps]
    exact settled

end

/-- The flag is down again, and otherwise nothing has changed. -/
theorem Settled.cleared (settled : Settled n c held f) (unlent : c.readLoan = none)
    (flags : SameFlags n (f.set (consumerWord n .operationInUse) v) f') :
    Settled n c none (f'.set (consumerWord n .operationInUse) 0) := by
  constructor
  case loan =>
      rw [unlent]
      exact ⟨rfl, by simp⟩
  case epoch =>
      intro handle hh
      rw [← settled.epoch handle hh, Words.set_apply, if_neg (by simp [consumerWord]),
        flags.epoch, Words.set_apply, if_neg (by simp [consumerWord])]
  case inService =>
      intro hc
      rw [← settled.inService hc, Words.set_apply, if_neg (by simp [consumerWord]),
        flags.word _ (by simp) (by simp), Words.set_apply, if_neg (by simp [consumerWord])]

/-- How a call that may deliver a sample ends when it does not. -/
def Refused (n : Nat) (c : ChannelClient) (s : ChannelState) : Prop :=
  ∃ held f, Reader n c held 0 none f s ∧ Settled n c held f

/-- How a whole read ends. -/
def ReadDone (n : Nat) (c : ChannelClient) (y : Except Error ReadSnapshot)
    (s : ChannelState) : Prop :=
  match y with
  | .ok snapshot => ∃ f out sample, Reader n (Reader.setOut c out) none 0 (some sample) f s ∧
      Settled n c none f ∧ Found n c f snapshot sample ∧
      (List.range snapshot.encodedSize).map out = sample.payload
  | .error _ => Refused n c s

/-- An operation that holds the handle from its start to its end. -/
theorem wp_consumerUse {body : ChannelCode α} {B : Except Error α → ChannelState → Prop}
    (hv : Reader n c held 0 none f s) (settled : Settled n c held f)
    (refused : ∀ e s, Refused n c s → Q (.error e) s)
    (spec : ∀ s, Reader n c none 0 none (f.set (consumerWord n .operationInUse) 1) s →
      c.readLoan = none → q.logic.wp (.consumer n) B body s)
    (next : ∀ y s, q.Inv s → B y s → c.readLoan = none → q.logic.wp (.consumer n) Q
      (sharedStore (consumerWord n .operationInUse) 0 >>= fun _ => Prog.lift y) s) :
    q.logic.wp (.consumer n) Q (withConsumerUse n operation body) s := by
  have loan := settled.loan
  apply hv.wp_cas_own (by simp)
  · intro clear s₁ _ h₁
    cases hl : c.readLoan with
    | some lent =>
        rw [hl] at loan
        exact (loan.2 clear).elim
    | none =>
        rw [hl] at loan
        rw [loan.1] at h₁
        apply Logic.wp_attempt_seq (spec s₁ h₁ hl)
        exact fun y s₂ hi₂ post => next y s₂ hi₂ post hl
  · intro _ s₁ _ h₁
    refine h₁.wp_throw ?_
    exact fun s₂ _ h₂ => refused _ s₂ ⟨held, f, h₂, settled⟩

/-- The identity the handle was registered under is still there once the flag is up. -/
theorem Settled.epoch_of_set (settled : Settled n c held f) (opened : c.handle = some handle) :
    (f.set (consumerWord n .operationInUse) v) (.identity false .roleEpoch) =
      handle.roleEpoch := by
  rw [← settled.epoch handle opened, Words.set_apply, if_neg (by simp [consumerWord])]

theorem wp_withConsumerUse {body : ChannelCode ReadSnapshot}
    (hv : Reader n c held 0 none f s) (settled : Settled n c held f)
    (spec : ∀ s f, Reader n c none 0 none f s → c.readLoan = none →
      (∀ handle, c.handle = some handle →
        f (.identity false .roleEpoch) = handle.roleEpoch) →
      q.logic.wp (.consumer n) (ReadEnds n c f) body s) :
    q.logic.wp (.consumer n) (ReadDone n c) (withConsumerUse n operation body) s := by
  apply wp_consumerUse hv settled (fun _ _ refused => refused)
  · intro s₁ h₁ hl
    exact spec s₁ _ h₁ hl fun handle hh => settled.epoch_of_set hh
  · intro y s₂ _ ends hl
    cases y with
    | ok snapshot =>
        obtain ⟨f', out, sample, h₂, flags, found, bytes⟩ := ends
        apply h₂.wp_store_own (by simp)
        intro s₃ _ h₃
        refine h₃.wp_ret ?_
        intro s₄ _ h₄
        refine ⟨_, out, sample, h₄, settled.cleared hl flags, ?_, bytes⟩
        refine ⟨found.sequence, found.bootNs, found.size, ?_, found.newer⟩
        rw [Words.set_apply, if_neg (by simp [consumerWord])]
        exact found.last
    | error e =>
        obtain ⟨f', h₂, flags⟩ := ends
        apply h₂.wp_store_own (by simp)
        intro s₃ _ h₃
        refine h₃.wp_throw ?_
        exact fun s₄ _ h₄ => ⟨none, _, h₄, settled.cleared hl flags⟩

/-- A handle word of an endpoint that is no longer registered. -/
theorem Outside.wp_store_own {w : HandleWord} {k : Unit → ChannelCode α}
    (out : Outside n c s) (hw : w ≠ .lastSequence)
    (hk : ∀ s, q.Inv s → Outside n c s → q.logic.wp (.consumer n) Q (k ()) s) :
    q.logic.wp (.consumer n) Q (sharedStore (consumerWord n w) v >>= k) s := by
  apply Access.wp_store (D := q.memory) rfl
  intro s₁ hr hi
  have out₁ := outside_stable s s₁ out hr hi
  have inv : q.Inv (store (.consumer n) (consumerWord n w) v s₁) := by
    apply inv_store_plain hi ⟨rfl, rfl, ?_⟩
    intro m he
    cases he
    exact hw rfl
  refine ⟨_, rfl, inv, guar_outside (fun u hne => not_fixed_own hne) rfl, hk _ inv ?_⟩
  refine ⟨out₁.alive, ?_⟩
  rw [store_client_self, out₁.client]
  rfl

/-- A consumer that holds nothing takes itself off the channel. -/
theorem Reader.wp_offline {k : Unit → ChannelCode α} (hv : Reader n c none floor known f s)
    (hk : ∀ s, q.Inv s → Outside n c s → q.logic.wp (.consumer n) Q (k ()) s) :
    q.logic.wp (.consumer n) Q
      (sharedStore .consumerState EndpointState.offline.code >>= k) s := by
  apply Access.wp_store (D := q.memory) rfl
  intro s₁ hr hi
  have h₁ := stable s s₁ hv hr hi
  have inv := inv_offline (t := .consumer n) hi h₁.unread
  refine ⟨_, rfl, inv, guar_register (guar_outside ?_ rfl) h₁.keeper (.inr (.inl rfl)),
    hk _ inv ⟨h₁.alive, ?_⟩⟩
  · intro u hne
    apply not_fixed_registry h₁.keeper hne rfl
    intro w he
    cases he
  · rw [ChannelState.register_world, store_client_self, h₁.client]
    rfl

/-- Whatever it finds in the identity record, the consumer ends up outside. -/
theorem Reader.wp_markConsumerOffline (hv : Reader n c none floor known f s) :
    q.logic.wp (.consumer n) (fun x s => x = .ok () ∧ Outside n c s)
      (markConsumerOffline handle) s := by
  have kept : ∀ {s}, Reader n c none floor known f s → q.logic.wp (.consumer n)
      (fun x s => x = .ok () ∧ Outside n c s) (pure () : ChannelCode Unit) s := by
    intro s hv
    refine hv.wp_ret ?_
    exact fun s' _ h' => ⟨rfl, h'.outside⟩
  apply hv.wp_looks (Prog.looks_attempt (reads_identitySnapshotRead false))
  intro seen s₁ _ h₁
  cases seen with
  | error e => exact kept h₁
  | ok id =>
      dsimp only
      split
      · exact kept h₁
      · apply h₁.wp_offline (k := .ret)
        intro s₂ _ out
        refine Logic.wp_ret _ outside_stable out ?_
        exact fun s₃ _ out₃ => ⟨rfl, out₃⟩

theorem Reader.wp_startConsumerShutdown {first : Bool}
    (hv : Reader n c none floor known f s) :
    q.logic.wp (.consumer n) (fun x s => x = .ok () ∧ Outside n c s)
      (startConsumerShutdown handle first) s := by
  cases first with
  | false =>
      refine hv.wp_ret ?_
      exact fun s' _ h' => ⟨rfl, h'.outside⟩
  | true => exact hv.wp_markConsumerOffline

/-- What a pending shutdown may have done. -/
def Serviced (n : Nat) (c : ChannelClient) (held : Option Nat) (f : ChannelMem)
    (s : ChannelState) : Prop :=
  (∃ f', Reader n c held 0 none f' s ∧
    ∀ l, l = consumerWord n .operationInUse ∨ l = consumerWord n .shutdownPending ∨
      l = .identity false .roleEpoch → f' l = f l) ∨
    (f (consumerWord n .shutdownPending) ≠ 0 ∧ held = none ∧ Outside n c s)

theorem Reader.wp_serviceConsumerShutdown (hv : Reader n c held 0 none f s)
    (quiet : held = none ∨ f (consumerWord n .operationInUse) ≠ 0) :
    q.logic.wp (.consumer n) (fun x s => x = .ok () ∧ Serviced n c held f s)
      (serviceConsumerShutdown n handle) s := by
  have kept : ∀ {s}, Reader n c held 0 none f s → q.logic.wp (.consumer n)
      (fun x s => x = .ok () ∧ Serviced n c held f s) (pure () : ChannelCode Unit) s := by
    intro s hv
    refine hv.wp_ret ?_
    exact fun s' _ h' => ⟨rfl, .inl ⟨f, h', fun _ _ => rfl⟩⟩
  rw [serviceConsumerShutdown]
  apply hv.wp_load .own
  intro s₁ _ h₁
  split
  · exact kept h₁
  · rename_i pending
    apply h₁.wp_cas_own (by simp)
    · intro clear s₂ _ h₂
      have none := quiet.resolve_right fun hne => hne clear
      subst none
      have start : ∀ {s f'} (first : Bool), Reader n c none 0 none f' s →
          q.logic.wp (.consumer n) (fun x s => x = .ok () ∧ Serviced n c none f s)
            (startConsumerShutdown handle first >>= fun _ =>
              sharedStore (consumerWord n .operationInUse) 0) s := by
        intro s f' first hv
        apply Logic.wp_seq hv.wp_startConsumerShutdown
        · intro _ s' _ post
          apply post.2.wp_store_own (k := .ret) (by simp)
          intro s'' _ out
          refine Logic.wp_ret _ outside_stable out ?_
          exact fun s₃ _ out₃ => ⟨rfl, .inr ⟨pending, rfl, out₃⟩⟩
        · intro e s' _ post
          cases post.1
      apply h₂.wp_cas_own (by simp)
      · exact fun _ s₃ _ h₃ => start true h₃
      · exact fun _ s₃ _ h₃ => start false h₃
    · intro _ s₂ _ h₂
      exact kept h₂

theorem Reader.wp_releaseConsumerLoanOperation (hv : Reader n c none 0 none f s) :
    q.logic.wp (.consumer n) (fun x s => x = .ok () ∧
      Serviced n c none (f.set (consumerWord n .operationInUse) 0) s)
      (releaseConsumerLoanOperation n handle) s := by
  apply hv.wp_store_own (by simp)
  exact fun s₁ _ h₁ => h₁.wp_serviceConsumerShutdown (.inl rfl)

/-- The client once a loan was handed out. -/
def lend (c : ChannelClient) (loan : ReadLoan) : ChannelClient :=
  { c with readLoan := some loan }

/-- How a whole loan ends. -/
def LoanDone (n : Nat) (c : ChannelClient) (y : Except Error ReadLoan)
    (s : ChannelState) : Prop :=
  match y with
  | .ok loan => ∃ f sample, Reader n c (some loan.slotIndex) 0 (some sample) f s ∧
      Settled n (lend c loan) (some loan.slotIndex) f ∧
      f (.slotState loan.slotIndex) = SlotState.reading.code ∧
      Holds f loan.slotIndex sample ∧ Found n c f loan.snapshot sample
  | .error _ => Refused n c s

theorem wp_withConsumerLoan {body : ChannelCode ReadLoan}
    (hv : Reader n c held 0 none f s) (settled : Settled n c held f)
    (unclosed : c.closed = false)
    (spec : ∀ s f, Reader n c none 0 none f s → c.readLoan = none →
      (∀ handle, c.handle = some handle →
        f (.identity false .roleEpoch) = handle.roleEpoch) →
      q.logic.wp (.consumer n) (ClaimEnds n c f) body s) :
    q.logic.wp (.consumer n) (LoanDone n c) (withConsumerLoan n handle operation body) s := by
  have loan := settled.loan
  apply hv.wp_cas_own (by simp)
  · intro clear s₁ _ h₁
    cases hl : c.readLoan with
    | some lent =>
        rw [hl] at loan
        exact (loan.2 clear).elim
    | none =>
        rw [hl] at loan
        rw [loan.1] at h₁
        have epoch : ∀ handle, c.handle = some handle →
            (f.set (consumerWord n .operationInUse) 1) (.identity false .roleEpoch) =
              handle.roleEpoch := fun handle hh => settled.epoch_of_set hh
        apply Logic.wp_attempt_seq (Logic.wp_closed (spec s₁ _ h₁ hl epoch))
        intro y s₂ hi₂ closed
        cases y with
        | ok lent =>
            intro s₃ hr hi₃
            obtain ⟨f', sample, h₃, flags, state, hs, found⟩ := closed s₃ hr hi₃
            refine ⟨f', sample, h₃, ⟨⟨rfl, ?_⟩, ?_, ?_⟩, state, hs, found⟩
            · rw [flags.word _ (by simp) (by simp)]
              simp
            · intro handle hh
              rw [flags.epoch]
              exact epoch handle hh
            · intro hc
              rw [flags.word _ (by simp) (by simp), Words.set_apply,
                if_neg (by simp [consumerWord])]
              exact settled.inService hc
        | error e =>
            obtain ⟨f', h₂, flags⟩ := closed s₂ (rely_refl _ s₂) hi₂
            apply Logic.wp_seq (Logic.wp_closed h₂.wp_releaseConsumerLoanOperation)
            · intro _ s₃ _ closed₃ s₄ hr hi₄
              have settled' := settled.cleared hl flags
              rcases (closed₃ s₄ hr hi₄).2 with ⟨f'', h₄, same⟩ | ⟨pending, _, _⟩
              · refine ⟨none, f'', h₄, ⟨?_, ?_, ?_⟩⟩
                · rw [hl]
                  exact ⟨rfl, by rw [same _ (.inl rfl)]; simp⟩
                · intro handle hh
                  rw [same _ (.inr (.inr rfl))]
                  exact settled'.epoch handle hh
                · intro hc
                  rw [same _ (.inr (.inl rfl))]
                  exact settled'.inService hc
              · exact (pending (settled'.inService unclosed)).elim
            · intro e' s₃ hi₃ closed₃
              cases (closed₃ s₃ (rely_refl _ s₃) hi₃).1
  · intro _ s₁ _ h₁
    refine h₁.wp_throw ?_
    exact fun s₂ _ h₂ => ⟨held, f, h₂, settled⟩

theorem delivered_append {sample : Sample} {snapshot : ReadSnapshot} (hi : q.Inv s)
    (client : (s.world.client (.consumer n)).delivered = c.delivered)
    (found : Found n c f snapshot sample) :
    (c.delivered ++ [snapshot.sampleSequence]).Pairwise (· < ·) ∧
      ∀ d ∈ c.delivered ++ [snapshot.sampleSequence],
        d ≤ f (consumerWord n .lastSequence) := by
  have before := (hi.clients.delivered n).1
  rw [client] at before
  rw [found.sequence, found.last]
  constructor
  · rw [List.pairwise_append]
    refine ⟨before, List.pairwise_singleton _ _, ?_⟩
    intro d hd e he
    rw [List.mem_singleton.1 he]
    exact found.newer d hd
  · intro d hd
    rcases List.mem_append.1 hd with hd | hd
    · exact Nat.le_of_lt (found.newer d hd)
    · exact Nat.le_of_eq (List.mem_singleton.1 hd)

section
variable {idle : Endpoint → ChannelState → Prop}
  (rest : ∀ s, ConsumerIdle n s → idle (.consumer n) s)
include rest

theorem Refused.returns {e : Error} (hi : q.Inv s) (refused : Refused n c s)
    (opened : c.handle = some handle) (quiet : c.ticketStores = 0) (busy : c.call = some a)
    (keeps : keepResult a (.error e) c = c) (other : a ≠ .release) :
    q.logic.Returns q.machine idle (.consumer n) a (.error e) s := by
  obtain ⟨held, f, hv, settled⟩ := refused
  exact hv.returns_error rest hi opened settled quiet busy keeps other

/-- A whole read, from its body to the return. -/
theorem wp_readCall {p : ChannelCode ReadSnapshot} (opened : c.handle = some handle)
    (quiet : c.ticketStores = 0) (busy : c.call = some a)
    (keeps : ∀ e, keepResult a (.error e) c = c) (other : a ≠ .release)
    (delivers : ∀ snapshot c, keepResult a (.ok (.read snapshot)) c =
      { c with delivered := c.delivered ++ [snapshot.sampleSequence] })
    (body : q.logic.wp (.consumer n) (ReadDone n c) p s) :
    q.logic.wp (.consumer n) (q.logic.Returns q.machine idle (.consumer n) a)
      (p >>= fun snapshot => .ret (.read snapshot)) s := by
  apply Logic.wp_map body
  · intro snapshot s₁ hi done
    obtain ⟨f, out, sample, hv, settled, found, bytes⟩ := done
    obtain ⟨mem, ticket, seen, named⟩ := hv.known sample rfl
    apply hv.returns handle rest hi
    · rw [delivers]
      exact opened
    · refine ⟨quiet, sample, ⟨mem, found.sequence, found.bootNs, found.size, ticket, seen, named⟩,
        bytes⟩
    · intro loan hl
      rw [delivers] at hl
      apply hi.clients.loans n loan (by rw [hv.client]; exact hl) hv.alive
      rw [hv.client]
      intro he
      exact other (Option.some.inj (busy.symm.trans he))
    · rw [delivers]
      exact delivered_append (c := c) hi (by rw [hv.client]; rfl) found
    · rw [delivers]
      exact ⟨settled.loan, settled.epoch, settled.inService⟩
  · intro e s₁ hi refused
    exact Refused.returns rest hi refused opened quiet busy (keeps e) other

/-- A whole loan, from its body to the return. -/
theorem wp_loanCall {p : ChannelCode ReadLoan} (opened : c.handle = some handle)
    (quiet : c.ticketStores = 0) (busy : c.call = some a)
    (keeps : ∀ e, keepResult a (.error e) c = c) (other : a ≠ .release)
    (delivers : ∀ loan c, keepResult a (.ok (.borrowed loan)) c =
      { c with
        readLoan := some loan
        delivered := c.delivered ++ [loan.snapshot.sampleSequence] })
    (body : q.logic.wp (.consumer n) (LoanDone n c) p s) :
    q.logic.wp (.consumer n) (q.logic.Returns q.machine idle (.consumer n) a)
      (p >>= fun loan => .ret (.borrowed loan)) s := by
  apply Logic.wp_map body
  · intro loan s₁ hi done
    obtain ⟨f, sample, hv, settled, state, hs, found⟩ := done
    obtain ⟨mem, ticket, seen, named⟩ := hv.known sample rfl
    apply hv.returns handle rest hi
    · rw [delivers]
      exact opened
    · exact ⟨quiet, sample, mem, found.sequence, found.bootNs, found.size, ticket, seen, named⟩
    · intro loan' hl
      rw [delivers] at hl
      cases hl
      have data : ∀ l, l.dataSlot? = some loan.slotIndex → s₁.mem l = f l :=
        fun l hd => hv.words l (.data rfl hd)
      refine ⟨hv.slot _ rfl, hv.reader, (hv.words _ (.state rfl)).trans state, ?_, ?_, ?_, ?_⟩
      · rw [data _ rfl, hs.sequence, found.sequence]
      · rw [data _ rfl, hs.bootNs, found.bootNs]
      · rw [data _ rfl, hs.size, found.size]
      · rw [found.sequence]
        exact (hi.slots.sequence_le mem).2.1
    · rw [delivers]
      exact delivered_append hi (by rw [hv.client]) found
    · rw [delivers]
      exact ⟨settled.loan, settled.epoch, settled.inService⟩
  · intro e s₁ hi refused
    exact Refused.returns rest hi refused opened quiet busy (keeps e) other

/-- The release of a loan; a closed consumer is gone afterwards. -/
theorem wp_releaseCall {loan : ReadLoan} (hv : Reader n c held 0 none f s)
    (settled : Settled n c held f) (opened : c.handle = some handle)
    (quiet : c.ticketStores = 0) (busy : c.call = some .release)
    (lent : c.readLoan = some loan) :
    q.logic.wp (.consumer n) (q.logic.Returns q.machine idle (.consumer n) .release)
      (consumerReleaseLoanImpl n handle (some loan) >>= fun _ => .ret .done) s := by
  have loan' := settled.loan
  rw [lent] at loan'
  rw [loan'.1] at hv
  rw [consumerReleaseLoanImpl, Prog.bind_assoc]
  apply hv.wp_slotReleaseRead (.inr busy)
  intro s₁ _ h₁
  apply Logic.wp_map h₁.wp_releaseConsumerLoanOperation
  · intro _ s₂ hi₂ post
    have delivered := hi₂.clients.delivered n
    rcases post.2 with ⟨f', h₂, same⟩ | ⟨pending, _, out⟩
    · cases hc : c.closed with
      | true =>
          apply h₂.outside.returns rest hi₂
          · simp [keepResult, hc]
          · rfl
          · rfl
          · exact quiet
      | false =>
          apply h₂.returns handle rest hi₂
          · simp [keepResult, hc, opened]
          · exact quiet
          · intro loan hl
            cases hl
          · rw [h₂.client, h₂.words (.handle (.consumer n) .lastSequence) .own] at delivered
            exact delivered
          · refine ⟨⟨rfl, ?_⟩, ?_, ?_⟩
            · rw [same _ (.inl rfl)]
              simp
            · intro handle' hh
              simp only [keepResult, hc] at hh
              rw [same _ (.inr (.inr rfl)), ← settled.epoch handle' hh]
              simp [consumerWord]
            · intro _
              rw [same _ (.inr (.inl rfl)), ← settled.inService hc]
              simp [consumerWord]
    · cases hc : c.closed with
      | true =>
          apply out.returns rest hi₂
          · simp [keepResult, hc]
          · rfl
          · rfl
          · exact quiet
      | false =>
          refine (pending ?_).elim
          rw [← settled.inService hc]
          simp [consumerWord]
  · intro e s₂ _ post
    cases post.1

/-- The destructor; a loan that is still in use keeps the registration for now. -/
theorem wp_destroyCall (hv : Reader n c held 0 none f s) (settled : Settled n c held f)
    (opened : c.handle = some handle) (quiet : c.ticketStores = 0)
    (busy : c.call = some .destroy) :
    q.logic.wp (.consumer n) (q.logic.Returns q.machine idle (.consumer n) .destroy)
      (consumerShutdownImpl n handle >>= fun _ => .ret .done) s := by
  have loan := settled.loan
  rw [consumerShutdownImpl, Prog.bind_assoc]
  apply hv.wp_store_own (by simp)
  intro s₁ _ h₁
  cases hl : c.readLoan with
  | none =>
      rw [hl] at loan
      apply Logic.wp_map (h₁.wp_serviceConsumerShutdown (.inl loan.1))
      · intro _ s₂ hi₂ post
        have out : Outside n c s₂ := by
          rcases post.2 with ⟨f', h₂, _⟩ | ⟨_, _, out⟩
          · exact h₂.outside
          · exact out
        apply out.returns rest hi₂
        · simp [keepResult, hl]
        · exact hl
        · rfl
        · exact quiet
      · intro e s₂ _ post
        cases post.1
  | some lent =>
      rw [hl] at loan
      have flag : (f.set (consumerWord n .shutdownPending) 1)
          (consumerWord n .operationInUse) ≠ 0 := by
        rw [Words.set_apply, if_neg (by simp [consumerWord])]
        exact loan.2
      apply Logic.wp_map (h₁.wp_serviceConsumerShutdown (.inr flag))
      · intro _ s₂ hi₂ post
        rcases post.2 with ⟨f', h₂, same⟩ | ⟨_, none, _⟩
        · have delivered := hi₂.clients.delivered n
          apply h₂.returns handle rest hi₂
          · simp [keepResult, hl, opened]
          · exact quiet
          · intro loan' hl'
            apply hi₂.clients.loans n loan' (by rw [h₂.client]; exact hl') h₂.alive
            rw [h₂.client, busy]
            simp
          · rw [h₂.client, h₂.words (.handle (.consumer n) .lastSequence) .own] at delivered
            exact delivered
          · refine ⟨?_, ?_, ?_⟩
            · simp only [keepResult, hl]
              exact ⟨loan.1, by rw [same _ (.inl rfl)]; exact flag⟩
            · intro handle' hh
              simp only [keepResult, hl] at hh
              rw [same _ (.inr (.inr rfl)), ← settled.epoch handle' hh]
              simp [consumerWord]
            · intro hc
              cases hc
        · cases loan.1.symm.trans none
      · intro e s₂ _ post
        cases post.1

end
end ChannelSystem
end EdgeRuntime

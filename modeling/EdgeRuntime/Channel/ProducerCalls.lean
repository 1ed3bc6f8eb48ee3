import EdgeRuntime.Channel.Publish

/-!
The producer's calls from start to return, with the shutdown that a call may run at its
end.
-/
namespace EdgeRuntime
open Concurrent

namespace ChannelSystem
variable {q : ChannelSystem} {s s' : ChannelState} {c : ChannelClient} {h : List Sample}
  {claimed : Option Nat} {f : ChannelMem} {α : Type} {Q : Except Error α → ChannelState → Prop}
  {a : ChannelCall} {x : Except Error ChannelResult} {handle : ProducerHandle}

namespace Writer

theorem setLock (hw : Writer c h none claimed f s) (lock : Option Endpoint) :
    Writer c h none claimed f (s.setWorld (setLock lock s.world)) :=
  ⟨hw.alive, hw.client, hw.committed, hw.staged, hw.words, hw.claimed⟩

/-- Passing through the control lock leaves no trace. -/
theorem wp_passLock (hw : Writer c h none claimed f s) :
    q.logic.wp .producer (fun _ s => Writer c h none claimed f s)
      (withControlLock (.ret ())) s := by
  apply Access.wp_withControlLock (D := q.memory) rfl
    (B := fun _ s => Writer c h none claimed f s ∧ s.world.lock = some .producer)
  · intro s₁ hr hi w taken
    have h₁ := stable s s₁ hw hr hi
    obtain ⟨rfl, inv, guar⟩ := step_lock hi h₁.alive taken
    refine ⟨_, rfl, inv, guar, ?_⟩
    intro s₂ hr₂ hi₂
    exact ⟨stable _ s₂ (h₁.setLock _) hr₂ hi₂, hr₂.lock rfl⟩
  · exact fun e s₁ hr hi => stable s s₁ hw hr hi
  · intro x s₁ hi post
    obtain ⟨inv, guar⟩ := step_unlock hi post.2
    refine ⟨_, rfl, inv, guar, ?_⟩
    exact fun s₂ hr hi₂ => stable _ s₂ (post.1.setLock none) hr hi₂

/-- What a shutdown leaves as it was. -/
def Serviced (c : ChannelClient) (h : List Sample) (claimed : Option Nat) (f : ChannelMem)
    (x : Except Error Unit) (s : ChannelState) : Prop :=
  x = .ok () ∧ ∃ f', Writer c h none claimed f' s ∧ f' producerInUse = f producerInUse

theorem wp_markProducerOffline (hw : Writer c h none claimed f s) :
    q.logic.wp .producer (Serviced c h claimed f) (markProducerOffline handle) s := by
  have kept : ∀ {s}, Writer c h none claimed f s →
      q.logic.wp .producer (Serviced c h claimed f) (pure ()) s := by
    intro s hw
    refine hw.wp_ret ?_
    exact fun s' _ h' => ⟨rfl, f, h', rfl⟩
  rw [markProducerOffline]
  apply hw.wp_looks (Prog.looks_attempt (reads_identitySnapshotRead true))
  intro seen s₁ _ h₁
  cases seen with
  | error e => exact kept h₁
  | ok id =>
      dsimp only
      split
      · exact kept h₁
      · apply h₁.wp_store rfl (by simp)
        intro s₂ _ h₂
        have stored : ∀ {s}, Writer c h none claimed
            (f.set .producerState EndpointState.offline.code) s →
            q.logic.wp .producer (Serviced c h claimed f) (pure ()) s := by
          intro s hw
          refine hw.wp_ret ?_
          exact fun s' _ h' => ⟨rfl, _, h', by simp [producerInUse]⟩
        split
        · exact stored h₂
        · apply Logic.wp_attempt_seq h₂.wp_passLock
          exact fun _ s₃ _ h₃ => stored h₃

theorem wp_serviceProducerShutdown (hw : Writer c h none claimed f s) :
    q.logic.wp .producer (Serviced c h claimed f) (serviceProducerShutdown handle) s := by
  have kept : ∀ {s}, Writer c h none claimed f s →
      q.logic.wp .producer (Serviced c h claimed f) (pure ()) s := by
    intro s hw
    refine hw.wp_ret ?_
    exact fun s' _ h' => ⟨rfl, f, h', rfl⟩
  rw [serviceProducerShutdown]
  apply hw.wp_load rfl
  intro s₁ _ h₁
  split
  · exact kept h₁
  · apply h₁.wp_cas rfl (by simp [producerInUse])
    · intro free s₂ _ h₂
      -- from here on the flag is taken, and the last store clears it again
      have clear : ∀ {s f'}, Writer c h none claimed f' s →
          q.logic.wp .producer (Serviced c h claimed f) (sharedStore producerInUse 0) s := by
        intro s f' hw
        apply hw.wp_store (k := .ret) rfl (by simp [producerInUse])
        intro s' _ h'
        refine h'.wp_ret ?_
        exact fun s'' _ h'' => ⟨rfl, _, h'', by simp [free]⟩
      have start : ∀ {s f'} (first : Bool), Writer c h none claimed f' s →
          q.logic.wp .producer (Serviced c h claimed f)
            (startProducerShutdown handle first >>= fun _ => sharedStore producerInUse 0) s := by
        intro s f' first hw
        cases first with
        | false => exact clear hw
        | true =>
            apply Logic.wp_seq hw.wp_markProducerOffline
            · intro _ s' _ post
              obtain ⟨_, f'', hw', _⟩ := post
              exact clear hw'
            · intro e s' _ post
              cases post.1
      apply h₂.wp_cas rfl (by simp)
      · exact fun _ s₃ _ h₃ => start true h₃
      · exact fun _ s₃ _ h₃ => start false h₃
    · intro _ s₂ _ h₂
      exact kept h₂

theorem wp_releaseProducerLoanOperation (hw : Writer c h none claimed f s) :
    q.logic.wp .producer (Serviced c h claimed (f.set producerInUse 0))
      (releaseProducerLoanOperation handle) s := by
  apply hw.wp_store rfl (by simp [producerInUse])
  exact fun s₁ _ h₁ => h₁.wp_serviceProducerShutdown

end Writer

/-- Either nothing is lent and the flag is clear, or the slot being written is lent. -/
def Lends (h : List Sample) (claimed : Option Nat) (f : ChannelMem) :
    Option WriteLoan → Prop
  | none => claimed = none ∧ f producerInUse = 0
  | some loan => claimed = some loan.slotIndex ∧ f producerInUse ≠ 0 ∧
      loan.slotIndex < slotCount ∧ loan.sequence = h.length + 1 ∧
      loan.sequence ≤ maxSampleSequence

/-- Between two calls. -/
def ProducerIdle (s : ChannelState) : Prop :=
  ∃ c h claimed f, Writer c h none claimed f s ∧ Lends h claimed f c.writeLoan ∧
    c.call = none

theorem producerIdle_stable : q.logic.Stable .producer ProducerIdle := by
  intro s s' idle hr hi
  obtain ⟨c, h, claimed, f, hw, rest⟩ := idle
  exact ⟨c, h, claimed, f, Writer.stable s s' hw hr hi, rest⟩

/-- The state in which a call of the producer runs. -/
theorem Writer.enter (hw : Writer c h none claimed f s) :
    Writer (enterClient .producer a s.world) h none claimed f
      (s.setWorld (q.machine.enter .producer a s.world)) :=
  ⟨hw.alive, enter_client_self (q := q) _, hw.committed, hw.staged, hw.words, hw.claimed⟩

/-- How the body of a call ends: what it leaves lent, and what it may report. -/
def CallEnds (kept : Option WriteLoan → Except Error α → Option WriteLoan)
    (good : α → ChannelClient → List Sample → Prop) (y : Except Error α)
    (s : ChannelState) : Prop :=
  ∃ c h claimed f, Writer c h none claimed f s ∧ Lends h claimed f (kept c.writeLoan y) ∧
    match y with
    | .ok v => good v c h
    | .error e => c.ticketStores = 0 ∧ FailsCheck e

/-- Publishing calls report the sample they committed. -/
def GoodPublish (info : PublishInfo) (c : ChannelClient) (h : List Sample) : Prop :=
  c.ticketStores = 1 ∧ ⟨info.sequence, info.publishBootNs, c.passed⟩ ∈ h

/-- Other calls never store the ticket. -/
def GoodQuiet (_ : α) (c : ChannelClient) (_ : List Sample) : Prop := c.ticketStores = 0

section
variable {kept : Option WriteLoan → Except Error α → Option WriteLoan}
  {good : α → ChannelClient → List Sample → Prop} {g : α → ChannelResult}
  {idle : Endpoint → ChannelState → Prop}

theorem CallEnds.returns {y : Except Error α} (rest : ∀ s, ProducerIdle s → idle .producer s)
    (keeps : ∀ c, (keepResult a (y.map g) c).writeLoan = kept c.writeLoan y)
    (ok : ∀ v c h seen, good v c h →
      ReturnOk h ⟨.producer, a, .ok (g v), c.passed, c.out, seen, c.ticketStores⟩)
    (hi : q.Inv s) (ends : CallEnds kept good y s) :
    q.logic.Returns q.machine idle .producer a (y.map g) s := by
  obtain ⟨c, h, claimed, f, hw, lends, report⟩ := ends
  have allowed : ∀ seen, ReturnOk h
      ⟨.producer, a, y.map g, c.passed, c.out, seen, c.ticketStores⟩ := by
    intro seen
    cases y with
    | ok v => exact ok v c h seen report
    | error e => exact ⟨report.1, fun _ => report.2⟩
  have step := step_leave (t := .producer) (a := a) (x := y.map g) hi
    (by rw [hw.client, hw.committed]; exact allowed _)
    (fun n loan he => by cases he) (fun n he => by cases he) (fun n h he => by cases he)
  refine ⟨_, rfl, step.1, step.2, rest _ ⟨leaveClient a (y.map g) c, h, claimed, f, ?_, ?_, rfl⟩⟩
  · refine ⟨hw.alive, ?_, hw.committed, hw.staged, hw.words, hw.claimed⟩
    rw [← hw.client]
    exact leave_client_self (q := q) _
  · change Lends h claimed f (keepResult a (y.map g) c).writeLoan
    rw [keeps c]
    exact lends

variable (kept good) in
/-- From the specification of a call's body to the whole call. -/
theorem wp_producerCall {p : ChannelCode α} (rest : ∀ s, ProducerIdle s → idle .producer s)
    (keeps : ∀ y c, (keepResult a (Except.map g y) c).writeLoan = kept c.writeLoan y)
    (ok : ∀ v c h seen, good v c h →
      ReturnOk h ⟨.producer, a, .ok (g v), c.passed, c.out, seen, c.ticketStores⟩)
    (body : q.logic.wp .producer (CallEnds kept good) p s) :
    q.logic.wp .producer (q.logic.Returns q.machine idle .producer a)
      (p >>= fun v => .ret (g v)) s := by
  apply Logic.wp_map body
  · exact fun v s hi ends => CallEnds.returns rest (keeps _) ok hi ends
  · exact fun e s hi ends => CallEnds.returns (g := g) rest (keeps _) ok hi ends

end

/-- The loan of the client stays what it was. -/
def keepLoan (loan : Option WriteLoan) (_ : Except Error α) : Option WriteLoan := loan

/-- A call under the use flag: refused while something is lent, else run with the flag
taken and given back. -/
theorem wp_withProducerUse {operation : String} {body : ChannelCode α}
    {good : α → ChannelClient → List Sample → Prop}
    (hw : Writer c h none claimed f s) (lends : Lends h claimed f c.writeLoan)
    (quiet : c.ticketStores = 0)
    (free : ∀ s, q.Inv s → Writer c h none none (f.set producerInUse 1) s →
      q.logic.wp .producer
        (fun y s => ∃ c' h' f', Writer c' h' none none f' s ∧ c'.writeLoan = c.writeLoan ∧
          match y with
          | .ok v => good v c' h'
          | .error e => c'.ticketStores = 0 ∧ FailsCheck e) body s) :
    q.logic.wp .producer (CallEnds keepLoan good) (withProducerUse operation body) s := by
  apply hw.wp_cas rfl (by simp [producerInUse])
  · intro clear s₁ hi₁ h₁
    cases hl : c.writeLoan with
    | some loan =>
        rw [hl] at lends
        exact (lends.2.1 clear).elim
    | none =>
        rw [hl] at lends
        rw [lends.1] at h₁
        apply Logic.wp_attempt_seq (free s₁ hi₁ h₁)
        intro y s₂ _ post
        obtain ⟨c', h', f', h₂, same, report⟩ := post
        apply h₂.wp_store rfl (by simp [producerInUse])
        intro s₃ _ h₃
        apply Logic.wp_lift
        intro s₄ hr hi
        refine ⟨c', h', none, _, Writer.stable s₃ s₄ h₃ hr hi, ?_, report⟩
        rw [keepLoan, same, hl]
        exact ⟨rfl, by simp⟩
  · intro _ s₁ _ h₁
    refine h₁.wp_throw ?_
    exact fun s₂ _ h₂ => ⟨c, h, claimed, f, h₂, lends, quiet, failsCheck_makeError _ _ (by decide)⟩

/-- A granted loan replaces what was lent. -/
def takeLoan (loan : Option WriteLoan) : Except Error WriteLoan → Option WriteLoan
  | .ok granted => some granted
  | .error _ => loan

/-- Nothing is lent afterwards. -/
def dropLoan (_ : Option WriteLoan) (_ : Except Error α) : Option WriteLoan := none

/-- The end of a loan, once its slot is no longer being written. -/
theorem wp_endLoan {x : Except Error α} (good : α → ChannelClient → List Sample → Prop)
    (hw : Writer c h none none f s)
    (report : match x with
      | .ok v => good v c h
      | .error e => c.ticketStores = 0 ∧ FailsCheck e) :
    q.logic.wp .producer (CallEnds dropLoan good)
      (releaseProducerLoanOperation q.producerHandle >>= fun _ => Prog.lift x) s := by
  apply Logic.wp_seq (Logic.wp_closed hw.wp_releaseProducerLoanOperation)
  · intro _ s₁ _ closed
    apply Logic.wp_lift
    intro s₂ hr hi
    obtain ⟨_, f', h₂, clear⟩ := closed s₂ hr hi
    exact ⟨c, h, none, f', h₂, ⟨rfl, by rw [clear]; simp⟩, report⟩
  · intro e s₁ hi closed
    cases (closed s₁ (rely_refl _ s₁) hi).1

section
variable (hw : Writer c h none claimed f s) (lends : Lends h claimed f c.writeLoan)
  (quiet : c.ticketStores = 0)
include hw lends quiet

theorem wp_producerPublishImpl {encoded : List Nat} (passed : c.passed = encoded) :
    q.logic.wp .producer (CallEnds keepLoan GoodPublish)
      (producerPublishImpl q.header q.producerHandle encoded) s := by
  apply wp_withProducerUse hw lends quiet
  intro s₁ _ h₁
  apply Logic.wp_mono _ (h₁.wp_publishUnlocked passed)
  intro y s₂ _ ends
  cases y with
  | ok info =>
      obtain ⟨c', h', f', h₂, _, hp, hl, stores, made⟩ := ends
      rw [quiet] at stores
      rw [← hp] at made
      exact ⟨c', h', f', h₂, hl, stores, made⟩
  | error e => exact ⟨c, h, _, ends.2, rfl, quiet, ends.1⟩

theorem wp_producerHeartbeatImpl :
    q.logic.wp .producer (CallEnds keepLoan GoodQuiet)
      (producerHeartbeatImpl q.header q.producerHandle) s := by
  apply wp_withProducerUse hw lends quiet
  intro s₁ _ h₁
  rw [heartbeatUnlocked]
  split
  · refine h₁.wp_ret ?_
    exact fun s₂ _ h₂ => ⟨c, h, _, h₂, rfl, quiet⟩
  · apply h₁.wp_reads reads_verifyHandleOwnership ends_verifyHandleOwnership
    · intro _ s₂ _ h₂
      apply h₂.wp_looks looks_boottimeNowNs
      intro now s₃ _ h₃
      split
      · refine h₃.wp_throw ?_
        exact fun s₄ _ h₄ => ⟨c, h, _, h₄, rfl, quiet, failsCheck_makeError _ _ (by decide)⟩
      · apply h₃.wp_store (k := .ret) rfl (by simp)
        intro s₄ _ h₄
        refine h₄.wp_ret ?_
        exact fun s₅ _ h₅ => ⟨c, h, _, h₅, rfl, quiet⟩
    · exact fun e s₂ _ he h₂ => ⟨c, h, _, h₂, rfl, quiet, he⟩

theorem wp_producerLoanImpl :
    q.logic.wp .producer (CallEnds takeLoan GoodQuiet)
      (producerLoanImpl q.header q.producerHandle) s := by
  apply hw.wp_cas rfl (by simp [producerInUse])
  · intro clear s₁ _ h₁
    cases hl : c.writeLoan with
    | some loan =>
        rw [hl] at lends
        exact (lends.2.1 clear).elim
    | none =>
        rw [hl] at lends
        rw [lends.1] at h₁
        apply Logic.wp_attempt_seq (Logic.wp_closed h₁.wp_loanUnlocked)
        intro y s₂ hi₂ closed
        cases y with
        | ok loan =>
            intro s₃ hr hi
            obtain ⟨hlt, fresh, room, h₃⟩ := closed s₃ hr hi
            refine ⟨c, h, some loan.slotIndex, _, h₃, ?_, quiet⟩
            exact ⟨rfl, by simp, hlt, fresh, room⟩
        | error e =>
            obtain ⟨he, h₂⟩ := closed s₂ (rely_refl _ s₂) hi₂
            apply h₂.wp_store rfl (by simp [producerInUse])
            intro s₃ _ h₃
            refine h₃.wp_throw ?_
            refine fun s₄ _ h₄ => ⟨c, h, none, _, h₄, ?_, quiet, he⟩
            rw [takeLoan, hl]
            exact ⟨rfl, by simp⟩
  · intro _ s₁ _ h₁
    refine h₁.wp_throw ?_
    exact fun s₂ _ h₂ => ⟨c, h, claimed, f, h₂, lends, quiet, failsCheck_makeError _ _ (by decide)⟩

theorem wp_producerCommitLoanImpl
    (passed : ∀ loan, c.writeLoan = some loan →
      c.passed = loanBytes f loan.slotIndex loan.size) :
    q.logic.wp .producer (CallEnds dropLoan GoodPublish)
      (producerCommitLoanImpl q.header q.producerHandle c.writeLoan) s := by
  cases hl : c.writeLoan with
  | none =>
      rw [hl] at lends
      refine hw.wp_throw ?_
      exact fun s₁ _ h₁ => ⟨c, h, claimed, f, h₁, lends, quiet, .inr rfl⟩
  | some loan =>
      rw [hl] at lends
      obtain ⟨rfl, _, hlt, fresh, room⟩ := lends
      have commit := hw.wp_commitUnlocked (q := q) q.header q.producerHandle hlt fresh room
        (passed loan hl)
      apply Logic.wp_attempt_seq commit
      intro y s₁ hi₁ ends
      cases y with
      | ok info =>
          obtain ⟨c', h', f', h₁, _, hp, _, stores, made⟩ := ends
          rw [quiet] at stores
          rw [← hp] at made
          exact wp_endLoan (x := .ok info) GoodPublish h₁ ⟨stores, made⟩
      | error e =>
          apply ends.2.wp_abort
          intro s₂ _ h₂
          exact wp_endLoan (x := .error e) GoodPublish h₂ ⟨quiet, ends.1⟩

theorem wp_producerAbortLoanImpl :
    q.logic.wp .producer (CallEnds dropLoan GoodQuiet)
      (producerAbortLoanImpl q.producerHandle c.writeLoan) s := by
  cases hl : c.writeLoan with
  | none =>
      rw [hl] at lends
      refine hw.wp_ret ?_
      exact fun s₁ _ h₁ => ⟨c, h, claimed, f, h₁, lends, quiet⟩
  | some loan =>
      rw [hl] at lends
      obtain ⟨rfl, _⟩ := lends
      apply hw.wp_abort
      intro s₁ _ h₁
      apply Logic.wp_mono _ h₁.wp_releaseProducerLoanOperation
      intro x s₂ _ post
      obtain ⟨rfl, f', h₂, clear⟩ := post
      exact ⟨c, h, none, f', h₂, ⟨rfl, by rw [clear]; simp⟩, quiet⟩

theorem wp_producerShutdownImpl :
    q.logic.wp .producer (CallEnds keepLoan GoodQuiet)
      (producerShutdownImpl q.producerHandle) s := by
  apply hw.wp_store rfl (by simp)
  intro s₁ _ h₁
  apply Logic.wp_mono _ h₁.wp_serviceProducerShutdown
  intro x s₂ _ post
  obtain ⟨rfl, f', h₂, same⟩ := post
  refine ⟨c, h, claimed, f', h₂, ?_, quiet⟩
  have flag : f' producerInUse = f producerInUse := by
    rw [same]
    simp [producerInUse]
  simp only [keepLoan]
  cases hl : c.writeLoan with
  | none =>
      rw [hl] at lends
      exact ⟨lends.1, flag.trans lends.2⟩
  | some loan =>
      rw [hl] at lends
      exact ⟨lends.1, by rw [flag]; exact lends.2.1, lends.2.2⟩

/-- The user fills the slot it was lent. -/
theorem wp_loanWrite {loan : WriteLoan} {offset byte : Nat} (hl : c.writeLoan = some loan) :
    q.logic.wp .producer (CallEnds keepLoan GoodQuiet)
      (sharedStore (.slotPayload loan.slotIndex offset) byte) s := by
  rw [hl] at lends
  obtain ⟨rfl, flag, rest⟩ := lends
  apply hw.wp_store_data (k := .ret) rfl
  intro s₁ _ h₁
  refine h₁.wp_ret ?_
  refine fun s₂ _ h₂ => ⟨c, h, _, _, h₂, ?_, quiet⟩
  rw [keepLoan, hl]
  refine ⟨rfl, ?_, rest⟩
  simpa [producerInUse] using flag

end

/-- Every call of the producer keeps the invariant and ends idle. -/
theorem producer_call_sound {idle : Endpoint → ChannelState → Prop}
    (rest : ∀ s, ProducerIdle s → idle .producer s) (hi : q.Inv s) (ready : ProducerIdle s)
    (allowed : allowed .producer a s.world = true) :
    ∃ s', s'.world = q.machine.enter .producer a s.world ∧ q.Inv s' ∧
      q.logic.guar .producer s s' ∧
      q.logic.wp .producer (q.logic.Returns q.machine idle .producer a)
        (q.code .producer a s.world) s' := by
  obtain ⟨c, h, claimed, f, hw, lends, call⟩ := ready
  have client := hw.client
  obtain ⟨inv, guar⟩ := step_enter (a := a) hi (by rw [client]; exact call)
  refine ⟨_, rfl, inv, guar, ?_⟩
  have entered := hw.enter (q := q) (a := a)
  have loan : (enterClient .producer a s.world).writeLoan = c.writeLoan := by
    rw [← client]
    rfl
  have lends' : Lends h claimed f (enterClient .producer a s.world).writeLoan := by
    rw [loan]
    exact lends
  cases a with
  | publish encoded =>
      apply wp_producerCall (g := .published) keepLoan GoodPublish rest
      · exact fun y c => by cases y <;> rfl
      · exact fun v c h seen good => good
      · exact wp_producerPublishImpl entered lends' rfl rfl
  | loan =>
      apply wp_producerCall (g := .lent) takeLoan GoodQuiet rest
      · exact fun y c => by cases y <;> rfl
      · exact fun v c h seen good => good
      · exact wp_producerLoanImpl entered lends' rfl
  | loanWrite offset byte =>
      cases hl : c.writeLoan with
      | none => simp [ChannelSystem.allowed, client, hl] at allowed
      | some granted =>
          have granted' := loan.trans hl
          simp only [code, client, hl]
          apply wp_producerCall (g := fun _ => .done) keepLoan GoodQuiet rest
          · exact fun y c => by cases y <;> rfl
          · exact fun v c h seen good => good
          · exact wp_loanWrite entered lends' rfl granted'
  | commit =>
      simp only [code, client, ← loan]
      apply wp_producerCall (g := .published) dropLoan GoodPublish rest
      · exact fun y c => by cases y <;> rfl
      · exact fun v c h seen good => good
      · apply wp_producerCommitLoanImpl entered lends' rfl
        intro granted hl
        have before : (s.world.client .producer).writeLoan = some granted := hl
        simp only [enterClient, passedBy, before, loanBytes]
        exact List.map_congr_left fun j _ => hw.words _ rfl
  | abort =>
      simp only [code, client, ← loan]
      apply wp_producerCall (g := fun _ => .done) dropLoan GoodQuiet rest
      · exact fun y c => by cases y <;> rfl
      · exact fun v c h seen good => good
      · exact wp_producerAbortLoanImpl entered lends' rfl
  | heartbeat =>
      apply wp_producerCall (g := fun _ => .done) keepLoan GoodQuiet rest
      · exact fun y c => by cases y <;> rfl
      · exact fun v c h seen good => good
      · exact wp_producerHeartbeatImpl entered lends' rfl
  | shutdown =>
      apply wp_producerCall (g := fun _ => .done) keepLoan GoodQuiet rest
      · exact fun y c => by cases y <;> rfl
      · exact fun v c h seen good => good
      · exact wp_producerShutdownImpl entered lends' rfl
  | openConsumer | tryRead | waitRead | tryLoan | waitLoan | release | destroy | reconnect =>
      cases allowed

end ChannelSystem
end EdgeRuntime

import EdgeRuntime.Common.Tally
import EdgeRuntime.Supervisor.Loop

/-!
How often a supervisor restarts its child. Every attempt that does not end the run is
entered as failed before the next one begins, and the count of failures is determined by
the list of failed attempts alone; over that list it is a counter that a late failure
resets. An attempt without a child is measured from the last child that was spawned,
however long ago that was.
-/
namespace EdgeRuntime

/-- The attempts of a run and what became of them. -/
structure Ledger where
  options : SupervisorOptions
  attempts : Nat
  failures : List FailedAttempt
  count : Nat
  outcome : SupervisionOutcome
  ownSpawn : Option Nat
  lastSpawn : Nat
  spawnTimes : List Nat
  baseline : Nat
  accepted : List Nat

/-- The failures that `count_failure` starts again from. -/
def restartsCount (o : SupervisorOptions) (a : FailedAttempt) : Bool :=
  a.stale (msToNs o.stableResetWindowMs)

/-- An attempt is measured from the last spawn, which is that of its own child if it has
one; it is measured from 0 when there never was a child. -/
structure FailedAttempt.Measured (a : FailedAttempt) : Prop where
  last : a.lastSpawn = a.spawnTimes.getLastD 0
  own : ∀ spawnedAt, a.ownSpawn = some spawnedAt → a.lastSpawn = spawnedAt

namespace Ledger
variable {l : Ledger}

/-- The tally of the failures so far. -/
def account (l : Ledger) : Nat × Bool :=
  tally l.options.maxRestarts (restartsCount l.options) (0, false) l.failures

/-- The last attempt is under way. -/
def UnderWay (l : Ledger) : Prop := l.attempts = l.failures.length + 1

/-- The last attempt has failed. -/
def Settled (l : Ledger) : Prop := l.attempts = l.failures.length

/-- The attempt as it is entered when it fails. -/
def attempt (now : Nat) (l : Ledger) : FailedAttempt :=
  ⟨l.ownSpawn, l.lastSpawn, now, l.spawnTimes⟩

/-- What holds of the entries, whether or not the restarts are used up. The generations that
were accepted are of the given kind. -/
structure Entries (o : SupervisorOptions) (kind : Nat → Prop) (l : Ledger) : Prop where
  options : l.options = o
  stage : l.Settled ∨ l.UnderWay
  last : l.lastSpawn = l.spawnTimes.getLastD 0
  own : ∀ spawnedAt, l.ownSpawn = some spawnedAt → l.lastSpawn = spawnedAt
  measured : ∀ a ∈ l.failures, a.Measured
  baseline : l.baseline = l.accepted.getLastD 0
  accepted : ∀ g ∈ l.accepted, kind g

/-- The books of a run whose restarts are not used up. -/
structure Books (o : SupervisorOptions) (kind : Nat → Prop) (l : Ledger) : Prop extends
    Entries o kind l where
  account : l.account = (l.count, false)
  outcome : l.outcome ≠ .restartsExhausted

/-- One more failure is one more step of the tally. -/
theorem Books.account_append {o : SupervisorOptions} {kind : Nat → Prop} (h : Books o kind l)
    (a : FailedAttempt) :
    tally l.options.maxRestarts (restartsCount l.options) (0, false) (l.failures ++ [a]) =
      tallyStep l.options.maxRestarts (restartsCount l.options) (l.count, false) a := by
  rw [tally_concat]
  exact congrArg (tallyStep _ _ · _) h.account

/-- A run may end in another way, too. -/
theorem Books.report {o : SupervisorOptions} {kind : Nat → Prop} {outcome : SupervisionOutcome}
    (h : Books o kind l) (other : outcome ≠ .restartsExhausted) :
    Books o kind { l with outcome } :=
  ⟨⟨h.options, h.stage, h.last, h.own, h.measured, h.baseline, h.accepted⟩, h.account, other⟩

/-- The attempt that is under way fails. -/
theorem Entries.enter {o : SupervisorOptions} {kind : Nat → Prop} (h : Entries o kind l)
    (way : l.UnderWay) (now count : Nat) (outcome : SupervisionOutcome) :
    Entries o kind { l with failures := l.failures ++ [l.attempt now], count, outcome } := by
  refine ⟨h.options, .inl ?_, h.last, h.own, ?_, h.baseline, h.accepted⟩
  · rw [Settled, List.length_append]
    exact way
  · intro a ha
    rcases List.mem_append.1 ha with ha | ha
    · exact h.measured a ha
    · rw [List.mem_singleton.1 ha]
      exact ⟨h.last, h.own⟩

end Ledger

namespace SupervisorState
open Ledger
variable {o : SupervisorOptions} {kind : Nat → Prop} {s s' : SupervisorState} {t : Tick}

def ledger (s : SupervisorState) : Ledger where
  options := s.options
  attempts := s.attempts
  failures := s.failures
  count := s.consecutiveFailures
  outcome := s.outcome
  ownSpawn := s.ownSpawn
  lastSpawn := s.lastSpawnMonoNs
  spawnTimes := s.spawnTimes
  baseline := s.baselineGeneration
  accepted := s.accepted

/-- The child, if there was one, has been reaped. -/
def Gone (s : SupervisorState) : Prop := s.childPid ≤ 0 ∨ s.childReaped = true

/-- A new child is spawned by this iteration or by one of the next. -/
def Due (s : SupervisorState) : Prop := s.phase = .backoff ∨ s.phase = .spawn

/-- The failure of the attempt that is under way will be counted. -/
def Counts (s : SupervisorState) : Prop :=
  s.phase = .awaitReady ∨ s.phase = .monitor ∨ s.phase = .kill ∧ s.killThenRestart = true

/-- The run has ended because the restarts are used up. -/
structure Spent (o : SupervisorOptions) (kind : Nat → Prop) (s : SupervisorState) : Prop where
  entries : Entries o kind s.ledger
  account : s.ledger.account.2 = true
  outcome : s.outcome = .restartsExhausted
  phase : s.phase = .done
  noError : s.loopError = none
  gone : Gone s

/-- The run goes on. No child lives and no attempt is open while the next one is due. -/
structure Going (o : SupervisorOptions) (kind : Nat → Prop) (s : SupervisorState) : Prop where
  books : Books o kind s.ledger
  due : Due s → Gone s ∧ s.ledger.Settled
  counts : Counts s → s.ledger.UnderWay
  noError : s.phase ≠ .done → s.loopError = none

def Booked (o : SupervisorOptions) (kind : Nat → Prop) (s : SupervisorState) : Prop :=
  Spent o kind s ∨ Going o kind s

theorem going_failLoop {e : Error} (h : Books o kind s.ledger) : Going o kind (failLoop e s) := by
  refine ⟨h, ?_, ?_, fun running => (running rfl).elim⟩
  · rintro (phase | phase) <;> cases phase
  · rintro (phase | phase | ⟨phase, _⟩) <;> cases phase

theorem going_enterBackoff (h : Books o kind s.ledger) (settled : s.ledger.Settled)
    (gone : Gone s) (noError : s.loopError = none) : Going o kind (enterBackoff t s) := by
  unfold enterBackoff
  dsimp only
  split
  · exact going_failLoop h
  · refine ⟨h, fun _ => ⟨gone, settled⟩, ?_, fun _ => noError⟩
    rintro (phase | phase | ⟨phase, _⟩) <;> cases phase

/-- `count_failure` takes a step of the tally and enters the attempt. -/
theorem countFailure_eq (t : Tick) (s : SupervisorState) : ∃ events, countFailure t s =
    ((tallyStep s.options.maxRestarts (restartsCount s.options) (s.consecutiveFailures, false)
      (s.ledger.attempt t.countNow)).2,
    { s with
      consecutiveFailures := (tallyStep s.options.maxRestarts (restartsCount s.options)
        (s.consecutiveFailures, false) (s.ledger.attempt t.countNow)).1
      failures := s.failures ++ [s.ledger.attempt t.countNow]
      events }) := by
  unfold tallyStep
  by_cases used : carried (restartsCount s.options) s.consecutiveFailures
      (s.ledger.attempt t.countNow) ≥ s.options.maxRestarts
  · refine ⟨s.events, ?_⟩
    rw [if_pos used]
    exact if_pos used
  · rw [if_neg used]
    obtain ⟨events, same⟩ := emit_eq
      ⟨.restartArmed, 0, 0, carried (restartsCount s.options) s.consecutiveFailures
        (s.ledger.attempt t.countNow) + 1, backoffDelayNs s.options (carried
        (restartsCount s.options) s.consecutiveFailures (s.ledger.attempt t.countNow) + 1), 0⟩
      { s with
        consecutiveFailures := carried (restartsCount s.options) s.consecutiveFailures
          (s.ledger.attempt t.countNow) + 1
        failures := s.failures ++ [s.ledger.attempt t.countNow] }
    exact ⟨events, (if_neg used).trans (congrArg (Prod.mk false) same)⟩

/-- A failed attempt ends the run or is followed by a back-off. -/
theorem booked_failAttempt (h : Books o kind s.ledger) (way : s.ledger.UnderWay) (gone : Gone s)
    (noError : s.loopError = none) : Booked o kind (failAttempt t s) := by
  obtain ⟨events, counted⟩ := countFailure_eq t s
  have account := h.account_append (s.ledger.attempt t.countNow)
  have settled : s.attempts = (s.failures ++ [s.ledger.attempt t.countNow]).length := by
    rw [List.length_append]
    exact way
  unfold failAttempt
  cases used : (tallyStep s.options.maxRestarts (restartsCount s.options)
      (s.consecutiveFailures, false) (s.ledger.attempt t.countNow)).2 with
  | true =>
      rw [used] at counted
      rw [counted]
      left
      exact ⟨h.enter way _ _ _, (congrArg Prod.snd account).trans used, rfl, rfl, noError, gone⟩
  | false =>
      rw [used] at counted
      rw [counted]
      right
      exact going_enterBackoff
        ⟨h.enter way _ _ _, account.trans (Prod.ext rfl used), h.outcome⟩ settled gone noError

theorem Going.backoffPhase (h : Going o kind s) (phase : s.phase = .backoff) :
    Going o kind (backoffPhase t s) := by
  unfold SupervisorState.backoffPhase
  split
  · refine ⟨h.books, fun _ => h.due (.inl phase), ?_, fun _ => h.noError (by rw [phase]; decide)⟩
    rintro (phase | phase | ⟨phase, _⟩) <;> cases phase
  · exact h

/-- The phases in which an attempt is under way. -/
theorem going_underWay (h : Books o kind s.ledger) (way : s.ledger.UnderWay)
    (noError : s.loopError = none) (phase : s.phase ≠ .backoff ∧ s.phase ≠ .spawn) :
    Going o kind s :=
  ⟨h, fun due => (due.elim phase.1 phase.2).elim, fun _ => way, fun _ => noError⟩

theorem booked_watchChild (h : Books o kind s.ledger) (way : s.ledger.UnderWay)
    (noError : s.loopError = none) : Booked o kind (watchChild t s) := by
  unfold watchChild
  split
  · split
    · exact .inr (going_failLoop h)
    · split
      · exact .inr (going_failLoop h)
      · exact booked_failAttempt h way (.inr rfl) noError
  · dsimp only
    split
    · exact .inr (going_failLoop h)
    · split
      · exact .inr (going_failLoop h)
      · split
        · exact .inr (going_failLoop h)
        · exact .inr (going_underWay h way noError ⟨nofun, nofun⟩)

theorem Going.spawnPhase (h : Going o kind s) (phase : s.phase = .spawn) :
    Booked o kind (spawnPhase t s) := by
  obtain ⟨gone, settled⟩ := h.due (.inr phase)
  have noError := h.noError (by rw [phase]; decide)
  have way : s.attempts + 1 = s.failures.length + 1 := congrArg Nat.succ settled
  obtain ⟨entries, account, outcome⟩ := h.books
  unfold SupervisorState.spawnPhase
  dsimp only
  split
  · refine booked_failAttempt ⟨?_, account, outcome⟩ way gone noError
    exact ⟨entries.options, .inr way, entries.last, nofun, entries.measured, entries.baseline,
      entries.accepted⟩
  · rename_i child spawned
    -- from here on the child is that of the attempt
    have books : Books o kind { s.ledger with
        attempts := s.attempts + 1
        ownSpawn := some t.spawnNow
        lastSpawn := t.spawnNow
        spawnTimes := s.spawnTimes ++ [t.spawnNow] } :=
      ⟨⟨entries.options, .inr way, List.getLastD_concat.symm, fun _ own => Option.some.inj own,
        entries.measured, entries.baseline, entries.accepted⟩, account, outcome⟩
    split
    · exact .inr (going_failLoop books)
    · exact booked_watchChild books way noError

theorem booked_stillWaiting (h : Books o kind s.ledger) (way : s.ledger.UnderWay)
    (noError : s.loopError = none) (phase : s.phase = .awaitReady) :
    Booked o kind (stillWaiting t s) := by
  unfold stillWaiting
  split
  · rename_i reaped
    exact booked_failAttempt h way (.inr reaped) noError
  · split
    · exact .inr (going_underWay h way noError ⟨nofun, nofun⟩)
    · refine .inr (going_underWay h way noError ?_)
      rw [phase]
      exact ⟨nofun, nofun⟩

/-- What the iteration finds under the identity of the child has a generation of that kind. -/
def Shows (kind : Nat → Prop) (t : Tick) (s : SupervisorState) : Prop :=
  ∀ header, t.view = some header → s.isOurs header = true → kind header.generation

theorem booked_awaitReadyPhase (h : Books o kind s.ledger) (way : s.ledger.UnderWay)
    (noError : s.loopError = none) (phase : s.phase = .awaitReady) (shown : Shows kind t s) :
    Booked o kind (awaitReadyPhase t s) := by
  unfold awaitReadyPhase
  split
  · rename_i header look
    split
    · rename_i taken
      have ours : s.isOurs header = true := (Bool.and_eq_true _ _ ▸ taken).1
      have accepted : Books o kind { s.ledger with
          baseline := header.generation
          accepted := s.accepted ++ [header.generation] } := by
        refine ⟨⟨h.options, h.stage, h.last, h.own, h.measured, List.getLastD_concat.symm, ?_⟩,
          h.account, h.outcome⟩
        intro g mem
        rcases List.mem_append.1 mem with mem | mem
        · exact h.accepted g mem
        · rw [List.mem_singleton.1 mem]
          exact shown header look ours
      unfold accept
      dsimp only
      obtain ⟨events, same⟩ := emit_eq ⟨.supervised, s.childPid, header.generation, 0, 0, 0⟩
        { s with
          baselineGeneration := header.generation
          haveView := true
          accepted := s.accepted ++ [header.generation] }
      rw [same]
      exact .inr (going_underWay accepted way noError ⟨nofun, nofun⟩)
    · exact booked_stillWaiting h way noError phase
  · exact booked_stillWaiting h way noError phase

theorem booked_monitorPhase (h : Books o kind s.ledger) (way : s.ledger.UnderWay)
    (noError : s.loopError = none) (phase : s.phase = .monitor) :
    Booked o kind (monitorPhase t s) := by
  unfold monitorPhase
  split
  · rename_i reaped
    split
    · exact .inr (going_underWay (h.report nofun) way noError ⟨nofun, nofun⟩)
    · exact booked_failAttempt h way (.inr reaped) noError
  · split
    · dsimp only
      obtain ⟨events, same⟩ := emit_eq ⟨.stallDetected, s.childPid, 0, 0, 0, 0⟩
        { s with reapDecision := .restart, killThenRestart := true }
      rw [same]
      exact .inr (going_underWay h way noError ⟨nofun, nofun⟩)
    · refine .inr (going_underWay h way noError ?_)
      rw [phase]
      exact ⟨nofun, nofun⟩

/-- A look at the child leaves everything as it is, or has waited for the child. -/
theorem reapChild_cases {answer : Except Error (Option Int)} {gone : Bool} {status : Int}
    (h : reapChild answer s = .ok (gone, status, s')) :
    (s' = s ∧ (gone = true → Gone s)) ∨
      answer = .ok (some status) ∧ s' = { s with
        childReaped := true
        lastExitStatus := status
        pidfdOpen := false
        children := s.children.erase s.childPid } := by
  unfold reapChild at h
  split at h
  · rename_i none
    cases h
    exact .inl ⟨rfl, fun _ => .inl none⟩
  · split at h
    · rename_i reaped
      cases h
      exact .inl ⟨rfl, fun _ => .inr reaped⟩
    · split at h
      · cases h
      · cases h
        exact .inr ⟨rfl, rfl⟩
      · cases h
        exact .inl ⟨rfl, nofun⟩

/-- The kill phase goes on: nothing is wrong yet. -/
structure Killing (o : SupervisorOptions) (kind : Nat → Prop) (s : SupervisorState) : Prop where
  books : Books o kind s.ledger
  running : s.phase ≠ .done → s.phase = .kill ∧ s.loopError = none
  counts : s.killThenRestart = true → s.ledger.UnderWay

theorem Killing.failLoop {e : Error} (h : Killing o kind s) :
    Killing o kind (SupervisorState.failLoop e s) :=
  ⟨h.books, fun running => (running rfl).elim, h.counts⟩

theorem Killing.armChildKill (h : Killing o kind s) : Killing o kind (armChildKill t s) := by
  unfold SupervisorState.armChildKill
  dsimp only
  split
  · exact h
  · split
    · exact h.failLoop
    · split
      · exact ⟨h.books, fun running => (running rfl).elim, h.counts⟩
      · exact ⟨h.books, h.running, h.counts⟩

theorem Killing.escalateKill (h : Killing o kind s) : Killing o kind (escalateKill t s) := by
  unfold SupervisorState.escalateKill
  split
  · split
    · exact h.failLoop
    · obtain ⟨events, same⟩ := emit_eq ⟨.killed, s.childPid, 0, 0, 0, 9⟩ s
      rw [same]
      exact ⟨h.books, h.running, h.counts⟩
  · exact h

theorem Killing.killChild (h : Killing o kind s) : Killing o kind (killChild t s) := by
  unfold SupervisorState.killChild
  dsimp only
  split
  · split
    · exact h.armChildKill
    · exact h.armChildKill.escalateKill
  · exact h

/-- The child is gone at the end of the kill phase. -/
theorem Killing.killed (h : Killing o kind s) (gone : Gone s) (noError : s.loopError = none) :
    Booked o kind (killed t s) := by
  unfold SupervisorState.killed
  split
  · rename_i restart
    exact booked_failAttempt h.books (h.counts restart) gone noError
  · refine .inr ⟨h.books.report nofun, ?_, ?_, fun _ => noError⟩
    · rintro (phase | phase) <;> cases phase
    · rintro (phase | phase | ⟨phase, _⟩) <;> cases phase

theorem Killing.phase_eq (h : Killing o kind s) {phase : SupervisorPhase} (now : s.phase = phase)
    (running : phase ≠ .done) : phase = .kill := by
  rw [← now] at running ⊢
  exact (h.running running).1

theorem Killing.going (h : Killing o kind s) : Going o kind s := by
  refine ⟨h.books, ?_, ?_, fun running => (h.running running).2⟩
  · rintro (phase | phase) <;> cases h.phase_eq phase nofun
  · rintro (phase | phase | ⟨_, restart⟩)
    · cases h.phase_eq phase nofun
    · cases h.phase_eq phase nofun
    · exact h.counts restart

theorem Killing.killPhase (h : Killing o kind s) : Booked o kind (killPhase t s) := by
  have after := h.killChild (t := t)
  unfold SupervisorState.killPhase
  dsimp only
  split
  · exact .inr after.going
  · rename_i running
    have noError := (after.running running).2
    split
    · exact .inr (going_failLoop after.books)
    · rename_i reaped
      rcases reapChild_cases reaped with ⟨rfl, gone⟩ | ⟨_, rfl⟩
      · exact after.killed (gone rfl) noError
      · exact Killing.killed ⟨after.books, after.running, after.counts⟩ (.inr rfl) noError
    · rename_i waiting
      rcases reapChild_cases waiting with ⟨rfl, _⟩ | ⟨_, rfl⟩
      · exact .inr after.going
      · exact .inr (Killing.going ⟨after.books, after.running, after.counts⟩)

/-- What a phase does, whichever it is. -/
theorem Going.phaseStep (h : Going o kind s) (running : s.phase ≠ .done)
    (shown : Shows kind t s) : Booked o kind (phaseStep t s) := by
  have noError := h.noError running
  unfold SupervisorState.phaseStep
  split
  · rename_i phase
    exact .inr (h.backoffPhase phase)
  · rename_i phase
    exact h.spawnPhase phase
  · rename_i phase
    exact booked_awaitReadyPhase h.books (h.counts (.inl phase)) noError phase shown
  · rename_i phase
    exact booked_monitorPhase h.books (h.counts (.inr (.inl phase))) noError phase
  · rename_i phase
    exact Killing.killPhase ⟨h.books, fun _ => ⟨phase, noError⟩,
      fun restart => h.counts (.inr (.inr ⟨phase, restart⟩))⟩
  · rename_i phase
    exact (running phase).elim

theorem Going.stopping (h : Going o kind s) (running : s.phase ≠ .done) :
    Going o kind { s with killThenRestart := false, phase := .kill } :=
  Killing.going ⟨h.books, fun _ => ⟨rfl, h.noError running⟩, nofun⟩

theorem Going.checkStop (h : Going o kind s) (running : s.phase ≠ .done) :
    Going o kind (checkStop t s) ∧ (checkStop t s).phase ≠ .done := by
  unfold SupervisorState.checkStop
  split
  · exact ⟨h.stopping running, nofun⟩
  · exact ⟨h, running⟩

theorem Shows.checkStop (h : Shows kind t s) : Shows kind t (checkStop t s) := by
  unfold SupervisorState.checkStop
  split <;> exact h

theorem Going.handleEvents (h : Going o kind s) (running : s.phase ≠ .done)
    (events : List ReadyFd) : Going o kind (handleEvents t events s) := by
  induction events generalizing s with
  | nil => exact h
  | cons fd rest ih =>
      cases fd with
      | stop | signal => exact ih (h.stopping running) nofun
      | stdout =>
          rw [SupervisorState.handleEvents]
          split
          · obtain ⟨tail, more, same⟩ := drainChildStdout_eq t.reads s
            rw [same]
            exact ih ⟨h.books, h.due, h.counts, h.noError⟩ running
          · exact ih h running
      | pidfd =>
          rw [SupervisorState.handleEvents]
          split
          · split
            · exact going_failLoop h.books
            · rename_i status after reaped
              have waited : Going o kind after ∧ after.phase ≠ .done := by
                rcases reapChild_cases reaped with ⟨rfl, _⟩ | ⟨_, rfl⟩
                · exact ⟨h, running⟩
                · exact ⟨⟨h.books, fun due => ⟨.inr rfl, (h.due due).2⟩, h.counts, h.noError⟩,
                    running⟩
              obtain ⟨going, running⟩ := waited
              unfold decideReap
              split
              · exact ih ⟨going.books, going.due, going.counts, going.noError⟩ running
              · exact ih going running
            · rename_i after waiting
              rcases reapChild_cases waiting with ⟨rfl, _⟩ | ⟨_, rfl⟩
              · exact ih h running
              · exact ih ⟨h.books, fun due => ⟨.inr rfl, (h.due due).2⟩, h.counts, h.noError⟩
                  running
          · exact ih h running

theorem Going.waitEvents (h : Going o kind s) (running : s.phase ≠ .done) :
    Going o kind (waitEvents t s) := by
  unfold SupervisorState.waitEvents
  dsimp only
  split
  · split
    · exact ⟨h.books, h.due, h.counts, h.noError⟩
    · exact going_failLoop h.books
  · have waiting : Going o kind { s with epollTimeoutMs := nsToEpollMs (waitSlice t s) } :=
      ⟨h.books, h.due, h.counts, h.noError⟩
    exact waiting.handleEvents running _

/-- One iteration keeps the books. -/
theorem booked_iterate (h : Booked o kind s) (shown : Shows kind t s) :
    Booked o kind (iterate s t) := by
  unfold iterate
  split
  · exact h
  · rename_i running
    have going : Going o kind s := h.resolve_left fun spent => running spent.phase
    obtain ⟨going, running⟩ := going.checkStop running (t := t)
    have stepped := going.phaseStep running shown.checkStop
    dsimp only
    split
    · exact stepped
    · rename_i running
      exact .inr ((stepped.resolve_left fun spent => running spent.phase).waitEvents running)

theorem booked_start (options : SupervisorOptions) (kind : Nat → Prop) :
    Booked options kind (start options) := by
  have entries : Entries options kind (start options).ledger :=
    ⟨rfl, .inl rfl, rfl, nofun, nofun, rfl, nofun⟩
  refine .inr ⟨⟨entries, rfl, nofun⟩, fun _ => ⟨.inl (show (-1 : Int) ≤ 0 by decide), rfl⟩, ?_,
    fun _ => rfl⟩
  rintro (phase | phase | ⟨phase, _⟩) <;> cases phase

/-- So does every run. -/
theorem booked_runFor (options : SupervisorOptions) (ticks : List Tick) :
    Booked options (fun _ => True) (runFor options ticks) := by
  have start := booked_start options fun _ => True
  unfold runFor
  generalize SupervisorState.start options = s at start
  induction ticks generalizing s with
  | nil => exact start
  | cons t rest ih => exact ih _ (booked_iterate start fun _ _ _ => trivial)

/-- The run is over and reports the outcome, once the signal mask is restored. -/
def EndsWith (s : SupervisorState) (outcome : SupervisionOutcome) : Prop :=
  s.phase = .done ∧ ∀ tail : Tail, tail.restoreErrno = 0 →
    ∃ result, finishRun tail s = .ok result ∧ result.outcome = outcome

theorem cleanUp_outcome (tail : Tail) (s : SupervisorState) :
    (cleanUp tail s).outcome = s.outcome := by
  have reaped : (reapLastChild tail s).outcome = s.outcome := by
    unfold reapLastChild
    split
    · split
      · rfl
      · split <;> rfl
    · rfl
  obtain ⟨_, _, same⟩ := cleanUp_eq tail s
  rw [same]
  exact reaped

theorem finishRun_outcome {tail : Tail} {result : SupervisionResult}
    (h : finishRun tail s = .ok result) : result.outcome = s.outcome := by
  unfold finishRun at h
  dsimp only at h
  split at h
  · cases h
  · obtain ⟨_, h⟩ := ite_error_eq_ok.1 h
    cases h
    exact cleanUp_outcome tail s

/-- Nothing is left to be done after a run that used its restarts up. -/
theorem Spent.endsWith (h : Spent o kind s) : EndsWith s .restartsExhausted := by
  refine ⟨h.phase, fun tail restored => ?_⟩
  have reaped : reapLastChild tail s = s := by
    unfold reapLastChild
    rw [if_neg]
    rintro ⟨pid, alive⟩
    rcases h.gone with gone | gone
    · omega
    · rw [gone] at alive
      cases alive
  have noError : (cleanUp tail s).loopError = none := by
    obtain ⟨_, _, same⟩ := cleanUp_eq tail s
    rw [same, reaped]
    exact h.noError
  have finished : ∃ result, finishRun tail s = .ok result := by
    unfold finishRun
    simp only [noError, restored]
    exact ⟨_, rfl⟩
  obtain ⟨result, finished⟩ := finished
  exact ⟨result, finished, (finishRun_outcome finished).trans h.outcome⟩

theorem Booked.entries (h : Booked o kind s) : Entries o kind s.ledger :=
  h.elim Spent.entries fun going => going.books.toEntries

theorem Booked.endsWith_iff (h : Booked o kind s) :
    EndsWith s .restartsExhausted ↔ s.ledger.account.2 = true := by
  rcases h with spent | going
  · exact iff_of_true spent.endsWith spent.account
  · refine iff_of_false ?_ ?_
    · rintro ⟨_, ends⟩
      obtain ⟨result, finished, outcome⟩ := ends ⟨fun _ => "", 0, .ok 0, [], 0⟩ rfl
      exact going.books.outcome ((finishRun_outcome finished).symm.trans outcome)
    · rw [going.books.account]
      exact Bool.false_ne_true

/-- The list of failed attempts is complete: of all the attempts only the last one can be
missing, and none is when the next one is due. Each is measured from the last spawn. -/
structure Recorded (s : SupervisorState) : Prop where
  most : s.attempts = s.failures.length ∨ s.attempts = s.failures.length + 1
  all : Due s → s.attempts = s.failures.length
  measured : ∀ a ∈ s.failures, a.Measured

theorem Booked.recorded (h : Booked o kind s) : Recorded s := by
  refine ⟨h.entries.stage, fun due => ?_, h.entries.measured⟩
  rcases h with spent | going
  · rcases due with phase | phase <;>
    · rw [spent.phase] at phase
      cases phase
  · exact (going.due due).2

/-- The attempt had no child, or its failure was counted within the window of its child. -/
def Quick (windowNs : Nat) (a : FailedAttempt) : Prop :=
  ∀ spawnedAt, a.ownSpawn = some spawnedAt → a.countedAt < spawnedAt + windowNs

theorem Quick.fresh {windowNs spawnedAt : Nat} {a : FailedAttempt} (quick : Quick windowNs a)
    (measured : a.Measured) (own : a.ownSpawn = some spawnedAt) :
    a.stale windowNs = false := by
  have early := quick spawnedAt own
  have last := measured.own spawnedAt own
  have late : ¬ windowNs ≤ a.countedAt - a.lastSpawn ∨ ¬ a.lastSpawn ≤ a.countedAt := by
    omega
  simp only [FailedAttempt.stale, Bool.and_eq_false_iff, decide_eq_false_iff_not]
  tauto

/-- One quick failure and as many more as there are restarts end the run, exactly when no
later one of them is an attempt without a child, counted a full window after the last
child was spawned. The failures are all that the attempts of the run came to. -/
theorem restartsExhausted_iff {options : SupervisorOptions} {ticks : List Tick}
    {before rest : List FailedAttempt} {first : FailedAttempt}
    (history : (runFor options ticks).failures = before ++ first :: rest)
    (len : rest.length = options.maxRestarts)
    (quick : ∀ a ∈ first :: rest, Quick (msToNs options.stableResetWindowMs) a) :
    Recorded (runFor options ticks) ∧
    (EndsWith (runFor options ticks) .restartsExhausted ↔
      ∀ a ∈ rest, a.ownSpawn = none →
        a.stale (msToNs options.stableResetWindowMs) = false) := by
  have booked := booked_runFor options ticks
  refine ⟨booked.recorded, ?_⟩
  have same : (runFor options ticks).ledger.options = options := booked.entries.options
  have listed : (runFor options ticks).ledger.failures = before ++ first :: rest := history
  have bound : (tally options.maxRestarts (restartsCount options) (0, false)
      before).1 ≤ options.maxRestarts := tally_le (Nat.zero_le _)
  rw [booked.endsWith_iff, account, same, listed, tally_append]
  refine (tally_used_iff bound len).trans (forall₂_congr fun a ha => ⟨fun fresh _ => fresh, ?_⟩)
  intro fresh
  cases own : a.ownSpawn with
  | none => exact fresh own
  | some spawnedAt =>
      refine (quick a (by simp [ha])).fresh (booked.entries.measured a ?_) own
      rw [listed]
      simp [ha]

/-- One restart, and a window of a millisecond. -/
def oneRestart : SupervisorOptions :=
  ⟨"c", .posixShm, ["producer"], 0, 0, 1, 1, 1, 0, 1, 1, false⟩

/-- An iteration at a time in which no child can be spawned. -/
def idleAt (now : Nat) : Tick where
  stopRequested := false
  strerror _ := ""
  phaseNow := now
  spawn := .error (makeErrnoError 12 "spawn_process" "")
  spawnNow := now
  startTicks := .ok 1
  watch := .ok ()
  addPidfd := .ok ()
  addStdout := .ok ()
  sigtermErrno := 0
  sigkillErrno := 0
  waitBlocking := .ok 0
  waitKill := .ok none
  waitEvent := .ok none
  countNow := now
  graceNow := now
  deadlineNow := now
  view := none
  stall := .fresh
  waitNow := now
  events := .ok []
  reads := []

/-- Spawning fails from the beginning. -/
theorem restartsExhausted_iff_oneRestart :
    EndsWith (runFor oneRestart [idleAt 1, idleAt 2, idleAt 3]) .restartsExhausted := by
  have history : (runFor oneRestart [idleAt 1, idleAt 2, idleAt 3]).failures =
      [] ++ ⟨none, 0, 1, []⟩ :: [⟨none, 0, 3, []⟩] := by decide +kernel
  refine (restartsExhausted_iff history rfl ?_).2.2 ?_
  · intro a ha spawnedAt own
    rcases List.mem_cons.1 ha with rfl | ha
    · cases own
    · rw [List.mem_singleton.1 ha] at own
      cases own
  · intro a ha _
    rw [List.mem_singleton.1 ha]
    rfl

/-- A child is spawned and is READY, and dies after more than the window; from then on
spawning fails. -/
def lateDeath : List Tick :=
  [{ idleAt 1 with spawn := .ok ⟨10, false⟩ },
    { idleAt 2 with
      view := some ⟨InitState.ready.code, .ok ⟨2, 10, 1, 1, 1⟩, 1⟩
      waitEvent := .ok (some 256)
      events := .ok [.pidfd] },
    idleAt 2000000, idleAt 3000000, idleAt 3000001, idleAt 4000000, idleAt 4000001]

/-- Two attempts in a row spawn no child, with one restart allowed, and the run goes on:
each of them is measured from the spawn of the child that died before. -/
theorem restarts_not_exhausted :
    supervisorCreateImpl oneRestart = .ok oneRestart ∧
    ∃ before first last, (runFor oneRestart lateDeath).failures = before ++ [first, last] ∧
      [first, last].length = oneRestart.maxRestarts + 1 ∧
      first.ownSpawn = none ∧ last.ownSpawn = none ∧
      (runFor oneRestart lateDeath).phase = .backoff ∧
      ¬ EndsWith (runFor oneRestart lateDeath) .restartsExhausted := by
  have phase : (runFor oneRestart lateDeath).phase = .backoff := by decide +kernel
  refine ⟨by decide +kernel, [⟨some 1, 1, 2000000, [1]⟩], ⟨none, 1, 3000001, [1]⟩,
    ⟨none, 1, 4000001, [1]⟩,
    by decide +kernel, rfl, rfl, rfl, phase, ?_⟩
  rintro ⟨done, _⟩
  rw [phase] at done
  cases done

end SupervisorState
end EdgeRuntime

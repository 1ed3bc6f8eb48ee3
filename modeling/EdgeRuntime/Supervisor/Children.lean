import EdgeRuntime.Supervisor.Restarts

/-!
The children of a supervisor. The state believes that it has a child from the spawn until
its own flag says that the child was reaped; the processes of the run are those that were
spawned and not waited for. The two agree at every time. A child is due only when the one
before it is gone, so there are never two; and once an iteration has seen the stop flag, no
child is due any more.
-/
namespace EdgeRuntime
namespace SupervisorState
variable {s s' s'' : SupervisorState} {t : Tick}

/-- No child lives while the next one is due. -/
def Tended (s : SupervisorState) : Prop := Due s → Gone s

/-- The child that the state believes it has. -/
def living (s : SupervisorState) : List Int :=
  if s.childPid > 0 ∧ s.childReaped = false then [s.childPid] else []

/-- The state believes what is so. -/
def Counted (s : SupervisorState) : Prop := s.children = living s

theorem living_of_gone (gone : Gone s) : living s = [] := by
  refine if_neg fun alive => ?_
  rcases gone with none | reaped
  · omega
  · rw [reaped] at alive
    cases alive.2

/-- A child that was waited for is no longer there. -/
theorem Counted.waited (h : Counted s) : s.children.erase s.childPid = [] := by
  rw [h, living]
  split
  · exact List.erase_cons_head _ _
  · rfl

/-- So a state that has waited for the child and says so is right. -/
theorem Counted.reaped (h : Counted s) (children : s'.children = s.children.erase s.childPid)
    (reaped : s'.childReaped = true) : Counted s' :=
  (children.trans h.waited).trans (living_of_gone (.inr reaped)).symm

/-- The state stays right about its child, which must be gone if another one is due. -/
structure Minds (s s' : SupervisorState) : Prop where
  counted : Counted s → Counted s'
  tended : Tended s'

theorem Minds.trans (h : Minds s s') (h' : Minds s' s'') : Minds s s'' :=
  ⟨fun right => h'.counted (h.counted right), h'.tended⟩

/-- The state that a step begins from matters only by its child. -/
theorem Minds.of_child (h : Minds s' s'') (counted : Counted s → Counted s') : Minds s s'' :=
  ⟨fun right => h.counted (counted right), h.tended⟩

theorem Minds.refl (h : Tended s) : Minds s s := ⟨id, h⟩

/-- In any other phase than the two that wait for a new child there is nothing to tend. -/
theorem tended_of_phase (phase : s.phase ≠ .backoff ∧ s.phase ≠ .spawn) : Tended s :=
  fun due => (due.elim phase.1 phase.2).elim

/-- An event is reported on the way into another phase. -/
theorem minds_announce (info : SupervisorEventInfo) (phase : SupervisorPhase)
    (other : phase ≠ .backoff ∧ phase ≠ .spawn) :
    Minds s { s.emit info with phase := phase } := by
  obtain ⟨events, same⟩ := emit_eq info s
  rw [same]
  exact ⟨id, tended_of_phase other⟩

theorem minds_failLoop (e : Error) (s : SupervisorState) : Minds s (failLoop e s) :=
  ⟨id, tended_of_phase ⟨nofun, nofun⟩⟩

theorem minds_enterBackoff (gone : Gone s) : Minds s (enterBackoff t s) := by
  unfold enterBackoff
  dsimp only
  split
  · exact (minds_failLoop _ _).of_child id
  · exact ⟨id, fun _ => gone⟩

/-- A failed attempt leaves no child behind. -/
theorem minds_failAttempt (gone : Gone s) : Minds s (failAttempt t s) := by
  obtain ⟨events, counted⟩ := countFailure_eq t s
  unfold failAttempt
  rw [counted]
  split
  · rename_i same
    obtain ⟨_, rfl⟩ := Prod.mk.inj same
    exact ⟨id, tended_of_phase ⟨nofun, nofun⟩⟩
  · rename_i same
    obtain ⟨_, rfl⟩ := Prod.mk.inj same
    refine Minds.of_child (minds_enterBackoff ?_) id
    exact gone

theorem minds_backoffPhase (h : Tended s) (phase : s.phase = .backoff) :
    Minds s (backoffPhase t s) := by
  unfold backoffPhase
  split
  · exact ⟨id, fun _ => h (.inl phase)⟩
  · exact .refl h

theorem minds_watchChild (t : Tick) (s : SupervisorState) : Minds s (watchChild t s) := by
  unfold watchChild
  split
  · split
    · exact minds_failLoop _ _
    · split
      · exact minds_failLoop _ _
      · exact (minds_failAttempt (.inr rfl)).of_child fun right => right.reaped rfl rfl
  · dsimp only
    split
    · exact (minds_failLoop _ _).of_child id
    · split
      · exact (minds_failLoop _ _).of_child id
      · split
        · exact (minds_failLoop _ _).of_child id
        · exact ⟨id, tended_of_phase ⟨nofun, nofun⟩⟩

/-- Without a new child the old one, which is gone, stays the last one. -/
theorem minds_spawnPhase_error {e : Error} (failed : t.spawn = .error e) (gone : Gone s) :
    Minds s (spawnPhase t s) := by
  unfold spawnPhase
  dsimp only
  rw [failed]
  have failing : Gone { s with
      haveView := false
      stdoutTail := []
      spawnAttempts := (s.spawnAttempts + 1) % 2 ^ 32
      attempts := s.attempts + 1
      ownSpawn := none } := gone
  exact (minds_failAttempt failing).of_child id

/-- A new child is the only one if there was none. -/
theorem spawnPhase_ok {child : SpawnedProcess} (spawned : t.spawn = .ok child) :
    Tended (spawnPhase t s) ∧
      (s.children = [] → 0 < child.pid → Counted (spawnPhase t s)) := by
  have born : s.children = [] → 0 < child.pid →
      s.children ++ [child.pid] = if child.pid > 0 ∧ false = false then [child.pid] else [] := by
    intro none pid
    rw [none, if_pos ⟨pid, rfl⟩, List.nil_append]
  unfold spawnPhase
  dsimp only
  rw [spawned]
  dsimp only
  split
  · exact ⟨tended_of_phase ⟨by rintro ⟨⟩, by rintro ⟨⟩⟩, born⟩
  · have watched := minds_watchChild t
    exact ⟨(watched _).tended, fun none pid => (watched _).counted (born none pid)⟩

theorem minds_stillWaiting (phase : s.phase = .awaitReady) : Minds s (stillWaiting t s) := by
  unfold stillWaiting
  split
  · rename_i reaped
    exact minds_failAttempt (.inr reaped)
  · split
    · exact ⟨id, tended_of_phase ⟨nofun, nofun⟩⟩
    · refine .refl (tended_of_phase ?_)
      rw [phase]
      exact ⟨nofun, nofun⟩

theorem minds_awaitReadyPhase (phase : s.phase = .awaitReady) :
    Minds s (awaitReadyPhase t s) := by
  unfold awaitReadyPhase
  split
  · rename_i header _
    split
    · have announced := minds_announce (s := { s with
        baselineGeneration := header.generation
        haveView := true
        accepted := s.accepted ++ [header.generation] })
        ⟨.supervised, s.childPid, header.generation, 0, 0, 0⟩ .monitor ⟨nofun, nofun⟩
      exact announced.of_child id
    · exact minds_stillWaiting phase
  · exact minds_stillWaiting phase

theorem minds_monitorPhase (phase : s.phase = .monitor) : Minds s (monitorPhase t s) := by
  unfold monitorPhase
  split
  · rename_i reaped
    split
    · exact ⟨id, tended_of_phase ⟨nofun, nofun⟩⟩
    · exact minds_failAttempt (.inr reaped)
  · split
    · have announced := minds_announce (s := { s with
        reapDecision := .restart, killThenRestart := true })
        ⟨.stallDetected, s.childPid, 0, 0, 0, 0⟩ .kill ⟨nofun, nofun⟩
      exact announced.of_child id
    · refine .refl (tended_of_phase ?_)
      rw [phase]
      exact ⟨nofun, nofun⟩

/-- A look at the child, whatever it finds. -/
theorem minds_reapChild {answer : Except Error (Option Int)} {gone : Bool} {status : Int}
    (h : reapChild answer s = .ok (gone, status, s')) (tended : Tended s) :
    Minds s s' ∧ (gone = true → Gone s') := by
  rcases reapChild_cases h with ⟨rfl, gone⟩ | ⟨_, rfl⟩
  · exact ⟨.refl tended, gone⟩
  · exact ⟨⟨fun right => right.reaped rfl rfl, fun _ => .inr rfl⟩, fun _ => .inr rfl⟩

/-- What the signals of the kill phase leave as it was. -/
structure Signalled (s s' : SupervisorState) : Prop where
  counted : Counted s → Counted s'
  restart : s'.killThenRestart = s.killThenRestart
  phase : s'.phase = s.phase ∨ s'.phase = .done ∧ s'.loopError.isSome

theorem Signalled.trans (h : Signalled s s') (h' : Signalled s' s'')
    (running : s'.phase ≠ .done) : Signalled s s'' := by
  refine ⟨fun right => h'.counted (h.counted right), h'.restart.trans h.restart, ?_⟩
  have stay : s'.phase = s.phase := h.phase.resolve_right fun done => running done.1
  rw [← stay]
  exact h'.phase

theorem signalled_armChildKill (t : Tick) (s : SupervisorState) :
    Signalled s (armChildKill t s) := by
  unfold armChildKill
  dsimp only
  split
  · exact ⟨id, rfl, .inl rfl⟩
  · split
    · exact ⟨id, rfl, .inr ⟨rfl, rfl⟩⟩
    · split
      · exact ⟨id, rfl, .inr ⟨rfl, rfl⟩⟩
      · exact ⟨id, rfl, .inl rfl⟩

theorem signalled_escalateKill (t : Tick) (s : SupervisorState) :
    Signalled s (escalateKill t s) := by
  unfold escalateKill
  split
  · split
    · exact ⟨id, rfl, .inr ⟨rfl, rfl⟩⟩
    · obtain ⟨events, same⟩ := emit_eq ⟨.killed, s.childPid, 0, 0, 0, 9⟩ s
      rw [same]
      exact ⟨id, rfl, .inl rfl⟩
  · exact ⟨id, rfl, .inl rfl⟩

theorem signalled_killChild (t : Tick) (s : SupervisorState) : Signalled s (killChild t s) := by
  unfold killChild
  dsimp only
  split
  · split
    · exact signalled_armChildKill t s
    · rename_i running
      exact (signalled_armChildKill t s).trans (signalled_escalateKill t _) running
  · exact ⟨id, rfl, .inl rfl⟩

theorem minds_killPhase (phase : s.phase = .kill) : Minds s (killPhase t s) := by
  have signalled := signalled_killChild t s
  unfold killPhase
  dsimp only
  split
  · rename_i done
    refine ⟨signalled.counted, tended_of_phase ?_⟩
    rw [done]
    exact ⟨nofun, nofun⟩
  · rename_i running
    have stay := signalled.phase.resolve_right fun done => running done.1
    have tended : Tended (killChild t s) := by
      apply tended_of_phase
      rw [stay, phase]
      exact ⟨nofun, nofun⟩
    have minds : Minds s (killChild t s) := ⟨signalled.counted, tended⟩
    split
    · exact minds.trans (minds_failLoop _ _)
    · rename_i after reaped
      obtain ⟨looked, gone⟩ := minds_reapChild reaped tended
      refine (minds.trans looked).trans ?_
      unfold killed
      split
      · have gone : Gone { after with killThenRestart := false } := gone rfl
        exact (minds_failAttempt gone).of_child id
      · exact ⟨id, tended_of_phase ⟨nofun, nofun⟩⟩
    · rename_i waiting
      exact minds.trans (minds_reapChild waiting tended).1

/-- A phase that spawns nothing minds the child that is there. -/
theorem minds_phaseStep (h : Tended s) (phase : s.phase ≠ .spawn) : Minds s (phaseStep t s) := by
  unfold phaseStep
  split
  · rename_i backoff
    exact minds_backoffPhase h backoff
  · rename_i spawn
    exact (phase spawn).elim
  · rename_i awaitReady
    exact minds_awaitReadyPhase awaitReady
  · rename_i monitor
    exact minds_monitorPhase monitor
  · rename_i kill
    exact minds_killPhase kill
  · exact .refl h

theorem minds_checkStop (h : Tended s) : Minds s (checkStop t s) := by
  unfold checkStop
  split
  · exact ⟨id, tended_of_phase ⟨nofun, nofun⟩⟩
  · exact .refl h

theorem minds_handleEvents (h : Tended s) (events : List ReadyFd) :
    Minds s (handleEvents t events s) := by
  induction events generalizing s with
  | nil => exact .refl h
  | cons fd rest ih =>
      cases fd with
      | stop | signal =>
          exact (ih (s := { s with killThenRestart := false, phase := .kill })
            (tended_of_phase ⟨nofun, nofun⟩)).of_child id
      | stdout =>
          rw [handleEvents]
          split
          · obtain ⟨tail, more, same⟩ := drainChildStdout_eq t.reads s
            rw [same]
            exact (ih (s := { s with stdoutTail := tail, stdoutOpen := more }) h).of_child id
          · exact ih h
      | pidfd =>
          rw [handleEvents]
          split
          · split
            · exact minds_failLoop _ _
            · rename_i status after reaped
              have looked := (minds_reapChild reaped h).1
              refine looked.trans ?_
              unfold decideReap
              split
              · exact (ih (s := { after with
                  reapDecision := if isCleanExitStatus status then .cleanExit else .restart })
                  looked.tended).of_child id
              · exact ih looked.tended
            · rename_i after waiting
              have looked := (minds_reapChild waiting h).1
              exact looked.trans (ih looked.tended)
          · exact ih h

theorem minds_waitEvents (h : Tended s) : Minds s (waitEvents t s) := by
  unfold waitEvents
  dsimp only
  split
  · split
    · exact ⟨id, h⟩
    · exact (minds_failLoop _ _).of_child id
  · have waiting : Tended { s with epollTimeoutMs := nsToEpollMs (waitSlice t s) } := h
    exact (minds_handleEvents waiting _).of_child id

/-- The iteration calls `spawn_process`. -/
def AttemptsSpawn (t : Tick) (s : SupervisorState) : Prop :=
  s.phase ≠ .done ∧ (checkStop t s).phase = .spawn

instance : Decidable (AttemptsSpawn t s) := inferInstanceAs (Decidable (_ ∧ _))

theorem AttemptsSpawn.not_stopping (h : AttemptsSpawn t s) : t.stopRequested = false := by
  cases stop : t.stopRequested with
  | false => rfl
  | true =>
      have phase := h.2
      rw [checkStop, stop] at phase
      cases phase

theorem AttemptsSpawn.checkStop_eq (h : AttemptsSpawn t s) : checkStop t s = s := by
  rw [checkStop, h.not_stopping]
  rfl

theorem AttemptsSpawn.gone (h : AttemptsSpawn t s) (tended : Tended s) : Gone s := by
  have phase := h.2
  rw [h.checkStop_eq] at phase
  exact tended (.inr phase)

/-- The end of an iteration, after its phase. -/
theorem minds_rest (h : Tended s) : Minds s (if s.phase = .done then s else waitEvents t s) := by
  split
  · exact .refl h
  · exact minds_waitEvents h

theorem minds_iterate (h : Tended s) (no : ¬ AttemptsSpawn t s) : Minds s (iterate s t) := by
  unfold iterate
  split
  · exact .refl h
  · rename_i running
    have checked := minds_checkStop (t := t) h
    have stepped := minds_phaseStep (t := t) checked.tended fun spawn => no ⟨running, spawn⟩
    exact (checked.trans stepped).trans (minds_rest stepped.tended)

theorem AttemptsSpawn.iterate_eq (h : AttemptsSpawn t s) :
    iterate s t = if (spawnPhase t s).phase = .done then spawnPhase t s
      else waitEvents t (spawnPhase t s) := by
  have stepped : phaseStep t (checkStop t s) = spawnPhase t s := by
    have phase := h.2
    rw [h.checkStop_eq] at phase ⊢
    rw [phaseStep, phase]
  rw [iterate, if_neg h.1, stepped]

theorem AttemptsSpawn.minds_error {e : Error} (h : AttemptsSpawn t s) (tended : Tended s)
    (failed : t.spawn = .error e) : Minds s (iterate s t) := by
  have stepped := minds_spawnPhase_error failed (h.gone tended)
  rw [h.iterate_eq]
  exact stepped.trans (minds_rest stepped.tended)

theorem AttemptsSpawn.iterate_ok {child : SpawnedProcess} (h : AttemptsSpawn t s)
    (spawned : t.spawn = .ok child) : Tended (iterate s t) ∧
      (s.children = [] → 0 < child.pid → Counted (iterate s t)) := by
  obtain ⟨tended, counted⟩ := spawnPhase_ok (s := s) spawned
  rw [h.iterate_eq]
  have rest := minds_rest (t := t) tended
  exact ⟨rest.tended, fun none pid => rest.counted (counted none pid)⟩

/-- The run is on its way to its end: it kills what there is to kill and restarts nothing,
and says that it was stopped unless a system call failed. -/
def Stopping (s : SupervisorState) : Prop :=
  s.phase = .kill ∧ s.killThenRestart = false ∨
    s.phase = .done ∧ (s.loopError.isSome ∨ s.outcome = .stopped)

theorem stopping_failLoop (e : Error) (s : SupervisorState) : Stopping (failLoop e s) :=
  .inr ⟨rfl, .inl rfl⟩

theorem stopping_killPhase (phase : s.phase = .kill) (restart : s.killThenRestart = false) :
    Stopping (killPhase t s) := by
  have signalled := signalled_killChild t s
  unfold killPhase
  dsimp only
  split
  · rename_i done
    rcases signalled.phase with stay | failed
    · rw [done, phase] at stay
      cases stay
    · exact .inr ⟨done, .inl failed.2⟩
  · rename_i running
    have stay := signalled.phase.resolve_right fun done => running done.1
    split
    · exact stopping_failLoop _ _
    · rename_i after reaped
      have same : after.killThenRestart = (killChild t s).killThenRestart := by
        rcases reapChild_cases reaped with ⟨rfl, _⟩ | ⟨_, rfl⟩ <;> rfl
      rw [killed, same, signalled.restart, restart]
      exact .inr ⟨rfl, .inr rfl⟩
    · rename_i after waiting
      rcases reapChild_cases waiting with ⟨rfl, _⟩ | ⟨_, rfl⟩ <;>
        exact .inl ⟨stay.trans phase, signalled.restart.trans restart⟩

theorem stopping_handleEvents (phase : s.phase = .kill) (restart : s.killThenRestart = false)
    (events : List ReadyFd) : Stopping (handleEvents t events s) := by
  induction events generalizing s with
  | nil => exact .inl ⟨phase, restart⟩
  | cons fd rest ih =>
      cases fd with
      | stop | signal =>
          exact ih (s := { s with killThenRestart := false, phase := .kill }) rfl rfl
      | stdout =>
          rw [handleEvents]
          split
          · obtain ⟨tail, more, same⟩ := drainChildStdout_eq t.reads s
            rw [same]
            exact ih phase restart
          · exact ih phase restart
      | pidfd =>
          rw [handleEvents]
          split
          · split
            · exact stopping_failLoop _ _
            · rename_i status after reaped
              have still : after.phase = .kill ∧ after.killThenRestart = false := by
                rcases reapChild_cases reaped with ⟨rfl, _⟩ | ⟨_, rfl⟩ <;> exact ⟨phase, restart⟩
              unfold decideReap
              split
              · exact ih (s := { after with
                  reapDecision := if isCleanExitStatus status then .cleanExit else .restart })
                  still.1 still.2
              · exact ih still.1 still.2
            · rename_i after waiting
              rcases reapChild_cases waiting with ⟨rfl, _⟩ | ⟨_, rfl⟩ <;> exact ih phase restart
          · exact ih phase restart

theorem Stopping.waitEvents (h : Stopping s) (running : s.phase ≠ .done) :
    Stopping (waitEvents t s) := by
  obtain ⟨phase, restart⟩ := h.resolve_right fun done => running done.1
  unfold SupervisorState.waitEvents
  dsimp only
  split
  · split
    · exact .inl ⟨phase, restart⟩
    · exact stopping_failLoop _ _
  · exact stopping_handleEvents (s := { s with epollTimeoutMs := nsToEpollMs (waitSlice t s) })
      phase restart _

/-- An iteration that kills without a restart in mind. -/
theorem stopping_iterate_kill (running : s.phase ≠ .done)
    (phase : (checkStop t s).phase = .kill) (restart : (checkStop t s).killThenRestart = false) :
    Stopping (iterate s t) := by
  have stepped : Stopping (phaseStep t (checkStop t s)) := by
    rw [phaseStep, phase]
    exact stopping_killPhase phase restart
  rw [iterate, if_neg running]
  dsimp only
  split
  · exact stepped
  · rename_i running
    exact stepped.waitEvents running

theorem stopping_iterate_of_requested (running : s.phase ≠ .done)
    (stop : t.stopRequested = true) : Stopping (iterate s t) := by
  have checked : checkStop t s = { s with killThenRestart := false, phase := .kill } := if_pos stop
  refine stopping_iterate_kill running ?_ ?_
  · rw [checked]
  · rw [checked]

theorem Stopping.iterate (h : Stopping s) : Stopping (iterate s t) := by
  rcases h with ⟨phase, restart⟩ | ⟨done, said⟩
  · have running : s.phase ≠ .done := by
      rw [phase]
      exact nofun
    cases stop : t.stopRequested with
    | true => exact stopping_iterate_of_requested running stop
    | false =>
        have checked : checkStop t s = s := by
          rw [checkStop, stop]
          rfl
        refine stopping_iterate_kill running ?_ ?_
        · rw [checked]
          exact phase
        · rw [checked]
          exact restart
  · rw [SupervisorState.iterate, if_pos done]
    exact .inr ⟨done, said⟩

/-- The loop begins, on a new handle or on one whose last child was waited for. -/
structure Opening (s : SupervisorState) : Prop where
  phase : s.phase = .spawn
  gone : Gone s
  none : s.children = []

/-- A process that was spawned has a process id. -/
def NewPid (t : Tick) : Prop := ∀ child, t.spawn = .ok child → 0 < child.pid

/-- The last child can be killed and waited for. -/
structure Obliging (tail : Tail) : Prop where
  kill : killFailed tail.sigkillErrno = false
  wait : ∃ status, tail.waitBlocking = .ok status

/-- The state is right about its child, and no child lives while the next one is due. -/
structure Kept (s : SupervisorState) : Prop where
  tended : Tended s
  counted : Counted s

theorem Kept.iterate (h : Kept s) (pid : NewPid t) : Kept (iterate s t) := by
  by_cases attempt : AttemptsSpawn t s
  · cases outcome : t.spawn with
    | error e =>
        have minds := attempt.minds_error h.tended outcome
        exact ⟨minds.tended, minds.counted h.counted⟩
    | ok child =>
        obtain ⟨tended, counted⟩ := attempt.iterate_ok outcome
        have none : s.children = [] :=
          h.counted.trans (living_of_gone (attempt.gone h.tended))
        exact ⟨tended, counted none (pid child outcome)⟩
  · have minds := minds_iterate h.tended attempt
    exact ⟨minds.tended, minds.counted h.counted⟩

theorem Kept.foldl (h : Kept s) {ticks : List Tick} (pids : ∀ t ∈ ticks, NewPid t) :
    Kept (ticks.foldl SupervisorState.iterate s) := by
  induction ticks generalizing s with
  | nil => exact h
  | cons t rest ih =>
      exact ih (h.iterate (pids t List.mem_cons_self))
        fun u later => pids u (List.mem_cons_of_mem t later)

theorem Opening.kept (h : Opening s) {ticks : List Tick} (pids : ∀ t ∈ ticks, NewPid t) :
    Kept (ticks.foldl SupervisorState.iterate s) :=
  Kept.foldl ⟨fun _ => h.gone, h.none.trans (living_of_gone h.gone).symm⟩ pids

theorem Stopping.foldl (h : Stopping s) (ticks : List Tick) :
    Stopping (ticks.foldl SupervisorState.iterate s) := by
  induction ticks generalizing s with
  | nil => exact h
  | cons t rest ih => exact ih h.iterate

/-- When the supervisor returns, it has waited for all its children. -/
theorem Counted.cleanUp {tail : Tail} (h : Counted s) (obliging : Obliging tail) :
    (cleanUp tail s).children = [] := by
  have reaped : (reapLastChild tail s).children = [] := by
    obtain ⟨status, waited⟩ := obliging.wait
    unfold reapLastChild
    by_cases alive : s.childPid > 0 ∧ s.childReaped = false
    · rw [if_pos alive, obliging.kill, waited]
      exact h.waited
    · rw [if_neg alive, h, living, if_neg alive]
  obtain ⟨_, _, same⟩ := cleanUp_eq tail s
  rw [same]
  exact reaped

end SupervisorState
end EdgeRuntime

import EdgeRuntime.Channel.Layout
import EdgeRuntime.Supervisor.Policy

/-!
The loop of the supervisor. One iteration looks at the stop flag, acts by its phase, and
then waits for events; what the system answers during an iteration is a `Tick`. The state
also keeps a record that the source does not have: the processes of the run, as the calls of
`spawn_process` and `waitpid` leave them, and the attempts, spawns, failures and accepted
generations in the order in which they happened.
-/
namespace EdgeRuntime

inductive SupervisorPhase
  | backoff
  | spawn
  | awaitReady
  | monitor
  | kill
  | done
  deriving DecidableEq, Repr

inductive ReapDecision
  | undecided
  | cleanExit
  | restart
  deriving DecidableEq, Repr

inductive SupervisionOutcome
  | cleanExit
  | stopped
  | restartsExhausted
  deriving DecidableEq, Repr

inductive StallClass
  | notReady
  | identityMismatch
  | notApplicable
  | fresh
  | stalled
  deriving DecidableEq, Repr

structure SpawnedProcess where
  pid : Int
  stdoutRead : Bool
  deriving DecidableEq, Repr

/-- The part of a channel header that the supervisor looks at before it accepts a child. -/
structure ObservedHeader where
  initState : Nat
  producer : Except Error ProcessIdentityAbi
  generation : Nat
  deriving DecidableEq, Repr

inductive ReadyFd
  | stop
  | signal
  | pidfd
  | stdout
  deriving DecidableEq, Repr

/-- One `read` of the child's output. -/
inductive ReadOutcome
  | data (bytes : List Nat)
  | errno (value : Int)
  deriving DecidableEq, Repr

/-- What the system answers during one iteration. -/
structure Tick where
  stopRequested : Bool
  strerror : Int → String
  /-- The clock in the phase's own comparison with a deadline. -/
  phaseNow : Nat
  spawn : Except Error SpawnedProcess
  spawnNow : Nat
  startTicks : Except Error Nat
  watch : Except Error Unit
  addPidfd : Except Error Unit
  addStdout : Except Error Unit
  sigtermErrno : Int
  sigkillErrno : Int
  waitBlocking : Except Error Int
  /-- `waitpid` with `WNOHANG` in the kill phase and after an event. -/
  waitKill : Except Error (Option Int)
  waitEvent : Except Error (Option Int)
  /-- The clock in `count_failure`, at the grace deadline of a kill, and at the deadline that
  the next phase begins with. -/
  countNow : Nat
  graceNow : Nat
  deadlineNow : Nat
  view : Option ObservedHeader
  stall : StallClass
  /-- The clock before the wait; how the wait ends, and what was read then. -/
  waitNow : Nat
  events : Except Int (List ReadyFd)
  reads : List ReadOutcome

/-- An attempt whose failure was counted: when its own child was spawned, if it has one,
the two times that were compared, and when all the children so far were spawned. -/
structure FailedAttempt where
  ownSpawn : Option Nat
  lastSpawn : Nat
  countedAt : Nat
  spawnTimes : List Nat
  deriving DecidableEq, Repr

/-- The failure comes so long after the last spawn that the count starts again. -/
def FailedAttempt.stale (windowNs : Nat) (a : FailedAttempt) : Bool :=
  a.countedAt ≠ 0 && a.lastSpawn ≠ 0 && a.lastSpawn ≤ a.countedAt &&
    windowNs ≤ a.countedAt - a.lastSpawn

structure SupervisorState where
  options : SupervisorOptions
  childPid : Int
  stdoutOpen : Bool
  pidfdOpen : Bool
  childStartTicks : Nat
  childReaped : Bool
  childKillInProgress : Bool
  spawnAttempts : Nat
  consecutiveFailures : Nat
  lastSpawnMonoNs : Nat
  baselineGeneration : Nat
  haveView : Bool
  reapDecision : ReapDecision
  lastExitStatus : Int
  stdoutTail : List Nat
  phase : SupervisorPhase
  killThenRestart : Bool
  backoffDeadline : Nat
  createDeadline : Nat
  graceDeadline : Nat
  loopError : Option Error
  outcome : SupervisionOutcome
  resultExitStatus : Int
  epollTimeoutMs : Nat
  events : List SupervisorEventInfo
  /-- The processes that were spawned and not yet waited for. -/
  children : List Int
  /-- How often `spawn_process` was called. -/
  attempts : Nat
  /-- When the child of the current attempt was spawned, and all the children. -/
  ownSpawn : Option Nat
  spawnTimes : List Nat
  failures : List FailedAttempt
  /-- The generations that were accepted. -/
  accepted : List Nat

namespace SupervisorState

/-- A run that begins on a new handle. -/
def start (options : SupervisorOptions) : SupervisorState where
  options := options
  childPid := -1
  stdoutOpen := false
  pidfdOpen := false
  childStartTicks := 0
  childReaped := false
  childKillInProgress := false
  spawnAttempts := 0
  consecutiveFailures := 0
  lastSpawnMonoNs := 0
  baselineGeneration := 0
  haveView := false
  reapDecision := .undecided
  lastExitStatus := 0
  stdoutTail := []
  phase := .spawn
  killThenRestart := false
  backoffDeadline := 0
  createDeadline := 0
  graceDeadline := 0
  loopError := none
  outcome := .stopped
  resultExitStatus := 0
  epollTimeoutMs := 0
  events := []
  children := []
  attempts := 0
  ownSpawn := none
  spawnTimes := []
  failures := []
  accepted := []

def emit (info : SupervisorEventInfo) (s : SupervisorState) : SupervisorState :=
  if s.options.onEvent then { s with events := s.events ++ [info] } else s

/-- An event that is reported is the only thing that changes. -/
theorem emit_eq (info : SupervisorEventInfo) (s : SupervisorState) :
    ∃ events, s.emit info = { s with events } := by
  unfold emit
  split
  · exact ⟨_, rfl⟩
  · exact ⟨s.events, rfl⟩

/-- The loop ends with an error. -/
def failLoop (e : Error) (s : SupervisorState) : SupervisorState :=
  { s with loopError := some e, phase := .done }

def clockError : Error :=
  makeError .clockAnomaly "ProducerSupervisor::run" "monotonic clock unavailable"

def enterBackoff (t : Tick) (s : SupervisorState) : SupervisorState :=
  let deadline := deadlineFrom t.deadlineNow (backoffDelayNs s.options s.consecutiveFailures)
  let s := { s with backoffDeadline := deadline }
  if deadline = 0 then failLoop clockError s else { s with phase := .backoff }

/-- Whether the restarts are used up, and the state with the failure counted. -/
def countFailure (t : Tick) (s : SupervisorState) : Bool × SupervisorState :=
  let attempt : FailedAttempt := ⟨s.ownSpawn, s.lastSpawnMonoNs, t.countNow, s.spawnTimes⟩
  let failures := s.failures ++ [attempt]
  let count :=
    if attempt.stale (msToNs s.options.stableResetWindowMs) then 0
    else s.consecutiveFailures
  if count ≥ s.options.maxRestarts then
    (true, { s with consecutiveFailures := count, failures := failures })
  else
    let s := { s with consecutiveFailures := count + 1, failures := failures }
    (false, s.emit ⟨.restartArmed, 0, 0, count + 1, backoffDelayNs s.options (count + 1), 0⟩)

/-- Every failed attempt ends here: give up, or wait for the next one. -/
def failAttempt (t : Tick) (s : SupervisorState) : SupervisorState :=
  match countFailure t s with
  | (true, s) => { s with outcome := .restartsExhausted, phase := .done }
  | (false, s) => enterBackoff t s

def killFailed (errno : Int) : Bool := errno ≠ 0 && errno ≠ esrch

def killError (strerror : Int → String) (errno : Int) : Error :=
  makeErrnoError errno "ProducerSupervisor::kill" (strerror errno)

def backoffPhase (t : Tick) (s : SupervisorState) : SupervisorState :=
  if t.phaseNow ≥ s.backoffDeadline then { s with phase := .spawn } else s

/-- The child that was just spawned is put under observation. -/
def watchChild (t : Tick) (s : SupervisorState) : SupervisorState :=
  match t.watch with
  | .error _ =>
      if killFailed t.sigkillErrno then failLoop (killError t.strerror t.sigkillErrno) s
      else
        match t.waitBlocking with
        | .error e => failLoop e s
        | .ok status =>
            failAttempt t { s with
              childReaped := true
              lastExitStatus := status
              children := s.children.erase s.childPid }
  | .ok _ =>
      let s := { s with pidfdOpen := true }
      match t.addPidfd with
      | .error e => failLoop e s
      | .ok _ =>
          match if s.stdoutOpen then t.addStdout else .ok () with
          | .error e => failLoop e s
          | .ok _ =>
              let deadline := deadlineFrom t.deadlineNow (msToNs s.options.createTimeoutMs)
              let s := { s with createDeadline := deadline }
              if deadline = 0 then failLoop clockError s else { s with phase := .awaitReady }

def spawnPhase (t : Tick) (s : SupervisorState) : SupervisorState :=
  let s := { s with
    haveView := false
    stdoutTail := []
    spawnAttempts := (s.spawnAttempts + 1) % 2 ^ 32
    attempts := s.attempts + 1
    ownSpawn := none }
  match t.spawn with
  | .error _ => failAttempt t s
  | .ok child =>
      let s := { s with
        childPid := child.pid
        stdoutOpen := child.stdoutRead
        childReaped := false
        childKillInProgress := false
        reapDecision := .undecided
        lastSpawnMonoNs := t.spawnNow
        children := s.children ++ [child.pid]
        ownSpawn := some t.spawnNow
        spawnTimes := s.spawnTimes ++ [t.spawnNow] }
      if t.spawnNow = 0 then failLoop clockError s
      else
        watchChild t { s with
          childStartTicks := match t.startTicks with
            | .ok ticks => ticks
            | .error _ => 0 }

/-- The header is READY and carries the identity of the child. -/
def isOurs (s : SupervisorState) (header : ObservedHeader) : Bool :=
  match header.producer with
  | .ok id => header.initState = InitState.ready.code && (id.pid : Int) = s.childPid &&
      id.procStartTicks = s.childStartTicks
  | .error _ => false

/-- The generation follows the last one that was accepted. -/
def generationFits (s : SupervisorState) (generation : Nat) : Bool :=
  s.baselineGeneration = 0 ||
    (s.baselineGeneration ≠ uint64Max && generation = s.baselineGeneration + 1)

def accept (generation : Nat) (s : SupervisorState) : SupervisorState :=
  let s := { s with
    baselineGeneration := generation
    haveView := true
    accepted := s.accepted ++ [generation] }
  { s.emit ⟨.supervised, s.childPid, generation, 0, 0, 0⟩ with phase := .monitor }

/-- The rest of the wait for READY, when this look did not accept the child. -/
def stillWaiting (t : Tick) (s : SupervisorState) : SupervisorState :=
  if s.childReaped then failAttempt t s
  else if t.phaseNow ≥ s.createDeadline then { s with killThenRestart := true, phase := .kill }
  else s

def awaitReadyPhase (t : Tick) (s : SupervisorState) : SupervisorState :=
  match t.view with
  | some header =>
      if isOurs s header && generationFits s header.generation then
        accept header.generation s
      else stillWaiting t s
  | none => stillWaiting t s

def monitorPhase (t : Tick) (s : SupervisorState) : SupervisorState :=
  if s.childReaped then
    if s.reapDecision = .cleanExit then
      { s with
        outcome := .cleanExit
        resultExitStatus := s.lastExitStatus
        phase := .done }
    else failAttempt t s
  else if s.haveView && t.stall = .stalled then
    let s := { s with reapDecision := .restart, killThenRestart := true }
    { s.emit ⟨.stallDetected, s.childPid, 0, 0, 0, 0⟩ with phase := .kill }
  else s

/-- Whether the child is gone, with its exit status. -/
def reapChild (answer : Except Error (Option Int)) (s : SupervisorState) :
    Except Error (Bool × Int × SupervisorState) :=
  if s.childPid ≤ 0 then .ok (true, 0, s)
  else if s.childReaped then .ok (true, s.lastExitStatus, s)
  else
    match answer with
    | .error e => .error e
    | .ok (some status) =>
        .ok (true, status, { s with
          childReaped := true
          lastExitStatus := status
          pidfdOpen := false
          children := s.children.erase s.childPid })
    | .ok none => .ok (false, 0, s)

/-- SIGTERM first; the kill phase is entered again until the child is gone. -/
def armChildKill (t : Tick) (s : SupervisorState) : SupervisorState :=
  if s.childKillInProgress then s
  else if killFailed t.sigtermErrno then failLoop (killError t.strerror t.sigtermErrno) s
  else
    let deadline := deadlineFrom t.graceNow (msToNs s.options.stallGraceMs)
    let s := { s with childKillInProgress := true, graceDeadline := deadline }
    if deadline = 0 then failLoop clockError s else s

/-- SIGKILL once the grace period is over. -/
def escalateKill (t : Tick) (s : SupervisorState) : SupervisorState :=
  if t.phaseNow ≥ s.graceDeadline then
    if killFailed t.sigkillErrno then failLoop (killError t.strerror t.sigkillErrno) s
    else { s.emit ⟨.killed, s.childPid, 0, 0, 0, 9⟩ with graceDeadline := uint64Max }
  else s

def killChild (t : Tick) (s : SupervisorState) : SupervisorState :=
  if s.childPid > 0 ∧ s.childReaped = false then
    let s := armChildKill t s
    if s.phase = .done then s else escalateKill t s
  else s

/-- What a reaped child means at the end of the kill phase. -/
def killed (t : Tick) (s : SupervisorState) : SupervisorState :=
  if s.killThenRestart then failAttempt t { s with killThenRestart := false }
  else { s with outcome := .stopped, phase := .done }

def killPhase (t : Tick) (s : SupervisorState) : SupervisorState :=
  let s := killChild t s
  if s.phase = .done then s
  else
    match reapChild t.waitKill s with
    | .error e => failLoop e s
    | .ok (true, _, s) => killed t s
    | .ok (false, _, s) => s

def phaseStep (t : Tick) (s : SupervisorState) : SupervisorState :=
  match s.phase with
  | .backoff => backoffPhase t s
  | .spawn => spawnPhase t s
  | .awaitReady => awaitReadyPhase t s
  | .monitor => monitorPhase t s
  | .kill => killPhase t s
  | .done => s

def checkStop (t : Tick) (s : SupervisorState) : SupervisorState :=
  if t.stopRequested then { s with killThenRestart := false, phase := .kill } else s

def stdoutTailLimit : Nat := 4096

def appendStdoutTail (tail data : List Nat) : List Nat :=
  if data.length ≥ stdoutTailLimit then data.drop (data.length - stdoutTailLimit)
  else if tail.length + data.length > stdoutTailLimit then
    tail.drop (tail.length + data.length - stdoutTailLimit) ++ data
  else tail ++ data

/-- Read until the pipe has nothing more to say. -/
def drainChildStdout : List ReadOutcome → SupervisorState → SupervisorState
  | [], s => s
  | .data [] :: _, s => { s with stdoutOpen := false }
  | .data bytes :: rest, s =>
      drainChildStdout rest { s with stdoutTail := appendStdoutTail s.stdoutTail bytes }
  | .errno e :: rest, s =>
      if e = eagain then s
      else if e = eintr then drainChildStdout rest s
      else { s with stdoutOpen := false }

/-- Reading the child's output changes nothing the run depends on. -/
theorem drainChildStdout_eq (reads : List ReadOutcome) (s : SupervisorState) :
    ∃ tail more, drainChildStdout reads s = { s with stdoutTail := tail, stdoutOpen := more } := by
  induction reads generalizing s with
  | nil => exact ⟨_, _, rfl⟩
  | cons read rest ih =>
      cases read with
      | data bytes =>
          cases bytes with
          | nil => exact ⟨_, _, rfl⟩
          | cons b bs => exact ih { s with stdoutTail := appendStdoutTail s.stdoutTail (b :: bs) }
      | errno e =>
          rw [drainChildStdout]
          split
          · exact ⟨_, _, rfl⟩
          · split
            · exact ih s
            · exact ⟨_, _, rfl⟩

def isCleanExitStatus (status : Int) : Bool :=
  let signal := status.toNat % 128
  if signal = 0 then status.toNat / 256 % 256 = 0 else signal = 15 || signal = 2

def decideReap (status : Int) (s : SupervisorState) : SupervisorState :=
  if s.reapDecision = .undecided then
    { s with reapDecision := if isCleanExitStatus status then .cleanExit else .restart }
  else s

/-- The events of one wait, in order. -/
def handleEvents (t : Tick) : List ReadyFd → SupervisorState → SupervisorState
  | [], s => s
  | .stop :: rest, s | .signal :: rest, s =>
      handleEvents t rest { s with killThenRestart := false, phase := .kill }
  | .pidfd :: rest, s =>
      if s.pidfdOpen then
        match reapChild t.waitEvent s with
        | .error e => failLoop e s
        | .ok (true, status, s) => handleEvents t rest (decideReap status s)
        | .ok (false, _, s) => handleEvents t rest s
      else handleEvents t rest s
  | .stdout :: rest, s =>
      handleEvents t rest (if s.stdoutOpen then drainChildStdout t.reads s else s)

def awaitReadySliceNs : Nat := 100000000

/-- How long the wait of an iteration may take. -/
def waitSlice (t : Tick) (s : SupervisorState) : Nat :=
  let slice := msToNs s.options.watchIntervalMs
  match s.phase with
  | .awaitReady => awaitReadySliceNs
  | .backoff => s.backoffDeadline - t.waitNow
  | .kill => if s.childKillInProgress then min (s.graceDeadline - t.waitNow) slice else slice
  | _ => slice

def waitEvents (t : Tick) (s : SupervisorState) : SupervisorState :=
  let s := { s with epollTimeoutMs := nsToEpollMs (waitSlice t s) }
  match t.events with
  | .error errno =>
      if errno = eintr then s
      else failLoop
        (makeErrnoError errno "ProducerSupervisor::epoll_wait" (t.strerror errno)) s
  | .ok ready => handleEvents t ready s

/-- One iteration of the loop. -/
def iterate (s : SupervisorState) (t : Tick) : SupervisorState :=
  if s.phase = .done then s
  else
    let s := phaseStep t (checkStop t s)
    if s.phase = .done then s else waitEvents t s

/-- The state after a number of iterations. -/
def runFor (options : SupervisorOptions) (ticks : List Tick) : SupervisorState :=
  ticks.foldl iterate (start options)

/-- What the system answers after the loop. -/
structure Tail where
  strerror : Int → String
  sigkillErrno : Int
  waitBlocking : Except Error Int
  reads : List ReadOutcome
  restoreErrno : Int

structure SupervisionResult where
  outcome : SupervisionOutcome
  spawnAttempts : Nat
  restarts : Nat
  lastGeneration : Nat
  lastChildPid : Int
  lastChildExitStatus : Int
  stdoutTail : List Nat
  deriving DecidableEq, Repr

/-- The first error is the one that is reported. -/
def noteError (e : Error) (s : SupervisorState) : SupervisorState :=
  { s with loopError := some (s.loopError.getD e) }

/-- No child outlives the run. -/
def reapLastChild (tail : Tail) (s : SupervisorState) : SupervisorState :=
  if s.childPid > 0 ∧ s.childReaped = false then
    if killFailed tail.sigkillErrno then noteError (killError tail.strerror tail.sigkillErrno) s
    else
      match tail.waitBlocking with
      | .ok status => { s with
          childReaped := true
          lastExitStatus := status
          children := s.children.erase s.childPid }
      | .error e => noteError e s
  else s

/-- The state in which the run returns. -/
def cleanUp (tail : Tail) (s : SupervisorState) : SupervisorState :=
  let s := reapLastChild tail s
  if s.stdoutOpen then drainChildStdout tail.reads s else s

/-- Besides the last child only its output is seen to. -/
theorem cleanUp_eq (tail : Tail) (s : SupervisorState) :
    ∃ stdoutTail stdoutOpen,
      cleanUp tail s = { reapLastChild tail s with stdoutTail, stdoutOpen } := by
  unfold cleanUp
  dsimp only
  split
  · exact drainChildStdout_eq tail.reads (reapLastChild tail s)
  · exact ⟨_, _, rfl⟩

def finishRun (tail : Tail) (s : SupervisorState) : Except Error SupervisionResult :=
  let s := cleanUp tail s
  match s.loopError with
  | some e => .error e
  | none =>
      if tail.restoreErrno ≠ 0 then
        .error (makeErrnoError tail.restoreErrno "ProducerSupervisor::run"
          "restore pthread signal mask")
      else
        .ok ⟨s.outcome, s.spawnAttempts, s.spawnAttempts - 1, s.baselineGeneration, s.childPid,
          if s.childReaped then s.lastExitStatus else s.resultExitStatus, s.stdoutTail⟩

end SupervisorState
end EdgeRuntime

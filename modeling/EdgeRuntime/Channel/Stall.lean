import EdgeRuntime.Channel.Recovery
import EdgeRuntime.Process.StatLine
import EdgeRuntime.Supervisor.Loop

/-!
The verdict that a producer has stalled, as the observer of a supervised child and a
consumer whose wait timed out take it. Both read two timestamps that are zero until the
first publish and the first heartbeat, and both take a zero heartbeat for a missed one.
-/
namespace EdgeRuntime
open Concurrent

section
variable (header : ChannelHeaderAbi)

/-- The verdict on the two timestamps of a producer with the expected identity. -/
def classifyStamps (nowBootNs lastPublish lastBeat : Nat) : StallClass :=
  let interval := header.heartbeatIntervalNs
  if nowBootNs = 0 then .notApplicable
  else if lastPublish ≠ 0 ∧ !elapsedExceeds nowBootNs lastPublish interval then .fresh
  else if lastBeat = 0 ∨
      elapsedExceeds nowBootNs lastBeat (saturatingMulU64 interval heartbeatStallFactor) then
    .stalled
  else .fresh

def classifyStall (nowBootNs expectedPid expectedStartTicks : Nat) :
    ChannelCode StallClass := do
  let state ← sharedLoad .initState
  if state ≠ InitState.ready.code then return .notReady
  else
    let seen ← (identitySnapshotRead true).attempt
    match seen with
    | .error _ => return .identityMismatch
    | .ok id =>
        if id.pid ≠ expectedPid ∨ id.procStartTicks ≠ expectedStartTicks then
          return .identityMismatch
        else if header.heartbeatIntervalNs = 0 then return .notApplicable
        else
          let lastPublish ← sharedLoad .lastPublishBootNs
          let lastBeat ← sharedLoad .heartbeatBootNs
          return classifyStamps header nowBootNs lastPublish lastBeat

end

/-- Both stamps are missing or too old. -/
def StampsStale (header : ChannelHeaderAbi) (now lastPublish lastBeat : Nat) : Prop :=
  (lastPublish = 0 ∨ elapsedExceeds now lastPublish header.heartbeatIntervalNs) ∧
    (lastBeat = 0 ∨ elapsedExceeds now lastBeat
      (saturatingMulU64 header.heartbeatIntervalNs heartbeatStallFactor))

instance (header : ChannelHeaderAbi) (now lastPublish lastBeat : Nat) :
    Decidable (StampsStale header now lastPublish lastBeat) :=
  inferInstanceAs (Decidable (_ ∧ _))

theorem classifyStamps_stalled {header : ChannelHeaderAbi} {now lastPublish lastBeat : Nat} :
    classifyStamps header now lastPublish lastBeat = .stalled ↔
      now ≠ 0 ∧ StampsStale header now lastPublish lastBeat := by
  unfold classifyStamps StampsStale
  dsimp only
  split_ifs with zero published beat
  · exact iff_of_false nofun fun h => h.1 zero
  · refine iff_of_false nofun fun h => ?_
    have recent := published.2
    rw [Bool.not_eq_true'] at recent
    rcases h.2.1 with none | late
    · exact published.1 none
    · exact Bool.false_ne_true (recent.symm.trans late)
  · refine iff_of_true rfl ⟨zero, ?_, beat⟩
    by_cases none : lastPublish = 0
    · exact .inl none
    · refine .inr (eq_true_of_ne_false fun recent => published ⟨none, ?_⟩)
      rw [Bool.not_eq_true']
      exact recent
  · exact iff_of_false nofun fun h => beat h.2.2

/-- What both verdicts are meant to say, in numbers without a bound. -/
def Stalled (now interval lastPublish lastBeat : Int) : Prop :=
  interval > 0 ∧ now > 0 ∧ (lastPublish = 0 ∨ now - lastPublish > interval) ∧
    (lastBeat = 0 ∨ now - lastBeat > 3 * interval)

theorem elapsedExceeds_iff {now before limit : Nat} :
    elapsedExceeds now before limit = true ↔ (now : Int) - before > limit := by
  unfold elapsedExceeds
  simp only [Bool.and_eq_true, decide_eq_true_eq]
  omega

/-- A limit that saturates is never passed, and neither is the one it stands for. -/
theorem elapsedExceeds_saturating {now before interval factor : Nat} (word : now ≤ uint64Max) :
    elapsedExceeds now before (saturatingMulU64 interval factor) = true ↔
      (now : Int) - before > (interval * factor : Nat) := by
  rw [elapsedExceeds_iff, saturatingMulU64]
  by_cases fits : interval * factor ≤ uint64Max
  · rw [checkedMulU64_of_le fits]
    exact Iff.rfl
  · cases product : checkedMulU64 interval factor with
    | none =>
        rw [Option.getD_none]
        omega
    | some limit =>
        obtain ⟨rfl, below⟩ := checkedMulU64_some product
        exact absurd below fits

theorem stampsStale_iff {header : ChannelHeaderAbi} {now lastPublish lastBeat : Nat}
    (word : now ≤ uint64Max) :
    header.heartbeatIntervalNs ≠ 0 ∧ now ≠ 0 ∧ StampsStale header now lastPublish lastBeat ↔
      Stalled now header.heartbeatIntervalNs lastPublish lastBeat := by
  unfold StampsStale Stalled
  rw [elapsedExceeds_iff, elapsedExceeds_saturating word, heartbeatStallFactor]
  omega

/-- With newer stamps nothing is stalled that was not. -/
theorem Stalled.of_newer {now interval publish publish' beat beat' : Nat}
    (stalled : Stalled now interval publish' beat') (published : publish ≤ publish')
    (beaten : beat ≤ beat') : Stalled now interval publish beat := by
  unfold Stalled at stalled ⊢
  omega

/-- A time inside the window that starts at `start` is not past the limit for any later
stamp. -/
theorem elapsedExceeds_within {now start before limit : Nat} (later : start ≤ before)
    (within : now ≤ start + limit) : elapsedExceeds now before limit = false := by
  unfold elapsedExceeds
  simp only [Bool.and_eq_false_iff, decide_eq_false_iff_not]
  omega

namespace ChannelSystem
variable {q : ChannelSystem} {probe : ChannelWorld → Nat → Nat → Liveness}
  {now : ChannelWorld → Nat} {t : Endpoint} {w w' : ChannelWorld}

/-- The stall limit a producer with these options is held to. -/
def stallWindow (options : ChannelOptions) : Nat :=
  saturatingMulU64 (heartbeatIntervalOf options) heartbeatStallFactor

/-- No verdict taken now, by the observer or by a consumer that timed out, says that the
producer has stalled. -/
def NotStalled (q : ChannelSystem) (probe : ChannelWorld → Nat → Nat → Liveness)
    (t : Endpoint) (w : ChannelWorld) (now : Nat) : Prop :=
  (∀ pid ticks, q.memory.Alone probe (fun _ => now) t (fun x _ => x ≠ .ok .stalled)
      (classifyStall q.header now pid ticks) w) ∧
    ∀ operation, q.memory.Alone probe (fun _ => now) t
      (fun x _ => ∀ e, x = .ok e → e.code ≠ .producerStalled)
      (classifyWaitTimeout q.header operation) w

/-- A stamp tells that the producer has been active: it has sent a heartbeat, or its
last publish is not an interval old. -/
def Active (q : ChannelSystem) (w : ChannelWorld) (now : Nat) : Prop :=
  w.mem .heartbeatBootNs ≠ 0 ∨ w.mem .lastPublishBootNs ≠ 0 ∧
    elapsedExceeds now (w.mem .lastPublishBootNs) (heartbeatIntervalOf q.options) = false

instance (q : ChannelSystem) (w : ChannelWorld) (now : Nat) : Decidable (q.Active w now) :=
  inferInstanceAs (Decidable (_ ∨ _))

/-- The stamps of the segment were made after `start`, if they were made at all. -/
def StampedSince (w : ChannelWorld) (start : Nat) : Prop :=
  (w.mem .lastPublishBootNs = 0 ∨ start ≤ w.mem .lastPublishBootNs) ∧
    (w.mem .heartbeatBootNs = 0 ∨ start ≤ w.mem .heartbeatBootNs)

section
variable {start time : Nat}

/-- Both stamps of the segment are missing or too old. -/
def Stale (q : ChannelSystem) (w : ChannelWorld) (now : Nat) : Prop :=
  (w.mem .lastPublishBootNs = 0 ∨
      elapsedExceeds now (w.mem .lastPublishBootNs) (heartbeatIntervalOf q.options)) ∧
    (w.mem .heartbeatBootNs = 0 ∨
      elapsedExceeds now (w.mem .heartbeatBootNs) (stallWindow q.options))

/-- Inside the window a heartbeat is never too old, whenever it was made. -/
theorem stale_iff (stamped : StampedSince w start)
    (within : time ≤ start + stallWindow q.options) : q.Stale w time ↔ ¬ q.Active w time := by
  constructor
  · rintro ⟨publish, beat⟩ (beaten | ⟨published, recent⟩)
    · have inside := elapsedExceeds_within (stamped.2.resolve_left beaten) within
      rw [inside] at beat
      exact beaten (beat.resolve_right nofun)
    · rw [recent] at publish
      exact published (publish.resolve_right nofun)
  · intro quiet
    obtain ⟨beat, publish⟩ := not_or.1 quiet
    refine ⟨?_, .inl (not_not.1 beat)⟩
    by_cases published : w.mem .lastPublishBootNs = 0
    · exact .inl published
    · exact .inr (eq_true_of_ne_false fun recent => publish ⟨published, recent⟩)

/-- The observer, shown the identity it expects, judges by the stamps. -/
theorem alone_classifyStall {header : ChannelHeaderAbi} {pid ticks : Nat}
    (ready : w.mem .initState = InitState.ready.code)
    (even : w.mem (.identity true .roleEpoch) % 2 = 0) :
    q.memory.Alone probe now t
      (fun x _ => x = .ok (if (identityAt true w.mem).pid ≠ pid ∨
          (identityAt true w.mem).procStartTicks ≠ ticks then .identityMismatch
        else if header.heartbeatIntervalNs = 0 then .notApplicable
        else classifyStamps header time (w.mem .lastPublishBootNs) (w.mem .heartbeatBootNs)))
      (classifyStall header time pid ticks) w := by
  rw [classifyStall]
  apply Memory.alone_load
  change q.memory.Alone probe now t _ (if w.mem .initState ≠ _ then _ else _) w
  rw [if_neg (not_not.2 ready)]
  refine Memory.alone_attempt_seq (alone_identitySnapshotRead even) ?_
  rintro _ w' ⟨rfl, rfl⟩
  dsimp only
  split_ifs with mismatch zero
  · rfl
  · rfl
  · apply Memory.alone_load
    apply Memory.alone_load
    rfl

/-- A consumer judges a live producer by the stamps. -/
theorem alone_classifyAliveProducer {header : ChannelHeaderAbi} {operation : String} :
    q.memory.Alone probe (fun _ => time) t
      (fun x _ => x = .ok (if header.heartbeatIntervalNs ≠ 0 ∧ time ≠ 0 ∧
          StampsStale header time (w.mem .lastPublishBootNs) (w.mem .heartbeatBootNs) then
          makeError .producerStalled operation "producer alive, heartbeat stale"
        else makeError .dataStale operation "producer alive but no new sample"))
      (classifyAliveProducer header operation) w := by
  rw [classifyAliveProducer]
  apply Memory.alone_boottime
  apply Memory.alone_load
  apply Memory.alone_load
  dsimp only
  split_ifs with stale calm calm
  · rfl
  · exact absurd stale calm
  · exact absurd calm stale
  · rfl

/-- A consumer that waited in vain for a live producer. -/
theorem alone_classifyWaitTimeout_alive {header : ChannelHeaderAbi} {operation : String}
    (even : w.mem (.identity true .roleEpoch) % 2 = 0)
    (owned : w.mem .producerState = EndpointState.online.code ∨
      w.mem .producerState = EndpointState.stopping.code ∨
      w.mem .producerState = EndpointState.fault.code)
    (known : (identityAt true w.mem).pid ≠ 0)
    (alive : probe w (identityAt true w.mem).pid (identityAt true w.mem).procStartTicks =
      .alive) :
    q.memory.Alone probe (fun _ => time) t
      (fun x _ => x = .ok (if header.heartbeatIntervalNs ≠ 0 ∧ time ≠ 0 ∧
          StampsStale header time (w.mem .lastPublishBootNs) (w.mem .heartbeatBootNs) then
          makeError .producerStalled operation "producer alive, heartbeat stale"
        else makeError .dataStale operation "producer alive but no new sample"))
      (classifyWaitTimeout header operation) w := by
  rw [classifyWaitTimeout]
  apply Memory.alone_load
  have online : ¬ (w.mem .producerState ≠ EndpointState.online.code ∧
      w.mem .producerState ≠ EndpointState.stopping.code ∧
      w.mem .producerState ≠ EndpointState.fault.code) := by
    rintro ⟨first, second, third⟩
    exact owned.elim first fun rest => rest.elim second third
  change q.memory.Alone probe _ t _ (if w.mem .producerState ≠ _ ∧ w.mem .producerState ≠ _ ∧
    w.mem .producerState ≠ _ then _ else _) w
  rw [if_neg online]
  refine Memory.alone_attempt_seq (alone_identitySnapshotRead even) ?_
  rintro _ w' ⟨rfl, rfl⟩
  dsimp only
  rw [if_neg known]
  apply Memory.alone_probe
  rw [alive]
  exact alone_classifyAliveProducer

theorem alone_classifyWaitTimeout {operation : String}
    (even : w.mem (.identity true .roleEpoch) % 2 = 0)
    (calm : time = 0 ∨ ¬ q.Stale w time) :
    q.memory.Alone probe (fun _ => time) t
      (fun x _ => ∀ e, x = .ok e → e.code ≠ .producerStalled)
      (classifyWaitTimeout q.header operation) w := by
  rw [classifyWaitTimeout]
  apply Memory.alone_load
  split_ifs with offline
  · rintro _ ⟨⟩ ⟨⟩
  · refine Memory.alone_attempt_seq (alone_identitySnapshotRead even) ?_
    rintro _ w' ⟨rfl, rfl⟩
    dsimp only
    split_ifs with unknown
    · rintro _ ⟨⟩ ⟨⟩
    · apply Memory.alone_probe
      split
      · refine Memory.alone_mono ?_ alone_classifyAliveProducer
        rintro _ _ rfl e stalled
        rw [if_neg] at stalled
        · cases stalled
          rintro ⟨⟩
        · rintro ⟨-, nonzero, stale⟩
          exact calm.elim nonzero fun fresh => fresh stale
      all_goals
        rintro _ ⟨⟩ ⟨⟩

/-- Inside its stall window a producer that has never been late is reported as stalled
exactly while it has sent no heartbeat and its last publish, if any, is an interval old. -/
theorem not_stalled_iff (interval : heartbeatIntervalOf q.options ≠ 0)
    (ready : w.mem .initState = InitState.ready.code)
    (even : w.mem (.identity true .roleEpoch) % 2 = 0) (stamped : StampedSince w start)
    (within : time ≤ min uint64Max (start + stallWindow q.options)) :
    q.NotStalled probe t w time ↔ time = 0 ∨ q.Active w time := by
  have within : time ≤ start + stallWindow q.options := Nat.le_trans within (Nat.min_le_right ..)
  have stale := stale_iff (q := q) stamped within
  constructor
  · rintro ⟨observer, -⟩
    by_contra quiet
    obtain ⟨nonzero, quiet⟩ := not_or.1 quiet
    have late : StampsStale q.header time (w.mem .lastPublishBootNs) (w.mem .heartbeatBootNs) :=
      stale.2 quiet
    have stalled := classifyStamps_stalled.2 ⟨nonzero, late⟩
    refine observer (identityAt true w.mem).pid (identityAt true w.mem).procStartTicks
      ((alone_classifyStall ready even).trans ?_)
    rw [if_neg (by simp)]
    exact congrArg Except.ok ((if_neg interval).trans stalled)
  · intro active
    have calm : time = 0 ∨ ¬ q.Stale w time := by
      rw [stale, not_not]
      exact active
    refine ⟨fun pid ticks => ?_, fun operation => alone_classifyWaitTimeout even calm⟩
    refine Memory.alone_mono ?_ (alone_classifyStall ready even)
    rintro _ _ rfl verdict
    have verdict := Except.ok.inj verdict
    split_ifs at verdict
    obtain ⟨nonzero, stale⟩ := classifyStamps_stalled.1 verdict
    exact calm.elim nonzero fun fresh => fresh stale

/-- A producer that promises a heartbeat every thousand nanoseconds. -/
def beating : ChannelSystem :=
  { tiny with
    options := { tiny.options with heartbeatIntervalNs := 1000 }
    valid := by decide +kernel
    mapping_eq := tiny.mapping_eq }

/-- It has sent its first heartbeat. -/
def beatenWorld : ChannelWorld :=
  { beating.init fun _ _ => 0 with
    mem := (beating.init fun _ _ => 0).mem.set .heartbeatBootNs 5 }

/-- Before its first heartbeat it counts as stalled, afterwards not, to the end of its
window. -/
theorem not_stalled_iff_beating :
    ¬ beating.NotStalled (fun _ _ _ => .alive) (.consumer 0) (beating.init fun _ _ => 0) 5 ∧
      beating.NotStalled (fun _ _ _ => .alive) (.consumer 0) beatenWorld 3005 := by
  constructor
  · rw [not_stalled_iff (by decide) rfl rfl (show StampedSince _ 5 from ⟨.inl rfl, .inl rfl⟩)
      (by decide)]
    decide
  · refine (not_stalled_iff (by decide) rfl rfl
      (show StampedSince _ 5 from ⟨.inl rfl, .inr (Nat.le_refl 5)⟩) (by decide)).2 (.inr ?_)
    decide

/-- Right after its creation, at the first instant of its window, it counts as stalled,
for the observer and for a consumer alike. -/
theorem stalled_at_creation :
    heartbeatIntervalOf beating.options ≠ 0 ∧
      StampedSince (beating.init fun _ _ => 0) 5 ∧
      5 ≤ min uint64Max (5 + stallWindow beating.options) ∧
      (beating.memory.alone (fun _ _ _ => .alive) (fun _ => 5) (.consumer 0)
        (classifyStall beating.header 5 1 1) (beating.init fun _ _ => 0)).1 = .ok .stalled ∧
      (beating.memory.alone (fun _ _ _ => .alive) (fun _ => 5) (.consumer 0)
        (classifyWaitTimeout beating.header "Consumer::wait_latest")
        (beating.init fun _ _ => 0)).1 =
        .ok (makeError .producerStalled "Consumer::wait_latest"
          "producer alive, heartbeat stale") :=
  ⟨by decide, ⟨.inl rfl, .inl rfl⟩, by decide, rfl, rfl⟩

end

section Agreement
variable {table : ProcessTable} {header : ChannelHeaderAbi} {operation : String} {time : Nat}

/-- What a consumer concludes whose wait timed out at `time`. -/
def waitVerdict (q : ChannelSystem) (table : ProcessTable) (header : ChannelHeaderAbi)
    (operation : String) (time : Nat) (t : Endpoint) (w : ChannelWorld) : Except Error Error :=
  (q.memory.alone (fun _ => table.probeLiveness) (fun _ => time) t
    (classifyWaitTimeout header operation) w).1

/-- What the supervisor concludes at `time` that expects the identity in the segment. -/
def observerVerdict (q : ChannelSystem) (table : ProcessTable) (header : ChannelHeaderAbi)
    (time : Nat) (t : Endpoint) (w : ChannelWorld) : Except Error StallClass :=
  (q.memory.alone (fun _ => table.probeLiveness) (fun _ => time) t
    (classifyStall header time (identityAt true w.mem).pid
      (identityAt true w.mem).procStartTicks) w).1

/-- The segment of a live producer, ready and with a complete identity in it. -/
structure Judged (table : ProcessTable) (w : ChannelWorld) : Prop where
  ready : w.mem .initState = InitState.ready.code
  even : w.mem (.identity true .roleEpoch) % 2 = 0
  owned : w.mem .producerState = EndpointState.online.code ∨
    w.mem .producerState = EndpointState.stopping.code ∨
    w.mem .producerState = EndpointState.fault.code
  alive : table.probeLiveness (identityAt true w.mem).pid
    (identityAt true w.mem).procStartTicks = .alive

theorem Judged.known (h : Judged table w) : (identityAt true w.mem).pid ≠ 0 := by
  intro zero
  have alive := h.alive
  rw [zero, table.probeLiveness_zero] at alive
  cases alive

theorem observerVerdict_stalled (h : Judged table w) (word : time ≤ uint64Max) :
    q.observerVerdict table header time t w = .ok .stalled ↔
      Stalled time header.heartbeatIntervalNs (w.mem .lastPublishBootNs)
        (w.mem .heartbeatBootNs) := by
  have verdict : q.observerVerdict table header time t w = _ :=
    alone_classifyStall h.ready h.even
  rw [verdict, if_neg (by simp), ← stampsStale_iff word]
  constructor
  · intro stalled
    have stalled := Except.ok.inj stalled
    split_ifs at stalled with off
    exact ⟨off, classifyStamps_stalled.1 stalled⟩
  · rintro ⟨on, stale⟩
    rw [if_neg on, classifyStamps_stalled.2 stale]

open Classical in
theorem waitVerdict_eq (h : Judged table w) (word : time ≤ uint64Max) :
    q.waitVerdict table header operation time t w =
      .ok (if Stalled time header.heartbeatIntervalNs (w.mem .lastPublishBootNs)
          (w.mem .heartbeatBootNs) then
        makeError .producerStalled operation "producer alive, heartbeat stale"
      else makeError .dataStale operation "producer alive but no new sample") := by
  have verdict : q.waitVerdict table header operation time t w = _ :=
    alone_classifyWaitTimeout_alive h.even h.owned h.known h.alive
  rw [verdict]
  congr 1
  exact if_congr (stampsStale_iff word) rfl rfl

/-- A newer stamp leaves the rest of the segment as it was. -/
theorem Judged.stamp (h : Judged table w) {l : ChannelLoc} {v : Nat}
    (stamp : l = .lastPublishBootNs ∨ l = .heartbeatBootNs) :
    Judged table { w with mem := w.mem.set l v } := by
  rcases stamp with rfl | rfl
  · exact ⟨h.ready, h.even, h.owned, h.alive⟩
  · exact ⟨h.ready, h.even, h.owned, h.alive⟩

/-- The consumer and the supervisor agree on when a live producer has stalled, and both
say what the timestamps say in numbers without a bound. A newer stamp never makes a
producer stalled that was not. -/
theorem stall_verdicts_agree (q : ChannelSystem) (table : ProcessTable)
    (header : ChannelHeaderAbi) (operation : String) (t : Endpoint) (w : ChannelWorld)
    (time : Nat) (judged : Judged table w) (word : time ≤ uint64Max) :
    (q.waitVerdict table header operation time t w =
        .ok (makeError .producerStalled operation "producer alive, heartbeat stale") ↔
      q.observerVerdict table header time t w = .ok .stalled) ∧
    (q.observerVerdict table header time t w ≠ .ok .stalled →
      q.waitVerdict table header operation time t w =
        .ok (makeError .dataStale operation "producer alive but no new sample")) ∧
    (q.observerVerdict table header time t w = .ok .stalled ↔
      Stalled time header.heartbeatIntervalNs (w.mem .lastPublishBootNs)
        (w.mem .heartbeatBootNs)) ∧
    (∀ l v, (l = .lastPublishBootNs ∨ l = .heartbeatBootNs) → w.mem l ≤ v →
      q.observerVerdict table header time t w ≠ .ok .stalled →
      q.observerVerdict table header time t { w with mem := w.mem.set l v } ≠ .ok .stalled ∧
        q.waitVerdict table header operation time t { w with mem := w.mem.set l v } =
          .ok (makeError .dataStale operation "producer alive but no new sample")) := by
  have observer : q.observerVerdict table header time t w = .ok .stalled ↔ _ :=
    observerVerdict_stalled judged word
  have wait : q.waitVerdict table header operation time t w = _ := waitVerdict_eq judged word
  refine ⟨?_, ?_, observer, ?_⟩
  · rw [wait, observer]
    constructor
    · intro same
      by_contra calm
      rw [if_neg calm] at same
      cases same
    · intro stalled
      rw [if_pos stalled]
  · intro calm
    rw [wait, if_neg (calm ∘ observer.2)]
  · intro l v stamp newer calm
    have still : ¬ Stalled time header.heartbeatIntervalNs
        (w.mem.set l v .lastPublishBootNs : Nat) (w.mem.set l v .heartbeatBootNs : Nat) := by
      intro stalled
      apply calm
      rw [observer]
      rcases stamp with rfl | rfl
      · exact stalled.of_newer newer (Nat.le_refl _)
      · exact stalled.of_newer (Nat.le_refl _) newer
    rw [Ne, observerVerdict_stalled (judged.stamp stamp) word,
      waitVerdict_eq (judged.stamp stamp) word, if_neg still]
    exact ⟨still, rfl⟩

/-- A process table in which every process is alive and started at its first tick. -/
def allAlive : ProcessTable where
  pidfdOpen _ := 0
  poll _ := .quiet
  statOpened _ := .ok ()
  stat _ := .ok (statLine [49] [] (List.replicate 19 [48] ++ [[49]]))

/-- Two and a half intervals after the last heartbeat, without any publish. -/
theorem stall_verdicts_agree_beating :
    (beating.observerVerdict allAlive beating.header 2505 (.consumer 0)
        { beating.init (fun _ _ => 0) with
          mem := (beating.init fun _ _ => 0).mem.set .heartbeatBootNs 5 } = .ok .stalled) ↔
      Stalled 2505 1000 0 5 :=
  (stall_verdicts_agree beating allAlive beating.header "Consumer::wait_latest" (.consumer 0)
    { beating.init (fun _ _ => 0) with
      mem := (beating.init fun _ _ => 0).mem.set .heartbeatBootNs 5 } 2505
    ⟨rfl, rfl, .inl rfl, by decide +kernel⟩ (by decide)).2.2.1

end Agreement
end ChannelSystem
end EdgeRuntime

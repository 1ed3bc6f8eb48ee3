import EdgeRuntime.Channel.Consumer
import EdgeRuntime.Channel.Producer
import EdgeRuntime.Sync.AccessRules

/-!
The parts of a call that only look, and the errors the producer's can end with.
-/
namespace EdgeRuntime
open Concurrent

/-- If the outcome is a failure, it is that of a check. -/
def ChecksFail {α : Type} : Except Error α → Prop
  | .ok _ => True
  | .error e => FailsCheck e

theorem reads_identitySnapshotReadLoop (producer : Bool) (n : Nat) :
    (identitySnapshotReadLoop producer n).All Memory.Reads := by
  induction n with
  | zero => trivial
  | succ n ih =>
      apply reads_load
      intro before
      split
      · exact ih
      · apply reads_load
        intro pid
        apply reads_load
        intro ticks
        apply reads_load
        intro hi
        apply reads_load
        intro lo
        apply reads_load
        intro after
        split
        · exact ih
        · trivial

theorem reads_identitySnapshotRead (producer : Bool) :
    (identitySnapshotRead producer).All Memory.Reads :=
  reads_identitySnapshotReadLoop producer _

section
variable {header : ChannelHeaderAbi} {handle : ProducerHandle} {operation : String}

theorem reads_verifyProducerRole :
    (verifyProducerRole handle operation).All Memory.Reads := by
  apply Prog.all_bind (Prog.all_attempt (reads_identitySnapshotRead true))
  intro seen
  cases seen with
  | error e => trivial
  | ok id =>
      dsimp only
      split
      · trivial
      · apply reads_load
        intro state
        split <;> trivial

theorem ends_verifyProducerRole : (verifyProducerRole handle operation).Ends ChecksFail := by
  apply Prog.ends_bind (Prog.ends_attempt _)
  · intro seen _
    cases seen with
    | error e => exact failsCheck_makeError _ _ (by decide)
    | ok id =>
        dsimp only
        split
        · exact failsCheck_makeError _ _ (by decide)
        · apply ends_load
          intro state
          split
          · exact failsCheck_makeError _ _ (by decide)
          · trivial
  · exact fun e ⟨y, hy⟩ => nomatch hy

theorem reads_verifyHandleOwnership :
    (verifyHandleOwnership header handle operation).All Memory.Reads := by
  apply reads_load
  intro boot
  split
  · trivial
  · apply reads_load
    intro init
    split
    · trivial
    · split
      · trivial
      · exact reads_verifyProducerRole

theorem ends_verifyHandleOwnership :
    (verifyHandleOwnership header handle operation).Ends ChecksFail := by
  apply ends_load
  intro boot
  split
  · exact failsCheck_makeError _ _ (by decide)
  · apply ends_load
    intro init
    split
    · exact failsCheck_makeError _ _ (by decide)
    · split
      · exact failsCheck_makeError _ _ (by decide)
      · exact ends_verifyProducerRole

end

section
variable {header : ChannelHeaderAbi} {operation : String}

theorem reads_classifyAliveProducer :
    (classifyAliveProducer header operation).All Memory.Reads := by
  refine ⟨trivial, fun now => ?_⟩
  apply reads_load
  intro lastPublish
  apply reads_load
  intro lastBeat
  dsimp only
  split <;> trivial

theorem reads_classifyWaitTimeout :
    (classifyWaitTimeout header operation).All Memory.Reads := by
  apply reads_load
  intro state
  split
  · trivial
  · apply Prog.all_bind (Prog.all_attempt (reads_identitySnapshotRead true))
    intro seen
    cases seen with
    | error e => trivial
    | ok id =>
        dsimp only
        split
        · trivial
        · refine ⟨trivial, fun liveness => ?_⟩
          cases (liveness : Liveness) with
          | alive => exact reads_classifyAliveProducer
          | exited | pidReused | unverifiable => trivial

variable {α : Type}

theorem reads_failWaitTimeout :
    (failWaitTimeout header operation : ChannelCode α).All Memory.Reads :=
  Prog.all_bind reads_classifyWaitTimeout fun _ => trivial

theorem looks_monotonicDeadlineNs (timeoutNs : Nat) :
    (monotonicDeadlineNs timeoutNs).Looks Memory.Reads := by
  apply Prog.looks_bind looks_monotonicNowNs
  intro now
  split
  · trivial
  · split <;> trivial

theorem looks_remainingTimeNs (deadlineNs : Nat) :
    (remainingTimeNs deadlineNs).Looks Memory.Reads := by
  apply Prog.looks_bind looks_monotonicNowNs
  intro now
  split
  · trivial
  · split <;> trivial

variable {n deadline : Nat}

theorem waits_waitForNotice :
    (waitForNotice header n operation deadline).All Memory.Waits := by
  apply Prog.all_bind (waits_sharedWatch _)
  intro expected
  apply Prog.all_bind (waits_of_reads (looks_sharedLoad _).all)
  intro ticket
  apply Prog.all_bind (waits_of_reads (looks_sharedLoad _).all)
  intro last
  split
  · trivial
  · apply Prog.all_bind (waits_of_reads (looks_remainingTimeNs deadline).all)
    intro remaining
    split
    · exact waits_of_reads reads_failWaitTimeout
    · apply Prog.all_bind (waits_futexWait _ _)
      intro errnoValue
      split
      · trivial
      · split
        · exact waits_of_reads reads_failWaitTimeout
        · trivial

end
end EdgeRuntime

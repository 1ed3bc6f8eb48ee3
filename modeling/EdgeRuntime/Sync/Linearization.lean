import EdgeRuntime.Concurrent.Schedule
import EdgeRuntime.Pool.Program
import EdgeRuntime.Queue.Program
import EdgeRuntime.Sync.OwnerRuns

/-!
Owner snapshots are linearizable: what a call reports was the record at one instant of
that call, and a record that is only touched by the protocol is never reported corrupt.
-/
namespace EdgeRuntime
open Concurrent

namespace OwnerRoles
variable {T : Type} {roles : OwnerRoles} {m : RecordView}

theorem Lawful.not_broken (h : roles.Lawful m)
    (known : roles.Claimed m ∨ roles.Unclaimed m) : ¬ roles.record.Broken m.words := by
  intro broken
  rcases known with (state | state) | (state | state)
  all_goals simp only [OwnerRecord.Broken, record, state] at broken
  · obtain ⟨_, o, words, invalid⟩ := broken
    obtain ⟨o', _, words', valid⟩ := h.committed state
    obtain rfl : o = o' := OwnerAbi.ext_word fun w => (words w).symm.trans (words' w)
    cases invalid.symm.trans valid
  · refine broken ⟨h.even ?_, h.bounded⟩
    rw [state]
    rintro ⟨⟩

theorem Inv.known {s : RecordState T} (hi : roles.Inv s) :
    roles.Claimed s.world.now ∨ roles.Unclaimed s.world.now := by
  cases held : s.holder with
  | none => exact .inr (hi.unclaimed held)
  | some u => exact .inl (hi.claimed u held)

/-- The record of a finished call is all that a return changes. -/
theorem inv_report {s : RecordState T} {report : RecordReport} (hi : roles.Inv s)
    (linearized : roles.Linearized report) :
    roles.Inv ⟨{ s.world with reports := s.world.reports ++ [report] }, s.holder⟩ where
  lawful := hi.lawful
  claimed := hi.claimed
  unclaimed := hi.unclaimed
  current := hi.current
  reports r mem := by
    rcases List.mem_append.1 mem with old | new
    · exact hi.reports r old
    · rw [List.mem_singleton.1 new]
      exact linearized

variable [DecidableEq T] {t : T} {s s' : RecordState T} {snapshot : OwnerSnapshot}

theorem guarded : Guarded (roles.logic (T := T)) memory t roles.record where
  mono _ _ hr := hr.onward.mono
  kept _ _ hr := hr.onward.kept

/-- A report that was true between `s` and `s'` is true of a view that the call saw. -/
theorem linearized_shownAt
    (shown : ShownAt roles.logic memory t roles.record s s' snapshot) :
    roles.Linearized ⟨snapshot, s'.world.instants t⟩ := by
  obtain ⟨s₁, _, inv, after, shows⟩ := shown
  have seen : s₁.world.now ∈ s'.world.instants t := after.instants (inv.current t)
  unfold OwnerRecord.Shows at shows
  refine ⟨?_, ?_, ?_⟩
  · intro (kind : snapshot.kind = _)
    rw [kind] at shows
    obtain ⟨state, owned, epoch, _, words, _⟩ := shows
    have shownOwned : roles.classify (s₁.world.now.words .state) = .owned := by
      rw [show s₁.world.now.words .state = snapshot.state from state]
      exact owned
    obtain ⟨o, committed, words', _⟩ := inv.lawful.committed shownOwned
    obtain rfl : o = snapshot.owner :=
      OwnerAbi.ext_word fun w => (words' w).symm.trans (words w)
    refine ⟨s₁.world.now, seen, state, owned, epoch, ?_⟩
    rw [show s₁.world.now.words .epoch = snapshot.epoch from epoch] at committed
    exact committed
  · intro (kind : snapshot.kind = _)
    rw [kind] at shows
    obtain ⟨state, inactive, epoch, even, _⟩ := shows
    exact ⟨s₁.world.now, seen, state, inactive, epoch, even⟩
  · intro (kind : snapshot.kind = _)
    rw [kind] at shows
    exact inv.lawful.not_broken inv.known shows

theorem wp_snapshot (outside : Outside t s) :
    roles.logic.wp t (roles.logic.Returns roles.machine Outside t .snapshot)
      (roles.machine.code t .snapshot s.world) s := by
  have info : roles.logic.obs t
      (fun x s' => ∀ b, x = .ok b → ShownAt roles.logic memory t roles.record s s' b)
      (snapshotOwnerSeqCst .state .epoch .owner roles.classify roles.valid :
        Code RecordLoc Error OwnerSnapshot) s := by
    refine Logic.obs_mono ?_ (obs_snapshotOwnerSeqCst (D := memory) rfl guarded s)
    intro x s₁ _ reports b same
    refine reports b ?_
    rw [same]
    rfl
  refine Access.wp_learn (D := memory) rfl
    (looks_snapshotOwnerSeqCst _ _ trivial trivial fun _ => trivial) (Outside t)
    outside_stable outside info ?_
  intro snapshot s₁ _ outside₁ shown s₂ hr hi
  obtain ⟨s₀, before, inv, after, shows⟩ := shown
  have shown₂ : ShownAt roles.logic memory t roles.record s s₂ snapshot :=
    ⟨s₀, before, inv, roles.logic.rely_trans _ _ _ _ after hr, shows⟩
  refine ⟨_, rfl, inv_report hi (linearized_shownAt shown₂), ?_,
    outside_stable s₁ s₂ outside₁ hr hi⟩
  intro u _
  exact ⟨.refl _, Iff.rfl, fun _ => rfl, rfl, List.Subset.refl _⟩

/-- Starting a call changes what the client itself remembers, and nothing else. -/
theorem call_enters {a : RecordCall} (hi : roles.Inv s) :
    roles.Inv ⟨roles.machine.enter t a s.world, s.holder⟩ ∧
      ∀ u, u ≠ t → Rely u s ⟨roles.machine.enter t a s.world, s.holder⟩ := by
  constructor
  · refine ⟨hi.lawful, hi.claimed, hi.unclaimed, ?_, hi.reports⟩
    intro u
    by_cases hu : u = t
    · subst hu
      change _ ∈ Function.update s.world.instants u [s.world.now] u
      rw [Function.update_self]
      exact List.mem_cons_self
    · change _ ∈ Function.update s.world.instants t [s.world.now] u
      rw [Function.update_of_ne hu]
      exact hi.current u
  · intro u hu
    refine ⟨.refl _, Iff.rfl, fun _ => rfl, Function.update_of_ne hu _ _, ?_⟩
    change _ ⊆ Function.update s.world.instants t [s.world.now] u
    rw [Function.update_of_ne hu]
    exact List.Subset.refl _

def outline (roles : OwnerRoles) :
    Outline (roles.machine (T := T)) (fun _ _ => True) roles.logic where
  idle := Outside
  idle_stable _ := outside_stable
  exec_sound _ _ _ _ _ h _ := h
  call_sound t a s hi idle allowed _ := by
    obtain ⟨inv, guar⟩ := call_enters (t := t) (a := a) hi
    refine ⟨_, rfl, inv, guar, ?_⟩
    cases a with
    | snapshot => exact wp_snapshot idle
    | session x =>
        refine wp_ownerSession allowed (Function.update_self t _ _) idle ?_
        intro s' hi' outside
        exact ⟨s', rfl, hi', roles.logic.guar_refl t s', outside⟩
  crash_sound t s hi _ := ⟨s, rfl, hi, roles.logic.guar_refl t s⟩

/-- Any number of clients claim and release the record in any order, may stop anywhere,
and take snapshots. Every snapshot that finished was true of one instant of its call: a
stable one of the tuple committed at its epoch, an inactive one of an even epoch. None is
corrupt. -/
theorem snapshot_linearizable (roles : OwnerRoles) {words : Words RecordLoc}
    (inactive : roles.classify (words .state) = .inactive) (even : words .epoch % 2 = 0)
    (bounded : words .epoch ≤ maxCommittedOwnerEpoch)
    {c : Config T (Instr RecordLoc) Reply Error (Option OwnerSnapshot) RecordCall
      (RecordWorld T)}
    (run : roles.machine.Reach (fun _ _ => True) (roles.machine.start (init words)) c)
    {report : RecordReport} (finished : report ∈ c.world.reports) :
    roles.Linearized report := by
  have free : roles.Unclaimed ⟨words, fun _ => none⟩ := .inl inactive
  have inv : roles.Inv (⟨init words, none⟩ : RecordState T) :=
    ⟨.unclaimed free even bounded, nofun, fun _ => free, fun _ => List.mem_cons_self, nofun⟩
  obtain ⟨s, world, hi⟩ := roles.outline.inv_of_reach rfl inv (fun _ => nofun) run
  rw [← world] at finished
  exact hi.reports report finished

def gateRoles : OwnerRoles := ⟨classifyGateState, ownerValid⟩
def blockRoles : OwnerRoles := ⟨classifyBlockState, ownerValid⟩

/-- The claim of a gate. -/
def gateSession : OwnerSession where
  inactive := MpmcLockState.free.code
  claiming := MpmcLockState.claiming.code
  owned := MpmcLockState.owned.code
  released := MpmcLockState.free.code
  refused r := if r = .epochExhausted then MpmcLockState.epochExhausted.code
    else MpmcLockState.ownerProtocolFault.code
  owner := ⟨2, 2, 2, 2⟩
  reserve := 2
  commits := true

/-- The claim of a published block by a reader. -/
def readSession : OwnerSession where
  inactive := SharedBufferBlockState.published.code
  claiming := SharedBufferBlockState.readingClaiming.code
  owned := SharedBufferBlockState.reading.code
  released := SharedBufferBlockState.free.code
  refused _ := SharedBufferBlockState.published.code
  owner := ⟨2, 2, 2, 2⟩
  reserve := 2
  commits := true

/-- One client claims the record; another takes a snapshot of it in between. -/
def overlapRun (roles : OwnerRoles) (words : Words RecordLoc) (x : OwnerSession) :
    Option (Config Bool (Instr RecordLoc) Reply Error (Option OwnerSnapshot) RecordCall
      (RecordWorld Bool)) :=
  roles.machine.play (fun _ _ => True) (memory.answer (fun _ _ _ => .alive) fun _ => 0)
    (roles.machine.start (init words))
    [.call true (.session x), .run true 2, .call false .snapshot, .run true 7, .run false 20,
      .ret false, .run true 1, .ret true]

theorem reach_overlapRun {roles : OwnerRoles} {words : Words RecordLoc} {x : OwnerSession}
    {c : Config Bool (Instr RecordLoc) Reply Error (Option OwnerSnapshot) RecordCall
      (RecordWorld Bool)} (h : overlapRun roles words x = some c) :
    roles.machine.Reach (fun _ _ => True) (roles.machine.start (init words)) c :=
  Machine.reach_play (memory.answer_exec fun _ _ _ => trivial) h

def publishedWords : Words RecordLoc :=
  Words.set (fun _ => 0) .state SharedBufferBlockState.published.code

theorem snapshot_linearizable_overlap :
    (∃ c report, overlapRun gateRoles (fun _ => 0) gateSession = some c ∧
      report ∈ c.world.reports ∧ report.snapshot.kind = .stable ∧
      gateRoles.Linearized report) ∧
    (∃ c report, overlapRun blockRoles publishedWords readSession = some c ∧
      report ∈ c.world.reports ∧ report.snapshot.kind = .stable ∧
      blockRoles.Linearized report) := by
  have gate : (overlapRun gateRoles (fun _ => 0) gateSession).map
      (fun c => c.world.reports.head?.map (·.snapshot.kind)) = some (some .stable) := by
    decide +kernel
  have block : (overlapRun blockRoles publishedWords readSession).map
      (fun c => c.world.reports.head?.map (·.snapshot.kind)) = some (some .stable) := by
    decide +kernel
  obtain ⟨c, ran, kinds⟩ := Option.map_eq_some_iff.1 gate
  obtain ⟨report, first, kind⟩ := Option.map_eq_some_iff.1 kinds
  have finished := List.mem_of_mem_head? first
  obtain ⟨c', ran', kinds'⟩ := Option.map_eq_some_iff.1 block
  obtain ⟨report', first', kind'⟩ := Option.map_eq_some_iff.1 kinds'
  have finished' := List.mem_of_mem_head? first'
  exact ⟨⟨c, report, ran, finished, kind, snapshot_linearizable gateRoles (by decide)
      (by decide) (by decide) (reach_overlapRun ran) finished⟩,
    ⟨c', report', ran', finished', kind', snapshot_linearizable blockRoles (by decide)
      (by decide) (by decide) (reach_overlapRun ran') finished'⟩⟩

end OwnerRoles
end EdgeRuntime

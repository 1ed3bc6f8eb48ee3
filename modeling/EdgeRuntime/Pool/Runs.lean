import EdgeRuntime.Pool.HandCalls

/-!
The runs of a pool: every call of every client keeps to the rules of the hands, so the
invariant holds after every interleaving, whichever clients die.
-/
namespace EdgeRuntime
open Concurrent
open SharedBufferBlockState (InHand Claiming)

namespace PoolSystem
variable {T : Type} [DecidableEq T] {q : PoolSystem T} {t : T} {d : Hand}

/-- What the end of a call owes. -/
def Ends (q : PoolSystem T) (t : T) (a : PoolCall) (x : Except Error PoolReply) (d : Hand) :
    Prop :=
  q.Tidy t { d with client := d.client.leave a x } ∧ PoolReturn.Right ⟨a, x⟩

omit [DecidableEq T] in
theorem filter_drop_writes {c : PoolClient} {buffer : BufferLease} :
    (c.drop buffer.block).writes.filter (· ≠ buffer) = (c.drop buffer.block).writes := by
  refine List.filter_eq_self.2 fun l hl => decide_eq_true ?_
  rintro rfl
  exact (PoolClient.mem_writes_drop.1 hl).2 rfl

omit [DecidableEq T] in
theorem filter_drop_reads {c : PoolClient} {buffer : BufferLease} :
    (c.drop buffer.block).reads.filter (· ≠ buffer) = (c.drop buffer.block).reads := by
  refine List.filter_eq_self.2 fun l hl => decide_eq_true ?_
  rintro rfl
  exact (PoolClient.mem_reads_drop.1 hl).2 rfl

omit [DecidableEq T] in
/-- Every call keeps to the rules. -/
theorem obeys_code (tidy : q.Tidy t d) {a : PoolCall} (allowed : allowed d.client a) :
    (q.code t d.client a).Obeys Hand.script (q.Ends t a) d := by
  have inactive_write : ∀ {buffer : BufferLease}, buffer.active = false →
      d.client.writes.filter (· ≠ buffer) = d.client.writes := by
    intro buffer inactive
    refine List.filter_eq_self.2 fun l hl => decide_eq_true ?_
    rintro rfl
    cases inactive.symm.trans (tidy.writes l hl).active
  have inactive_read : ∀ {buffer : BufferLease}, buffer.active = false →
      d.client.reads.filter (· ≠ buffer) = d.client.reads := by
    intro buffer inactive
    refine List.filter_eq_self.2 fun l hl => decide_eq_true ?_
    rintro rfl
    cases inactive.symm.trans (tidy.reads l hl).active
  cases a with
  | tryAcquireWrite =>
      refine Prog.obeys_seq (obeys_tryAcquireWrite tidy) ?_ ?_
      · rintro buffer d' ⟨client, after⟩
        refine ⟨?_, trivial⟩
        rw [client]
        exact after
      · rintro e d' ⟨_, after⟩
        exact ⟨after, trivial⟩
  | fill buffer offset bytes =>
      have leased := tidy.writes buffer allowed.1
      refine Prog.obeys_seq (obeys_fill leased.state) ?_ ?_
      · rintro _ d' ⟨_, same⟩
        rw [same]
        exact ⟨tidy, trivial⟩
      · rintro e d' ⟨never, _⟩
        cases never
  | publish buffer =>
      rcases allowed with held | inactive
      · refine Prog.obeys_seq (obeys_publishWrite tidy held) ?_ ?_
        · rintro descriptor d' ⟨outcome, after, client⟩
          cases outcome
          refine ⟨?_, fun _ => rfl⟩
          simp only [PoolClient.leave]
          rw [client, filter_drop_writes, ← client]
          exact after
        · rintro e d' ⟨never, _⟩
          cases never
      · have stops : sharedBufferPoolPublishWriteImpl (q.handleOf t d.client) buffer =
            .throw (makeError .invalidOptions "WriteBuffer::publish" "buffer inactive") := by
          unfold sharedBufferPoolPublishWriteImpl
          rw [if_pos (by simp [inactive])]
        simp only [code]
        rw [stops]
        refine ⟨tidy, fun active => ?_⟩
        cases inactive.symm.trans active
  | abort buffer =>
      rcases allowed with held | inactive
      · have present := tidy.present (PoolClient.mem_buffers.2 (.inl held))
        refine Prog.obeys_seq
          (obeys_freeOwnBlock tidy (tidy.writes buffer held) (.inl rfl) present) ?_ ?_
        · rintro _ d' ⟨_, after, client⟩
          refine ⟨?_, trivial⟩
          simp only [PoolClient.leave]
          rw [client, filter_drop_writes, ← client]
          exact after
        · rintro e d' ⟨never, _⟩
          cases never
      · simp only [code, sharedBufferPoolAbortWriteImpl]
        rw [freeOwnBlock_inactive inactive]
        refine ⟨?_, trivial⟩
        simp only [PoolClient.leave]
        rw [inactive_write inactive]
        exact tidy
  | acquireRead descriptor =>
      refine Prog.obeys_seq (obeys_acquireRead tidy) ?_ ?_
      · rintro buffer d' ⟨client, after⟩
        refine ⟨?_, trivial⟩
        rw [client]
        exact after
      · rintro e d' ⟨_, other, after⟩
        exact ⟨after, other⟩
  | release buffer =>
      rcases allowed with held | inactive
      · have present := tidy.present (PoolClient.mem_buffers.2 (.inr held))
        refine Prog.obeys_seq
          (obeys_freeOwnBlock tidy (tidy.reads buffer held) (.inr rfl) present) ?_ ?_
        · rintro _ d' ⟨_, after, client⟩
          refine ⟨?_, trivial⟩
          simp only [PoolClient.leave]
          rw [client, filter_drop_reads, ← client]
          exact after
        · rintro e d' ⟨never, _⟩
          cases never
      · simp only [code, sharedBufferPoolReleaseReadImpl]
        rw [freeOwnBlock_inactive inactive]
        refine ⟨?_, trivial⟩
        simp only [PoolClient.leave]
        rw [inactive_read inactive]
        exact tidy
  | status =>
      refine Hand.obeys_look_seq tidy.aware all_status (Prog.ends_true _) ?_ ?_
      · exact fun _ _ => ⟨tidy, trivial⟩
      · exact fun _ _ => ⟨tidy, trivial⟩
  | removeIfCreator calls =>
      refine Prog.obeys_seq (obeys_removeIfCreator tidy) ?_ ?_
      · rintro _ d' ⟨same, empty⟩
        rw [same]
        -- only the mark of the handle changes
        exact ⟨{ tidy with
          writes := fun l hl => (tidy.writes l hl).congr fun _ _ => rfl
          reads := fun l hl => (tidy.reads l hl).congr fun _ _ => rfl
          removed := fun _ => empty rfl
          ignorant := fun b unheld =>
            ⟨(tidy.ignorant b unheld).known, (tidy.ignorant b unheld).raised⟩ }, trivial⟩
      · rintro e d' ⟨same, _⟩
        rw [same]
        exact ⟨tidy, trivial⟩

/-- A call that ends moves buffers between the client's lists. -/
theorem poolInv_leave {w : PoolWorld T} {d : T → Hand} {a : PoolCall}
    {x : Except Error PoolReply} (inv : PoolInv q w d) (ended : q.Ends t a x (d t)) :
    PoolInv q (q.machine.leave t a x w)
      (Function.update d t { d t with client := (d t).client.leave a x }) where
  ready := inv.ready
  client u := by
    by_cases same : u = t
    · subst same
      simp [machine, inv.client]
    · simp [machine, Function.update_of_ne same, inv.client]
  block b := by
    refine (inv.block b).congr (fun _ _ => rfl) ?_ ?_
    · intro u l _
      by_cases same : u = t
      · subst same
        simp
      · simp [Function.update_of_ne same]
    · intro u
      by_cases same : u = t
      · subst same
        simp
      · simp [Function.update_of_ne same]
  sound u := by
    by_cases same : u = t
    · subst same
      simpa using ended.1.toSound
    · simpa [Function.update_of_ne same] using inv.sound u
  finished r hr := by
    rcases List.mem_append.1 hr with old | new
    · exact inv.finished r old
    · rw [List.mem_singleton.1 new]
      exact ended.2

def cast (q : PoolSystem T) : Cast q.machine (fun _ _ => True) Hand where
  script _ := Hand.script
  idle := q.Tidy
  ends := q.Ends
  inv := q.Claimed
  call_sound := by
    intro w d t a inv tidy permitted _
    refine ⟨d t, ?_, ?_⟩
    · rw [Function.update_eq_self]
      exact inv
    · have client := inv.client t
      simp only [machine] at permitted ⊢
      rw [← client] at permitted ⊢
      exact obeys_code tidy permitted
  op_sound := fun inv allowed exec _ => inv.op allowed exec
  ret_sound := by
    intro w d t a x inv ended
    refine ⟨_, ⟨poolInv_leave inv.toPoolInv ended, fun b u holds => inv.claimant b u ?_⟩, ended.1⟩
    by_cases same : u = t
    · subst same
      rw [Function.update_self] at holds
      exact holds
    · rw [Function.update_of_ne same] at holds
      exact holds
  crash_sound := fun inv _ => inv

/-- The hand of a client that has only opened the pool. -/
def emptyHand : Hand := ⟨⟨[], [], false⟩, fun _ => none, fun _ => false⟩

omit [DecidableEq T] in
theorem tidy_emptyHand : q.Tidy t emptyHand where
  writes _ hl := by cases hl
  reads _ hl := by cases hl
  apart := List.nodup_nil
  removed _ := rfl
  cover _ holds := by cases holds
  ignorant _ _ := ⟨fun _ _ => rfl, rfl⟩

omit [DecidableEq T] in
/-- After creation all blocks are FREE with no history. -/
theorem poolInv_init : PoolInv q q.init fun _ => emptyHand where
  ready := (sharedBufferPoolCreateImpl_ok q.created).2.1
  client _ := rfl
  block b := by
    have zero := (sharedBufferPoolCreateImpl_ok q.created).2.2
    have state : q.init.mem (.blockState b) = SharedBufferBlockState.free.code :=
      zero _ (by simp)
    have epoch : q.init.mem (.blockEpoch b) = 0 := zero _ (by simp)
    refine .loose ?_ ?_ fun _ => ⟨fun _ _ => rfl, rfl⟩
    · unfold BlockFits
      rw [state, epoch, show q.init.mem (.blockGeneration b) = 0 from zero _ (by simp)]
      exact {
        code := ⟨.free, by simp, rfl⟩
        settled := fun _ => ⟨rfl, Nat.zero_le _, by simp⟩
        epoch := Nat.zero_le _
        generation := Nat.zero_le _
        chronicle := ⟨.nil, .nil, .nil, by simp [init], by simp [init], by simp [init]⟩
        bound := by simp [init]
        fresh := by simp
        writing := by simp
        offered := by simp
        untaken := by simp }
    · rw [state]
      simp [InHand]
  sound _ := tidy_emptyHand.toSound
  finished _ hr := by cases hr

end PoolSystem

namespace PoolInv
variable {T : Type} {q : PoolSystem T} {w : PoolWorld T} {d : T → Hand} {t : T}
  {l : BufferLease}

/-- Whoever has a buffer of a block is the one that holds the block. -/
theorem holder_of_buffer (inv : PoolInv q w d) (hl : l ∈ (w.client t).buffers) :
    HeldBy w.mem (w.history l.block) d l.block t := by
  rw [← inv.client] at hl
  rcases (inv.sound t).known_state hl with known | known
  · exact (inv.block l.block).holder rfl known
  · exact (inv.block l.block).holder rfl known

/-- Two clients never have buffers of one block. -/
theorem same_client (inv : PoolInv q w d) {u : T} {l' : BufferLease}
    (hl : l ∈ (w.client t).buffers) (hl' : l' ∈ (w.client u).buffers)
    (same : l.block = l'.block) : t = u := by
  have held := inv.holder_of_buffer hl
  have held' := inv.holder_of_buffer hl'
  by_contra apart
  rw [← same] at held'
  cases (held.others u (Ne.symm apart)).not_holds.symm.trans held'.holds

end PoolInv

instance (c : PoolClient) (a : PoolCall) : Decidable (PoolSystem.allowed c a) :=
  match a with
  | .fill _ _ _ => inferInstanceAs (Decidable (_ ∧ _))
  | .publish _ | .abort _ | .release _ => inferInstanceAs (Decidable (_ ∨ _))
  | .tryAcquireWrite | .acquireRead _ | .status | .removeIfCreator _ => .isTrue trivial

namespace PoolSystem

/-- A pool of two blocks, with two clients; the first is the creator. -/
def tiny : PoolSystem Bool where
  options := ⟨"p", 4096, 2, ⟨List.replicate 32 0, 1⟩⟩
  creator := ⟨1, 1, 1, 1⟩
  nonceHi := 1
  nonceLo := 0
  handle := ⟨⟨1, 1, 1, 1⟩, 8512, sharedBufferPoolCreateHeader
    ⟨"p", 4096, 2, ⟨List.replicate 32 0, 1⟩⟩ 8512 1 0 ⟨1, 1, 1, 1⟩, false⟩
  initial := _
  created := rfl
  self t := cond t ⟨1, 1, 1, 1⟩ ⟨2, 2, 2, 2⟩
  valid t := by cases t <;> decide
  answers _ _ _ _ := True

instance (t : Bool) (a : PoolCall) (w : PoolWorld Bool) :
    Decidable (tiny.machine.allowed t a w) := inferInstanceAs (Decidable (allowed _ _))

/-- The configuration a schedule of the two clients leads to. -/
def tinyRun (moves : List (Move Bool PoolCall)) :
    Option (Config Bool (Instr PoolLoc) Reply Error PoolReply PoolCall (PoolWorld Bool)) :=
  tiny.machine.play (fun _ _ => True) (tiny.memory.answer (fun _ _ _ => .alive) fun _ => 0)
    (tiny.machine.start tiny.init) moves

/-- The buffer of the first generation of the first block. -/
def tinyBuffer : BufferLease := ⟨0, 4096, handleAt tiny.handle.header 0 1, true⟩

/-- The first client publishes. -/
def tinyPublish : List (Move Bool PoolCall) :=
  [.call true .tryAcquireWrite, .run true 100, .ret true,
    .call true (.fill tinyBuffer 3 [7]), .run true 100, .ret true,
    .call true (.publish tinyBuffer), .run true 100, .ret true]

def tinyRead : List (Move Bool PoolCall) :=
  [.call false (.acquireRead tinyBuffer.descriptor), .run false 100, .ret false]

/-- The second client reads while a second acquisition is under way. -/
def tinyMoves : List (Move Bool PoolCall) :=
  tinyPublish ++ [.call true .tryAcquireWrite, .run true 3] ++ tinyRead

/-- The second acquisition goes on; the reader does not move. -/
def tinyRest
    (c : Config Bool (Instr PoolLoc) Reply Error PoolReply PoolCall (PoolWorld Bool)) :
    Option (Config Bool (Instr PoolLoc) Reply Error PoolReply PoolCall (PoolWorld Bool)) :=
  tiny.machine.play (fun _ e => e.actor ≠ false)
    (tiny.memory.answer (fun _ _ _ => .alive) fun _ => 0) c [.run true 100, .ret true]

theorem tinyRun_reach {moves : List (Move Bool PoolCall)}
    {c : Config Bool (Instr PoolLoc) Reply Error PoolReply PoolCall (PoolWorld Bool)}
    (h : tinyRun moves = some c) :
    tiny.machine.Reach (fun _ _ => True) (tiny.machine.start tiny.init) c :=
  Machine.reach_play (tiny.memory.answer_exec fun _ _ _ => trivial) h

end PoolSystem

theorem PoolSystem.covers_of_reach {T : Type} [DecidableEq T] {q : PoolSystem T}
    {c : Config T (Instr PoolLoc) Reply Error PoolReply PoolCall (PoolWorld T)}
    (run : q.machine.Reach (fun _ _ => True) (q.machine.start q.init) c) : q.cast.Covers c :=
  q.cast.covers_reach run (q.cast.covers_start ⟨poolInv_init, nofun⟩ fun _ => tidy_emptyHand)

end EdgeRuntime

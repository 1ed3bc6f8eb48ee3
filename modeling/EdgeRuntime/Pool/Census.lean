import Mathlib.Algebra.Order.BigOperators.Group.Finset
import Mathlib.Data.Nat.Count
import EdgeRuntime.Pool.Quiet

/-!
The census of a pool: what a status call reports of a pool that nobody is changing.
-/
namespace EdgeRuntime
open Concurrent

namespace PoolSystem
variable {T α : Type} [DecidableEq T] {q : PoolSystem T}
  {probe : PoolWorld T → Nat → Nat → Liveness} {now : PoolWorld T → Nat} {t : T}
  {w : PoolWorld T} {b : Nat} {handle : SharedBufferPoolHandle}

open Memory

/-- What a status call thinks of an owner. -/
def lost (probe : PoolWorld T → Nat → Nat → Liveness) (w : PoolWorld T)
    (me : ProcessIdentity) (owner : OwnerAbi) : Bool :=
  owner.bootIdHashHi ≠ me.bootIdHashHi || owner.bootIdHashLo ≠ me.bootIdHashLo ||
    probe w owner.pid owner.procStartTicks ≠ .alive

theorem alone_ownerLost {Q : Except Error α → PoolWorld T → Prop} {k : Bool → PoolCode α}
    {owner : OwnerAbi} (h : q.memory.Alone probe now t Q (k (lost probe w handle.self owner)) w) :
    q.memory.Alone probe now t Q (ownerLost handle owner >>= k) w := by
  unfold ownerLost
  split
  · rename_i foreign
    have isLost : lost probe w handle.self owner = true := by
      rcases foreign with hi | lo
      · simp [lost, hi]
      · simp [lost, lo]
    rw [isLost] at h
    exact h
  · rename_i same
    rw [Prog.bind_assoc]
    refine alone_probe ?_
    simp only [not_or, Decidable.not_not] at same
    have asked : lost probe w handle.self owner =
        decide (probe w owner.pid owner.procStartTicks ≠ .alive) := by
      simp [lost, same]
    rw [asked] at h
    exact h

/-- The record of a block that somebody owns, seen without interference. -/
theorem alone_snapshotBlockOwner {Q : Except Error α → PoolWorld T → Prop}
    {k : OwnerSnapshot → PoolCode α} {owner : OwnerAbi}
    (owned : classifyBlockState (w.mem (.blockState b)) = .owned)
    (even : w.mem (.blockEpoch b) % 2 = 0)
    (words : ∀ word, w.mem (.blockOwner b word) = owner.word word)
    (valid : ownerValid owner = true)
    (h : q.memory.Alone probe now t Q
      (k ⟨.stable, w.mem (.blockState b), owner, w.mem (.blockEpoch b)⟩) w) :
    q.memory.Alone probe now t Q (snapshotBlockOwner b >>= k) w := by
  change q.memory.Alone probe now t Q (snapshotOwnerLoop _ _ _ _ _ 4 >>= k) w
  unfold snapshotOwnerLoop snapshotOwnerAttempt
  simp only [Prog.bind_assoc]
  refine alone_load ?_
  rw [memory_read, owned]
  unfold snapshotOwnerOwned
  simp only [Prog.bind_assoc]
  refine alone_load ?_
  rw [memory_read, if_neg (by simp [even])]
  unfold loadOwnerSeqCst
  simp only [Prog.bind_assoc]
  refine alone_load (alone_load (alone_load (alone_load ?_)))
  simp only [memory_read, words, Prog.pure_eq, Prog.ret_bind]
  refine alone_load (alone_load (alone_load ?_))
  simp only [memory_read]
  rw [if_pos ⟨owned, trivial, trivial, even⟩]
  have whole : (⟨owner.word .pid, owner.word .procStartTicks, owner.word .bootIdHashHi,
      owner.word .bootIdHashLo⟩ : OwnerAbi) = owner := rfl
  rw [whole, if_pos valid]
  exact h

/-- The owner record of a block. -/
def ownerAt (m : PoolMem) (b : Nat) : OwnerAbi :=
  ⟨m (.blockOwner b .pid), m (.blockOwner b .procStartTicks), m (.blockOwner b .bootIdHashHi),
    m (.blockOwner b .bootIdHashLo)⟩

/-- A block that a status call can count. -/
def Countable (m : PoolMem) (b : Nat) : Prop :=
  m (.blockState b) = SharedBufferBlockState.free.code ∨
    m (.blockState b) = SharedBufferBlockState.published.code ∨
    (m (.blockState b) = SharedBufferBlockState.writing.code ∨
        m (.blockState b) = SharedBufferBlockState.reading.code) ∧
      m (.blockEpoch b) % 2 = 0 ∧ ownerValid (ownerAt m b) = true

/-- How many blocks below `n` are in a state. -/
def inState (m : PoolMem) (s : SharedBufferBlockState) (n : Nat) : Nat :=
  Nat.count (fun b => m (.blockState b) = s.code) n

/-- The counters after the blocks below `n`. -/
structure Counted (probe : PoolWorld T → Nat → Nat → Liveness) (w : PoolWorld T)
    (me : ProcessIdentity) (n : Nat) (s : SharedBufferPoolStatus) : Prop where
  free : s.freeBlocks = inState w.mem .free n
  published : s.publishedBlocks = inState w.mem .published n
  writing : s.writingBlocks = inState w.mem .writing n
  reading : s.readingBlocks = inState w.mem .reading n
  blocked : s.recoveryBlockedBlocks = Nat.count (fun b =>
    (w.mem (.blockState b) = SharedBufferBlockState.writing.code ∨
      w.mem (.blockState b) = SharedBufferBlockState.reading.code) ∧
      lost probe w me (ownerAt w.mem b) = true) n

omit [DecidableEq T] in
theorem Counted.succ {n : Nat} {me : ProcessIdentity} {s s' : SharedBufferPoolStatus}
    (counted : Counted probe w me n s)
    (free : s'.freeBlocks = s.freeBlocks +
      if w.mem (.blockState n) = SharedBufferBlockState.free.code then 1 else 0)
    (published : s'.publishedBlocks = s.publishedBlocks +
      if w.mem (.blockState n) = SharedBufferBlockState.published.code then 1 else 0)
    (writing : s'.writingBlocks = s.writingBlocks +
      if w.mem (.blockState n) = SharedBufferBlockState.writing.code then 1 else 0)
    (reading : s'.readingBlocks = s.readingBlocks +
      if w.mem (.blockState n) = SharedBufferBlockState.reading.code then 1 else 0)
    (blocked : s'.recoveryBlockedBlocks = s.recoveryBlockedBlocks +
      if (w.mem (.blockState n) = SharedBufferBlockState.writing.code ∨
          w.mem (.blockState n) = SharedBufferBlockState.reading.code) ∧
        lost probe w me (ownerAt w.mem n) = true then 1 else 0) :
    Counted probe w me (n + 1) s' where
  free := by rw [free, counted.free, inState, inState, Nat.count_succ]
  published := by rw [published, counted.published, inState, inState, Nat.count_succ]
  writing := by rw [writing, counted.writing, inState, inState, Nat.count_succ]
  reading := by rw [reading, counted.reading, inState, inState, Nat.count_succ]
  blocked := by rw [blocked, counted.blocked, Nat.count_succ]

/-- The status after a block that somebody writes or reads. -/
theorem alone_countOwnedBlock {n : Nat}
    (owned : w.mem (.blockState n) = SharedBufferBlockState.writing.code ∨
      w.mem (.blockState n) = SharedBufferBlockState.reading.code)
    (even : w.mem (.blockEpoch n) % 2 = 0) (valid : ownerValid (ownerAt w.mem n) = true)
    {s : SharedBufferPoolStatus} (counted : Counted probe w handle.self n s) :
    q.memory.Alone probe now t
      (fun x w' => (∃ s, x = .ok s ∧ Counted probe w handle.self (n + 1) s) ∧ w' = w)
      (countOwnedBlock handle n s) w := by
  have kind : classifyBlockState (w.mem (.blockState n)) = .owned := by
    rcases owned with writing | reading
    · rw [writing]
      rfl
    · rw [reading]
      rfl
  have words : ∀ word, w.mem (.blockOwner n word) = (ownerAt w.mem n).word word := by
    intro word
    cases word <;> rfl
  unfold countOwnedBlock
  refine alone_snapshotBlockOwner kind even words valid ?_
  dsimp only
  rcases owned with writing | reading
  · rw [if_pos writing]
    refine alone_ownerLost (alone_ret ⟨⟨_, rfl, ?_⟩, rfl⟩)
    refine counted.succ ?_ ?_ ?_ ?_ ?_ <;> simp [writing, Bool.toNat]
  · rw [if_neg (by simp [reading]), if_pos reading]
    refine alone_ownerLost (alone_ret ⟨⟨_, rfl, ?_⟩, rfl⟩)
    refine counted.succ ?_ ?_ ?_ ?_ ?_ <;> simp [reading, Bool.toNat]

theorem alone_countBlock {size n : Nat} (accepted : AcceptedPool size handle)
    (below : n < handle.header.blockCount) (countable : Countable w.mem n)
    {s : SharedBufferPoolStatus} (counted : Counted probe w handle.self n s) :
    q.memory.Alone probe now t
      (fun x w' => (∃ s, x = .ok s ∧ Counted probe w handle.self (n + 1) s) ∧ w' = w)
      (countBlock handle n s) w := by
  obtain ⟨_, _, block, _⟩ := accepted.layout.placed n below
  unfold countBlock
  rw [block]
  refine alone_load ?_
  rw [memory_read]
  rcases countable with free | published | ⟨owned, even, valid⟩
  · rw [if_pos free]
    refine alone_ret ⟨⟨_, rfl, counted.succ ?_ ?_ ?_ ?_ ?_⟩, rfl⟩ <;> simp [free]
  · rw [if_neg (by simp [published]), if_pos published]
    refine alone_ret ⟨⟨_, rfl, counted.succ ?_ ?_ ?_ ?_ ?_⟩, rfl⟩ <;> simp [published]
  · have other : w.mem (.blockState n) ≠ SharedBufferBlockState.free.code ∧
        w.mem (.blockState n) ≠ SharedBufferBlockState.published.code := by
      rcases owned with writing | reading
      · simp [writing]
      · simp [reading]
    rw [if_neg other.1, if_neg other.2, if_pos owned]
    exact alone_countOwnedBlock owned even valid counted

theorem alone_countBlocks {size left n : Nat} (accepted : AcceptedPool size handle)
    (inside : n + left ≤ handle.header.blockCount)
    (countable : ∀ b, b < n + left → Countable w.mem b)
    {s : SharedBufferPoolStatus} (counted : Counted probe w handle.self n s) :
    q.memory.Alone probe now t
      (fun x w' => (∃ s, x = .ok s ∧ Counted probe w handle.self (n + left) s) ∧ w' = w)
      (countBlocks handle left n s) w := by
  induction left generalizing n s with
  | zero => exact alone_ret ⟨⟨s, rfl, counted⟩, rfl⟩
  | succ left ih =>
      unfold countBlocks
      refine alone_seq (alone_countBlock accepted (by omega) (countable n (by omega)) counted)
        ?_ ?_
      · rintro _ _ ⟨⟨s', hs, counted'⟩, rfl⟩
        cases hs
        rw [show n + (left + 1) = n + 1 + left by omega] at countable ⊢
        exact ih (by omega) countable counted'
      · rintro _ _ ⟨⟨_, never, _⟩, _⟩
        cases never

/-- A status call on a pool whose blocks can all be counted. -/
theorem alone_status {size : Nat} (accepted : AcceptedPool size handle)
    (present : handle.removed = false)
    (ready : w.mem .initState = SharedBufferPoolInitState.ready.code)
    (countable : ∀ b, b < handle.header.blockCount → Countable w.mem b) :
    q.memory.Alone probe now t
      (fun x w' => (∃ s, x = .ok s ∧
        Counted probe w handle.self handle.header.blockCount s) ∧ w' = w)
      (sharedBufferPoolStatusImpl handle) w := by
  have none : ∀ alive, Counted probe w handle.self 0 (statusHeader handle.header alive) :=
    fun _ => ⟨rfl, rfl, rfl, rfl, rfl⟩
  unfold sharedBufferPoolStatusImpl
  refine alone_validateLivePool present ready ?_
  unfold poolCreatorAlive
  have counts : ∀ alive, q.memory.Alone probe now t
      (fun x w' => (∃ s, x = .ok s ∧
        Counted probe w handle.self handle.header.blockCount s) ∧ w' = w)
      (countBlocks handle handle.header.blockCount 0 (statusHeader handle.header alive)) w := by
    intro alive
    have whole : 0 + handle.header.blockCount = handle.header.blockCount := Nat.zero_add _
    refine alone_mono ?_ (alone_countBlocks accepted (Nat.le_of_eq whole)
      (fun b lt => countable b (by omega)) (none alive))
    intro x w' counted
    rwa [whole] at counted
  dsimp only
  split
  · exact counts _
  · rw [Prog.bind_assoc]
    exact alone_ownerLost (counts _)

end PoolSystem

variable {T : Type} [DecidableEq T] {q : PoolSystem T}
  {c : Config T (Instr PoolLoc) Reply Error PoolReply PoolCall (PoolWorld T)}
  {probe : PoolWorld T → Nat → Nat → Liveness} {now : PoolWorld T → Nat}

omit [DecidableEq T] in
/-- Blocks that are in somebody's hands are counted by counting what is in the hands. -/
theorem count_eq_sum_buffers [Fintype T] {n : Nat} {P : Nat → Prop} [DecidablePred P]
    {selected : T → List BufferLease} (nodup : ∀ t, ((selected t).map (·.block)).Nodup)
    (apart : ∀ t u l l', l ∈ selected t → l' ∈ selected u → l.block = l'.block → t = u)
    (spec : ∀ b, b < n ∧ P b ↔ ∃ t, ∃ l ∈ selected t, l.block = b) :
    Nat.count P n = ∑ t, (selected t).length := by
  have blocks : (Finset.range n).filter P =
      Finset.univ.biUnion fun t => ((selected t).map (·.block)).toFinset := by
    ext b
    simp [spec]
  rw [Nat.count_eq_card_filter_range, blocks, Finset.card_biUnion]
  · refine Finset.sum_congr rfl fun t _ => ?_
    rw [List.toFinset_card_of_nodup (nodup t), List.length_map]
  · intro t _ u _ different
    refine Finset.disjoint_left.2 fun b mine theirs => ?_
    simp only [List.mem_toFinset, List.mem_map] at mine theirs
    obtain ⟨l, hl, rfl⟩ := mine
    obtain ⟨l', hl', same⟩ := theirs
    exact different (apart t u l l' hl hl' same.symm)

section
variable {w : PoolWorld T} {d : T → Hand}

omit [DecidableEq T] in
/-- Between calls a block that is held is one somebody has a buffer of. -/
theorem PoolInv.buffer_of_held (inv : PoolInv q w d) (tidy : ∀ t, q.Tidy t (d t)) {b : Nat}
    (held : SharedBufferBlockState.InHand (w.mem (.blockState b))) :
    ∃ t, ∃ l ∈ (w.client t).buffers, l.block = b := by
  cases inv.block b with
  | loose _ unheld _ => exact absurd held unheld
  | held t holder =>
      obtain ⟨l, hl, block⟩ := (tidy t).cover b holder.holds
      rw [inv.client] at hl
      exact ⟨t, l, hl, block⟩

omit [DecidableEq T] in
/-- The words of a block that somebody has a buffer of. -/
theorem PoolInv.buffer_words (inv : PoolInv q w d) {t : T} {l : BufferLease}
    (hl : l ∈ (w.client t).buffers) :
    l.block < q.handle.header.blockCount ∧ PoolSystem.ownerAt w.mem l.block = q.owner t ∧
      w.mem (.blockEpoch l.block) % 2 = 0 := by
  rw [← inv.client] at hl
  have words : ∀ {s}, Leased q.handle.header (q.owner t) (d t) s l →
      l.block < q.handle.header.blockCount ∧ PoolSystem.ownerAt w.mem l.block = q.owner t ∧
        w.mem (.blockEpoch l.block) % 2 = 0 := by
    intro s leased
    have standing := inv.standing leased
    refine ⟨leased.below, ?_, standing.epoch⟩
    unfold PoolSystem.ownerAt
    simp only [standing.owner]
    rfl
  rcases PoolClient.mem_buffers.1 hl with write | read
  · exact words ((inv.sound t).writes l write)
  · exact words ((inv.sound t).reads l read)

omit [DecidableEq T] in
theorem PoolInv.writing_of_mem (inv : PoolInv q w d) {t : T} {l : BufferLease}
    (hl : l ∈ (w.client t).writes) :
    w.mem (.blockState l.block) = SharedBufferBlockState.writing.code := by
  rw [← inv.client] at hl
  exact (inv.standing ((inv.sound t).writes l hl)).state

omit [DecidableEq T] in
theorem PoolInv.reading_of_mem (inv : PoolInv q w d) {t : T} {l : BufferLease}
    (hl : l ∈ (w.client t).reads) :
    w.mem (.blockState l.block) = SharedBufferBlockState.reading.code := by
  rw [← inv.client] at hl
  exact (inv.standing ((inv.sound t).reads l hl)).state

omit [DecidableEq T] in
/-- Between calls every block is FREE, PUBLISHED, exhausted or somebody's. -/
theorem PoolInv.countable (inv : PoolInv q w d) (tidy : ∀ t, q.Tidy t (d t)) {b : Nat}
    (usable : w.mem (.blockState b) ≠ SharedBufferBlockState.epochExhausted.code) :
    PoolSystem.Countable w.mem b := by
  by_cases held : SharedBufferBlockState.InHand (w.mem (.blockState b))
  · obtain ⟨t, l, hl, rfl⟩ := inv.buffer_of_held tidy held
    obtain ⟨_, owner, even⟩ := inv.buffer_words hl
    refine .inr (.inr ⟨?_, even, ?_⟩)
    · exact (PoolClient.mem_buffers.1 hl).imp inv.writing_of_mem inv.reading_of_mem
    · rw [owner]
      exact q.valid t
  · obtain ⟨_, _, fits⟩ := inv.fits b
    obtain ⟨state, sane, code⟩ := fits.code
    rw [code] at held usable
    unfold PoolSystem.Countable
    rw [code]
    cases state with
    | free => exact .inl rfl
    | published => exact .inr (.inl rfl)
    | epochExhausted => exact absurd rfl usable
    | ownerProtocolFault => exact absurd rfl sane
    | writingClaiming | writing | readingClaiming | reading =>
        exact absurd (by simp [SharedBufferBlockState.InHand]) held

omit [DecidableEq T] in
theorem PoolInv.blocks_nodup (inv : PoolInv q w d) (t : T) :
    ((w.client t).buffers.map (·.block)).Nodup := by
  rw [← inv.client]
  exact (inv.sound t).apart

variable [Fintype T]

omit [DecidableEq T] in
theorem PoolInv.count_writing (inv : PoolInv q w d) (tidy : ∀ t, q.Tidy t (d t)) :
    PoolSystem.inState w.mem .writing q.handle.header.blockCount =
      ∑ t, (w.client t).writes.length := by
  refine count_eq_sum_buffers ?_ ?_ ?_
  · intro t
    have both := inv.blocks_nodup t
    rw [PoolClient.buffers, List.map_append] at both
    exact both.of_append_left
  · intro t u l l' hl hl' same
    exact inv.same_client (List.mem_append_left _ hl) (List.mem_append_left _ hl') same
  · intro b
    constructor
    · rintro ⟨_, state⟩
      obtain ⟨t, l, hl, rfl⟩ := inv.buffer_of_held tidy (.inr (.inl state))
      rcases PoolClient.mem_buffers.1 hl with write | read
      · exact ⟨t, l, write, rfl⟩
      · simp [inv.reading_of_mem read] at state
    · rintro ⟨t, l, hl, rfl⟩
      exact ⟨(inv.buffer_words (List.mem_append_left _ hl)).1, inv.writing_of_mem hl⟩

omit [DecidableEq T] in
theorem PoolInv.count_reading (inv : PoolInv q w d) (tidy : ∀ t, q.Tidy t (d t)) :
    PoolSystem.inState w.mem .reading q.handle.header.blockCount =
      ∑ t, (w.client t).reads.length := by
  refine count_eq_sum_buffers ?_ ?_ ?_
  · intro t
    have both := inv.blocks_nodup t
    rw [PoolClient.buffers, List.map_append] at both
    exact both.of_append_right
  · intro t u l l' hl hl' same
    exact inv.same_client (List.mem_append_right _ hl) (List.mem_append_right _ hl') same
  · intro b
    constructor
    · rintro ⟨_, state⟩
      obtain ⟨t, l, hl, rfl⟩ := inv.buffer_of_held tidy (.inr (.inr (.inr state)))
      rcases PoolClient.mem_buffers.1 hl with write | read
      · simp [inv.writing_of_mem write] at state
      · exact ⟨t, l, read, rfl⟩
    · rintro ⟨t, l, hl, rfl⟩
      exact ⟨(inv.buffer_words (List.mem_append_right _ hl)).1, inv.reading_of_mem hl⟩

omit [DecidableEq T] in
/-- The blocks of the owners that a predicate picks out. -/
theorem PoolInv.count_owned (inv : PoolInv q w d) (tidy : ∀ t, q.Tidy t (d t))
    (picked : OwnerAbi → Bool) :
    Nat.count (fun b => (w.mem (.blockState b) = SharedBufferBlockState.writing.code ∨
        w.mem (.blockState b) = SharedBufferBlockState.reading.code) ∧
        picked (PoolSystem.ownerAt w.mem b) = true) q.handle.header.blockCount =
      ∑ t, (if picked (q.owner t) then (w.client t).buffers else []).length := by
  have selected : ∀ {t l}, l ∈ (if picked (q.owner t) then (w.client t).buffers else []) ↔
      picked (q.owner t) = true ∧ l ∈ (w.client t).buffers := by
    intro t l
    split <;> simp [*]
  refine count_eq_sum_buffers ?_ ?_ ?_
  · intro t
    split
    · exact inv.blocks_nodup t
    · exact List.nodup_nil
  · intro t u l l' hl hl' same
    exact inv.same_client (selected.1 hl).2 (selected.1 hl').2 same
  · intro b
    constructor
    · rintro ⟨_, state, gone⟩
      have held : SharedBufferBlockState.InHand (w.mem (.blockState b)) :=
        state.elim (fun h => .inr (.inl h)) fun h => .inr (.inr (.inr h))
      obtain ⟨t, l, hl, rfl⟩ := inv.buffer_of_held tidy held
      rw [(inv.buffer_words hl).2.1] at gone
      exact ⟨t, l, selected.2 ⟨gone, hl⟩, rfl⟩
    · rintro ⟨t, l, hl, rfl⟩
      obtain ⟨gone, hl⟩ := selected.1 hl
      refine ⟨(inv.buffer_words hl).1, (PoolClient.mem_buffers.1 hl).imp inv.writing_of_mem
        inv.reading_of_mem, ?_⟩
      rw [(inv.buffer_words hl).2.1]
      exact gone

end

theorem inState_sum {m : PoolMem} {n : Nat}
    (countable : ∀ b < n, PoolSystem.Countable m b) :
    PoolSystem.inState m .free n + PoolSystem.inState m .published n +
      PoolSystem.inState m .writing n + PoolSystem.inState m .reading n = n := by
  induction n with
  | zero => rfl
  | succ n ih =>
      have before := ih fun b lt => countable b (by omega)
      unfold PoolSystem.inState at before ⊢
      simp only [Nat.count_succ]
      rcases countable n (by omega) with state | state | ⟨state | state, _⟩
      · simp [state]
        omega
      · simp [state]
        omega
      · simp [state]
        omega
      · simp [state]
        omega

/-- When all clients are between calls, a status call counts their buffers: what is being
written and read is what they have in their hands, the rest of the blocks are free or
published, and what blocks recovery are the buffers of the clients it takes for lost. -/
theorem status_counts_buffers [Fintype T]
    (run : q.machine.Reach (fun _ _ => True) (q.machine.start q.init) c)
    (idle : ∀ t, c.thread t = .idle)
    (usable : ∀ b < q.handle.header.blockCount,
      c.world.mem (.blockState b) ≠ SharedBufferBlockState.epochExhausted.code)
    {u : T} (present : (c.world.client u).removed = false) :
    ∃ s, q.memory.alone probe now u (q.code u (c.world.client u) .status) c.world =
        (.ok (.status s), c.world) ∧
      s.writingBlocks = ∑ t, (c.world.client t).writes.length ∧
      s.readingBlocks = ∑ t, (c.world.client t).reads.length ∧
      s.freeBlocks + s.publishedBlocks + s.writingBlocks + s.readingBlocks =
        q.handle.header.blockCount ∧
      s.recoveryBlockedBlocks = ∑ t, (if PoolSystem.lost probe c.world (q.self u) (q.owner t)
        then (c.world.client t).buffers else []).length := by
  obtain ⟨d, inv, tidy⟩ := (PoolSystem.covers_of_reach run).inv
  have tidy' := fun t => tidy t (idle t)
  have countable : ∀ b < q.handle.header.blockCount, PoolSystem.Countable c.world.mem b :=
    fun b lt => inv.countable tidy' (usable b lt)
  have call : q.memory.Alone probe now u _
      (sharedBufferPoolStatusImpl (q.handleOf u (c.world.client u))) c.world :=
    PoolSystem.alone_status (PoolSystem.accepted_handleOf u _) present inv.ready countable
  obtain ⟨⟨s, outcome, counted⟩, world⟩ := call
  refine ⟨s, Memory.alone_map.trans ?_, counted.writing.trans (inv.count_writing tidy'),
    counted.reading.trans (inv.count_reading tidy'), ?_,
    counted.blocked.trans (inv.count_owned tidy' _)⟩
  · rw [outcome, world]
    rfl
  · rw [counted.free, counted.published, counted.writing, counted.reading]
    exact inState_sum countable

theorem status_counts_buffers_tiny :
    ∃ c s, PoolSystem.tinyRun (PoolSystem.tinyPublish ++ PoolSystem.tinyRead) = some c ∧
      PoolSystem.tiny.memory.alone (fun _ _ _ => .alive) (fun _ => 0) true
        (PoolSystem.tiny.code true (c.world.client true) .status) c.world =
          (.ok (.status s), c.world) ∧
      s.readingBlocks = ∑ t, (c.world.client t).reads.length := by
  have ended : (PoolSystem.tinyRun (PoolSystem.tinyPublish ++ PoolSystem.tinyRead)).map
      (fun c => ((c.thread true).isIdle && (c.thread false).isIdle,
        (c.world.client true).removed, c.world.mem (.blockState 0),
        c.world.mem (.blockState 1))) =
      some (true, false, SharedBufferBlockState.reading.code,
        SharedBufferBlockState.free.code) := by decide +kernel
  obtain ⟨c, hc, he⟩ := Option.map_eq_some_iff.1 ended
  simp only [Prod.mk.injEq, Bool.and_eq_true] at he
  obtain ⟨⟨first, second⟩, present, reading, free⟩ := he
  have idle : ∀ t, c.thread t = .idle := by
    intro t
    cases t with
    | false => exact Thread.eq_idle_of_isIdle second
    | true => exact Thread.eq_idle_of_isIdle first
  have usable : ∀ b < PoolSystem.tiny.handle.header.blockCount,
      c.world.mem (.blockState b) ≠ SharedBufferBlockState.epochExhausted.code := by
    intro b (below : b < 2)
    obtain rfl | rfl : b = 0 ∨ b = 1 := by omega
    · simp [reading]
    · simp [free]
  obtain ⟨s, outcome, _, reads, _⟩ :=
    status_counts_buffers (PoolSystem.tinyRun_reach hc) idle usable present
  exact ⟨c, s, hc, outcome, reads⟩

end EdgeRuntime

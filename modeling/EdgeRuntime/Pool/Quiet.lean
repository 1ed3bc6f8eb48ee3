import EdgeRuntime.Sync.Alone
import EdgeRuntime.Pool.Leases

/-!
A client of a pool that nobody disturbs during a call: which descriptors it can use, that
what was published can be read, which block a writer gets, and when the pool is removed.
-/
namespace EdgeRuntime
open Concurrent

namespace PoolSystem
variable {T α : Type} [DecidableEq T] {q : PoolSystem T}
  {probe : PoolWorld T → Nat → Nat → Liveness} {now : PoolWorld T → Nat} {t : T}
  {w : PoolWorld T} {b : Nat} {handle : SharedBufferPoolHandle}

open Memory

@[simp] theorem memory_read : q.memory.read w = w.mem := rfl

@[simp] theorem memory_write {l : PoolLoc} {v : Nat} :
    q.memory.write t l v w = write t l v w := rfl

theorem alone_setOwner {Q : Except Error α → PoolWorld T → Prop} {k : Unit → PoolCode α}
    {id : ProcessIdentity}
    (h : ∀ w', (∀ l, (∀ word, l ≠ .blockOwner b word) → w'.mem l = w.mem l) →
      q.memory.Alone probe now t Q (k ()) w') :
    q.memory.Alone probe now t Q (setOwner (.blockOwner b) id >>= k) w := by
  unfold setOwner storeOwnerSeqCst
  simp only [Prog.bind_assoc]
  refine alone_store (alone_store (alone_store (alone_store (h _ ?_))))
  intro l other
  simp [other, Words.set_apply]

theorem alone_validateLivePool {Q : Except Error α → PoolWorld T → Prop}
    {k : Unit → PoolCode α} {operation : String} (present : handle.removed = false)
    (ready : w.mem .initState = SharedBufferPoolInitState.ready.code)
    (h : q.memory.Alone probe now t Q (k ()) w) :
    q.memory.Alone probe now t Q (validateLivePool handle operation >>= k) w := by
  unfold validateLivePool
  rw [if_neg (by simp [present]), Prog.bind_assoc]
  refine alone_load ?_
  rw [memory_read, if_neg (by simp [ready])]
  exact h

/-- A descriptor of the right shape stands or falls with its generation. -/
theorem validateDescriptor_named {size : Nat} (accepted : AcceptedPool size handle)
    {descriptor : BufferHandle} {operation : String} (named : Names handle descriptor) :
    (q.memory.alone probe now t (validateDescriptor handle descriptor operation) w).1 =
        .ok () ↔
      w.mem .initState = SharedBufferPoolInitState.ready.code ∧
        descriptor.blockGeneration ≠ 0 ∧
        w.mem (.blockGeneration descriptor.blockId) = descriptor.blockGeneration := by
  obtain ⟨stride, stride_eq, _⟩ := sharedBufferPoolMappingSizeFor_some accepted.mapping
  have offsets := sharedBufferPoolBlockOffsetFor_eq accepted.mapping stride_eq named.below
  have block := (accepted.block_eq stride_eq named.below).1
  have shape := named.eq
  generalize descriptor.blockId = b at *
  generalize descriptor.blockGeneration = g at *
  subst shape
  unfold Memory.alone validateDescriptor validateLivePool
  rw [if_neg (by simp [named.present])]
  change (Prog.solo _ ((if w.mem .initState ≠ SharedBufferPoolInitState.ready.code then _
    else _) >>= _) w).1 = _ ↔ _
  by_cases ready : w.mem .initState = SharedBufferPoolInitState.ready.code
  · rw [if_neg (not_not.2 ready)]
    have offset : payloadOffsetOf handle.header b = Strided.cell sharedBufferPoolHeaderSize
        stride b + sharedBufferBlockHeaderSize := by
      rw [payloadOffsetOf, offsets]
    have below : b < handle.header.blockCount := named.below
    simp only [Prog.pure_eq, Prog.ret_bind]
    rw [if_neg (by simp [handleAt]), if_neg (by simp [handleAt, handleSchemaMatches]),
      if_neg (by simp [handleAt, below])]
    change sharedBufferPoolBlockOffsetFor _ (handleAt handle.header b g).blockId _ = _ at offsets
    change blockAt handle (handleAt handle.header b g).blockId = _ at block
    rw [offsets]
    dsimp only
    rw [block]
    by_cases zero : g = 0
    · rw [if_pos (.inr zero)]
      simp [zero]
    · rw [if_neg (by simp [handleAt, offset, zero])]
      change (Prog.solo _ (if w.mem (.blockGeneration b) ≠ g then _ else _) w).1 = _ ↔ _
      by_cases generation : w.mem (.blockGeneration b) = g
      · rw [if_neg (not_not.2 generation)]
        simp [ready, zero, generation]
      · rw [if_pos generation]
        simp [generation]
  · rw [if_pos ready]
    simp [ready]

/-- The only descriptor of a block that is accepted is the block's own, at its present
generation. -/
theorem validateDescriptor_alone {size : Nat} (accepted : AcceptedPool size handle)
    {descriptor : BufferHandle} {operation : String} :
    (q.memory.alone probe now t (validateDescriptor handle descriptor operation) w).1 =
        .ok () ↔
      (handle.removed = false ∧
        w.mem .initState = SharedBufferPoolInitState.ready.code) ∧
      descriptor.blockId < handle.header.blockCount ∧
      w.mem (.blockGeneration descriptor.blockId) ≠ 0 ∧
      descriptor = handleAt handle.header descriptor.blockId
        (w.mem (.blockGeneration descriptor.blockId)) := by
  constructor
  · intro h
    have named : Names handle descriptor := by
      have ends : Validated handle descriptor (q.memory.alone probe now t
          (validateDescriptor handle descriptor operation) w).1 :=
        alone_ends ends_validateDescriptor
      rw [h] at ends
      exact ends
    obtain ⟨ready, positive, generation⟩ := (validateDescriptor_named accepted named).1 h
    rw [generation]
    exact ⟨⟨named.present, ready⟩, named.below, positive, named.eq⟩
  · rintro ⟨⟨present, ready⟩, below, positive, canonical⟩
    have generation : w.mem (.blockGeneration descriptor.blockId) =
        descriptor.blockGeneration := (congrArg BufferHandle.blockGeneration canonical).symm
    rw [generation] at positive canonical
    exact (validateDescriptor_named accepted ⟨present, below, canonical⟩).2
      ⟨ready, positive, generation⟩

theorem validateDescriptor_alone_tiny :
    (tiny.memory.alone (fun _ _ _ => .alive) (fun _ => 0) false
        (validateDescriptor tiny.handle tinyBuffer.descriptor "SharedBufferPool::acquire_read")
        { tiny.init with mem := tiny.init.mem.set (.blockGeneration 0) 1 }).1 = .ok () :=
  (validateDescriptor_alone (sharedBufferPoolCreateImpl_ok tiny.created).1).2
    ⟨⟨rfl, by decide⟩, by decide, by decide, rfl⟩

/-- Nothing of the shared words is changed by a look. -/
theorem respond_look {i : Instr PoolLoc} (look : PoolLook i) :
    (q.memory.respond probe now t i w).2 = w := by
  cases i with
  | load | probe => rfl
  | store | cas | fetchAdd | copyOut | boottime | monotonic | watch | futexWake | futexSleep
  | futexRise | lock | unlock | block => exact look.elim

section
variable {Q : Except Error BufferLease → PoolWorld T → Prop} {descriptor : BufferHandle}

theorem alone_commitReadClaim (epoch : w.mem (.blockEpoch descriptor.blockId) % 2 = 0)
    (room : w.mem (.blockEpoch descriptor.blockId) + 2 ≤ maxCommittedOwnerEpoch)
    (h : ∀ w', w'.mem (.blockState descriptor.blockId) =
        SharedBufferBlockState.reading.code →
      (∀ offset, w'.mem (.blockPayload descriptor.blockId offset) =
        w.mem (.blockPayload descriptor.blockId offset)) →
      Q (.ok ⟨descriptor.blockId, descriptor.length, descriptor, true⟩) w') :
    q.memory.Alone probe now t Q (commitReadClaim handle descriptor) w := by
  unfold commitReadClaim
  refine alone_beginOwnerCommit (Nat.le_refl _) epoch room ?_
  simp only [ne_eq, not_true_eq_false, if_false]
  refine alone_setOwner fun w₁ mem => alone_store (alone_store (alone_ret (h _ ?_ ?_)))
  · simp
  · intro offset
    simp [mem, Words.set_apply]

/-- A published block goes to an undisturbed reader that names it. -/
theorem alone_acquireRead {size : Nat} (accepted : AcceptedPool size handle)
    (named : Names handle descriptor)
    (ready : w.mem .initState = SharedBufferPoolInitState.ready.code)
    (published : w.mem (.blockState descriptor.blockId) =
      SharedBufferBlockState.published.code)
    (positive : descriptor.blockGeneration ≠ 0)
    (current : w.mem (.blockGeneration descriptor.blockId) = descriptor.blockGeneration)
    (even : w.mem (.blockEpoch descriptor.blockId) % 2 = 0)
    (room : w.mem (.blockEpoch descriptor.blockId) + 2 ≤ maxCommittedOwnerEpoch)
    (h : ∀ w', w'.mem (.blockState descriptor.blockId) =
        SharedBufferBlockState.reading.code →
      (∀ offset, w'.mem (.blockPayload descriptor.blockId offset) =
        w.mem (.blockPayload descriptor.blockId offset)) →
      Q (.ok ⟨descriptor.blockId, descriptor.length, descriptor, true⟩) w') :
    q.memory.Alone probe now t Q (sharedBufferPoolAcquireReadImpl handle descriptor) w := by
  obtain ⟨_, _, block, payload, _⟩ := accepted.layout.placed _ named.below
  have valid : q.memory.Alone probe now t (fun x w' => x = .ok () ∧ w' = w)
      (validateDescriptor handle descriptor "SharedBufferPool::acquire_read") w :=
    ⟨(validateDescriptor_named accepted named).2 ⟨ready, positive, current⟩,
      alone_world all_validateDescriptor fun _ look => respond_look look⟩
  unfold sharedBufferPoolAcquireReadImpl
  refine alone_seq valid ?_ ?_
  · rintro _ w' ⟨_, rfl⟩
    rw [if_neg (by simp [block, payload])]
    refine alone_load ?_
    rw [memory_read, if_neg (not_not.2 published)]
    refine alone_load ?_
    rw [memory_read, if_neg (not_not.2 current)]
    unfold readPublished
    refine alone_cas published ?_
    simp only [not_true_eq_false, if_false]
    refine alone_load ?_
    rw [if_neg (by simp [current])]
    refine alone_ownerEpochCapacity (by simpa using even) (by simpa using room) ?_
    rw [if_neg (by simp)]
    exact alone_commitReadClaim (by simpa using even) (by simpa using room) (by simpa using h)
  · rintro e w' ⟨never, _⟩
    cases never

end

section
variable {saw : Saw}

theorem alone_commitWriteClaim {Q : Except Error (Saw ⊕ BufferLease) → PoolWorld T → Prop}
    (even : w.mem (.blockEpoch b) % 2 = 0)
    (room : w.mem (.blockEpoch b) + 4 ≤ maxCommittedOwnerEpoch)
    (small : w.mem (.blockGeneration b) < uint64Max) (placed : payloadAt handle b ≠ none)
    (h : ∀ w', w'.mem (.blockState b) = SharedBufferBlockState.writing.code →
      Q (.ok (.inr ⟨b, handle.header.blockSize,
        handleAt handle.header b (w.mem (.blockGeneration b) + 1), true⟩)) w') :
    q.memory.Alone probe now t Q
      (commitWriteClaim handle b (w.mem (.blockGeneration b)) saw) w := by
  obtain ⟨payload, payload_eq⟩ := Option.ne_none_iff_exists'.1 placed
  unfold commitWriteClaim
  refine alone_beginOwnerCommit (by omega) even room ?_
  simp only [ne_eq, not_true_eq_false, if_false]
  rw [addU64_eq small]
  refine alone_store (alone_setOwner fun w₁ mem => alone_store (alone_store ?_))
  rw [payload_eq]
  refine alone_load ?_
  have generation : q.memory.read (q.memory.write t (.blockState b)
      SharedBufferBlockState.writing.code
      (q.memory.write t (.blockEpoch b) (q.memory.read w (.blockEpoch b) + 2) w₁))
        (.blockGeneration b) = w.mem (.blockGeneration b) + 1 := by
    simp [mem, Words.set_apply]
  rw [generation]
  exact alone_ret (h _ (by simp))

/-- A FREE block that is not worn out is taken. -/
theorem alone_tryAcquireBlock_free
    {Q : Except Error (Saw ⊕ BufferLease) → PoolWorld T → Prop} {size : Nat}
    (accepted : AcceptedPool size handle) (below : b < handle.header.blockCount)
    (free : w.mem (.blockState b) = SharedBufferBlockState.free.code)
    (even : w.mem (.blockEpoch b) % 2 = 0)
    (room : w.mem (.blockEpoch b) + 4 ≤ maxCommittedOwnerEpoch)
    (small : w.mem (.blockGeneration b) < uint64Max)
    (h : ∀ w', w'.mem (.blockState b) = SharedBufferBlockState.writing.code →
      Q (.ok (.inr ⟨b, handle.header.blockSize,
        handleAt handle.header b (w.mem (.blockGeneration b) + 1), true⟩)) w') :
    q.memory.Alone probe now t Q (tryAcquireBlock handle b saw) w := by
  obtain ⟨_, _, block, payload, _⟩ := accepted.layout.placed b below
  unfold tryAcquireBlock
  rw [block]
  refine alone_load ?_
  rw [memory_read, if_neg (by simp [free]), if_neg (not_not.2 free)]
  refine alone_cas free ?_
  simp only [not_true_eq_false, if_false]
  unfold writeClaimed
  refine alone_load ?_
  have generation : q.memory.read (q.memory.write t (.blockState b)
      SharedBufferBlockState.writingClaiming.code w) (.blockGeneration b) =
        w.mem (.blockGeneration b) := by simp
  rw [generation, if_neg (by omega)]
  refine alone_ownerEpochCapacity (by simpa using even) (by simpa using room) ?_
  rw [if_neg (by simp), ← generation]
  refine alone_commitWriteClaim (by simpa using even) (by simpa using room)
    (by simpa using small) (by simp [payload]) ?_
  simpa using h

/-- A block that is not FREE is passed by. -/
theorem alone_tryAcquireBlock_skip
    {Q : Except Error (Saw ⊕ BufferLease) → PoolWorld T → Prop} {size : Nat}
    (accepted : AcceptedPool size handle) (below : b < handle.header.blockCount)
    (taken : w.mem (.blockState b) ≠ SharedBufferBlockState.free.code)
    (h : ∀ saw', Q (.ok (.inl saw')) w) :
    q.memory.Alone probe now t Q (tryAcquireBlock handle b saw) w := by
  obtain ⟨_, _, block, _⟩ := accepted.layout.placed b below
  unfold tryAcquireBlock
  rw [block]
  refine alone_load ?_
  rw [memory_read]
  split
  · exact alone_ret (h _)
  · split
    · exact alone_ret (h _)
    · exact alone_looks looks_classifyActiveBlock (fun _ look => respond_look look)
        fun _ => alone_ret (h _)

/-- The search ends at the first FREE block. -/
theorem alone_tryAcquireWriteLoop {Q : Except Error BufferLease → PoolWorld T → Prop}
    {size : Nat} (accepted : AcceptedPool size handle) {left block : Nat}
    (after : block ≤ b) (within : b < block + left)
    (inside : block + left ≤ handle.header.blockCount)
    (first : ∀ b', block ≤ b' → b' < b →
      w.mem (.blockState b') ≠ SharedBufferBlockState.free.code)
    (free : w.mem (.blockState b) = SharedBufferBlockState.free.code)
    (even : w.mem (.blockEpoch b) % 2 = 0)
    (room : w.mem (.blockEpoch b) + 4 ≤ maxCommittedOwnerEpoch)
    (small : w.mem (.blockGeneration b) < uint64Max)
    (h : ∀ w', w'.mem (.blockState b) = SharedBufferBlockState.writing.code →
      Q (.ok ⟨b, handle.header.blockSize,
        handleAt handle.header b (w.mem (.blockGeneration b) + 1), true⟩) w') :
    q.memory.Alone probe now t Q (tryAcquireWriteLoop handle left block saw) w := by
  induction left generalizing block saw with
  | zero => omega
  | succ left ih =>
      unfold tryAcquireWriteLoop
      by_cases here : block = b
      · subst here
        refine alone_seq (B := fun x w' => (∃ buffer, x = .ok (.inr buffer) ∧
            Q (.ok buffer) w'))
          (alone_tryAcquireBlock_free accepted (by omega) free even room small
            fun w' state => ⟨_, rfl, h w' state⟩) ?_ ?_
        · rintro _ w' ⟨buffer, found, post⟩
          cases found
          exact alone_ret post
        · rintro _ w' ⟨_, never, _⟩
          cases never
      · refine alone_seq (B := fun x w' => (∃ saw', x = .ok (.inl saw')) ∧ w' = w)
          (alone_tryAcquireBlock_skip accepted (by omega)
            (first block (Nat.le_refl _) (by omega)) fun _ => ⟨⟨_, rfl⟩, rfl⟩) ?_ ?_
        · rintro _ _ ⟨⟨saw', found⟩, rfl⟩
          cases found
          exact ih (by omega) (by omega) (by omega)
            fun b' ge lt => first b' (by omega) lt
        · rintro _ _ ⟨⟨_, never⟩, _⟩
          cases never

end

/-- The scan before a removal finds out whether all blocks are FREE. -/
theorem alone_removeScan {size : Nat} (accepted : AcceptedPool size handle) {left block : Nat}
    (inside : block + left ≤ handle.header.blockCount) :
    q.memory.Alone probe now t (fun x w' => (x = .ok () ↔ ∀ b, block ≤ b → b < block + left →
        w.mem (.blockState b) = SharedBufferBlockState.free.code) ∧ w' = w)
      (removeScan handle left block) w := by
  induction left generalizing block with
  | zero => exact alone_ret ⟨⟨fun _ b _ _ => by omega, fun _ => rfl⟩, rfl⟩
  | succ left ih =>
      obtain ⟨_, _, here, _⟩ := accepted.layout.placed block (by omega)
      unfold removeScan
      rw [here]
      refine alone_load ?_
      rw [memory_read]
      by_cases free : w.mem (.blockState block) = SharedBufferBlockState.free.code
      · rw [if_pos free]
        refine alone_mono ?_ (ih (by omega))
        rintro x w' ⟨rest, same⟩
        refine ⟨rest.trans ⟨fun all b ge lt => ?_, fun all b ge lt => all b (by omega) (by omega)⟩,
          same⟩
        by_cases first : b = block
        · rw [first]
          exact free
        · exact all b (by omega) (by omega)
      · have refused : ∀ {e : Error}, ((.error e : Except Error Unit) = .ok () ↔
            ∀ b, block ≤ b → b < block + (left + 1) →
              w.mem (.blockState b) = SharedBufferBlockState.free.code) := by
          intro e
          refine ⟨fun never => (by cases never), fun all => ?_⟩
          exact absurd (all block (Nat.le_refl _) (by omega)) free
        rw [if_neg free]
        split
        · exact ⟨refused, rfl⟩
        · refine alone_looks Hand.looks_snapshotBlockOwner (fun _ look => respond_look look) ?_
          intro observation
          split
          · exact ⟨refused, rfl⟩
          · exact ⟨refused, rfl⟩

theorem alone_unlinkChecked {calls : ShmUnlinking} :
    (q.memory.alone probe now t calls.unlinkChecked w).1 = .ok () ↔
      calls.opened = .ok () ∧ calls.sameInode = true ∧ calls.unlinked = .ok () ∧
        calls.gone = .ok () := by
  obtain ⟨opened, sameInode, unlinked, reopened⟩ := calls
  cases opened with
  | error e => exact ⟨fun never => (by cases never), fun all => (by cases all.1)⟩
  | ok _ =>
      cases sameInode with
      | false => exact ⟨fun never => (by cases never), fun all => (by cases all.2.1)⟩
      | true =>
          cases unlinked with
          | error e => exact ⟨fun never => (by cases never), fun all => (by cases all.2.2.1)⟩
          | ok _ =>
              have ends : (q.memory.alone probe now t
                  (Prog.lift (checkNameGone reopened) : PoolCode Unit)
                    (write t .unlinked 1 w)).1 = checkNameGone reopened := by
                cases checkNameGone reopened <;> rfl
              exact ⟨fun done => ⟨rfl, rfl, rfl, ends.symm.trans done⟩,
                fun all => ends.trans all.2.2.2⟩

/-- Without interference the pool is removed exactly when the caller created it, every block
is FREE and the name still leads to the pool. -/
theorem removeIfCreator_alone {size : Nat} (accepted : AcceptedPool size handle)
    {calls : ShmUnlinking} (present : handle.removed = false)
    (ready : w.mem .initState = SharedBufferPoolInitState.ready.code) :
    (q.memory.alone probe now t (sharedBufferPoolRemoveIfCreatorImpl handle calls) w).1 =
        .ok () ↔
      ownerMatches handle.header.creator handle.self = true ∧
      (∀ b, b < handle.header.blockCount →
        w.mem (.blockState b) = SharedBufferBlockState.free.code) ∧
      calls.opened = .ok () ∧ calls.sameInode = true ∧ calls.unlinked = .ok () ∧
      calls.gone = .ok () := by
  change q.memory.Alone probe now t (fun x _ => x = .ok () ↔ _) _ w
  unfold sharedBufferPoolRemoveIfCreatorImpl
  refine alone_validateLivePool present ready ?_
  by_cases creator : ownerMatches handle.header.creator handle.self = true
  · rw [if_neg (not_not.2 creator)]
    refine alone_seq (alone_removeScan accepted (Nat.le_of_eq (Nat.zero_add _))) ?_ ?_
    · rintro _ w' ⟨scanned, rfl⟩
      have free := scanned.1 rfl
      refine alone_unlinkChecked.trans ⟨fun done => ⟨creator, fun b lt => ?_, done⟩,
        fun all => all.2.2⟩
      exact free b (Nat.zero_le b) (by omega)
    · rintro e w' ⟨scanned, _⟩
      refine ⟨fun never => (by cases never), fun all => ?_⟩
      cases scanned.2 fun b _ lt => all.2.1 b (by omega)
  · rw [if_pos creator]
    exact ⟨fun never => (by cases never), fun all => absurd all.1 creator⟩

end PoolSystem

variable {T : Type} [DecidableEq T] {q : PoolSystem T}
  {c : Config T (Instr PoolLoc) Reply Error PoolReply PoolCall (PoolWorld T)}
  {probe : PoolWorld T → Nat → Nat → Liveness} {now : PoolWorld T → Nat}

omit [DecidableEq T] in
/-- The epoch of a block that nobody holds is settled. -/
theorem PoolInv.settled {w : PoolWorld T} {d : T → Hand} {b : Nat} (inv : PoolInv q w d)
    (unheld : ¬ SharedBufferBlockState.InHand (w.mem (.blockState b))) :
    BlockFits w.mem b (w.history b) none false ∧
      Hand.Settled (w.mem (.blockState b)) (w.mem (.blockEpoch b)) := by
  cases inv.block b with
  | loose fits _ _ => exact ⟨fits, fits.settled fun _ => rfl⟩
  | held t holder => exact absurd holder.held unheld

omit [DecidableEq T] in
theorem PoolSystem.accepted_handleOf (t : T) (c : PoolClient) :
    AcceptedPool q.handle.size (q.handleOf t c) :=
  ⟨rfl, (sharedBufferPoolCreateImpl_ok q.created).1.mapping⟩

/-- A published block can be read: an undisturbed client that names the block and its
generation gets it, with the payload that was published. -/
theorem published_readable
    (run : q.machine.Reach (fun _ _ => True) (q.machine.start q.init) c) {u : T} {b : Nat}
    (present : (c.world.client u).removed = false) (below : b < q.handle.header.blockCount)
    (published : c.world.mem (.blockState b) = SharedBufferBlockState.published.code) :
    let descriptor := handleAt q.handle.header b (c.world.mem (.blockGeneration b))
    ∃ w', q.memory.alone probe now u
        (q.code u (c.world.client u) (.acquireRead descriptor)) c.world =
          (.ok (.read ⟨b, q.handle.header.blockSize, descriptor, true⟩), w') ∧
      w'.mem (.blockState b) = SharedBufferBlockState.reading.code ∧
      ∃ p ∈ (c.world.history b).published,
        p.generation = c.world.mem (.blockGeneration b) ∧
          ∀ offset, w'.mem (.blockPayload b offset) = p.payload offset := by
  intro descriptor
  obtain ⟨d, inv, _⟩ := (PoolSystem.covers_of_reach run).inv
  obtain ⟨fits, settled⟩ := inv.settled (b := b)
    (by simp [published, SharedBufferBlockState.InHand])
  obtain ⟨p, hp, generation, payload⟩ := fits.offered (.inl published)
  have positive : c.world.mem (.blockGeneration b) ≠ 0 := by
    have := fits.chronicle.positive _ (fits.chronicle.published_granted p hp)
    omega
  have read : q.memory.Alone probe now u
      (fun x w' => x = .ok ⟨b, q.handle.header.blockSize, descriptor, true⟩ ∧
        w'.mem (.blockState b) = SharedBufferBlockState.reading.code ∧
        ∀ offset, w'.mem (.blockPayload b offset) = c.world.mem (.blockPayload b offset))
      (sharedBufferPoolAcquireReadImpl (q.handleOf u (c.world.client u)) descriptor) c.world :=
    PoolSystem.alone_acquireRead (PoolSystem.accepted_handleOf u _) ⟨present, below, rfl⟩
      inv.ready published positive rfl settled.even (settled.room (.inr (.inl published)))
      fun _ state words => ⟨rfl, state, words⟩
  obtain ⟨outcome, state, words⟩ := read
  refine ⟨_, Memory.alone_map.trans (by rw [outcome]; rfl), state, p, hp, generation,
    fun offset => ?_⟩
  rw [payload]
  exact words offset

theorem published_readable_tiny :
    ∃ c w', PoolSystem.tinyRun PoolSystem.tinyPublish = some c ∧
      PoolSystem.tiny.memory.alone (fun _ _ _ => .alive) (fun _ => 0) false
        (PoolSystem.tiny.code false (c.world.client false)
          (.acquireRead PoolSystem.tinyBuffer.descriptor)) c.world =
        (.ok (.read PoolSystem.tinyBuffer), w') := by
  have state : (PoolSystem.tinyRun PoolSystem.tinyPublish).map (fun c =>
      ((c.world.client false).removed, c.world.mem (.blockState 0),
        c.world.mem (.blockGeneration 0))) =
      some (false, SharedBufferBlockState.published.code, 1) := by decide +kernel
  obtain ⟨c, hc, hs⟩ := Option.map_eq_some_iff.1 state
  simp only [Prod.mk.injEq] at hs
  obtain ⟨present, published, generation⟩ := hs
  obtain ⟨w', outcome, _⟩ := published_readable (PoolSystem.tinyRun_reach hc) present
    (by decide) published
  rw [generation] at outcome
  exact ⟨c, w', hc, outcome⟩

/-- An undisturbed writer gets the first FREE block that is not worn out, under the next
generation. -/
theorem first_free_acquired
    (run : q.machine.Reach (fun _ _ => True) (q.machine.start q.init) c) {u : T} {b : Nat}
    (present : (c.world.client u).removed = false) (below : b < q.handle.header.blockCount)
    (free : c.world.mem (.blockState b) = SharedBufferBlockState.free.code)
    (first : ∀ b' < b, c.world.mem (.blockState b') ≠ SharedBufferBlockState.free.code)
    (generation : c.world.mem (.blockGeneration b) < uint64Max)
    (epoch : c.world.mem (.blockEpoch b) + 4 ≤ maxCommittedOwnerEpoch) :
    ∃ w', q.memory.alone probe now u
        (q.code u (c.world.client u) .tryAcquireWrite) c.world =
          (.ok (.written ⟨b, q.handle.header.blockSize, handleAt q.handle.header b
            (c.world.mem (.blockGeneration b) + 1), true⟩), w') ∧
      w'.mem (.blockState b) = SharedBufferBlockState.writing.code := by
  obtain ⟨d, inv, _⟩ := (PoolSystem.covers_of_reach run).inv
  obtain ⟨_, settled⟩ := inv.settled (b := b) (by simp [free, SharedBufferBlockState.InHand])
  have search : q.memory.Alone probe now u
      (fun x w' => x = .ok ⟨b, q.handle.header.blockSize, handleAt q.handle.header b
          (c.world.mem (.blockGeneration b) + 1), true⟩ ∧
        w'.mem (.blockState b) = SharedBufferBlockState.writing.code)
      (sharedBufferPoolTryAcquireWriteImpl (q.handleOf u (c.world.client u))) c.world := by
    unfold sharedBufferPoolTryAcquireWriteImpl
    refine PoolSystem.alone_validateLivePool present inv.ready ?_
    exact PoolSystem.alone_tryAcquireWriteLoop (PoolSystem.accepted_handleOf u _)
      (Nat.zero_le b) (by simpa [PoolSystem.handleOf] using below) (by omega)
      (fun b' _ lt => first b' lt) free settled.even epoch generation
      fun _ state => ⟨rfl, state⟩
  obtain ⟨outcome, state⟩ := search
  exact ⟨_, Memory.alone_map.trans (by rw [outcome]; rfl), state⟩

/-- The first block is taken, so the other client gets the second one. -/
theorem first_free_acquired_tiny :
    ∃ c w', PoolSystem.tinyRun [.call true .tryAcquireWrite, .run true 100, .ret true] = some c ∧
      PoolSystem.tiny.memory.alone (fun _ _ _ => .alive) (fun _ => 0) false
        (PoolSystem.tiny.code false (c.world.client false) .tryAcquireWrite) c.world =
          (.ok (.written ⟨1, 4096, handleAt PoolSystem.tiny.handle.header 1 1, true⟩), w') := by
  have facts : (PoolSystem.tinyRun [.call true .tryAcquireWrite, .run true 100, .ret true]).map
      (fun c => ((c.world.client false).removed, c.world.mem (.blockState 0),
        c.world.mem (.blockState 1), c.world.mem (.blockGeneration 1),
        c.world.mem (.blockEpoch 1))) =
      some (false, SharedBufferBlockState.writing.code, SharedBufferBlockState.free.code, 0,
        0) := by
    decide +kernel
  obtain ⟨c, hc, facts⟩ := Option.map_eq_some_iff.1 facts
  simp only [Prod.mk.injEq] at facts
  obtain ⟨present, taken, free, generation, epoch⟩ := facts
  obtain ⟨w', outcome, _⟩ := first_free_acquired (PoolSystem.tinyRun_reach hc) present
    (b := 1) (by decide) free
    (fun b lt => by rw [Nat.lt_one_iff.1 lt, taken]; decide)
    (by rw [generation]; decide) (by rw [epoch]; decide)
  rw [generation] at outcome
  exact ⟨c, w', hc, outcome⟩

/-- An undisturbed removal succeeds exactly when its caller is the creator, every block is
FREE and the name still leads to the pool. -/
theorem removed_iff_all_free
    (run : q.machine.Reach (fun _ _ => True) (q.machine.start q.init) c) {u : T}
    {calls : ShmUnlinking} (present : (c.world.client u).removed = false) :
    (q.memory.alone probe now u
        (q.code u (c.world.client u) (.removeIfCreator calls)) c.world).1 = .ok .done ↔
      ownerMatches q.handle.header.creator (q.self u) = true ∧
      (∀ b, b < q.handle.header.blockCount →
        c.world.mem (.blockState b) = SharedBufferBlockState.free.code) ∧
      calls.opened = .ok () ∧ calls.sameInode = true ∧ calls.unlinked = .ok () ∧
      calls.gone = .ok () := by
  obtain ⟨d, inv, _⟩ := (PoolSystem.covers_of_reach run).inv
  have inner : (q.memory.alone probe now u (sharedBufferPoolRemoveIfCreatorImpl
      (q.handleOf u (c.world.client u)) calls) c.world).1 = .ok () ↔ _ :=
    PoolSystem.removeIfCreator_alone (PoolSystem.accepted_handleOf u _) present inv.ready
  refine Iff.trans ?_ inner
  simp only [PoolSystem.code, Memory.alone_map]
  generalize (q.memory.alone probe now u (sharedBufferPoolRemoveIfCreatorImpl
    (q.handleOf u (c.world.client u)) calls) c.world).1 = x
  cases x with
  | ok _ => exact ⟨fun _ => rfl, fun _ => rfl⟩
  | error e => exact ⟨fun never => (by cases never), fun never => (by cases never)⟩

/-- A block is written, published, read and given back, and then the creator removes the
pool. -/
theorem removed_iff_all_free_tiny :
    ∃ c, PoolSystem.tinyRun (PoolSystem.tinyPublish ++ PoolSystem.tinyRead ++
        [.call false (.release PoolSystem.tinyBuffer), .run false 100, .ret false]) = some c ∧
      (c.world.history 0).taken = [1] ∧
      (PoolSystem.tiny.memory.alone (fun _ _ _ => .alive) (fun _ => 0) true
        (PoolSystem.tiny.code true (c.world.client true)
          (.removeIfCreator ⟨.ok (), true, .ok (), .error ⟨enoent, ""⟩⟩)) c.world).1 =
        .ok .done := by
  have facts : (PoolSystem.tinyRun (PoolSystem.tinyPublish ++ PoolSystem.tinyRead ++
      [.call false (.release PoolSystem.tinyBuffer), .run false 100, .ret false])).map
      (fun c => ((c.world.history 0).taken, (c.world.client true).removed,
        c.world.mem (.blockState 0), c.world.mem (.blockState 1))) =
      some ([1], false, SharedBufferBlockState.free.code, SharedBufferBlockState.free.code) := by
    decide +kernel
  obtain ⟨c, hc, facts⟩ := Option.map_eq_some_iff.1 facts
  simp only [Prod.mk.injEq] at facts
  obtain ⟨used, present, first, second⟩ := facts
  refine ⟨c, hc, used, ?_⟩
  refine (removed_iff_all_free (PoolSystem.tinyRun_reach hc) present).2
    ⟨by decide, fun b lt => ?_, rfl, rfl, rfl, rfl⟩
  have two : b = 0 ∨ b = 1 := by
    have lt : b < 2 := lt
    omega
  rcases two with rfl | rfl
  · exact first
  · exact second

end EdgeRuntime

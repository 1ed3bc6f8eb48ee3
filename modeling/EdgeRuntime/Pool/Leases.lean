import Mathlib.Data.List.Nodup
import EdgeRuntime.Pool.Runs

/-!
A pool among all its clients: in every interleaving, with clients that die anywhere, a block
is in the hands of one client at most, a reader finds the payload that was published, and
no block is lost but to a client that died.
-/
namespace EdgeRuntime
open Concurrent
open SharedBufferBlockState (InHand)

variable {T : Type} [DecidableEq T] {q : PoolSystem T}
  {c : Config T (Instr PoolLoc) Reply Error PoolReply PoolCall (PoolWorld T)}

/-- What the shared words say of a block while a client has a buffer of it. -/
structure Standing (m : PoolMem) (me : OwnerAbi) (s : SharedBufferBlockState)
    (l : BufferLease) : Prop where
  state : m (.blockState l.block) = s.code
  generation : m (.blockGeneration l.block) = l.descriptor.blockGeneration
  epoch : m (.blockEpoch l.block) % 2 = 0
  owner : ∀ word, m (.blockOwner l.block word) = me.word word

omit [DecidableEq T] in
theorem PoolInv.standing {w : PoolWorld T} {d : T → Hand} {t : T} {l : BufferLease}
    {s : SharedBufferBlockState} (inv : PoolInv q w d)
    (leased : Leased q.handle.header (q.owner t) (d t) s l) :
    Standing w.mem (q.owner t) s l := by
  have held := (inv.block l.block).holder rfl leased.state
  obtain ⟨e, epoch, even⟩ := leased.epoch
  refine ⟨held.knows _ _ rfl leased.state, held.knows _ _ rfl leased.generation, ?_,
    fun word => held.knows _ _ rfl (leased.owner word)⟩
  rw [held.knows _ _ rfl epoch]
  exact even

/-- No two buffers are of one block, whichever clients have them, and the words of the block
name the client and what it does. -/
theorem buffers_exclusive
    (run : q.machine.Reach (fun _ _ => True) (q.machine.start q.init) c) :
    (∀ t u l l', l ∈ (c.world.client t).buffers → l' ∈ (c.world.client u).buffers →
        l.block = l'.block → t = u ∧ l = l') ∧
      (∀ t, (c.world.client t).buffers.Nodup) ∧
      ∀ t, (∀ l ∈ (c.world.client t).writes, Standing c.world.mem (q.owner t) .writing l) ∧
        ∀ l ∈ (c.world.client t).reads, Standing c.world.mem (q.owner t) .reading l := by
  obtain ⟨d, inv, _⟩ := (PoolSystem.covers_of_reach run).inv
  refine ⟨?_, ?_, ?_⟩
  · intro t u l l' hl hl' same
    cases inv.same_client hl hl' same
    rw [← inv.client] at hl hl'
    exact ⟨rfl, List.inj_on_of_nodup_map (inv.sound t).apart hl hl' same⟩
  · intro t
    rw [← inv.client]
    exact List.Nodup.of_map _ (inv.sound t).apart
  · intro t
    rw [← inv.client]
    exact ⟨fun l hl => inv.standing ((inv.sound t).writes l hl),
      fun l hl => inv.standing ((inv.sound t).reads l hl)⟩

theorem buffers_exclusive_tiny :
    ∃ c, PoolSystem.tinyRun PoolSystem.tinyMoves = some c ∧
      (c.world.client false).reads = [PoolSystem.tinyBuffer] ∧
      Standing c.world.mem (PoolSystem.tiny.owner false) .reading PoolSystem.tinyBuffer := by
  have reads : (PoolSystem.tinyRun PoolSystem.tinyMoves).map
      (fun c => (c.world.client false).reads) = some [PoolSystem.tinyBuffer] := by
    decide +kernel
  obtain ⟨c, hc, hr⟩ := Option.map_eq_some_iff.1 reads
  refine ⟨c, hc, hr, ?_⟩
  refine ((buffers_exclusive (PoolSystem.tinyRun_reach hc)).2.2 false).2 _ ?_
  rw [hr]
  exact List.mem_singleton.2 rfl

/-- One step of another client. -/
theorem step_untouched {t : T} {e : Event T (Instr PoolLoc) Reply Error PoolReply PoolCall}
    {c' : Config T (Instr PoolLoc) Reply Error PoolReply PoolCall (PoolWorld T)}
    (run : q.machine.Reach (fun _ _ => True) (q.machine.start q.init) c)
    (other : e.actor ≠ t) (next : q.machine.Step c e c') :
    c'.world.client t = c.world.client t ∧
      ∀ l ∈ (c.world.client t).buffers, ∀ loc, loc.inBlock = some l.block →
        c'.world.mem loc = c.world.mem loc := by
  have covers := PoolSystem.covers_of_reach run
  cases e with
  | call u a =>
      cases next
      exact ⟨rfl, fun _ _ _ _ => rfl⟩
  | ret u x =>
      cases next with
      | _ => exact ⟨Function.update_of_ne (Ne.symm other) _ _, fun _ _ _ _ => rfl⟩
  | crash u =>
      cases next
      exact ⟨rfl, fun _ _ _ _ => rfl⟩
  | op u i r =>
      obtain ⟨d, inv, allowed, exec⟩ := covers.op next
      rcases PoolInv.effect allowed exec with same | ⟨loc, v, written, mine⟩
      · rw [same]
        exact ⟨rfl, fun _ _ _ _ => rfl⟩
      · rw [written]
        refine ⟨PoolSystem.write_client_of_ne (Ne.symm other), fun l hl loc' inside => ?_⟩
        have held := inv.holder_of_buffer hl
        rw [PoolSystem.write_mem, Words.set_apply, if_neg]
        rintro rfl
        rcases mine _ inside with holds | free
        · cases (held.others u other).not_holds.symm.trans holds
        · exact free held.held

/-- While a client does not move, no other client changes a word of a block that the first
has a buffer of, or takes the buffer away. -/
theorem buffers_untouched {t : T}
    {c' : Config T (Instr PoolLoc) Reply Error PoolReply PoolCall (PoolWorld T)}
    (run : q.machine.Reach (fun _ _ => True) (q.machine.start q.init) c)
    (others : q.machine.Reach (fun _ e => e.actor ≠ t) c c') :
    c'.world.client t = c.world.client t ∧
      ∀ l ∈ (c.world.client t).buffers, ∀ loc, loc.inBlock = some l.block →
        c'.world.mem loc = c.world.mem loc := by
  induction others with
  | refl => exact ⟨rfl, fun _ _ _ _ => rfl⟩
  | step before quiet next ih =>
      have reached := run.trans (before.mono fun _ _ _ => trivial)
      obtain ⟨client, words⟩ := step_untouched reached quiet next
      refine ⟨client.trans ih.1, fun l hl loc inside => ?_⟩
      rw [words l (by rwa [ih.1]) loc inside]
      exact ih.2 l hl loc inside

theorem buffers_untouched_tiny :
    ∃ c c', PoolSystem.tinyRun PoolSystem.tinyMoves = some c ∧ PoolSystem.tinyRest c = some c' ∧
      (c'.world.client true).writes.length = 1 ∧
      c'.world.client false = c.world.client false ∧
      c'.world.mem (.blockPayload 0 3) = c.world.mem (.blockPayload 0 3) := by
  have found : (PoolSystem.tinyRun PoolSystem.tinyMoves).map
      (fun c => (c.world.client false).reads) = some [PoolSystem.tinyBuffer] := by
    decide +kernel
  have second : ((PoolSystem.tinyRun PoolSystem.tinyMoves).bind PoolSystem.tinyRest).map
      (fun c' => (c'.world.client true).writes.length) = some 1 := by decide +kernel
  obtain ⟨c', hb, hn⟩ := Option.map_eq_some_iff.1 second
  obtain ⟨c, hc, hc'⟩ := Option.bind_eq_some_iff.1 hb
  rw [hc] at found
  have reads : (c.world.client false).reads = [PoolSystem.tinyBuffer] := Option.some.inj found
  obtain ⟨client, words⟩ := buffers_untouched (PoolSystem.tinyRun_reach hc)
    (Machine.reach_play (PoolSystem.tiny.memory.answer_exec fun _ _ _ => trivial) hc')
  refine ⟨c, c', hc, hc', hn, client, words PoolSystem.tinyBuffer ?_ _ rfl⟩
  refine PoolClient.mem_buffers.2 (.inr ?_)
  rw [reads]
  exact List.mem_singleton.2 rfl

/-- A reader finds the payload that was published under its descriptor. -/
theorem read_published
    (run : q.machine.Reach (fun _ _ => True) (q.machine.start q.init) c) {t : T}
    {l : BufferLease} (hl : l ∈ (c.world.client t).reads) :
    ∃ p ∈ (c.world.history l.block).published,
      l.descriptor = handleAt q.handle.header l.block p.generation ∧
        ∀ offset, c.world.mem (.blockPayload l.block offset) = p.payload offset := by
  obtain ⟨d, inv, _⟩ := (PoolSystem.covers_of_reach run).inv
  rw [← inv.client] at hl
  have leased := (inv.sound t).reads l hl
  have held := (inv.block l.block).holder rfl leased.state
  have state := held.knows _ _ rfl leased.state
  obtain ⟨p, hp, generation, payload⟩ := held.fits.offered (.inr (.inr state))
  refine ⟨p, hp, ?_, fun offset => congrFun payload.symm offset⟩
  rw [generation, held.knows _ _ rfl leased.generation]
  exact leased.descriptor

theorem read_published_tiny :
    ∃ c, PoolSystem.tinyRun PoolSystem.tinyMoves = some c ∧
      ∃ p ∈ (c.world.history 0).published, p.payload 3 = 7 := by
  have found : (PoolSystem.tinyRun PoolSystem.tinyMoves).map
      (fun c => ((c.world.client false).reads, c.world.mem (.blockPayload 0 3))) =
        some ([PoolSystem.tinyBuffer], 7) := by decide +kernel
  obtain ⟨c, hc, hf⟩ := Option.map_eq_some_iff.1 found
  obtain ⟨hr, byte⟩ := Prod.mk.inj hf
  obtain ⟨p, hp, _, payload⟩ := read_published (PoolSystem.tinyRun_reach hc) (t := false)
    (l := PoolSystem.tinyBuffer) (by rw [hr]; exact List.mem_singleton.2 rfl)
  exact ⟨c, hc, p, hp, (payload 3).symm.trans byte⟩

omit [DecidableEq T] in
theorem PoolInv.fits {w : PoolWorld T} {d : T → Hand} (inv : PoolInv q w d) (b : Nat) :
    ∃ known raised, BlockFits w.mem b (w.history b) known raised := by
  cases inv.block b with
  | loose fits _ _ => exact ⟨_, _, fits⟩
  | held t holder => exact ⟨_, _, holder.fits⟩

/-- A generation of a block goes to one writer at most, is published once at most, and goes
to one reader at most, in this order and in the order of the numbers. -/
theorem generations_ordered
    (run : q.machine.Reach (fun _ _ => True) (q.machine.start q.init) c) (b : Nat) :
    Chronicle (c.world.history b) ∧
      ∀ g ∈ (c.world.history b).granted, g ≤ c.world.mem (.blockGeneration b) := by
  obtain ⟨d, inv, _⟩ := (PoolSystem.covers_of_reach run).inv
  obtain ⟨_, _, fits⟩ := inv.fits b
  exact ⟨fits.chronicle, fits.bound⟩

theorem generations_ordered_tiny :
    ∃ c, PoolSystem.tinyRun PoolSystem.tinyMoves = some c ∧
      (c.world.history 0).taken = [1] ∧ Chronicle (c.world.history 0) := by
  have taken : (PoolSystem.tinyRun PoolSystem.tinyMoves).map
      (fun c => (c.world.history 0).taken) = some [1] := by decide +kernel
  obtain ⟨c, hc, ht⟩ := Option.map_eq_some_iff.1 taken
  exact ⟨c, hc, ht, (generations_ordered (PoolSystem.tinyRun_reach hc) 0).1⟩

/-- Nothing wears out under a client: an active buffer is always published, a reader is
never turned away for want of epochs, no block is ever marked as faulty, and neither the
epoch nor the generation leaves its range. -/
theorem publish_never_fails
    (run : q.machine.Reach (fun _ _ => True) (q.machine.start q.init) c) :
    (∀ r ∈ c.world.finished, r.Right) ∧
      ∀ b, c.world.mem (.blockState b) ≠ SharedBufferBlockState.ownerProtocolFault.code ∧
        c.world.mem (.blockEpoch b) ≤ maxCommittedOwnerEpoch ∧
        c.world.mem (.blockGeneration b) ≤ uint64Max := by
  obtain ⟨d, inv, _⟩ := (PoolSystem.covers_of_reach run).inv
  refine ⟨inv.finished, fun b => ?_⟩
  obtain ⟨_, _, fits⟩ := inv.fits b
  obtain ⟨state, sane, code⟩ := fits.code
  refine ⟨?_, fits.epoch, fits.generation⟩
  rw [code, Ne, SharedBufferBlockState.code_inj]
  exact sane

theorem publish_never_fails_tiny :
    ∃ c, PoolSystem.tinyRun PoolSystem.tinyMoves = some c ∧ c.world.finished.length = 4 ∧
      ∀ r ∈ c.world.finished, r.Right := by
  have calls : (PoolSystem.tinyRun PoolSystem.tinyMoves).map
      (fun c => c.world.finished.length) = some 4 := by decide +kernel
  obtain ⟨c, hc, hn⟩ := Option.map_eq_some_iff.1 calls
  exact ⟨c, hc, hn, (publish_never_fails (PoolSystem.tinyRun_reach hc)).1⟩

/-- A block that is claimed, WRITING or READING is in the hands of the client that was the
last to change its state: that client has a buffer of it, is in the middle of a call, or has
died. -/
theorem held_block_accounted
    (run : q.machine.Reach (fun _ _ => True) (q.machine.start q.init) c) {b : Nat}
    (held : InHand (c.world.mem (.blockState b))) :
    ∃ t, c.world.claimant b = some t ∧
      (c.thread t ≠ .idle ∨ ∃ l ∈ (c.world.client t).buffers, l.block = b) := by
  obtain ⟨d, inv, tidy⟩ := (PoolSystem.covers_of_reach run).inv
  cases inv.block b with
  | loose _ unheld _ => exact absurd held unheld
  | held t holder =>
      refine ⟨t, inv.claimant b t holder.holds, ?_⟩
      by_cases idle : c.thread t = .idle
      · obtain ⟨l, hl, block⟩ := (tidy t idle).cover b holder.holds
        rw [inv.client] at hl
        exact .inr ⟨l, hl, block⟩
      · exact .inl idle

/-- The reader has its buffer; the second acquisition has just claimed the other block. -/
theorem held_block_accounted_tiny :
    ∃ c, PoolSystem.tinyRun (PoolSystem.tinyMoves ++ [.run true 1]) = some c ∧
      (c.thread false ≠ .idle ∨ ∃ l ∈ (c.world.client false).buffers, l.block = 0) ∧
      (c.world.client true).buffers = [] ∧ c.thread true ≠ .idle := by
  have facts : (PoolSystem.tinyRun (PoolSystem.tinyMoves ++ [.run true 1])).map
      (fun c => (c.world.mem (.blockState 0), c.world.claimant 0, c.world.mem (.blockState 1),
        c.world.claimant 1, (c.world.client true).buffers)) =
      some (SharedBufferBlockState.reading.code, some false,
        SharedBufferBlockState.writingClaiming.code, some true, []) := by
    decide +kernel
  obtain ⟨c, hc, facts⟩ := Option.map_eq_some_iff.1 facts
  simp only [Prod.mk.injEq] at facts
  obtain ⟨reading, reader, claiming, writer, none⟩ := facts
  obtain ⟨t, read, mine⟩ := held_block_accounted (PoolSystem.tinyRun_reach hc) (b := 0)
    (by rw [reading]; exact .inr (.inr (.inr rfl)))
  obtain ⟨u, written, theirs⟩ := held_block_accounted (PoolSystem.tinyRun_reach hc) (b := 1)
    (by rw [claiming]; exact .inl rfl)
  cases reader.symm.trans read
  cases writer.symm.trans written
  refine ⟨c, hc, mine, none, theirs.resolve_right ?_⟩
  rintro ⟨l, hl, _⟩
  rw [none] at hl
  cases hl

/-- The header that a creator leaves, and what it was made of. -/
theorem sharedBufferPoolCreateImpl_header {options : SharedBufferPoolOptions}
    {creator : ProcessIdentity} {nonceHi nonceLo : Nat} {handle : SharedBufferPoolHandle}
    {m : PoolMem}
    (h : sharedBufferPoolCreateImpl options (.ok creator) nonceHi nonceLo = .ok (handle, m)) :
    sharedBufferPoolValidateOptions options = .ok () ∧
      sharedBufferPoolMappingSizeFor options.blockSize options.blockCount =
        some handle.size ∧
      ownerValid (ownerFromProcess creator) ∧ (nonceHi = 0 → nonceLo ≠ 0) ∧
      handle = ⟨creator, handle.size, sharedBufferPoolCreateHeader options handle.size nonceHi
        nonceLo creator, false⟩ := by
  simp only [sharedBufferPoolCreateImpl, except_bind_eq_ok] at h
  obtain ⟨_, valid, self, hself, h⟩ := h
  cases hself
  split at h
  · cases h
  · rename_i mapping sized
    split at h
    · cases h
    · rename_i identity
      simp only [not_or, not_and, Decidable.not_not] at identity
      rw [except_bind_eq_ok] at h
      obtain ⟨_, _, h⟩ := h
      cases h
      exact ⟨valid, sized, identity.1, identity.2, rfl⟩

theorem SharedBufferPoolHeaderAbi.with_initState {header : SharedBufferPoolHeaderAbi} {v : Nat}
    (h : header.initState = v) : { header with initState := v } = header := by
  subst h
  rfl

/-- An object that is opened was found and has a valid header, and the handle is on it. -/
theorem sharedBufferPoolOpenImpl_ok {options : SharedBufferPoolOptions}
    {object : ShmOpening SharedBufferPoolHeaderAbi} {handle : SharedBufferPoolHandle}
    (h : sharedBufferPoolOpenImpl options object = .ok handle) :
    sharedBufferPoolValidateOptions options = .ok () ∧ object.fd = .ok () ∧
      sharedBufferPoolValidateHeader object.header object.size options = .ok () ∧
      ∃ self, object.identity = .ok self ∧ handle = ⟨self, object.size, object.header, false⟩ := by
  simp only [sharedBufferPoolOpenImpl, sharedBufferPoolOpenExisting, except_bind_eq_ok,
    ite_error_eq_ok] at h
  obtain ⟨_, valid, self, identity, _, fd, _, _, _, _, _, _, _, accepted, made⟩ := h
  cases made
  exact ⟨valid, fd, accepted, self, identity, rfl⟩

/-- What an opener finds under the pool's name: the object, until the name is taken away. -/
def PoolSystem.opening {T : Type} (q : PoolSystem T) (w : PoolWorld T) (self : ProcessIdentity) :
    ShmOpening SharedBufferPoolHeaderAbi where
  identity := .ok self
  fd := if w.mem .unlinked = 0 then .ok ()
    else .error (makeErrnoError enoent "shm_open_existing" "No such file or directory")
  stat := .ok ()
  mapping := .ok ()
  size := q.handle.size
  header := { q.handle.header with initState := w.mem .initState }

/-- At any time of any run an open succeeds exactly when the options are valid, the name has
not been taken away, and the block layout and the schema are the creator's. The opener's
handle is then the creator's, but for the identity. -/
theorem open_iff_same_layout
    (run : q.machine.Reach (fun _ _ => True) (q.machine.start q.init) c)
    {options : SharedBufferPoolOptions} {self : ProcessIdentity} :
    ((∃ handle, sharedBufferPoolOpenImpl options (q.opening c.world self) = .ok handle) ↔
      sharedBufferPoolValidateOptions options = .ok () ∧ c.world.mem .unlinked = 0 ∧
        options.blockSize = q.options.blockSize ∧ options.blockCount = q.options.blockCount ∧
        options.schema = q.options.schema) ∧
    ∀ handle, sharedBufferPoolOpenImpl options (q.opening c.world self) = .ok handle →
      handle = { q.handle with self := self } := by
  obtain ⟨d, inv, _⟩ := (PoolSystem.covers_of_reach run).inv
  obtain ⟨_, mapping, owner, nonce, made⟩ := sharedBufferPoolCreateImpl_header q.created
  have header : (q.opening c.world self).header =
      sharedBufferPoolCreateHeader q.options q.handle.size q.nonceHi q.nonceLo q.creator := by
    refine (SharedBufferPoolHeaderAbi.with_initState ?_).trans
      (congrArg SharedBufferPoolHandle.header made)
    rw [inv.ready, made]
    rfl
  refine ⟨⟨?_, ?_⟩, ?_⟩
  · rintro ⟨handle, opened⟩
    obtain ⟨valid, found, accepted, _⟩ := sharedBufferPoolOpenImpl_ok opened
    have named : c.world.mem .unlinked = 0 := by
      by_contra unlinked
      rw [PoolSystem.opening, if_neg unlinked] at found
      cases found
    rw [header] at accepted
    obtain ⟨_, _, _, _, _, _, _, _, ⟨blockSize, blockCount⟩, schema⟩ :=
      sharedBufferPoolValidateHeader_ok.1 accepted
    simp only [sharedBufferPoolSameSchema, Bool.and_eq_true, decide_eq_true_eq] at schema
    obtain ⟨version, fingerprint⟩ := schema
    refine ⟨valid, named, blockSize.symm, blockCount.symm, ?_⟩
    calc options.schema = ⟨options.schema.fingerprint, options.schema.version⟩ := rfl
      _ = q.options.schema := by rw [← fingerprint, ← version]; rfl
  · rintro ⟨valid, named, blockSize, blockCount, schema⟩
    have same : sharedBufferPoolCreateHeader q.options q.handle.size q.nonceHi q.nonceLo
        q.creator = sharedBufferPoolCreateHeader options q.handle.size q.nonceHi q.nonceLo
          q.creator := by
      simp only [sharedBufferPoolCreateHeader, blockSize, blockCount, schema]
    have object : q.opening c.world self = ⟨.ok self, .ok (), .ok (), .ok (), q.handle.size,
        sharedBufferPoolCreateHeader options q.handle.size q.nonceHi q.nonceLo q.creator⟩ := by
      rw [← same, ← header, PoolSystem.opening, if_pos named]
    rw [← blockSize, ← blockCount] at mapping
    rw [object, sharedBufferPoolOpenImpl, valid]
    exact ⟨_, sharedBufferPoolOpenExisting_create valid mapping owner nonce⟩
  · intro handle opened
    obtain ⟨_, _, _, _, ⟨⟩, rfl⟩ := sharedBufferPoolOpenImpl_ok opened
    rw [header]
    conv_rhs => rw [made]
    rfl

/-- The creator takes the name away, after everything was given back. -/
def tinyRemove : List (Move Bool PoolCall) :=
  [.call true (.removeIfCreator ⟨.ok (), true, .ok (), .error ⟨enoent, ""⟩⟩), .run true 100,
    .ret true]

/-- While the pool is used it opens, though not under another number of blocks; once it is
removed it does not open any more. -/
theorem open_iff_same_layout_tiny :
    ∃ c c', PoolSystem.tinyRun PoolSystem.tinyMoves = some c ∧
      PoolSystem.tinyRun tinyRemove = some c' ∧
      (∃ handle, sharedBufferPoolOpenImpl PoolSystem.tiny.options
        (PoolSystem.tiny.opening c.world ⟨3, 3, 3, 3⟩) = .ok handle) ∧
      (¬ ∃ handle, sharedBufferPoolOpenImpl { PoolSystem.tiny.options with blockCount := 1 }
        (PoolSystem.tiny.opening c.world ⟨3, 3, 3, 3⟩) = .ok handle) ∧
      ¬ ∃ handle, sharedBufferPoolOpenImpl PoolSystem.tiny.options
        (PoolSystem.tiny.opening c'.world ⟨3, 3, 3, 3⟩) = .ok handle := by
  have used : (PoolSystem.tinyRun PoolSystem.tinyMoves).map (·.world.mem .unlinked) = some 0 := by
    decide +kernel
  have removed : (PoolSystem.tinyRun tinyRemove).map (·.world.mem .unlinked) = some 1 := by
    decide +kernel
  obtain ⟨c, hc, named⟩ := Option.map_eq_some_iff.1 used
  obtain ⟨c', hc', gone⟩ := Option.map_eq_some_iff.1 removed
  refine ⟨c, c', hc, hc', ?_, ?_, ?_⟩
  · exact (open_iff_same_layout (PoolSystem.tinyRun_reach hc)).1.2 ⟨rfl, named, rfl, rfl, rfl⟩
  · intro opened
    obtain ⟨_, _, _, count, _⟩ := (open_iff_same_layout (PoolSystem.tinyRun_reach hc)).1.1 opened
    cases count
  · intro opened
    obtain ⟨_, named, _⟩ := (open_iff_same_layout (PoolSystem.tinyRun_reach hc')).1.1 opened
    rw [gone] at named
    cases named

end EdgeRuntime

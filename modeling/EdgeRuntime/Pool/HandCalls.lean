import EdgeRuntime.Pool.HandRules

/-!
The calls of a client keep to the rules and leave its hands tidy: a claim is either
committed to a buffer or undone, an active buffer is always published or given back, and a
reader finds room for its epoch.
-/
namespace EdgeRuntime
open Concurrent
open SharedBufferBlockState (InHand Claiming)

/-- One more block than before may be in the client's hands. -/
structure Hand.Engaged (d₀ d : Hand) (b : Nat) : Prop where
  client : d.client = d₀.client
  known : ∀ l, l.inBlock ≠ some b → d.known l = d₀.known l
  raised : ∀ b', b' ≠ b → d.raised b' = d₀.raised b'

namespace Hand.Engaged
variable {d₀ d : Hand} {b v : Nat} {l : PoolLoc}

theorem refl : d₀.Engaged d₀ b := ⟨rfl, fun _ _ => rfl, fun _ _ => rfl⟩

theorem learn (h : d₀.Engaged d b) (inside : l.inBlock = some b) :
    d₀.Engaged (d.learn l v) b where
  client := h.client
  known l' outside :=
    (learn_known_of_ne (PoolLoc.ne_of_outside outside inside)).trans (h.known l' outside)
  raised := h.raised

theorem raise (h : d₀.Engaged d b) : d₀.Engaged (d.raise b v) b where
  client := h.client
  known := (h.learn (l := .blockGeneration b) rfl).known
  raised b' other := (Function.update_of_ne other _ _).trans (h.raised b' other)

theorem sign (h : d₀.Engaged d b) (o : OwnerAbi) : d₀.Engaged (d.sign b o) b :=
  (((h.learn rfl).learn rfl).learn rfl).learn rfl

theorem holds (h : d₀.Engaged d b) {b' : Nat} (other : b' ≠ b) : d.holds b' = d₀.holds b' := by
  unfold Hand.holds
  rw [h.known]
  exact fun same => other (Option.some.inj same)

end Hand.Engaged

namespace PoolSystem.Tidy
variable {T : Type} {q : PoolSystem T} {t : T} {d₀ d : Hand} {b v : Nat}

theorem aware (tidy : q.Tidy t d) : d.Aware := by
  intro b holds
  obtain ⟨l, hl, rfl⟩ := tidy.cover b holds
  rcases PoolClient.mem_buffers.1 hl with hl | hl
  · obtain ⟨e, epoch, _⟩ := (tidy.writes l hl).epoch
    rw [(tidy.writes l hl).generation, epoch]
    exact ⟨by simp, by simp⟩
  · obtain ⟨e, epoch, _⟩ := (tidy.reads l hl).epoch
    rw [(tidy.reads l hl).generation, epoch]
    exact ⟨by simp, by simp⟩

/-- A block of which the client has a buffer is held. -/
theorem holds (tidy : q.Tidy t d) {l : BufferLease} (hl : l ∈ d.client.buffers) :
    d.holds l.block = true := by
  rcases tidy.known_state hl with known | known
  · exact Hand.holds_iff.2 ⟨_, known⟩
  · exact Hand.holds_iff.2 ⟨_, known⟩

theorem drop_unheld (tidy : q.Tidy t d) (unheld : d.holds b = false) :
    d.client.drop b = d.client := by
  have other : ∀ l ∈ d.client.buffers, l.block ≠ b := by
    rintro l hl rfl
    cases unheld.symm.trans (tidy.holds hl)
  unfold PoolClient.drop
  rw [List.filter_eq_self.2, List.filter_eq_self.2]
  · exact fun l hl => decide_eq_true (other l (PoolClient.mem_buffers.2 (.inr hl)))
  · exact fun l hl => decide_eq_true (other l (PoolClient.mem_buffers.2 (.inl hl)))

/-- The block is out of the client's hands, and with it every buffer of it. -/
theorem released {e : Hand} (tidy : q.Tidy t d) (client : e.client = d.client.drop b)
    (known : ∀ l, l.inBlock ≠ some b → e.known l = d.known l)
    (raised : ∀ b', b' ≠ b → e.raised b' = d.raised b') (ignorant : e.Ignorant b) :
    q.Tidy t e := by
  have elsewhere : ∀ {b'}, b' ≠ b → ∀ l : PoolLoc, l.inBlock = some b' →
      e.known l = d.known l := by
    intro b' other l inside
    refine known l ?_
    rw [inside]
    exact fun same => other (Option.some.inj same)
  have holds : ∀ {b'}, b' ≠ b → e.holds b' = d.holds b' :=
    fun other => congrArg Option.isSome (elsewhere other _ rfl)
  refine ⟨tidy.toSound.drop client known, ?_, ?_⟩
  · intro b' held
    have other : b' ≠ b := by
      rintro rfl
      cases ignorant.not_holds.symm.trans held
    rw [holds other] at held
    obtain ⟨l, hl, rfl⟩ := tidy.cover b' held
    refine ⟨l, ?_, rfl⟩
    rw [client, PoolClient.buffers_drop, List.mem_filter]
    exact ⟨hl, decide_eq_true other⟩
  · intro b' unheld
    by_cases other : b' = b
    · subst other
      exact ignorant
    · rw [holds other] at unheld
      have before := tidy.ignorant b' unheld
      exact ⟨fun l inside => (elsewhere other l inside).trans (before.known l inside),
        (raised b' other).trans before.raised⟩

/-- The client gives the block back. -/
theorem leave (tidy : q.Tidy t d₀) (engaged : d₀.Engaged d b)
    (target : v = SharedBufferBlockState.free.code ∨
      v = SharedBufferBlockState.published.code) :
    q.Tidy t (d.turn b v) ∧ (d.turn b v).client = d₀.client.drop b := by
  have turn : d.turn b v = { d.forget b with client := d.client.drop b } := by
    unfold Hand.turn
    rw [if_neg, if_pos target]
    rcases target with rfl | rfl <;> decide
  have client : (d.turn b v).client = d₀.client.drop b := by
    rw [turn, engaged.client]
  refine ⟨tidy.released client ?_ ?_ ?_, client⟩
  · intro l outside
    rw [turn]
    exact (Hand.forget_known_of_not outside).trans (engaged.known l outside)
  · intro b' other
    rw [turn]
    exact (Function.update_of_ne other _ _).trans (engaged.raised b' other)
  · rw [turn]
    exact ⟨Hand.forget_ignorant.known, Hand.forget_ignorant.raised⟩

/-- A claim that is undone leaves no trace. -/
theorem undo (tidy : q.Tidy t d₀) (unheld : d₀.holds b = false) (engaged : d₀.Engaged d b)
    (target : v = SharedBufferBlockState.free.code ∨
      v = SharedBufferBlockState.published.code ∨
      v = SharedBufferBlockState.epochExhausted.code) :
    q.Tidy t (d.turn b v) ∧ (d.turn b v).client = d₀.client := by
  rcases target with rfl | rfl | rfl
  · rw [← tidy.drop_unheld unheld]
    exact tidy.leave engaged (.inl rfl)
  · rw [← tidy.drop_unheld unheld]
    exact tidy.leave engaged (.inr rfl)
  · have turn : d.turn b SharedBufferBlockState.epochExhausted.code = d.forget b := rfl
    rw [turn]
    refine ⟨tidy.released ?_ ?_ ?_ Hand.forget_ignorant, engaged.client⟩
    · exact engaged.client.trans (tidy.drop_unheld unheld).symm
    · exact fun l outside => (Hand.forget_known_of_not outside).trans (engaged.known l outside)
    · exact fun b' other => (Function.update_of_ne other _ _).trans (engaged.raised b' other)

/-- A committed claim becomes a buffer. -/
theorem gained {buffer : BufferLease} {c : PoolClient} (tidy : q.Tidy t d₀)
    (unheld : d₀.holds buffer.block = false) (engaged : d₀.Engaged d buffer.block)
    (holds : d.holds buffer.block = true)
    (writes : ∀ l ∈ c.writes, l ∈ d₀.client.writes ∨
      l = buffer ∧ Leased q.handle.header (q.owner t) d .writing buffer)
    (reads : ∀ l ∈ c.reads, l ∈ d₀.client.reads ∨
      l = buffer ∧ Leased q.handle.header (q.owner t) d .reading buffer)
    (buffers : c.buffers.Perm (buffer :: d₀.client.buffers)) (present : c.removed = false) :
    q.Tidy t { d with client := c } := by
  have apart : ∀ l ∈ d₀.client.buffers, l.block ≠ buffer.block := by
    intro l hl same
    rw [← same] at unheld
    cases unheld.symm.trans (tidy.holds hl)
  have elsewhere : ∀ {b'}, b' ≠ buffer.block → ∀ l : PoolLoc, l.inBlock = some b' →
      d.known l = d₀.known l := by
    intro b' other l inside
    refine engaged.known l ?_
    rw [inside]
    exact fun same => other (Option.some.inj same)
  have old : ∀ l ∈ d₀.client.buffers, ∀ loc, loc.inBlock = some l.block →
      d.known loc = d₀.known loc := fun l hl => elsewhere (apart l hl)
  refine ⟨⟨?_, ?_, ?_, ?_⟩, ?_, ?_⟩
  · intro l hl
    rcases writes l hl with before | ⟨rfl, leased⟩
    · exact (tidy.writes l before).congr (old l (PoolClient.mem_buffers.2 (.inl before)))
    · exact leased.congr fun _ _ => rfl
  · intro l hl
    rcases reads l hl with before | ⟨rfl, leased⟩
    · exact (tidy.reads l before).congr (old l (PoolClient.mem_buffers.2 (.inr before)))
    · exact leased.congr fun _ _ => rfl
  · rw [(buffers.map _).nodup_iff, List.map_cons, List.nodup_cons]
    refine ⟨?_, tidy.apart⟩
    intro member
    obtain ⟨l, hl, same⟩ := List.mem_map.1 member
    exact apart l hl same
  · intro removed
    cases present.symm.trans removed
  · intro b' held
    by_cases same : b' = buffer.block
    · exact ⟨buffer, buffers.mem_iff.2 (List.mem_cons_self ..), same.symm⟩
    · have before : d₀.holds b' = true := (engaged.holds same).symm.trans held
      obtain ⟨l, hl, block⟩ := tidy.cover b' before
      exact ⟨l, buffers.mem_iff.2 (List.mem_cons_of_mem _ hl), block⟩
  · intro b' free
    have other : b' ≠ buffer.block := by
      rintro rfl
      cases holds.symm.trans free
    have before := tidy.ignorant b' ((engaged.holds other).symm.trans free)
    exact ⟨fun l inside => (elsewhere other l inside).trans (before.known l inside),
      (engaged.raised b' other).trans before.raised⟩

theorem gain_write {buffer : BufferLease} (tidy : q.Tidy t d₀)
    (present : d₀.client.removed = false) (unheld : d₀.holds buffer.block = false)
    (engaged : d₀.Engaged d buffer.block)
    (leased : Leased q.handle.header (q.owner t) d .writing buffer) :
    q.Tidy t { d with client := { d₀.client with writes := d₀.client.writes ++ [buffer] } } := by
  refine tidy.gained unheld engaged (Hand.holds_iff.2 ⟨_, leased.state⟩) ?_
    (fun l hl => .inl hl) ?_ present
  · intro l hl
    rw [List.mem_append, List.mem_singleton] at hl
    exact hl.imp_right fun same => ⟨same, leased⟩
  · unfold PoolClient.buffers
    rw [List.append_assoc]
    exact List.perm_middle

theorem gain_read {buffer : BufferLease} (tidy : q.Tidy t d₀)
    (present : d₀.client.removed = false) (unheld : d₀.holds buffer.block = false)
    (engaged : d₀.Engaged d buffer.block)
    (leased : Leased q.handle.header (q.owner t) d .reading buffer) :
    q.Tidy t { d with client := { d₀.client with reads := d₀.client.reads ++ [buffer] } } := by
  refine tidy.gained unheld engaged (Hand.holds_iff.2 ⟨_, leased.state⟩)
    (fun l hl => .inl hl) ?_ ?_ present
  · intro l hl
    rw [List.mem_append, List.mem_singleton] at hl
    exact hl.imp_right fun same => ⟨same, leased⟩
  · unfold PoolClient.buffers
    rw [← List.append_assoc]
    exact List.perm_append_singleton _ _

end PoolSystem.Tidy

namespace PoolSystem
variable {T : Type} {q : PoolSystem T} {t : T} {d₀ d : Hand} {c : PoolClient} {b : Nat}

/-- Both pointers of a block of the pool exist. -/
theorem placed (below : b < q.handle.header.blockCount) :
    ∃ block payload, blockAt (q.handleOf t c) b = some block ∧
      payloadAt (q.handleOf t c) b = some payload := by
  have layout := (sharedBufferPoolCreateImpl_ok q.created).1.layout
  obtain ⟨block, payload, atBlock, atPayload, _⟩ := layout.placed b below
  exact ⟨block, payload, atBlock, atPayload⟩

/-- What a search for a block may have done to the client's hands. -/
def Searched (q : PoolSystem T) (t : T) (c : PoolClient) (x : Except Error (Saw ⊕ BufferLease))
    (d : Hand) : Prop :=
  d.client = c ∧ match x with
  | .ok (.inl _) => q.Tidy t d
  | .ok (.inr buffer) =>
      q.Tidy t { d with client := { c with writes := c.writes ++ [buffer] } }
  | .error _ => False

theorem obeys_commitWriteClaim (tidy : q.Tidy t d₀) (present : d₀.client.removed = false)
    (below : b < q.handle.header.blockCount) (unheld : d₀.holds b = false)
    (engaged : d₀.Engaged d b) {g e : Nat} {saw : Saw}
    (state : d.known (.blockState b) = some SharedBufferBlockState.writingClaiming.code)
    (small : g < uint64Max) (generation : d.known (.blockGeneration b) = some g)
    (epoch : d.known (.blockEpoch b) = some e) (even : e % 2 = 0)
    (room : e + 4 ≤ maxCommittedOwnerEpoch) :
    (commitWriteClaim (q.handleOf t d₀.client) b g saw).Obeys Hand.script
      (q.Searched t d₀.client) d := by
  obtain ⟨_, _, _, payload⟩ := q.placed (t := t) (c := d₀.client) below
  unfold commitWriteClaim
  refine Hand.obeys_begin state (.inl rfl) epoch even (by omega) room ?_
  dsimp only
  rw [if_neg (by simp), addU64_eq (by omega)]
  refine Hand.obeys_raise (e := e + 1)
    ⟨⟨_, by simp [Hand.learn_apply, state], .inl rfl⟩, by simp, by omega⟩
    (by simp [Hand.learn_apply, state])
    (by simp [Hand.learn_apply, generation]) small ?_
  refine Hand.obeys_commit ⟨⟨_, by simp [Hand.raise_known, Hand.learn_apply, state], .inl rfl⟩,
    by simp [Hand.raise_known], by omega⟩ (by omega) ?_
  generalize hand : (((d.learn (.blockEpoch b) (e + 1)).raise b (g + 1)).sign b
    (ownerFromProcess (q.handleOf t d₀.client).self)).learn (.blockEpoch b) (e + 2) = d₁
  have engaged₁ : d₀.Engaged d₁ b := by
    rw [← hand]
    exact (((engaged.learn rfl).raise).sign _).learn rfl
  have known : ∀ l, d₁.known l = if l = .blockEpoch b then some (e + 2)
      else (((d.learn (.blockEpoch b) (e + 1)).raise b (g + 1)).sign b (q.owner t)).known l := by
    intro l
    rw [← hand, Hand.learn_apply]
    rfl
  have raised : d₁.raised b = true := by
    rw [← hand]
    exact Hand.raise_raised (v := g + 1)
  have state₁ : d₁.known (.blockState b) =
      some SharedBufferBlockState.writingClaiming.code := by
    rw [known, if_neg (by simp), Hand.sign_other _ (by simp), Hand.raise_known,
      if_neg (by simp), Hand.learn_apply, if_neg (by simp)]
    exact state
  have epoch₁ : d₁.known (.blockEpoch b) = some (e + 2) := (known _).trans (if_pos rfl)
  have generation₁ : d₁.known (.blockGeneration b) = some (g + 1) := by
    rw [known, if_neg (by simp), Hand.sign_other _ (by simp), Hand.raise_known, if_pos rfl]
  have owner₁ : ∀ word, d₁.known (.blockOwner b word) = some ((q.owner t).word word) := by
    intro word
    rw [known, if_neg (by simp), Hand.sign_owner]
  refine Hand.obeys_turn (.write state₁ raised epoch₁ (by omega) (by omega)) ?_
  rw [payload]
  dsimp only
  have turn : d₁.turn b SharedBufferBlockState.writing.code =
      d₁.learn (.blockState b) SharedBufferBlockState.writing.code := rfl
  rw [turn]
  unfold makeHandle
  rw [Prog.bind_assoc]
  refine Hand.obeys_known rfl (v := g + 1) (by simp [Hand.learn_apply, generation₁]) ?_
  refine ⟨engaged₁.client, tidy.gain_write present unheld (engaged₁.learn rfl) ?_⟩
  refine ⟨by simp, by simp [Hand.learn_apply, generation₁, handleAt], ⟨e + 2, ?_, by omega⟩,
    ?_, rfl, rfl, below, rfl⟩
  · simp [Hand.learn_apply, epoch₁]
  · intro word
    simp [Hand.learn_apply, owner₁]

theorem obeys_writeClaimed (tidy : q.Tidy t d₀) (present : d₀.client.removed = false)
    (below : b < q.handle.header.blockCount) (unheld : d₀.holds b = false) {saw : Saw} :
    (writeClaimed (q.handleOf t d₀.client) b saw).Obeys Hand.script (q.Searched t d₀.client)
      (d₀.learn (.blockState b) SharedBufferBlockState.writingClaiming.code) := by
  have nothing := tidy.ignorant b unheld
  have engaged : d₀.Engaged
      (d₀.learn (.blockState b) SharedBufferBlockState.writingClaiming.code) b :=
    Hand.Engaged.refl.learn rfl
  have undone : ∀ {d v saw}, d₀.Engaged d b → (v = SharedBufferBlockState.free.code ∨
      v = SharedBufferBlockState.epochExhausted.code) →
      q.Searched t d₀.client (.ok (.inl saw)) (d.turn b v) := by
    intro d v saw engaged target
    obtain ⟨after, client⟩ := tidy.undo unheld engaged (target.imp_right .inr)
    exact ⟨client, after⟩
  unfold writeClaimed
  refine Hand.obeys_generation (Hand.holds_iff.2 ⟨_, Hand.learn_known⟩) fun g bound => ?_
  split
  · refine Hand.obeys_turn (.giveUp (by simp [Hand.learn_apply]) ?_ (.inl rfl))
      (undone (engaged.learn rfl) (.inl rfl))
    intro e epoch
    rw [Hand.learn_apply, if_neg (by simp), Hand.learn_apply, if_neg (by simp),
      nothing.known _ rfl] at epoch
    cases epoch
  · rename_i small
    refine Hand.obeys_capacity (by simp [Hand.learn_apply]; rfl)
      (by simp [Hand.learn_apply, nothing.known (.blockEpoch b) rfl]) ?_ ?_
    · intro e settled room
      rw [if_neg (by simp)]
      exact obeys_commitWriteClaim tidy present below unheld
        ((engaged.learn rfl).learn rfl) (by simp [Hand.learn_apply]) (by omega)
        (by simp [Hand.learn_apply]) (by simp) settled.even room
    · intro e settled _
      rw [if_pos (by simp)]
      refine Hand.obeys_turn (.giveUp (by simp [Hand.learn_apply]) ?_ (.inr rfl))
        (undone ((engaged.learn rfl).learn rfl) (.inr rfl))
      intro e' epoch
      rw [Hand.learn_known] at epoch
      cases epoch
      exact ⟨settled.even, settled.bound⟩

theorem looks_classifyActiveBlock {handle : SharedBufferPoolHandle} {operation : String} :
    (classifyActiveBlock handle b operation).Looks PoolLook := by
  refine Prog.looks_bind Hand.looks_snapshotBlockOwner fun observation => ?_
  split
  · trivial
  · trivial
  · trivial
  · trivial
  · trivial
  · split
    · trivial
    · split
      · trivial
      · refine Prog.looks_bind ⟨trivial, fun _ => trivial⟩ fun liveness => ?_
        split
        · trivial
        · trivial

theorem obeys_tryAcquireBlock (tidy : q.Tidy t d) (present : d.client.removed = false)
    (below : b < q.handle.header.blockCount) {saw : Saw} :
    (tryAcquireBlock (q.handleOf t d.client) b saw).Obeys Hand.script (q.Searched t d.client)
      d := by
  obtain ⟨_, _, block, _⟩ := q.placed (t := t) (c := d.client) below
  have same : ∀ saw, q.Searched t d.client (.ok (.inl saw)) d := fun _ => ⟨rfl, tidy⟩
  unfold tryAcquireBlock
  rw [block]
  dsimp only
  refine Hand.obeys_state fun state may => ?_
  split
  · exact same _
  · split
    · split
      · exact same _
      · refine Hand.obeys_look_seq tidy.aware looks_classifyActiveBlock.all
          looks_classifyActiveBlock.ends (fun _ _ => same _) ?_
        rintro e ⟨_, never⟩
        cases never
    · rename_i free
      -- a block of the client's own is never FREE
      have unheld : d.holds b = false := by
        by_contra holds
        obtain ⟨l, hl, rfl⟩ := tidy.cover b (by simpa using holds)
        rcases tidy.known_state hl with known | known
        · exact free (by rw [may _ known]; simp)
        · exact free (by rw [may _ known]; simp)
      refine Hand.obeys_claim unheld (.inl ⟨rfl, rfl⟩) ?_ ?_
      · rw [if_neg (by simp)]
        exact obeys_writeClaimed tidy present below unheld
      · rw [if_pos (by simp)]
        exact same _

/-- The end of a search: a new buffer, or everything as before. -/
def Acquired (q : PoolSystem T) (t : T) (c : PoolClient) (x : Except Error BufferLease)
    (d : Hand) : Prop :=
  d.client = c ∧ match x with
  | .ok buffer => q.Tidy t { d with client := { c with writes := c.writes ++ [buffer] } }
  | .error _ => q.Tidy t d

theorem obeys_tryAcquireWriteLoop (tidy : q.Tidy t d) (present : d.client.removed = false)
    {left : Nat} (below : b + left = q.handle.header.blockCount) {saw : Saw} :
    (tryAcquireWriteLoop (q.handleOf t d.client) left b saw).Obeys Hand.script
      (q.Acquired t d.client) d := by
  induction left generalizing b saw d with
  | zero => exact ⟨rfl, tidy⟩
  | succ left ih =>
      unfold tryAcquireWriteLoop
      refine Prog.obeys_seq (obeys_tryAcquireBlock tidy present (by omega)) ?_ ?_
      · rintro found d' ⟨client, searched⟩
        cases found with
        | inr buffer => exact ⟨client, searched⟩
        | inl saw =>
            rw [← client]
            exact ih searched (client ▸ present) (by omega)
      · rintro e d' ⟨_, never⟩
        exact never.elim

theorem obeys_validateLivePool {operation : String} {α : Type} {k : Unit → PoolCode α}
    {Q : Except Error α → Hand → Prop}
    (live : c.removed = false → (k ()).Obeys Hand.script Q d)
    (stale : c.removed = true →
      Q (.error (makeError .staleHandle operation "pool handle is stale")) d) :
    (validateLivePool (q.handleOf t c) operation >>= k).Obeys Hand.script Q d := by
  unfold validateLivePool
  cases removed : c.removed with
  | true =>
      rw [if_pos (show (q.handleOf t c).removed = true from removed)]
      exact stale removed
  | false =>
      have kept : (q.handleOf t c).removed = false := removed
      rw [if_neg (by simp [kept]), Prog.bind_assoc]
      refine Hand.obeys_ready ?_
      rw [if_neg (by simp)]
      exact live removed

theorem obeys_tryAcquireWrite (tidy : q.Tidy t d) :
    (sharedBufferPoolTryAcquireWriteImpl (q.handleOf t d.client)).Obeys Hand.script
      (q.Acquired t d.client) d := by
  refine obeys_validateLivePool (fun present => ?_) fun _ => ⟨rfl, tidy⟩
  exact obeys_tryAcquireWriteLoop tidy present (Nat.zero_add _)

theorem Tidy.present (tidy : q.Tidy t d) {l : BufferLease} (hl : l ∈ d.client.buffers) :
    d.client.removed = false := by
  by_contra removed
  rw [tidy.removed (by simpa using removed)] at hl
  cases hl

theorem classifyBlockState_owned {s : SharedBufferBlockState}
    (kind : s = .writing ∨ s = .reading) : classifyBlockState s.code = .owned := by
  rcases kind with rfl | rfl <;> decide

/-- The holder's snapshot of its own block. -/
theorem obeys_snapshot_leased {s : SharedBufferBlockState} {buffer : BufferLease}
    (leased : Leased q.handle.header (q.owner t) d s buffer)
    (kind : s = .writing ∨ s = .reading) :
    (snapshotBlockOwner buffer.block).Obeys Hand.script
      (fun x d' => (∃ e, x = .ok ⟨.stable, s.code, q.owner t, e⟩) ∧ d' = d) d := by
  obtain ⟨e, epoch, even⟩ := leased.epoch
  refine Prog.obeys_mono ?_ (Hand.obeys_snapshot_own leased.state
    (classifyBlockState_owned kind) epoch even leased.owner (q.valid t))
  rintro x d' ⟨rfl, rfl⟩
  exact ⟨⟨e, rfl⟩, rfl⟩

theorem ownerMatches_self : ownerMatches (q.owner t) (q.handleOf t c).self = true :=
  decide_eq_true rfl

/-- An active buffer is published. -/
theorem obeys_publishWrite (tidy : q.Tidy t d) {buffer : BufferLease}
    (hb : buffer ∈ d.client.writes) :
    (sharedBufferPoolPublishWriteImpl (q.handleOf t d.client) buffer).Obeys Hand.script
      (fun x d' => x = .ok buffer.descriptor ∧ q.Tidy t d' ∧
        d'.client = d.client.drop buffer.block) d := by
  have leased := tidy.writes buffer hb
  have present := tidy.present (PoolClient.mem_buffers.2 (.inl hb))
  unfold sharedBufferPoolPublishWriteImpl
  rw [if_neg (by simp [leased.active])]
  refine obeys_validateLivePool (fun _ => ?_) ?_
  · refine Hand.obeys_known rfl leased.state ?_
    rw [if_neg (by simp)]
    refine Prog.obeys_seq (obeys_snapshot_leased leased (.inl rfl)) ?_ ?_
    · rintro observation d' ⟨⟨e, seen⟩, same⟩
      rw [same]
      cases seen
      rw [if_neg (by simp), if_neg (by simp [ownerMatches_self])]
      refine Hand.obeys_known rfl leased.generation ?_
      rw [if_neg (by simp)]
      refine Hand.obeys_turn (.publish leased.state) ?_
      obtain ⟨after, client⟩ := tidy.leave Hand.Engaged.refl (b := buffer.block) (.inr rfl)
      exact ⟨rfl, after, client⟩
    · rintro e _ ⟨⟨_, never⟩, _⟩
      cases never
  · intro removed
    cases present.symm.trans removed

/-- An active buffer is given back. -/
theorem obeys_freeOwnBlock (tidy : q.Tidy t d) {s : SharedBufferBlockState}
    {buffer : BufferLease} (leased : Leased q.handle.header (q.owner t) d s buffer)
    (kind : s = .writing ∨ s = .reading) (present : d.client.removed = false) :
    (freeOwnBlock (q.handleOf t d.client) buffer s).Obeys Hand.script
      (fun x d' => x = .ok () ∧ q.Tidy t d' ∧ d'.client = d.client.drop buffer.block) d := by
  have kept : (q.handleOf t d.client).removed = false := present
  unfold freeOwnBlock
  rw [if_neg (by simp [leased.active]), if_neg (by simp [kept])]
  refine Prog.obeys_seq (obeys_snapshot_leased leased kind) ?_ ?_
  · rintro observation d' ⟨⟨e, seen⟩, same⟩
    rw [same]
    cases seen
    rw [if_pos ⟨rfl, rfl, ownerMatches_self⟩]
    refine Hand.obeys_known rfl leased.generation ?_
    rw [if_pos rfl]
    have turns : d.Turns buffer.block SharedBufferBlockState.free.code := by
      rcases kind with rfl | rfl
      · exact .abort leased.state
      · exact .release leased.state
    refine Hand.obeys_turn (k := .ret) turns ?_
    obtain ⟨after, client⟩ := tidy.leave Hand.Engaged.refl (b := buffer.block) (.inl rfl)
    exact ⟨rfl, after, client⟩
  · rintro e _ ⟨⟨_, never⟩, _⟩
    cases never

/-- An inactive buffer is left alone. -/
theorem freeOwnBlock_inactive {handle : SharedBufferPoolHandle} {buffer : BufferLease}
    {s : SharedBufferBlockState} (inactive : buffer.active = false) :
    freeOwnBlock handle buffer s = .ret () := by
  unfold freeOwnBlock
  rw [if_pos (by simp [inactive])]
  rfl

/-- Every error but one that speaks of exhausted epochs. -/
def NotExhausted (e : Error) : Prop := e.code ≠ .sequenceExhausted

theorem all_validateLivePool {handle : SharedBufferPoolHandle} {operation : String} :
    (validateLivePool handle operation).All PoolLook := by
  unfold validateLivePool
  split
  · trivial
  · refine Prog.all_bind ⟨by simp [PoolLook], fun _ => trivial⟩ fun _ => ?_
    split <;> trivial

theorem ends_validateLivePool {handle : SharedBufferPoolHandle} {operation : String} :
    (validateLivePool handle operation).Ends fun x => match x with
      | .ok _ => handle.removed = false
      | .error e => NotExhausted e := by
  unfold validateLivePool
  split
  · simp [Prog.Ends, NotExhausted]
  · rename_i present
    refine ends_load fun _ => ?_
    split
    · simp [Prog.Ends, NotExhausted]
    · simpa [Prog.Ends] using present

/-- What a descriptor that was accepted says. -/
structure Names (handle : SharedBufferPoolHandle) (descriptor : BufferHandle) : Prop where
  present : handle.removed = false
  below : descriptor.blockId < handle.header.blockCount
  eq : descriptor = handleAt handle.header descriptor.blockId descriptor.blockGeneration

/-- How a validation ends. -/
def Validated (handle : SharedBufferPoolHandle) (descriptor : BufferHandle) :
    Except Error Unit → Prop
  | .ok _ => Names handle descriptor
  | .error e => NotExhausted e

theorem all_validateDescriptor {handle : SharedBufferPoolHandle} {descriptor : BufferHandle}
    {operation : String} :
    (validateDescriptor handle descriptor operation).All PoolLook := by
  refine Prog.all_bind all_validateLivePool fun _ => ?_
  dsimp only
  split
  · trivial
  split
  · trivial
  split
  · trivial
  split
  · trivial
  split
  · trivial
  split
  · trivial
  · refine Prog.all_bind ⟨by simp [PoolLook], fun _ => trivial⟩ fun _ => ?_
    split <;> trivial

theorem ends_validateDescriptor {handle : SharedBufferPoolHandle} {descriptor : BufferHandle}
    {operation : String} :
    (validateDescriptor handle descriptor operation).Ends (Validated handle descriptor) := by
  refine Prog.ends_bind ends_validateLivePool (fun _ present => ?_) fun _ h => h
  dsimp only
  unfold Validated
  split
  · simp [Prog.Ends, NotExhausted]
  rename_i instance_
  split
  · simp [Prog.Ends, NotExhausted]
  rename_i schema
  split
  · simp [Prog.Ends, NotExhausted]
  rename_i shape
  split
  · simp [Prog.Ends, NotExhausted]
  rename_i _ payloadOffset offsets
  split
  · simp [Prog.Ends, NotExhausted]
  rename_i offset
  split
  · simp [Prog.Ends, NotExhausted]
  · refine ends_load fun _ => ?_
    split
    · simp [Prog.Ends, NotExhausted]
    · simp only [not_or, Decidable.not_not] at instance_ shape offset
      obtain ⟨pool, hi, lo⟩ := instance_
      obtain ⟨reserved, below, length⟩ := shape
      simp only [handleSchemaMatches, Bool.and_eq_true, decide_eq_true_eq,
        Decidable.not_not] at schema
      refine ⟨present, Nat.lt_of_not_le below, ?_⟩
      have expected : payloadOffsetOf handle.header descriptor.blockId = descriptor.offset := by
        unfold payloadOffsetOf
        rw [offsets]
        exact offset.1.symm
      cases descriptor
      simp only at pool hi lo reserved length schema expected
      simp only [handleAt, pool, hi, lo, reserved, length, schema.1, schema.2, expected]

theorem ends_classifyActiveBlock {handle : SharedBufferPoolHandle} {operation : String} :
    (classifyActiveBlock handle b operation).Ends fun x =>
      ∃ e, x = .ok e ∧ NotExhausted e := by
  have told : ∀ {code context}, code ≠ .sequenceExhausted →
      ∃ e, (.ok (makeError code operation context) : Except Error Error) = .ok e ∧
        NotExhausted e := fun other => ⟨_, rfl, other⟩
  refine Prog.ends_bind Hand.looks_snapshotBlockOwner.ends (fun observation _ => ?_) ?_
  · split
    · exact told (by decide)
    · exact told (by decide)
    · exact told (by decide)
    · exact told (by decide)
    · exact told (by decide)
    · split
      · exact told (by decide)
      · split
        · exact told (by decide)
        · refine Prog.ends_bind (looks_probeLiveness _ _).ends (fun liveness _ => ?_) ?_
          · split
            · exact told (by decide)
            · exact told (by decide)
          · rintro e ⟨_, never⟩
            cases never
  · rintro e ⟨_, never⟩
    cases never

/-- The end of a read: a new buffer, or everything as before. -/
def Taken (q : PoolSystem T) (t : T) (c : PoolClient) (x : Except Error BufferLease)
    (d : Hand) : Prop :=
  d.client = c ∧ match x with
  | .ok buffer => q.Tidy t { d with client := { c with reads := c.reads ++ [buffer] } }
  | .error e => NotExhausted e ∧ q.Tidy t d

theorem obeys_rollbackReadClaim (tidy : q.Tidy t d₀) (unheld : d₀.holds b = false)
    (engaged : d₀.Engaged d b)
    (state : d.known (.blockState b) = some SharedBufferBlockState.readingClaiming.code)
    (epoch : d.known (.blockEpoch b) = none) {lost : String} {e : Error}
    (other : NotExhausted e) :
    (rollbackReadClaim b lost e : PoolCode BufferLease).Obeys Hand.script
      (q.Taken t d₀.client) d := by
  unfold rollbackReadClaim
  refine Hand.obeys_turn_cas state (.restore state ?_) ?_
  · intro e' known
    cases epoch.symm.trans known
  · rw [if_neg (by simp)]
    obtain ⟨after, client⟩ := tidy.undo unheld engaged (.inr (.inl rfl))
    exact ⟨client, other, after⟩

theorem obeys_commitReadClaim (tidy : q.Tidy t d₀) {descriptor : BufferHandle}
    (names : Names (q.handleOf t d₀.client) descriptor)
    (unheld : d₀.holds descriptor.blockId = false)
    (engaged : d₀.Engaged d descriptor.blockId) {e : Nat}
    (state : d.known (.blockState descriptor.blockId) =
      some SharedBufferBlockState.readingClaiming.code)
    (generation : d.known (.blockGeneration descriptor.blockId) =
      some descriptor.blockGeneration)
    (epoch : d.known (.blockEpoch descriptor.blockId) = some e) (even : e % 2 = 0)
    (room : e + 2 ≤ maxCommittedOwnerEpoch) :
    (commitReadClaim (q.handleOf t d₀.client) descriptor).Obeys Hand.script
      (q.Taken t d₀.client) d := by
  unfold commitReadClaim
  refine Hand.obeys_begin state (.inr rfl) epoch even (by omega) room ?_
  dsimp only
  rw [if_neg (by simp)]
  refine Hand.obeys_commit ⟨⟨_, by simp [Hand.learn_apply, state], .inr rfl⟩,
    by simp, by omega⟩ room ?_
  generalize hand : ((d.learn (.blockEpoch descriptor.blockId) (e + 1)).sign
    descriptor.blockId (ownerFromProcess (q.handleOf t d₀.client).self)).learn
    (.blockEpoch descriptor.blockId) (e + 2) = d₁
  have engaged₁ : d₀.Engaged d₁ descriptor.blockId := by
    rw [← hand]
    exact ((engaged.learn rfl).sign _).learn rfl
  have known : ∀ l, d₁.known l = if l = .blockEpoch descriptor.blockId then some (e + 2)
      else ((d.learn (.blockEpoch descriptor.blockId) (e + 1)).sign descriptor.blockId
        (q.owner t)).known l := by
    intro l
    rw [← hand, Hand.learn_apply]
    rfl
  have state₁ : d₁.known (.blockState descriptor.blockId) =
      some SharedBufferBlockState.readingClaiming.code := by
    rw [known, if_neg (by simp), Hand.sign_other _ (by simp), Hand.learn_apply,
      if_neg (by simp)]
    exact state
  have epoch₁ : d₁.known (.blockEpoch descriptor.blockId) = some (e + 2) :=
    (known _).trans (if_pos rfl)
  have generation₁ : d₁.known (.blockGeneration descriptor.blockId) =
      some descriptor.blockGeneration := by
    rw [known, if_neg (by simp), Hand.sign_other _ (by simp), Hand.learn_apply,
      if_neg (by simp)]
    exact generation
  have owner₁ : ∀ word, d₁.known (.blockOwner descriptor.blockId word) =
      some ((q.owner t).word word) := by
    intro word
    rw [known, if_neg (by simp), Hand.sign_owner]
  refine Hand.obeys_turn (.read state₁ epoch₁ (by omega) room) ?_
  have turn : d₁.turn descriptor.blockId SharedBufferBlockState.reading.code =
      d₁.learn (.blockState descriptor.blockId) SharedBufferBlockState.reading.code := rfl
  rw [turn]
  refine ⟨engaged₁.client, tidy.gain_read names.present unheld (engaged₁.learn rfl) ?_⟩
  refine ⟨by simp, by simp [Hand.learn_apply, generation₁], ⟨e + 2, ?_, by omega⟩,
    ?_, names.eq, congrArg BufferHandle.length names.eq, names.below, rfl⟩
  · simp [Hand.learn_apply, epoch₁]
  · intro word
    simp [Hand.learn_apply, owner₁]

theorem obeys_readPublished (tidy : q.Tidy t d) {descriptor : BufferHandle}
    (names : Names (q.handleOf t d.client) descriptor)
    (unheld : d.holds descriptor.blockId = false) :
    (readPublished (q.handleOf t d.client) descriptor).Obeys Hand.script
      (q.Taken t d.client) d := by
  have nothing := tidy.ignorant descriptor.blockId unheld
  have engaged : d.Engaged (d.learn (.blockState descriptor.blockId)
      SharedBufferBlockState.readingClaiming.code) descriptor.blockId :=
    Hand.Engaged.refl.learn rfl
  unfold readPublished
  refine Hand.obeys_claim unheld (.inr ⟨rfl, rfl⟩) ?_ ?_
  · rw [if_neg (by simp)]
    refine Hand.obeys_generation (Hand.holds_iff.2 ⟨_, Hand.learn_known⟩) fun g _ => ?_
    split
    · refine obeys_rollbackReadClaim tidy unheld (engaged.learn rfl)
        (by simp [Hand.learn_apply]) ?_ (by simp [NotExhausted])
      simp [Hand.learn_apply, nothing.known (.blockEpoch descriptor.blockId) rfl]
    · rename_i same
      refine Hand.obeys_capacity
        (s := SharedBufferBlockState.readingClaiming.code) (by simp [Hand.learn_apply])
        (by simp [Hand.learn_apply, nothing.known (.blockEpoch descriptor.blockId) rfl]) ?_ ?_
      · intro e settled room
        rw [if_neg (by simp)]
        refine obeys_commitReadClaim tidy names unheld ((engaged.learn rfl).learn rfl)
          (by simp [Hand.learn_apply]) ?_ (by simp) settled.even room
        simpa [Hand.learn_apply] using same
      · intro e settled full
        exact absurd (settled.room (.inr (.inr rfl))) full
  · rw [if_pos (by simp)]
    exact ⟨rfl, by simp [NotExhausted], tidy⟩

theorem obeys_acquireRead (tidy : q.Tidy t d) {descriptor : BufferHandle} :
    (sharedBufferPoolAcquireReadImpl (q.handleOf t d.client) descriptor).Obeys Hand.script
      (q.Taken t d.client) d := by
  unfold sharedBufferPoolAcquireReadImpl
  refine Hand.obeys_look_seq tidy.aware all_validateDescriptor ends_validateDescriptor
    (fun _ names => ?_) fun e other => ⟨rfl, other, tidy⟩
  split
  · exact ⟨rfl, by simp [NotExhausted], tidy⟩
  · refine Hand.obeys_state fun state may => ?_
    split
    · split
      · exact ⟨rfl, by simp [NotExhausted], tidy⟩
      · refine Hand.obeys_look_seq tidy.aware looks_classifyActiveBlock.all
          ends_classifyActiveBlock ?_ ?_
        · rintro busy ⟨_, told, other⟩
          cases told
          exact ⟨rfl, other, tidy⟩
        · rintro e ⟨_, never, _⟩
          cases never
    · rename_i published
      have unheld : d.holds descriptor.blockId = false := by
        by_contra holds
        obtain ⟨l, hl, same⟩ := tidy.cover _ (by simpa using holds)
        rw [← same] at may
        rcases tidy.known_state hl with known | known
        · exact published (by rw [may _ known]; simp)
        · exact published (by rw [may _ known]; simp)
      refine Hand.obeys_look_seq (p := sharedLoad (.blockGeneration descriptor.blockId))
        tidy.aware ⟨by simp [PoolLook], fun _ => trivial⟩ (looks_sharedLoad _).ends ?_ ?_
      · intro generation _
        split
        · exact ⟨rfl, by simp [NotExhausted], tidy⟩
        · exact obeys_readPublished tidy names unheld
      · rintro e ⟨_, never⟩
        cases never

theorem obeys_fill {bytes : List Nat} {offset : Nat}
    (state : d.known (.blockState b) = some SharedBufferBlockState.writing.code) :
    (copyIn (.blockPayload b) offset bytes : PoolCode Unit).Obeys Hand.script
      (fun x d' => x = .ok () ∧ d' = d) d := by
  induction bytes generalizing offset with
  | nil => exact ⟨rfl, rfl⟩
  | cons byte bytes ih => exact ⟨state, fun _ _ => ih⟩

theorem all_ownerLost {handle : SharedBufferPoolHandle} {owner : OwnerAbi} :
    (ownerLost handle owner).All PoolLook := by
  unfold ownerLost
  split
  · trivial
  · exact Prog.all_bind ⟨trivial, fun _ => trivial⟩ fun _ => trivial

theorem all_countBlock {handle : SharedBufferPoolHandle} {status : SharedBufferPoolStatus} :
    (countBlock handle b status).All PoolLook := by
  unfold countBlock
  dsimp only
  split
  · trivial
  · refine Prog.all_bind ⟨by simp [PoolLook], fun _ => trivial⟩ fun _ => ?_
    split
    · trivial
    split
    · trivial
    split
    · refine Prog.all_bind Hand.looks_snapshotBlockOwner.all fun _ => ?_
      split
      · trivial
      · trivial
      · trivial
      · trivial
      · trivial
      · split
        · exact Prog.all_bind all_ownerLost fun _ => trivial
        split
        · exact Prog.all_bind all_ownerLost fun _ => trivial
        · trivial
    split
    · trivial
    split
    · trivial
    · trivial

theorem all_status {handle : SharedBufferPoolHandle} :
    (sharedBufferPoolStatusImpl handle).All PoolLook := by
  have blocks : ∀ left block status, (countBlocks handle left block status).All PoolLook := by
    intro left
    induction left with
    | zero => exact fun _ _ => trivial
    | succ left ih => exact fun _ _ => Prog.all_bind all_countBlock fun _ => ih _ _
  refine Prog.all_bind all_validateLivePool fun _ => Prog.all_bind ?_ fun _ => blocks _ _ _
  unfold poolCreatorAlive
  dsimp only
  split
  · trivial
  · exact Prog.all_bind all_ownerLost fun _ => trivial

/-- A scan that meets no block in use meets none of the scanning client. -/
theorem obeys_removeScan (tidy : q.Tidy t d) {left : Nat} :
    (removeScan (q.handleOf t c) left b).Obeys Hand.script
      (fun x d' => d' = d ∧ (x = .ok () → ∀ b', b ≤ b' → b' < b + left →
        d.holds b' = false)) d := by
  have stops : ∀ (e : Error) (b left : Nat), (.error e : Except Error Unit) = .ok () →
      ∀ b', b ≤ b' → b' < b + left → d.holds b' = false := by
    rintro e b left ⟨⟩
  induction left generalizing b with
  | zero =>
      refine ⟨rfl, fun _ b' ge lt => ?_⟩
      omega
  | succ left ih =>
      unfold removeScan
      dsimp only
      split
      · exact ⟨rfl, stops _ _ _⟩
      · refine Hand.obeys_state fun state may => ?_
        split
        · rename_i free
          have unheld : d.holds b = false := by
            by_contra holds
            obtain ⟨l, hl, rfl⟩ := tidy.cover b (by simpa using holds)
            rcases tidy.known_state hl with known | known
            · rw [may _ known] at free
              exact absurd free (by simp)
            · rw [may _ known] at free
              exact absurd free (by simp)
          refine Prog.obeys_mono ?_ ih
          rintro x d' ⟨same, rest⟩
          refine ⟨same, fun passed b' ge lt => ?_⟩
          rcases Nat.eq_or_lt_of_le ge with rfl | gt
          · exact unheld
          · exact rest passed b' gt (by omega)
        split
        · exact ⟨rfl, stops _ _ _⟩
        · refine Hand.obeys_look_seq tidy.aware Hand.looks_snapshotBlockOwner.all
            Hand.looks_snapshotBlockOwner.ends (fun observation _ => ?_) ?_
          · split
            · exact ⟨rfl, stops _ _ _⟩
            · exact ⟨rfl, stops _ _ _⟩
          · rintro e ⟨_, never⟩
            cases never

/-- Taking the name away changes nothing in the client's hands. -/
theorem obeys_unlinkChecked {calls : ShmUnlinking} :
    calls.unlinkChecked.Obeys Hand.script (fun _ d' => d' = d) d := by
  obtain ⟨opened, same, unlinked, reopened⟩ := calls
  cases opened with
  | error e => exact rfl
  | ok _ =>
      cases same with
      | false => exact rfl
      | true =>
          cases unlinked with
          | error failure => exact rfl
          | ok _ => exact ⟨trivial, fun _ _ => Prog.obeys_lift rfl⟩

/-- Only a client without buffers removes the pool. -/
theorem obeys_removeIfCreator (tidy : q.Tidy t d) {calls : ShmUnlinking} :
    (sharedBufferPoolRemoveIfCreatorImpl (q.handleOf t d.client) calls).Obeys Hand.script
      (fun x d' => d' = d ∧ (x = .ok () → d.client.buffers = [])) d := by
  have fails : ∀ e : Error, (.error e : Except Error Unit) = .ok () →
      d.client.buffers = [] := by
    rintro e ⟨⟩
  unfold sharedBufferPoolRemoveIfCreatorImpl
  refine obeys_validateLivePool (fun _ => ?_) fun _ => ⟨rfl, fails _⟩
  split
  · exact ⟨rfl, fails _⟩
  refine Prog.obeys_seq (obeys_removeScan tidy) ?_ ?_
  · rintro _ d' ⟨same, scanned⟩
    rw [same]
    have empty : d.client.buffers = [] := by
      rw [List.eq_nil_iff_forall_not_mem]
      intro l hl
      have below : l.block < q.handle.header.blockCount := by
        rcases PoolClient.mem_buffers.1 hl with hl | hl
        · exact (tidy.writes l hl).below
        · exact (tidy.reads l hl).below
      have unheld := scanned rfl l.block (Nat.zero_le _) (by rwa [Nat.zero_add])
      cases unheld.symm.trans (tidy.holds hl)
    exact Prog.obeys_mono (fun x d' same => ⟨same, fun _ => empty⟩) obeys_unlinkChecked
  · rintro e d' ⟨same, _⟩
    exact ⟨same, fails e⟩

end PoolSystem
end EdgeRuntime

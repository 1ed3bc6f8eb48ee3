import EdgeRuntime.Pool.Hands

/-!
The steps of one client and what they keep. First the words and the history of one block,
transition by transition; then the block among the clients; then a client's buffers; at the
end every instruction a client may perform.
-/
namespace EdgeRuntime
open Concurrent
open SharedBufferBlockState (InHand Claiming)

@[simp] theorem SharedBufferBlockState.code_inj {s s' : SharedBufferBlockState} :
    s.code = s'.code ↔ s = s' := by
  cases s <;> cases s' <;> decide

namespace Chronicle
variable {h : BlockHistory} {g : Nat}

theorem grant (c : Chronicle h) (pos : 0 < g) (new : ∀ g' ∈ h.granted, g' < g) :
    Chronicle { h with granted := h.granted ++ [g] } where
  granted := by
    rw [List.pairwise_append]
    refine ⟨c.granted, List.pairwise_singleton _ _, ?_⟩
    simpa using new
  published := c.published
  taken := c.taken
  positive g' hg := by
    rw [List.mem_append, List.mem_singleton] at hg
    rcases hg with hg | rfl
    · exact c.positive g' hg
    · exact pos
  published_granted p hp := List.mem_append_left _ (c.published_granted p hp)
  taken_published := c.taken_published

theorem publish (c : Chronicle h) (payload : Nat → Nat) (granted : g ∈ h.granted)
    (new : ∀ p ∈ h.published, p.generation < g) :
    Chronicle { h with published := h.published ++ [⟨g, payload⟩] } where
  granted := c.granted
  published := by
    rw [List.pairwise_append]
    refine ⟨c.published, List.pairwise_singleton _ _, ?_⟩
    simpa using new
  taken := c.taken
  positive := c.positive
  published_granted p hp := by
    rw [List.mem_append, List.mem_singleton] at hp
    rcases hp with hp | rfl
    · exact c.published_granted p hp
    · exact granted
  taken_published g' hg := by
    obtain ⟨p, hp, same⟩ := c.taken_published g' hg
    exact ⟨p, List.mem_append_left _ hp, same⟩

theorem take (c : Chronicle h) (published : ∃ p ∈ h.published, p.generation = g)
    (new : ∀ g' ∈ h.taken, g' < g) : Chronicle { h with taken := h.taken ++ [g] } where
  granted := c.granted
  published := c.published
  taken := by
    rw [List.pairwise_append]
    refine ⟨c.taken, List.pairwise_singleton _ _, ?_⟩
    simpa using new
  positive := c.positive
  published_granted := c.published_granted
  taken_published g' hg := by
    rw [List.mem_append, List.mem_singleton] at hg
    rcases hg with hg | rfl
    · exact c.taken_published g' hg
    · exact published

end Chronicle

namespace BlockWords
variable {s g e : Nat} {payload : Nat → Nat} {h : BlockHistory} {known : Option Nat}
  {raised : Bool}

theorem claim_write
    (w : BlockWords SharedBufferBlockState.free.code g e payload h none false) :
    BlockWords SharedBufferBlockState.writingClaiming.code g e payload h none false where
  code := ⟨_, by decide, rfl⟩
  settled _ := ⟨(w.settled fun _ => rfl).even, (w.settled fun _ => rfl).bound, by simp⟩
  epoch := w.epoch
  generation := w.generation
  chronicle := w.chronicle
  bound := w.bound
  fresh := by simp
  writing := by simp
  offered := by simp
  untaken := by simp

theorem claim_read
    (w : BlockWords SharedBufferBlockState.published.code g e payload h none false) :
    BlockWords SharedBufferBlockState.readingClaiming.code g e payload h none false where
  code := ⟨_, by decide, rfl⟩
  settled _ :=
    ⟨(w.settled fun _ => rfl).even, (w.settled fun _ => rfl).bound,
      fun _ => (w.settled fun _ => rfl).room (.inr (.inl rfl))⟩
  epoch := w.epoch
  generation := w.generation
  chronicle := w.chronicle
  bound := w.bound
  fresh := by simp
  writing := by simp
  offered _ := w.offered (.inl rfl)
  untaken _ := w.untaken (.inl rfl)

/-- Knowing the epoch settles nothing new. -/
theorem learn_epoch (w : BlockWords s g e payload h known raised) (v : Nat) :
    BlockWords s g e payload h (some v) raised :=
  { w with
    settled := fun unclaimed => w.settled fun claiming => by cases unclaimed claiming }

/-- In a claimed block the holder may move the epoch. -/
theorem change_epoch (w : BlockWords s g e payload h known raised) (claiming : Claiming s)
    {e' : Nat} (small : e' ≤ maxCommittedOwnerEpoch) (v : Nat) :
    BlockWords s g e' payload h (some v) raised :=
  { w with
    settled := fun unclaimed => by cases unclaimed claiming
    epoch := small }

theorem raise (w : BlockWords SharedBufferBlockState.writingClaiming.code g e payload h known
      raised) (lt : g < uint64Max) :
    BlockWords SharedBufferBlockState.writingClaiming.code (g + 1) e payload h known true where
  code := w.code
  settled := w.settled
  epoch := w.epoch
  generation := lt
  chronicle := w.chronicle
  bound g' hg := Nat.le_succ_of_le (w.bound g' hg)
  fresh _ _ := ⟨Nat.succ_pos g, fun g' hg => Nat.lt_succ_of_le (w.bound g' hg)⟩
  writing := by simp
  offered := by simp
  untaken := by simp

theorem fill (w : BlockWords SharedBufferBlockState.writing.code g e payload h known raised)
    (payload' : Nat → Nat) :
    BlockWords SharedBufferBlockState.writing.code g e payload' h known raised :=
  { w with offered := by simp }

/-- A block goes back to the pool without a payload. -/
theorem give_back (w : BlockWords s g e payload h known raised) (even : e % 2 = 0)
    (room : e ≤ maxCommittedOwnerEpoch) {v : Nat}
    (target : v = SharedBufferBlockState.free.code ∨
      v = SharedBufferBlockState.epochExhausted.code) :
    BlockWords v g e payload h none false where
  code := by
    rcases target with rfl | rfl
    · exact ⟨_, by decide, rfl⟩
    · exact ⟨_, by decide, rfl⟩
  settled _ := ⟨even, room, by rcases target with rfl | rfl <;> simp⟩
  epoch := w.epoch
  generation := w.generation
  chronicle := w.chronicle
  bound := w.bound
  fresh := by simp
  writing := by rcases target with rfl | rfl <;> simp
  offered := by rcases target with rfl | rfl <;> simp
  untaken := by rcases target with rfl | rfl <;> simp

theorem write (w : BlockWords SharedBufferBlockState.writingClaiming.code g e payload h known
      true) (even : e % 2 = 0) (room : e + 2 ≤ maxCommittedOwnerEpoch) :
    BlockWords SharedBufferBlockState.writing.code g e payload
      { h with granted := h.granted ++ [g] } known true where
  code := ⟨_, by decide, rfl⟩
  settled _ := ⟨even, by omega, fun _ => room⟩
  epoch := w.epoch
  generation := w.generation
  chronicle := w.chronicle.grant (w.fresh rfl rfl).1 (w.fresh rfl rfl).2
  bound g' hg := by
    rw [List.mem_append, List.mem_singleton] at hg
    rcases hg with hg | rfl
    · exact w.bound g' hg
    · exact Nat.le_refl _
  fresh := by simp
  writing _ := by
    refine ⟨List.mem_append_right _ (List.mem_singleton.2 rfl), ?_⟩
    intro p hp
    exact (w.fresh rfl rfl).2 _ (w.chronicle.published_granted p hp)
  offered := by simp
  untaken := by simp

theorem publish (w : BlockWords SharedBufferBlockState.writing.code g e payload h known
      raised) :
    BlockWords SharedBufferBlockState.published.code g e payload
      { h with published := h.published ++ [⟨g, payload⟩] } none false where
  code := ⟨_, by decide, rfl⟩
  settled _ := by
    have before := w.settled (by simp [Claiming])
    exact ⟨before.even, before.bound, fun _ => before.room (.inl rfl)⟩
  epoch := w.epoch
  generation := w.generation
  chronicle := w.chronicle.publish payload (w.writing rfl).1 (w.writing rfl).2
  bound := w.bound
  fresh := by simp
  writing := by simp
  offered _ := ⟨_, List.mem_append_right _ (List.mem_singleton.2 rfl), rfl, rfl⟩
  untaken _ g' hg := by
    obtain ⟨p, hp, rfl⟩ := w.chronicle.taken_published g' hg
    exact (w.writing rfl).2 p hp

theorem restore (w : BlockWords SharedBufferBlockState.readingClaiming.code g e payload h
      known raised) (even : e % 2 = 0) (room : e + 2 ≤ maxCommittedOwnerEpoch) :
    BlockWords SharedBufferBlockState.published.code g e payload h none false where
  code := ⟨_, by decide, rfl⟩
  settled _ := ⟨even, by omega, fun _ => room⟩
  epoch := w.epoch
  generation := w.generation
  chronicle := w.chronicle
  bound := w.bound
  fresh := by simp
  writing := by simp
  offered _ := w.offered (.inr (.inl rfl))
  untaken _ := w.untaken (.inr rfl)

theorem read (w : BlockWords SharedBufferBlockState.readingClaiming.code g e payload h known
      raised) (even : e % 2 = 0) (room : e ≤ maxCommittedOwnerEpoch) :
    BlockWords SharedBufferBlockState.reading.code g e payload
      { h with taken := h.taken ++ [g] } known raised where
  code := ⟨_, by decide, rfl⟩
  settled _ := ⟨even, room, by simp⟩
  epoch := w.epoch
  generation := w.generation
  chronicle := by
    obtain ⟨p, hp, same, _⟩ := w.offered (.inr (.inl rfl))
    exact w.chronicle.take ⟨p, hp, same⟩ (w.untaken (.inr rfl))
  bound := w.bound
  fresh := by simp
  writing := by simp
  offered _ := w.offered (.inr (.inl rfl))
  untaken := by simp

end BlockWords

namespace Hand
variable {d : Hand} {b v : Nat} {l : PoolLoc}

theorem Ignorant.not_holds (h : d.Ignorant b) : d.holds b = false :=
  not_holds_iff.2 (h.known _ rfl)

theorem forget_ignorant : (d.forget b).Ignorant b :=
  ⟨fun _ inside => if_pos inside, Function.update_self _ _ _⟩

theorem learn_holds (h : d.holds b = true) : (d.learn l v).holds b = true := by
  obtain ⟨s, state⟩ := holds_iff.1 h
  by_cases same : PoolLoc.blockState b = l
  · subst same
    exact holds_iff.2 ⟨v, learn_known⟩
  · exact holds_iff.2 ⟨s, (learn_known_of_ne same).trans state⟩

end Hand

section
variable {T : Type} [DecidableEq T] {m m' : PoolMem} {h h' : BlockHistory} {d : T → Hand}
  {b v : Nat} {t : T} {e : Hand} {l : PoolLoc}

omit [DecidableEq T] in
/-- Whoever knows a word of a block holds the block. -/
theorem BlockInv.holder (inv : BlockInv m h d b) (inside : l.inBlock = some b)
    (known : (d t).known l = some v) : HeldBy m h d b t := by
  cases inv with
  | loose fits unheld nobody => cases ((nobody t).known l inside).symm.trans known
  | held u holder =>
      by_cases same : t = u
      · subst same
        exact holder
      · cases ((holder.others t same).known l inside).symm.trans known

namespace HeldBy

/-- The holder keeps the block. -/
theorem stay (held : HeldBy m h d b t)
    (fits : BlockFits m' b h' (e.known (.blockEpoch b)) (e.raised b))
    (still : InHand (m' (.blockState b))) (holds : e.holds b = true)
    (knows : ∀ l v, l.inBlock = some b → e.known l = some v → m' l = v)
    (unknown : ∀ offset, e.known (.blockPayload b offset) = none) :
    BlockInv m' h' (Function.update d t e) b := by
  refine .held t ⟨?_, still, ?_, ?_, ?_, ?_⟩
  · rw [Function.update_self]
    exact fits
  · rw [Function.update_self]
    exact holds
  · rw [Function.update_self]
    exact knows
  · rw [Function.update_self]
    exact unknown
  · intro u hu
    rw [Function.update_of_ne hu]
    exact held.others u hu

/-- The holder gives the block back. -/
theorem leave (held : HeldBy m h d b t) (fits : BlockFits m' b h' none false)
    (unheld : ¬ InHand (m' (.blockState b))) (ignorant : e.Ignorant b) :
    BlockInv m' h' (Function.update d t e) b := by
  refine .loose fits unheld fun u => ?_
  by_cases hu : u = t
  · subst hu
    rw [Function.update_self]
    exact ignorant
  · rw [Function.update_of_ne hu]
    exact held.others u hu

omit [DecidableEq T] in
theorem knows_learn (held : HeldBy m h d b t) {l' : PoolLoc} {v' : Nat}
    (inside : l'.inBlock = some b) (known : ((d t).learn l v).known l' = some v') :
    (m.set l v) l' = v' := by
  rw [Words.set_apply]
  split
  · rename_i same
    subst same
    rw [Hand.learn_known] at known
    exact Option.some.inj known
  · rename_i other
    rw [Hand.learn_known_of_ne other] at known
    exact held.knows l' v' inside known

omit [DecidableEq T] in
theorem unknown_learn (held : HeldBy m h d b t) (plain : ∀ b o, l ≠ .blockPayload b o)
    (offset : Nat) : ((d t).learn l v).known (.blockPayload b offset) = none := by
  rw [Hand.learn_known_of_ne (plain b offset).symm]
  exact held.unknown offset

end HeldBy

theorem BlockInv.claim (inv : BlockInv m h d b) (free : ¬ InHand (m (.blockState b)))
    (held : InHand v) (fits : BlockFits m b h none false →
      BlockFits (m.set (.blockState b) v) b h none false) :
    BlockInv (m.set (.blockState b) v) h
      (Function.update d t ((d t).learn (.blockState b) v)) b := by
  cases inv with
  | held u holder => exact absurd holder.held free
  | loose words unheld nobody =>
      have unknown : ((d t).learn (.blockState b) v).known (.blockEpoch b) = none := by
        rw [Hand.learn_known_of_ne (by simp)]
        exact (nobody t).known _ rfl
      refine .held t ⟨?_, ?_, ?_, ?_, ?_, ?_⟩
      · rw [Function.update_self, unknown, Hand.learn_raised, (nobody t).raised]
        exact fits words
      · rw [Words.set_apply, if_pos rfl]
        exact held
      · rw [Function.update_self]
        exact Hand.holds_iff.2 ⟨v, Hand.learn_known⟩
      · rw [Function.update_self]
        intro l' v' inside known
        rw [Words.set_apply]
        split
        · rename_i same
          subst same
          rw [Hand.learn_known] at known
          exact Option.some.inj known
        · rename_i other
          rw [Hand.learn_known_of_ne other, (nobody t).known _ inside] at known
          cases known
      · rw [Function.update_self]
        intro offset
        rw [Hand.learn_known_of_ne (by simp)]
        exact (nobody t).known _ rfl
      · intro u hu
        rw [Function.update_of_ne hu]
        exact nobody u

end

section
variable {header : SharedBufferPoolHeaderAbi} {me : OwnerAbi} {d d' : Hand}
  {s : SharedBufferBlockState} {buffer : BufferLease}

theorem Leased.congr (leased : Leased header me d s buffer)
    (known : ∀ l, l.inBlock = some buffer.block → d'.known l = d.known l) :
    Leased header me d' s buffer where
  state := (known _ rfl).trans leased.state
  generation := (known _ rfl).trans leased.generation
  epoch := by
    obtain ⟨e, epoch, even⟩ := leased.epoch
    exact ⟨e, (known _ rfl).trans epoch, even⟩
  owner word := (known _ rfl).trans (leased.owner word)
  descriptor := leased.descriptor
  size := leased.size
  below := leased.below
  active := leased.active

end

namespace PoolClient
variable {c : PoolClient} {b : Nat} {l : BufferLease}

@[simp] theorem drop_removed : (c.drop b).removed = c.removed := rfl

theorem mem_writes_drop : l ∈ (c.drop b).writes ↔ l ∈ c.writes ∧ l.block ≠ b := by
  simp [drop]

theorem mem_reads_drop : l ∈ (c.drop b).reads ↔ l ∈ c.reads ∧ l.block ≠ b := by
  simp [drop]

theorem mem_buffers : l ∈ c.buffers ↔ l ∈ c.writes ∨ l ∈ c.reads := List.mem_append

theorem buffers_drop : (c.drop b).buffers = c.buffers.filter (·.block ≠ b) := by
  simp [drop, buffers]

end PoolClient

namespace PoolSystem.Sound
variable {T : Type} {q : PoolSystem T} {t : T} {d e : Hand} {b : Nat}

/-- A buffer's block is WRITING or READING, and its holder knows that. -/
theorem known_state (sound : q.Sound t d) {l : BufferLease} (hl : l ∈ d.client.buffers) :
    d.known (.blockState l.block) = some SharedBufferBlockState.writing.code ∨
      d.known (.blockState l.block) = some SharedBufferBlockState.reading.code :=
  (PoolClient.mem_buffers.1 hl).elim (fun h => .inl (sound.writes l h).state)
    fun h => .inr (sound.reads l h).state

/-- No buffer is of a block that the client does not hold or has only claimed. -/
theorem unleased (sound : q.Sound t d)
    (state : ∀ s, d.known (.blockState b) = some s → Claiming s) {l : BufferLease}
    (hl : l ∈ d.client.buffers) : l.block ≠ b := by
  rintro rfl
  rcases sound.known_state hl with known | known
  · exact absurd (state _ known) (by simp [Claiming])
  · exact absurd (state _ known) (by simp [Claiming])

theorem of_same (sound : q.Sound t d) (client : e.client = d.client)
    (known : ∀ l ∈ d.client.buffers, ∀ loc, loc.inBlock = some l.block →
      e.known loc = d.known loc) : q.Sound t e where
  writes l hl := by
    rw [client] at hl
    exact (sound.writes l hl).congr (known l (PoolClient.mem_buffers.2 (.inl hl)))
  reads l hl := by
    rw [client] at hl
    exact (sound.reads l hl).congr (known l (PoolClient.mem_buffers.2 (.inr hl)))
  apart := client ▸ sound.apart
  removed h := by
    rw [client] at h ⊢
    exact sound.removed h

/-- Whatever the client comes to know of a block without a buffer. -/
theorem of_unleased (sound : q.Sound t d) (client : e.client = d.client)
    (unleased : ∀ l ∈ d.client.buffers, l.block ≠ b)
    (known : ∀ loc, loc.inBlock ≠ some b → e.known loc = d.known loc) : q.Sound t e := by
  refine sound.of_same client fun l hl loc inside => known loc ?_
  rw [inside]
  exact fun same => unleased l hl (Option.some.inj same)

/-- The buffers of a block are dropped together with what is known of it. -/
theorem drop (sound : q.Sound t d) (client : e.client = d.client.drop b)
    (known : ∀ loc, loc.inBlock ≠ some b → e.known loc = d.known loc) : q.Sound t e := by
  have kept : ∀ l : BufferLease, l.block ≠ b → ∀ loc, loc.inBlock = some l.block →
      e.known loc = d.known loc := by
    intro l other loc inside
    refine known loc ?_
    rw [inside]
    exact fun same => other (Option.some.inj same)
  constructor
  · intro l hl
    rw [client, PoolClient.mem_writes_drop] at hl
    exact (sound.writes l hl.1).congr (kept l hl.2)
  · intro l hl
    rw [client, PoolClient.mem_reads_drop] at hl
    exact (sound.reads l hl.1).congr (kept l hl.2)
  · rw [client, PoolClient.buffers_drop]
    exact sound.apart.sublist (List.filter_sublist.map _)
  · intro removed
    rw [client, PoolClient.drop_removed] at removed
    rw [client, PoolClient.buffers_drop, sound.removed removed, List.filter_nil]

end PoolSystem.Sound

section
variable {T : Type} [DecidableEq T] {q : PoolSystem T} {w w' : PoolWorld T} {d : T → Hand}
  {t : T} {e : Hand} {b : Nat}

omit [DecidableEq T] in
theorem BlockInv.congr {m m' : PoolMem} {h : BlockHistory} {d' : T → Hand}
    (inv : BlockInv m h d b) (mem : ∀ l, l.inBlock = some b → m' l = m l)
    (known : ∀ u l, l.inBlock = some b → (d' u).known l = (d u).known l)
    (raised : ∀ u, (d' u).raised b = (d u).raised b) : BlockInv m' h d' b := by
  have state := mem (.blockState b) rfl
  have payload : (fun offset => m' (.blockPayload b offset)) =
      fun offset => m (.blockPayload b offset) := funext fun offset => mem _ rfl
  have ignorant : ∀ u, (d u).Ignorant b → (d' u).Ignorant b := by
    intro u h
    exact ⟨fun l inside => (known u l inside).trans (h.known l inside),
      (raised u).trans h.raised⟩
  have fits : ∀ {epoch r}, BlockFits m b h epoch r → BlockFits m' b h epoch r := by
    intro epoch r fits
    unfold BlockFits
    rw [state, mem (.blockGeneration b) rfl, mem (.blockEpoch b) rfl, payload]
    exact fits
  cases inv with
  | loose words unheld nobody =>
      exact .loose (fits words) (by rwa [state]) fun u => ignorant u (nobody u)
  | held u holder =>
      refine .held u ⟨?_, by rw [state]; exact holder.held, ?_, ?_, ?_, ?_⟩
      · rw [known u _ rfl, raised]
        exact fits holder.fits
      · obtain ⟨s, hs⟩ := Hand.holds_iff.1 holder.holds
        exact Hand.holds_iff.2 ⟨s, (known u _ rfl).trans hs⟩
      · intro l v inside hv
        rw [known u l inside] at hv
        exact (mem l inside).trans (holder.knows l v inside hv)
      · exact fun offset => (known u _ rfl).trans (holder.unknown offset)
      · exact fun u' hu => ignorant u' (holder.others u' hu)

/-- A step that concerns one block and one client. -/
theorem PoolInv.touch (inv : PoolInv q w d)
    (mem : ∀ l, l.inBlock ≠ some b → w'.mem l = w.mem l)
    (history : ∀ b', b' ≠ b → w'.history b' = w.history b')
    (finished : w'.finished = w.finished) (client : ∀ u, u ≠ t → w'.client u = w.client u)
    (own : e.client = w'.client t)
    (known : ∀ l, l.inBlock ≠ some b → e.known l = (d t).known l)
    (raised : ∀ b', b' ≠ b → e.raised b' = (d t).raised b')
    (block : BlockInv w'.mem (w'.history b) (Function.update d t e) b)
    (sound : q.Sound t e) : PoolInv q w' (Function.update d t e) where
  ready := (mem .initState (by simp [PoolLoc.inBlock])).trans inv.ready
  client u := by
    by_cases hu : u = t
    · subst hu
      rw [Function.update_self]
      exact own
    · rw [Function.update_of_ne hu, client u hu]
      exact inv.client u
  block b' := by
    by_cases hb : b' = b
    · subst hb
      exact block
    · have elsewhere : ∀ l : PoolLoc, l.inBlock = some b' → l.inBlock ≠ some b := by
        intro l inside same
        exact hb (Option.some.inj (inside.symm.trans same))
      rw [history b' hb]
      apply (inv.block b').congr
      · exact fun l inside => mem l (elsewhere l inside)
      · intro u l inside
        by_cases hu : u = t
        · subst hu
          rw [Function.update_self]
          exact known l (elsewhere l inside)
        · rw [Function.update_of_ne hu]
      · intro u
        by_cases hu : u = t
        · subst hu
          rw [Function.update_self]
          exact raised b' hb
        · rw [Function.update_of_ne hu]
  sound u := by
    by_cases hu : u = t
    · subst hu
      rw [Function.update_self]
      exact sound
    · rw [Function.update_of_ne hu]
      exact inv.sound u
  finished := finished ▸ inv.finished

end
end EdgeRuntime

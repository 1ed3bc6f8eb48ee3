import EdgeRuntime.Channel.Notices
import EdgeRuntime.Sync.Alone

/-!
What an opener finds after the registered consumer has died. The reclaim pass judges a
slot by two words, its state and the epoch of its reader. Release clears the epoch first,
so a reader that dies between its two stores leaves a slot that no opener takes back.
-/
namespace EdgeRuntime
open Concurrent

namespace ChannelSystem
variable {q : ChannelSystem} {probe : ChannelWorld → Nat → Nat → Liveness}
  {now : ChannelWorld → Nat} {t : Endpoint} {w w' : ChannelWorld} {m : ChannelMem}
  {old i j : Nat} {l : ChannelLoc} {α : Type} {Q : Except Error α → ChannelWorld → Prop}

/-- The reclaim pass for the reader of an epoch accepts the slot. -/
def Reclaimable (old : Nat) (m : ChannelMem) (i : Nat) : Prop :=
  (m (.slotState i) = SlotState.readingClaiming.code →
    m (.slotReaderEpoch i) = 0 ∨ m (.slotReaderEpoch i) = old) ∧
  (m (.slotState i) = SlotState.reading.code → m (.slotReaderEpoch i) = old)

/-- The words after one slot was taken back. -/
def reclaimed (i : Nat) (m : ChannelMem) : ChannelMem :=
  if HeldCode (m (.slotState i)) then
    (m.set (.slotReaderEpoch i) 0).set (.slotState i) SlotState.published.code
  else m

/-- The words after a pass over the slots. -/
def swept (slots : List Nat) (m : ChannelMem) : ChannelMem :=
  slots.foldl (fun m i => reclaimed i m) m

theorem reclaimed_of_ne (state : l ≠ .slotState i) (epoch : l ≠ .slotReaderEpoch i) :
    reclaimed i m l = m l := by
  unfold reclaimed
  split
  · simp [state, epoch]
  · rfl

theorem swept_of_ne {slots : List Nat}
    (other : ∀ i, l ≠ .slotState i ∧ l ≠ .slotReaderEpoch i) : swept slots m l = m l := by
  induction slots generalizing m with
  | nil => rfl
  | cons i rest ih => exact ih.trans (reclaimed_of_ne (other i).1 (other i).2)

theorem not_held_reclaimed : ¬ Held (reclaimed i m) i := by
  unfold Held reclaimed
  split
  · simp [HeldCode, SlotState.code]
  · assumption

theorem held_of_reclaimed (h : Held (reclaimed i m) j) : Held m j := by
  by_cases hj : j = i
  · subst hj
    exact (not_held_reclaimed h).elim
  · unfold Held at h ⊢
    rwa [reclaimed_of_ne (by simpa using hj) (by simp)] at h

theorem held_of_swept {slots : List Nat} (h : Held (swept slots m) j) :
    Held m j ∧ j ∉ slots := by
  induction slots generalizing m with
  | nil => exact ⟨h, by simp⟩
  | cons i rest ih =>
      obtain ⟨held, out⟩ := ih h
      refine ⟨held_of_reclaimed held, ?_⟩
      rw [List.mem_cons]
      rintro (rfl | inside)
      · exact not_held_reclaimed held
      · exact out inside

theorem readable_reclaimed (h : Readable m j) : Readable (reclaimed i m) j := by
  unfold Readable at h ⊢
  unfold reclaimed
  split
  · by_cases hj : j = i
    · subst hj
      simp [ReadableCode]
    · simpa [hj] using h
  · exact h

theorem readable_swept {slots : List Nat} (h : Readable m j) : Readable (swept slots m) j := by
  induction slots generalizing m with
  | nil => exact h
  | cons i rest ih => exact ih (readable_reclaimed h)

/-- Taking one slot back makes no other slot more or less acceptable. -/
theorem reclaimable_reclaimed (hi : Reclaimable old m i) :
    Reclaimable old (reclaimed i m) j ↔ Reclaimable old m j := by
  by_cases hj : j = i
  · subst hj
    have free := not_held_reclaimed (i := j) (m := m)
    refine iff_of_true ⟨fun h => ?_, fun h => ?_⟩ hi
    · exact (free (.inl h)).elim
    · exact (free (.inr h)).elim
  · unfold Reclaimable
    rw [reclaimed_of_ne (by simpa using hj) (by simp), reclaimed_of_ne (by simp)
      (by simpa using hj)]

theorem alone_slotReleaseRead (held : HeldCode (w.mem (.slotState i))) :
    q.memory.Alone probe now t (fun x w' => x = .ok () ∧ w'.mem = reclaimed i w.mem)
      (slotReleaseRead i) w := by
  refine ⟨rfl, ?_⟩
  unfold reclaimed
  rw [if_pos held]
  rfl

/-- One slot of the pass: it is taken back, or the pass stops. -/
theorem alone_reclaimSlot :
    q.memory.Alone probe now t
      (fun x w' => match x with
        | .ok _ => Reclaimable old w.mem i ∧ w'.mem = reclaimed i w.mem
        | .error _ => ¬ Reclaimable old w.mem i)
      (reclaimSlot old i) w := by
  rw [reclaimSlot]
  apply Memory.alone_load
  change q.memory.Alone probe now t _ (if w.mem (.slotState i) = _ then _ else _) w
  split
  · rename_i claiming
    have reading : w.mem (.slotState i) ≠ SlotState.reading.code := by
      rw [claiming]
      decide
    apply Memory.alone_load
    change q.memory.Alone probe now t _
      (if w.mem (.slotReaderEpoch i) ≠ 0 ∧ w.mem (.slotReaderEpoch i) ≠ old then _ else _) w
    split
    · rename_i unknown
      exact fun ok => (ok.1 claiming).elim unknown.1 unknown.2
    · rename_i known
      refine Memory.alone_mono ?_ (alone_slotReleaseRead (.inl claiming))
      rintro x w' ⟨rfl, mem⟩
      exact ⟨⟨fun _ => by omega, fun h => (reading h).elim⟩, mem⟩
  · rename_i claiming
    split
    · rename_i reading
      apply Memory.alone_load
      change q.memory.Alone probe now t _
        (if w.mem (.slotReaderEpoch i) ≠ old then _ else _) w
      split
      · rename_i unknown
        exact fun ok => unknown (ok.2 reading)
      · rename_i known
        refine Memory.alone_mono ?_ (alone_slotReleaseRead (.inr reading))
        rintro x w' ⟨rfl, mem⟩
        exact ⟨⟨fun h => (claiming h).elim, fun _ => Decidable.not_not.1 known⟩, mem⟩
    · rename_i reading
      have free : ¬ HeldCode (w.mem (.slotState i)) := fun h => h.elim claiming reading
      refine ⟨⟨fun h => (claiming h).elim, fun h => (reading h).elim⟩, ?_⟩
      unfold reclaimed
      rw [if_neg free]
      rfl

/-- The pass succeeds exactly when every slot is acceptable. -/
theorem alone_reclaimSlots {stride : Nat} {slots : List Nat}
    (offsets : ∀ i ∈ slots, ∃ o, slotByteOffset i stride = some o) :
    q.memory.Alone probe now t
      (fun x w' => match x with
        | .ok _ => (∀ i ∈ slots, Reclaimable old w.mem i) ∧ w'.mem = swept slots w.mem
        | .error _ => ¬ ∀ i ∈ slots, Reclaimable old w.mem i)
      (reclaimSlots old stride slots) w := by
  induction slots generalizing w with
  | nil => exact ⟨by simp, rfl⟩
  | cons i rest ih =>
      obtain ⟨o, ho⟩ := offsets i (by simp)
      simp only [reclaimSlots, ho]
      refine Memory.alone_seq alone_reclaimSlot ?_ ?_
      · rintro _ w₁ ⟨hi, mem⟩
        refine Memory.alone_mono ?_ (ih fun j hj => offsets j (by simp [hj]))
        intro x w' post
        simp only [mem, reclaimable_reclaimed hi] at post
        cases x with
        | ok _ => exact ⟨by simpa using ⟨hi, post.1⟩, post.2⟩
        | error _ => exact fun all => post fun j hj => all j (by simp [hj])
      · exact fun _ _ bad all => bad (all i (by simp))

/-- The words of the slots and the ticket are those of another memory. -/
def SlotWords (m m' : ChannelMem) : Prop := ∀ l, l.isSlotWord = true → m' l = m l

theorem SlotWords.set {m' : ChannelMem} {v : Nat} (h : SlotWords m m')
    (hl : l.isSlotWord = false) : SlotWords m (m'.set l v) := by
  intro l' word
  have other : l' ≠ l := by
    rintro rfl
    exact Bool.false_ne_true (hl.symm.trans word)
  rw [Words.set_apply, if_neg other]
  exact h l' word

/-- Stores outside the slots. -/
theorem alone_store_other {v : Nat} {k : Unit → ChannelCode α} (words : SlotWords m w.mem)
    (hl : l.isSlotWord = false)
    (h : ∀ w', SlotWords m w'.mem → q.memory.Alone probe now t Q (k ()) w') :
    q.memory.Alone probe now t Q (sharedStore l v >>= k) w :=
  Memory.alone_store (h _ (words.set hl))

/-- What the opener reads about the consumer that died. -/
structure Deceased (probe : ChannelWorld → Nat → Nat → Liveness) (m : ChannelMem) :
    Prop where
  online : m .consumerState = EndpointState.online.code
  even : m (.identity false .roleEpoch) % 2 = 0
  valid : processIdentityValid (identityOf (identityAt false m)) = true
  exited : ∀ w, probe w (m (.identity false .pid)) (m (.identity false .procStartTicks)) =
    .exited

theorem alone_identitySnapshotRead {producer : Bool}
    (even : w.mem (.identity producer .roleEpoch) % 2 = 0) :
    q.memory.Alone probe now t
      (fun x w' => x = .ok (identityAt producer w.mem) ∧ w' = w)
      (identitySnapshotRead producer) w := by
  rw [identitySnapshotRead, identitySnapshotRetries, identitySnapshotReadLoop]
  apply Memory.alone_load
  change q.memory.Alone probe now t _
    (if w.mem (.identity producer .roleEpoch) % 2 ≠ 0 then _ else _) w
  rw [if_neg (not_not.2 even)]
  apply Memory.alone_load
  apply Memory.alone_load
  apply Memory.alone_load
  apply Memory.alone_load
  apply Memory.alone_load
  change q.memory.Alone probe now t _
    (if w.mem (.identity producer .roleEpoch) % 2 ≠ 0 ∨
      w.mem (.identity producer .roleEpoch) ≠ w.mem (.identity producer .roleEpoch)
      then _ else _) w
  rw [if_neg (by simp [even])]
  exact ⟨rfl, rfl⟩

/-- The new identity goes in unless the epochs are used up. -/
theorem alone_identitySnapshotWrite {id : ProcessIdentity}
    (words : SlotWords m w.mem) (even : w.mem (.identity false .roleEpoch) % 2 = 0) :
    q.memory.Alone probe now t
      (fun x w' => match x with
        | .ok _ => w.mem (.identity false .roleEpoch) + 2 ≤ uint64Max ∧ SlotWords m w'.mem
        | .error _ => ¬ w.mem (.identity false .roleEpoch) + 2 ≤ uint64Max)
      (identitySnapshotWrite false id) w := by
  rw [identitySnapshotWrite]
  apply Memory.alone_load
  change q.memory.Alone probe now t _
    (if w.mem (.identity false .roleEpoch) % 2 ≠ 0 then _ else
      if w.mem (.identity false .roleEpoch) > uint64Max - 2 then _ else _) w
  rw [if_neg (not_not.2 even)]
  have wide : 2 ≤ uint64Max := by decide
  split
  · rename_i exhausted
    change ¬ _
    omega
  · rename_i room
    have fits : w.mem (.identity false .roleEpoch) + 2 ≤ uint64Max := by omega
    rw [identitySnapshotStores]
    refine alone_store_other words rfl fun w₁ h₁ => ?_
    refine alone_store_other h₁ rfl fun w₂ h₂ => ?_
    refine alone_store_other h₂ rfl fun w₃ h₃ => ?_
    refine alone_store_other h₃ rfl fun w₄ h₄ => ?_
    refine alone_store_other h₄ rfl fun w₅ h₅ => ?_
    refine alone_store_other h₅ rfl fun w₆ h₆ => ?_
    exact ⟨fits, h₆⟩

/-- The slots and epochs the opener can deal with. -/
def Takeable (m : ChannelMem) : Prop :=
  (∀ i ∈ List.range slotCount, Reclaimable (m (.identity false .roleEpoch)) m i) ∧
    m (.identity false .roleEpoch) + 2 ≤ uint64Max

theorem alone_evictOldConsumer (dead : Deceased probe w.mem) :
    q.memory.Alone probe now t
      (fun x w' => match x with
        | .ok _ => (∀ i ∈ List.range slotCount,
            Reclaimable (w.mem (.identity false .roleEpoch)) w.mem i) ∧
            w'.mem = swept (List.range slotCount) w.mem
        | .error _ => ¬ ∀ i ∈ List.range slotCount,
            Reclaimable (w.mem (.identity false .roleEpoch)) w.mem i)
      (evictOldConsumer q.payloadSize (identityAt false w.mem)) w := by
  have pid : w.mem (.identity false .pid) ≠ 0 := by
    have valid := dead.valid
    simp only [processIdentityValid, identityOf, identityAt, Bool.and_eq_true] at valid
    exact of_decide_eq_true valid.1.1.1.1
  obtain ⟨stride, hs, offsets⟩ := slotByteOffset_some q
  rw [evictOldConsumer, identityAt, if_neg pid]
  apply Memory.alone_load
  change q.memory.Alone probe now t _
    (if w.mem .consumerState ≠ _ ∧ w.mem .consumerState ≠ _ ∧ w.mem .consumerState ≠ _
      then _ else _) w
  rw [dead.online, if_neg (by decide)]
  apply Memory.alone_probe
  rw [dead.exited w]
  change q.memory.Alone probe now t _ (reclaimDeadConsumerSlots q.payloadSize _) w
  simp only [reclaimDeadConsumerSlots, hs]
  exact alone_reclaimSlots fun i hi => offsets i (List.mem_range.1 hi)

/-- The takeover succeeds exactly when the slots and the epochs allow it. -/
theorem alone_registerConsumer {id : ProcessIdentity} (dead : Deceased probe w.mem) :
    q.memory.Alone probe now t
      (fun x w' => match x with
        | .ok _ => Takeable w.mem ∧ SlotWords (swept (List.range slotCount) w.mem) w'.mem
        | .error _ => ¬ Takeable w.mem)
      (registerConsumer id q.payloadSize) w := by
  rw [registerConsumer]
  refine Memory.alone_attempt_seq (alone_identitySnapshotRead dead.even) ?_
  rintro _ w₀ ⟨rfl, rfl⟩
  apply Memory.alone_load
  rw [dead.valid]
  change q.memory.Alone probe now t _ (if _ ∧ true = false then _ else _) _
  rw [if_neg (by simp)]
  refine Memory.alone_seq (alone_evictOldConsumer dead) ?_ ?_
  · rintro _ w₁ ⟨slots, mem⟩
    have epoch : w₁.mem (.identity false .roleEpoch) = w₀.mem (.identity false .roleEpoch) := by
      rw [mem]
      exact swept_of_ne fun _ => ⟨by rintro ⟨⟩, by rintro ⟨⟩⟩
    have words : SlotWords (swept (List.range slotCount) w₀.mem) w₁.mem := by
      rw [mem]
      exact fun _ _ => rfl
    have even : w₁.mem (.identity false .roleEpoch) % 2 = 0 := by
      rw [epoch]
      exact dead.even
    refine Memory.alone_seq (alone_identitySnapshotWrite words even) ?_ ?_
    · rintro _ w₂ ⟨room, words⟩
      rw [epoch] at room
      refine alone_store_other words rfl fun w₃ words => ?_
      exact ⟨⟨slots, room⟩, words⟩
    · intro _ w₂ full take
      rw [epoch] at full
      exact full take.2
  · exact fun _ _ bad take => bad take.1

/-- The opener's options name this instance, and the system lets the opener in. -/
structure Matching (q : ChannelSystem) (n : Nat) (env : OpenEnvironment)
    (options : ChannelOptions) (dev ino : Nat) : Prop where
  arguments : openArgumentChecks options q.schema q.payloadSize = .ok ()
  identity : env.identityError = none
  object : openObject env options = .ok (dev, ino, q.mapping)
  pread : env.preadError = none
  mmap : env.mmapError = none
  boot : (q.self .producer).bootIdHashHi = (q.self (.consumer n)).bootIdHashHi ∧
    (q.self .producer).bootIdHashLo = (q.self (.consumer n)).bootIdHashLo
  journal : openJournalCheck env options = .ok ()
  confirmed : confirmInstance q.segment env options dev ino = .ok ()

theorem firstSlotOffset_le_mapping (q : ChannelSystem) : firstSlotOffset ≤ q.mapping := by
  have fits := q.mapping_eq
  simp only [mappingSizeForPayload, Option.bind_eq_bind, Option.bind_eq_some_iff] at fits
  obtain ⟨_, _, total, _, ha⟩ := fits
  have sum := (checkedAddU64_some (by simp [firstSlotOffset, uint64Max]) ha).1
  omega

/-- An instance that somebody opened lets every opener with its schema pass. -/
theorem Parses.own (h : q.Parses) :
    validateHeaderParse q.header q.schema q.payloadSize = .ok () := by
  obtain ⟨schema, payloadSize, parses⟩ := h
  obtain ⟨_, _, _, _, _, _, _, _, _, generation, nonce⟩ := validateHeaderParse_ok.1 parses
  refine validateHeaderParse_create _ _ ?_ generation nonce
  exact Nat.le_trans (by decide) (firstSlotOffset_le_mapping q)

/-- The creator's bootstrap record, made READY, passes for an opener of the same boot. -/
theorem openBootstrapChecks_create {env : OpenEnvironment} {self : ProcessIdentity}
    (mmap : env.mmapError = none)
    (boot : (q.self .producer).bootIdHashHi = self.bootIdHashHi ∧
      (q.self .producer).bootIdHashLo = self.bootIdHashLo) :
    openBootstrapChecks env self
      { q.segment.bootstrap with initState := InitState.ready.code } q.mapping = .ok () := by
  have room := firstSlotOffset_le_mapping q
  have nonzero : q.mapping ≠ 0 := by
    have : 0 < firstSlotOffset := by decide
    omega
  have large : bootstrapHeaderSize ≤ q.mapping := Nat.le_trans (by decide) room
  unfold openBootstrapChecks
  refine except_bind_eq_ok.2 ⟨(), validateBootstrapParse_create q.options nonzero large, ?_⟩
  refine ite_error_eq_ok.2 ⟨fun h => h rfl, ?_⟩
  refine ite_error_eq_ok.2 ⟨fun h => h rfl, ?_⟩
  refine ite_error_eq_ok.2 ⟨fun h => h.elim (· boot.1) (· boot.2), ?_⟩
  rw [mmap]
  rfl

/-- An open that runs alone after the death of the registered consumer. -/
theorem alone_consumerOpenImpl {n dev ino : Nat} {env : OpenEnvironment}
    {options : ChannelOptions} (matching : Matching q n env options dev ino)
    (parses : q.Parses) (ready : w.mem .bootInitState = InitState.ready.code)
    (free : w.lock = none) (dead : Deceased probe w.mem) :
    q.memory.Alone probe now (.consumer n)
      (fun x w' => match x with
        | .ok _ => Takeable w.mem ∧ SlotWords (swept (List.range slotCount) w.mem) w'.mem
        | .error _ => ¬ Takeable w.mem)
      (consumerOpenImpl q.segment env (q.self (.consumer n)) n options q.schema
        q.payloadSize) w := by
  have room := firstSlotOffset_le_mapping q
  have large : bootstrapHeaderSize ≤ q.mapping := Nat.le_trans (by decide) room
  rw [consumerOpenImpl, openWith]
  apply Memory.alone_lift matching.arguments
  rw [matching.identity]
  apply Memory.alone_lift rfl
  apply Memory.alone_lift matching.object
  change q.memory.Alone probe now (.consumer n) _
    (openMapped _ _ _ _ _ _ _ dev ino q.mapping) w
  rw [openMapped, if_neg (Nat.not_lt.2 large), matching.pread]
  apply Memory.alone_lift rfl
  apply Memory.alone_load
  change q.memory.Alone probe now (.consumer n) _
    (Prog.lift (openBootstrapChecks env (q.self (.consumer n))
      { q.segment.bootstrap with initState := w.mem .bootInitState } q.mapping) >>= _) w
  rw [ready]
  apply Memory.alone_lift (openBootstrapChecks_create matching.mmap matching.boot)
  apply Memory.alone_load
  change q.memory.Alone probe now (.consumer n) _
    (if w.mem .bootInitState ≠ InitState.ready.code then _ else _) w
  rw [if_neg (not_not.2 ready)]
  apply Memory.alone_lift parses.own
  refine Memory.alone_withControlLock (if_pos free) ?_
  rw [openLocked]
  apply Memory.alone_lift matching.journal
  apply Memory.alone_lift matching.confirmed
  refine Memory.alone_seq (alone_registerConsumer dead) ?_ ?_
  · rintro epoch w₁ ⟨take, words⟩
    rw [initConsumerHandle]
    refine alone_store_other words rfl fun w₂ words => ?_
    refine alone_store_other words rfl fun w₃ words => ?_
    refine alone_store_other words rfl fun w₄ words => ?_
    refine alone_store_other words rfl fun w₅ words => ?_
    refine alone_store_other words rfl fun w₆ words => ?_
    exact ⟨take, words⟩
  · exact fun _ _ bad => bad

/-- The state after a successful takeover: nothing is held, and every sample that was
complete before can be read. -/
structure Recovered (w w' : ChannelWorld) : Prop where
  unheld : ∀ i, i < slotCount → ¬ Held w'.mem i
  ticket : w'.mem .latestTicket = w.mem .latestTicket
  samples : ∀ i, i < slotCount → Readable w.mem i →
    w'.mem (.slotState i) = SlotState.published.code ∧
      ∀ l, l.dataSlot? = some i → w'.mem l = w.mem l

theorem recovered_of_slotWords
    (words : SlotWords (swept (List.range slotCount) w.mem) w'.mem) : Recovered w w' := by
  have unheld : ∀ i, i < slotCount → ¬ Held w'.mem i := by
    intro i hlt held
    unfold Held at held
    rw [words (.slotState i) rfl] at held
    exact (held_of_swept held).2 (List.mem_range.2 hlt)
  refine ⟨unheld, (words _ rfl).trans (swept_of_ne fun _ => ⟨nofun, nofun⟩), ?_⟩
  intro i hlt readable
  constructor
  · have kept : ReadableCode (w'.mem (.slotState i)) := by
      rw [words (.slotState i) rfl]
      exact readable_swept readable
    exact kept.resolve_right (unheld i hlt)
  · intro l data
    have word : l.isSlotWord = true := by cases l <;> first | rfl | cases data
    refine (words l word).trans (swept_of_ne fun j => ⟨?_, ?_⟩)
    · rintro rfl
      cases data
    · rintro rfl
      cases data

/-- No slot is being read with its reader's epoch already cleared, and the epochs of the
consumers are not used up. -/
def Recoverable (w : ChannelWorld) : Prop :=
  (∀ i, i < slotCount → w.mem (.slotState i) = SlotState.reading.code →
    w.mem (.slotReaderEpoch i) ≠ 0) ∧
  w.mem (.identity false .roleEpoch) + 2 ≤ uint64Max

/-- In a state a run reaches, a reader's epoch is clear or that of the registration. -/
theorem takeable_iff {s : ChannelState} (hi : q.Inv s)
    (online : s.mem .consumerState = EndpointState.online.code) :
    Takeable s.mem ↔ Recoverable s.world := by
  have epoch := (hi.registry.online online).1
  refine and_congr_left fun _ => ⟨?_, ?_⟩
  · intro take i hlt reading clear
    have known := (take i (List.mem_range.2 hlt)).2 reading
    exact epoch (known.symm.trans clear)
  · intro kept i hi'
    have hlt := List.mem_range.1 hi'
    have cases := hi.registry.epochs i hlt
    refine ⟨fun _ => cases.imp_right And.right, fun reading => ?_⟩
    exact (cases.resolve_left (kept i hlt reading)).2

theorem deceased_of_inv {s : ChannelState} (hi : q.Inv s)
    (online : s.mem .consumerState = EndpointState.online.code)
    (even : s.mem (.identity false .roleEpoch) % 2 = 0)
    (exited : ∀ w, probe w (s.mem (.identity false .pid))
      (s.mem (.identity false .procStartTicks)) = .exited) : Deceased probe s.mem := by
  refine ⟨online, even, ?_, exited⟩
  obtain ⟨r, is⟩ := hi.registry.identity even (hi.registry.online online).1
  have valid := q.self_valid (.consumer r)
  simp only [identityOf, identityAt, is.pid, is.ticks, is.hi, is.lo]
  exact valid

/-- An open that finds the registered consumer dead succeeds, frees every slot and keeps
every sample, exactly when the consumer left no slot with a cleared epoch. -/
theorem consumer_takeover_iff {out : Endpoint → Nat → Nat} {c : ChannelConfig}
    {n dev ino : Nat} {env : OpenEnvironment} {options : ChannelOptions}
    (run : q.machine.Reach (fun _ _ => True) (q.machine.start (q.init out)) c)
    (online : c.world.mem .consumerState = EndpointState.online.code)
    (even : c.world.mem (.identity false .roleEpoch) % 2 = 0)
    (exited : ∀ w, probe w (c.world.mem (.identity false .pid))
      (c.world.mem (.identity false .procStartTicks)) = .exited)
    (free : c.world.lock = none) (matching : Matching q n env options dev ino) :
    (∃ handle w', q.memory.alone probe now (.consumer n)
        (consumerOpenImpl q.segment env (q.self (.consumer n)) n options q.schema
          q.payloadSize) c.world = (.ok handle, w') ∧ Recovered c.world w') ↔
      Recoverable c.world := by
  obtain ⟨s, hs, hi, _⟩ := covers_reach run
  have hs : s.world = c.world := hs
  obtain ⟨_, wakes, _⟩ := wakes_reach run
  have ready := wakes.ready
  rw [← hs] at online even exited free ready ⊢
  have opened : q.memory.Alone probe now (.consumer n) _ _ s.world :=
    alone_consumerOpenImpl matching (hi.registry.online online).2 ready free
      (deceased_of_inv hi online even exited)
  rw [← takeable_iff hi online]
  unfold Memory.Alone at opened
  generalize q.memory.alone probe now (.consumer n) _ s.world = outcome at opened
  obtain ⟨x, w'⟩ := outcome
  cases x with
  | ok handle =>
      refine ⟨fun _ => opened.1, fun _ => ⟨handle, w', rfl, ?_⟩⟩
      exact recovered_of_slotWords opened.2
  | error e =>
      refine ⟨?_, fun take => (opened take).elim⟩
      rintro ⟨_, _, same, _⟩
      cases same

/-- The tiny channel, with its later consumers in a process of their own. -/
def heirs : ChannelSystem where
  options := tiny.options
  schema := tiny.schema
  payloadSize := tiny.payloadSize
  mapping := tiny.mapping
  generation := tiny.generation
  nonceHi := tiny.nonceHi
  nonceLo := tiny.nonceLo
  self
    | .producer => ⟨1, 1, 1, 1⟩
    | .consumer 0 => ⟨2, 1, 1, 1⟩
    | .consumer _ => ⟨3, 1, 1, 1⟩
  self_valid e := by rcases e with _ | _ | _ <;> rfl
  valid := tiny.valid
  mapping_eq := tiny.mapping_eq

instance (t : Endpoint) (a : ChannelCall) (w : ChannelWorld) :
    Decidable (heirs.machine.allowed t a w) := inferInstanceAs (Decidable (_ = _))

/-- A sample is published, a consumer opens and reads it, and dies in that call after the
given number of instructions. -/
def heirsRun (steps : Nat) : Option ChannelConfig :=
  heirs.machine.play (fun _ _ => True) (heirs.memory.answer (fun _ _ _ => .alive) fun _ => 5)
    (heirs.machine.start (heirs.init fun _ _ => 0))
    (whole .producer (.publish [7]) ++ whole (.consumer 0) tinyOpen ++
      [.call (.consumer 0) (.tryRead 1), .run (.consumer 0) steps, .crash (.consumer 0)])

theorem heirsRun_reach {steps : Nat} {c : ChannelConfig} (h : heirsRun steps = some c) :
    heirs.machine.Reach (fun _ _ => True) (heirs.machine.start (heirs.init fun _ _ => 0)) c := by
  refine Machine.reach_play (heirs.memory.answer_exec ?_) h
  intro w pid ticks dead
  rcases dead with dead | dead <;> cases dead

/-- The first consumer's process is gone. -/
def firstExited (_ : ChannelWorld) (pid _ : Nat) : Liveness :=
  if pid = 2 then .exited else .alive

/-- The next consumer's open, running alone. -/
def heirsOpen (w : ChannelWorld) : Except Error ConsumerHandle × ChannelWorld :=
  heirs.memory.alone firstExited (fun _ => 5) (.consumer 1)
    (consumerOpenImpl heirs.segment tinyEnvironment (heirs.self (.consumer 1)) 1
      heirs.options heirs.schema heirs.payloadSize) w

theorem heirs_matching : Matching heirs 1 tinyEnvironment heirs.options 1 1 := by
  refine ⟨?_, rfl, rfl, rfl, rfl, ⟨rfl, rfl⟩, ?_, ?_⟩ <;> decide +kernel

/-- A reader that died in the middle of its last read step. -/
theorem consumer_takeover_iff_heirs :
    ∃ c w' handle, heirsRun 12 = some c ∧ heirsOpen c.world = (.ok handle, w') ∧
      Recovered c.world w' := by
  have facts : (heirsRun 12).any (fun c => c.world.mem .consumerState = 1 ∧
      c.world.mem (.identity false .roleEpoch) = 2 ∧ c.world.mem (.identity false .pid) = 2 ∧
      c.world.lock = none ∧ ∀ i < slotCount,
        c.world.mem (.slotState i) = 4 → c.world.mem (.slotReaderEpoch i) ≠ 0) = true := by
    decide +kernel
  obtain ⟨c, hc, hf⟩ := (Option.any_eq_true _ _).1 facts
  obtain ⟨online, epoch, pid, free, slots⟩ := of_decide_eq_true hf
  have exited : ∀ w, firstExited w (c.world.mem (.identity false .pid))
      (c.world.mem (.identity false .procStartTicks)) = .exited := by
    rw [pid]
    exact fun _ => rfl
  have recoverable : Recoverable c.world := ⟨slots, by rw [epoch]; decide⟩
  obtain ⟨handle, w', opened, recovered⟩ := (consumer_takeover_iff (heirsRun_reach hc) online
    (by rw [epoch]) exited free heirs_matching).2 recoverable
  exact ⟨c, w', handle, hc, opened, recovered⟩

/-- The consumer dies between the two stores of its release: the slot stays READING with
no epoch, and the next open is refused although the consumer is gone. -/
theorem consumer_takeover_refused :
    ∃ c, heirsRun 22 = some c ∧
      heirs.machine.Reach (fun _ _ => True) (heirs.machine.start (heirs.init fun _ _ => 0)) c ∧
      c.world.mem .consumerState = EndpointState.online.code ∧
      c.world.mem (.identity false .roleEpoch) % 2 = 0 ∧ c.world.lock = none ∧
      heirs.Accurate c.world (c.world.mem (.identity false .pid))
        (c.world.mem (.identity false .procStartTicks)) .exited ∧
      Matching heirs 1 tinyEnvironment heirs.options 1 1 ∧
      (heirsOpen c.world).1 = .error (makeError .recoveryBlocked "Consumer::open"
        "reading slot epoch unknown") := by
  have facts : (heirsRun 22).any (fun c => c.world.mem .consumerState = 1 ∧
      c.world.mem (.identity false .roleEpoch) = 2 ∧ c.world.mem (.identity false .pid) = 2 ∧
      c.world.lock = none ∧ c.world.crashed (.consumer 0) = true ∧
      (heirsOpen c.world).1 = .error (makeError .recoveryBlocked "Consumer::open"
        "reading slot epoch unknown")) = true := by
    decide +kernel
  obtain ⟨c, hc, hf⟩ := (Option.any_eq_true _ _).1 facts
  obtain ⟨online, epoch, pid, free, dead, refused⟩ := of_decide_eq_true hf
  refine ⟨c, hc, heirsRun_reach hc, online, by rw [epoch], free, ?_, heirs_matching, refused⟩
  intro _ u hu _
  rw [pid] at hu
  rcases u with _ | _ | _
  · cases hu
  · exact dead
  · cases hu

end ChannelSystem
end EdgeRuntime

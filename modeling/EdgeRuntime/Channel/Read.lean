import EdgeRuntime.Channel.Reads
import EdgeRuntime.Channel.ReaderRules

/-!
The consumer's way to a sample. A claim holds a slot that may have been recycled since
its ticket was loaded; the ticket is loaded again once the slot is held, and then the
slot carries the sample that ticket names.
-/
namespace EdgeRuntime
open Concurrent

/-- A readable slot that the ticket names carries the last committed sample. -/
theorem SlotsInv.latest_sample {m : ChannelMem} {committed : List Sample}
    {staged : Option (Nat × Sample)} {pending : Option Nat} {i : Nat}
    (hi : SlotsInv m committed staged pending) (hlt : i < slotCount) (read : Readable m i)
    (named : m .latestTicket = makeTicket (m (.slotSequence i)) i) :
    ∃ sample, Holds m i sample ∧ sample ∈ committed ∧
      sample.sequence = committed.length ∧
      ticketSequence (m .latestTicket) = sample.sequence := by
  obtain ⟨sample, hs, origin⟩ := hi.content i hlt read
  rw [hs.sequence] at named
  have bounded := hi.bounded
  have low : sample.sequence ≤ committed.length + 1 := by
    rcases origin with hc | hst
    · exact Nat.le_succ_of_le (hi.sequence_le hc).2.1
    · exact Nat.le_of_eq (hi.staged i sample hst).2
  rcases hi.latest with ⟨hz, hc⟩ | ⟨j, hj, hne, hm, _, _⟩
  · -- no ticket: the slot would carry the first, staged sample
    rcases origin with hmem | hst
    · rw [hc] at hmem
      cases hmem
    · have one := (hi.staged i sample hst).2
      rw [hz, one, hc] at named
      simp only [makeTicket, List.length_nil] at named
      omega
  · have length : committed.length ≠ 0 := fun h => hne (List.length_eq_zero_iff.1 h)
    rw [hm] at named
    have same : sample.sequence = committed.length := by
      simp only [makeTicket, maxSampleSequence, slotCount] at *
      omega
    refine ⟨sample, hs, ?_, same, ?_⟩
    · rcases origin with hmem | hst
      · exact hmem
      · have := (hi.staged i sample hst).2
        omega
    · rw [hm, ticketSequence_makeTicket bounded, same]

namespace ChannelSystem
variable {q : ChannelSystem} {s s' : ChannelState} {l : ChannelLoc}
  {n i v floor : Nat} {c : ChannelClient} {held : Option Nat} {known : Option Sample}
  {f f' : ChannelMem} {α : Type} {Q : Except Error α → ChannelState → Prop}
  {handle : ConsumerHandle} {operation : String}

namespace Reader

/-- Load the ticket with nothing held: its slot is the one that may be claimed next. -/
theorem wp_aim {k : Nat → ChannelCode α} (hv : Reader n c none floor known f s)
    (hk : ∀ ticket s, q.Inv s → Reader n c none (ticketSequence ticket) none f s →
      (ticket ≠ 0 → s.pending = some (ticketSlot ticket)) →
      q.logic.wp (.consumer n) Q (k ticket) s) :
    q.logic.wp (.consumer n) Q (sharedLoad .latestTicket >>= k) s := by
  apply Access.wp_load_ghost (D := q.memory) rfl
  intro s₁ hr hi
  have h₁ := stable s s₁ hv hr hi
  have newest : ticketSequence (s₁.mem .latestTicket) ≤ s₁.world.committed.length := by
    rcases hi.slots.latest with ⟨hz, _⟩ | ⟨j, _, _, hm, _, _⟩
    · rw [hz]
      exact Nat.zero_le _
    · exact Nat.le_of_eq (by rw [hm, ticketSequence_makeTicket hi.slots.bounded])
  have aimed : ∀ pending, Reader n c none (ticketSequence (s₁.mem .latestTicket)) none f
      (s₁.register s₁.reader pending) := fun pending =>
    ⟨h₁.alive, h₁.reader, h₁.client, h₁.words, h₁.slot, h₁.held, newest,
      fun _ he => nomatch he⟩
  by_cases hz : s₁.mem .latestTicket = 0
  · refine ⟨s₁, rfl, hi, q.logic.guar_refl _ s₁, hk _ s₁ hi ?_ fun h => (h hz).elim⟩
    exact aimed s₁.pending
  · have inv := inv_pending (some (ticketSlot (s₁.mem .latestTicket))) hi
      h₁.unread h₁.reader
    refine ⟨s₁.register s₁.reader (some (ticketSlot (s₁.mem .latestTicket))), rfl, inv, ?_,
      hk _ _ inv (aimed _) fun _ => rfl⟩
    exact guar_register (q.logic.guar_refl _ s₁) h₁.keeper (.inr (.inr ⟨hz, rfl⟩))

/-- Claim the slot that was aimed at, if it is still PUBLISHED. -/
theorem wp_claim {k : Bool → ChannelCode α} (hv : Reader n c none floor known f s)
    (aims : s.pending = some i) (hlt : i < slotCount) (free : LoanFree c)
    (swaps : ∀ s f', q.Inv s → Reader n c (some i) floor known f' s →
      (∀ l, ReaderWord n none l → f' l = f l) → q.logic.wp (.consumer n) Q (k true) s)
    (fails : ∀ s, q.Inv s → Reader n c none floor known f s →
      q.logic.wp (.consumer n) Q (k false) s) :
    q.logic.wp (.consumer n) Q (slotClaimReadable i >>= k) s := by
  apply Access.wp_cas (D := q.memory) rfl
  · intro s₁ hr hi state
    have state : s₁.mem (.slotState i) = SlotState.published.code := state
    have h₁ := stable s s₁ hv hr hi
    have pending : s₁.pending = some i := (hr.keeper hv.keeper).pending.trans aims
    have read := readable_published state
    have after : HeldCode SlotState.readingClaiming.code := .inl rfl
    have inv : q.Inv (store (.consumer n) (.slotState i)
        SlotState.readingClaiming.code s₁) :=
      inv_store_readable hi read (.inr after) (fun _ => pending) (.inl after)
        (fun _ => h₁.no_loan hi free)
    -- from now on the sample in the slot is known as well
    have learnt : Reader n c none floor known
        (fun l => if l.dataSlot? = some i then s₁.mem l else f l) s₁ := by
      refine ⟨h₁.alive, h₁.reader, h₁.client, ?_, h₁.slot, h₁.held, h₁.floor, h₁.known⟩
      intro l hl
      split
      · rfl
      · exact h₁.words l hl
    refine ⟨_, rfl, inv, guar_readable h₁.keeper read (.inr after), swaps _ _ inv
      (learnt.store_state (some i) ?_ ?_ ?_ ?_) ?_⟩
    · intro j hj
      cases hj
      exact hlt
    · intro j l hj hd
      cases hj
      rw [if_pos hd]
    · exact fun j hj => (Option.some.inj hj).symm
    · intro j hj
      rw [held_set]
      split
      · rename_i he
        cases he
        exact ⟨fun _ => rfl, fun _ => after⟩
      · rename_i hne
        rw [h₁.held j hj]
        constructor
        · intro he
          cases he
        · intro he
          cases he
          exact (hne rfl).elim
    · intro l hl
      cases hl with
      | own => simp [ChannelLoc.dataSlot?]
      | registry word =>
          rw [Words.set_apply, if_neg, if_neg]
          · simp [ChannelLoc.dataSlot?_of_isConsumerWord word]
          · intro he
            rw [he] at word
            cases word
      | state hold | data hold => cases hold
  · intro s₁ hr hi _
    exact fails s₁ hi (stable s s₁ hv hr hi)

/-- Load the ticket again with the slot held: if it still names the slot, the sample in
it is the last one committed. -/
theorem wp_recheck {k : Nat → ChannelCode α} (hv : Reader n c (some i) floor known f s)
    (hk : ∀ latest s, q.Inv s → Reader n c (some i) floor known f s →
      (latest = makeTicket (f (.slotSequence i)) i → ∃ sample, Holds f i sample ∧
        floor ≤ sample.sequence ∧ Reader n c (some i) floor (some sample) f s) →
      q.logic.wp (.consumer n) Q (k latest) s) :
    q.logic.wp (.consumer n) Q (sharedLoad .latestTicket >>= k) s := by
  apply Access.wp_load (D := q.memory) rfl
  intro s₁ hr hi
  have h₁ := stable s s₁ hv hr hi
  refine hk _ s₁ hi h₁ ?_
  intro named
  rw [← h₁.words _ (.data rfl rfl)] at named
  obtain ⟨sample, hs, mem, last, ticket⟩ :=
    hi.slots.latest_sample (h₁.slot i rfl) h₁.holding.readable named
  refine ⟨sample, holds_congr (fun l hl => (h₁.words l (.data rfl hl)).symm) hs, ?_, ?_⟩
  · rw [last]
    exact h₁.floor
  · refine ⟨h₁.alive, h₁.reader, h₁.client, h₁.words, h₁.slot, h₁.held, h₁.floor, ?_⟩
    intro sample' he
    cases he
    exact ⟨mem, _, hi.clients.seen (.consumer n), ticket⟩

end Reader

/-- The flags of a handle and its epoch stay as they are. -/
structure SameFlags (n : Nat) (f f' : ChannelMem) : Prop where
  word : ∀ w, w ≠ .lastSequence → w ≠ .firstSampleInGeneration →
    f' (consumerWord n w) = f (consumerWord n w)
  epoch : f' (.identity false .roleEpoch) = f (.identity false .roleEpoch)

theorem SameFlags.refl (n : Nat) (f : ChannelMem) : SameFlags n f f :=
  ⟨fun _ _ _ => rfl, rfl⟩

theorem SameFlags.trans {f'' : ChannelMem} (h : SameFlags n f f') (h' : SameFlags n f' f'') :
    SameFlags n f f'' :=
  ⟨fun w h₁ h₂ => (h'.word w h₁ h₂).trans (h.word w h₁ h₂), h'.epoch.trans h.epoch⟩

theorem SameFlags.set {l : ChannelLoc} (hf : SameFlags n f f')
    (own : ∀ w, w ≠ .lastSequence → w ≠ .firstSampleInGeneration → l ≠ consumerWord n w)
    (epoch : l ≠ .identity false .roleEpoch) : SameFlags n f (f'.set l v) := by
  constructor
  · intro w h₁ h₂
    rw [Words.set_apply, if_neg (own w h₁ h₂).symm]
    exact hf.word w h₁ h₂
  · rw [Words.set_apply, if_neg epoch.symm]
    exact hf.epoch

/-- Nothing held, nothing lost. -/
def Empty (n : Nat) (c : ChannelClient) (f : ChannelMem) (s : ChannelState) : Prop :=
  ∃ f', Reader n c none 0 none f' s ∧ SameFlags n f f'

/-- The sample a consumer is about to return, and that it is newer than all before. -/
structure Found (n : Nat) (c : ChannelClient) (f : ChannelMem) (snapshot : ReadSnapshot)
    (sample : Sample) : Prop where
  sequence : snapshot.sampleSequence = sample.sequence
  bootNs : snapshot.publishBootNs = sample.publishBootNs
  size : snapshot.encodedSize = sample.payload.length
  last : f (consumerWord n .lastSequence) = sample.sequence
  newer : ∀ d ∈ c.delivered, d < sample.sequence

/-- A slot held with a sample that was latest during the call. -/
def Holding (n : Nat) (c : ChannelClient) (f : ChannelMem) (loan : ReadLoan)
    (s : ChannelState) : Prop :=
  ∃ f' sample, Reader n c (some loan.slotIndex) 0 (some sample) f' s ∧ SameFlags n f f' ∧
    f' (.slotState loan.slotIndex) = SlotState.reading.code ∧
    Holds f' loan.slotIndex sample ∧ Found n c f' loan.snapshot sample

/-- How the search for a sample may end. -/
def ClaimEnds (n : Nat) (c : ChannelClient) (f : ChannelMem) (x : Except Error ReadLoan)
    (s : ChannelState) : Prop :=
  match x with
  | .ok loan => Holding n c f loan s
  | .error _ => Empty n c f s

/-- How one attempt may end: also with nothing found. -/
def AttemptEnds (n : Nat) (c : ChannelClient) (f : ChannelMem)
    (x : Except Error (Option ReadLoan)) (s : ChannelState) : Prop :=
  match x with
  | .ok (some loan) => Holding n c f loan s
  | .ok none => Empty n c f s
  | .error _ => Empty n c f s

namespace Reader

theorem wp_releaseAndThrow {e : Error} (hv : Reader n c (some i) floor known f' s)
    (free : LoanFree c) (flags : SameFlags n f f')
    (post : ∀ s, q.Inv s → Empty n c f s → Q (.error e) s) :
    q.logic.wp (.consumer n) Q (releaseAndThrow i e) s := by
  apply hv.wp_slotReleaseRead free
  intro s₁ _ h₁
  refine h₁.wp_throw ?_
  refine fun s₂ hi₂ h₂ => post s₂ hi₂ ⟨_, h₂.forget, ?_⟩
  apply SameFlags.set (flags.set _ _) <;> simp [consumerWord]

theorem wp_acceptSample {sample : Sample} {size sequence bootNs receiveNs : Nat}
    (hv : Reader n c (some i) floor (some sample) f' s) (flags : SameFlags n f f')
    (state : f' (.slotState i) = SlotState.reading.code) (hs : Holds f' i sample)
    (newer : f' (consumerWord n .lastSequence) < sample.sequence)
    (same : size = sample.payload.length ∧ sequence = sample.sequence ∧
      bootNs = sample.publishBootNs) :
    q.logic.wp (.consumer n) (ClaimEnds n c f)
      (acceptSample n handle i size sequence bootNs receiveNs) s := by
  obtain ⟨rfl, rfl, rfl⟩ := same
  apply hv.wp_load .own
  intro s₁ _ h₁
  apply h₁.wp_load .own
  intro s₂ _ h₂
  apply h₂.wp_store_last (Nat.le_of_lt newer)
  intro s₃ _ h₃ delivered
  apply h₃.wp_store_own (by simp)
  intro s₄ _ h₄
  apply h₄.wp_count
  intro m v s₅ _ h₅
  refine h₅.wp_ret ?_
  intro s₆ _ h₆
  refine ⟨_, sample, ⟨h₆.alive, h₆.reader, h₆.client, h₆.words, h₆.slot, h₆.held,
    Nat.zero_le _, h₆.known⟩, ?_, ?_, ?_, ?_⟩
  · apply SameFlags.set _ (by simp [consumerWord]) (by simp)
    apply SameFlags.set _ _ (by simp [consumerWord])
    · apply SameFlags.set flags _ (by simp [consumerWord])
      intro w h₁ _ he
      cases he
      exact h₁ rfl
    · intro w _ h₂ he
      cases he
      exact h₂ rfl
  · simpa [consumerWord] using state
  · exact holds_set (by simp [ChannelLoc.dataSlot?])
      (holds_set (by simp [consumerWord, ChannelLoc.dataSlot?])
        (holds_set (by simp [consumerWord, ChannelLoc.dataSlot?]) hs))
  · refine ⟨rfl, rfl, rfl, by simp [consumerWord], ?_⟩
    exact fun d hd => Nat.lt_of_le_of_lt (delivered d hd) newer

variable (handle operation) in
theorem wp_checkClaimedSlot {sample : Sample}
    (hv : Reader n c (some i) floor (some sample) f' s) (flags : SameFlags n f f')
    (free : LoanFree c) (state : f' (.slotState i) = SlotState.reading.code)
    (hs : Holds f' i sample) (newer : f' (consumerWord n .lastSequence) < sample.sequence) :
    q.logic.wp (.consumer n) (ClaimEnds n c f) (checkClaimedSlot n handle operation i) s := by
  apply hv.wp_load (.data rfl rfl)
  intro s₁ _ h₁
  apply h₁.wp_load (.data rfl rfl)
  intro s₂ _ h₂
  apply h₂.wp_load (.data rfl rfl)
  intro s₃ _ h₃
  apply h₃.wp_load (.data rfl rfl)
  intro s₄ _ h₄
  split
  · apply h₄.wp_releaseAndThrow free flags
    exact fun s' _ empty => empty
  · apply h₄.wp_looks looks_boottimeNowNs
    intro now s₅ _ h₅
    split
    · apply h₅.wp_releaseAndThrow free flags
      exact fun s' _ empty => empty
    · apply wp_fnv1a64Shared (D := q.memory) (fun j => f' (.slotPayload i j)) rfl stable
        (fun s hv j => hv.words _ (.data rfl rfl)) h₅
      intro s₆ _ h₆
      split
      · apply h₆.wp_releaseAndThrow free flags
        exact fun s' _ empty => empty
      · exact h₆.wp_acceptSample flags state hs newer ⟨hs.size, hs.sequence, hs.bootNs⟩

theorem wp_readClaimedSlot (hv : Reader n c (some i) floor none f' s)
    (flags : SameFlags n f f') (free : LoanFree c)
    (epoch : f' (.identity false .roleEpoch) = handle.roleEpoch)
    (newer : f' (consumerWord n .lastSequence) < floor) :
    q.logic.wp (.consumer n) (AttemptEnds n c f) (readClaimedSlot n handle operation i) s := by
  rw [readClaimedSlot, slotMarkReading, Prog.bind_assoc]
  apply hv.wp_store_epoch (.inr epoch.symm)
  intro s₁ _ h₁
  apply h₁.wp_mark free
  intro s₂ _ h₂
  have flags₂ : SameFlags n f ((f'.set (.slotReaderEpoch i) handle.roleEpoch).set
      (.slotState i) SlotState.reading.code) := by
    apply SameFlags.set (flags.set _ _) <;> simp [consumerWord]
  apply h₂.wp_load (.data rfl rfl)
  intro s₃ _ h₃
  apply h₃.wp_recheck
  intro latest s₄ _ h₄ named
  split
  · apply h₄.wp_slotReleaseRead free
    intro s₅ _ h₅
    refine h₅.wp_ret ?_
    refine fun s₆ _ h₆ => ⟨_, h₆.forget, ?_⟩
    apply SameFlags.set (flags₂.set _ _) <;> simp [consumerWord]
  · rename_i still
    obtain ⟨sample, hs, above, h₄'⟩ := named (Decidable.not_not.1 still)
    have last : ((f'.set (.slotReaderEpoch i) handle.roleEpoch).set (.slotState i)
        SlotState.reading.code) (consumerWord n .lastSequence) < sample.sequence := by
      simp only [consumerWord, Words.set_apply] at newer ⊢
      exact Nat.lt_of_lt_of_le newer above
    have check := h₄'.wp_checkClaimedSlot (q := q) handle operation flags₂ free (by simp) hs last
    apply Logic.wp_map check
    · exact fun loan s _ held => held
    · exact fun e s _ failed => failed

variable (handle operation) in
theorem wp_claimAttempt (stride : Nat) (hv : Reader n c none floor known f s)
    (free : LoanFree c) (epoch : f (.identity false .roleEpoch) = handle.roleEpoch) :
    q.logic.wp (.consumer n) (AttemptEnds n c f)
      (claimAttempt n handle operation stride) s := by
  apply hv.wp_aim
  intro ticket s₁ _ h₁ aims
  apply Access.wp_load (D := q.memory) rfl
  intro s₂ hr hi₂
  have h₂ := stable s₁ s₂ h₁ hr hi₂
  have last : q.memory.read (q.logic.world s₂) (consumerWord n .lastSequence) =
      f (consumerWord n .lastSequence) := h₂.words _ .own
  rw [last]
  split
  · refine h₂.wp_throw ?_
    exact fun s₃ _ h₃ => ⟨f, h₃.forget, .refl n f⟩
  · rename_i new
    have pending : s₂.pending = some (ticketSlot ticket) :=
      (hr.keeper h₁.keeper).pending.trans (aims fun hz => new (.inl hz))
    cases ho : slotByteOffset (ticketSlot ticket) stride with
    | none =>
        refine h₂.wp_throw ?_
        exact fun s₃ _ h₃ => ⟨f, h₃.forget, .refl n f⟩
    | some offset =>
        have hlt : ticketSlot ticket < slotCount := by
          simp only [slotByteOffset] at ho
          split at ho
          · cases ho
          · omega
        apply h₂.wp_claim pending hlt free
        · intro s₃ f' _ h₃ same
          have flags : SameFlags n f f' :=
            ⟨fun w _ _ => same _ .own, same _ (.registry rfl)⟩
          apply h₃.wp_readClaimedSlot flags free (flags.epoch.trans epoch)
          have own : f' (consumerWord n .lastSequence) = f (consumerWord n .lastSequence) :=
            same _ .own
          omega
        · intro s₃ _ h₃
          refine h₃.wp_ret ?_
          exact fun s₄ _ h₄ => ⟨f, h₄.forget, .refl n f⟩

theorem wp_claimLoop {stride attempts : Nat} (hv : Reader n c none floor known f' s)
    (flags : SameFlags n f f') (free : LoanFree c)
    (epoch : f (.identity false .roleEpoch) = handle.roleEpoch) :
    q.logic.wp (.consumer n) (ClaimEnds n c f)
      (claimLoop n handle operation stride attempts) s := by
  induction attempts generalizing s f' floor known with
  | zero =>
      refine hv.wp_throw ?_
      exact fun s₁ _ h₁ => ⟨f', h₁.forget, flags⟩
  | succ attempts ih =>
      have attempt := hv.wp_claimAttempt (q := q) handle operation stride free
        (flags.epoch.trans epoch)
      rw [claimLoop]
      apply Logic.wp_seq (Logic.wp_closed attempt)
      · intro claimed s₁ hi₁ closed
        cases claimed with
        | some loan =>
            intro s₂ hr hi₂
            obtain ⟨f'', sample, h₂, flags₂, rest⟩ := closed s₂ hr hi₂
            exact ⟨f'', sample, h₂, flags.trans flags₂, rest⟩
        | none =>
            obtain ⟨f'', h₁, flags₁⟩ := closed s₁ (rely_refl _ s₁) hi₁
            exact ih h₁ (flags.trans flags₁)
      · intro e s₁ hi₁ closed
        obtain ⟨f'', h₁, flags₁⟩ := closed s₁ (rely_refl _ s₁) hi₁
        exact ⟨f'', h₁, flags.trans flags₁⟩

theorem wp_claimLatestUnlocked (hv : Reader n c none floor known f s) (free : LoanFree c)
    (epoch : f (.identity false .roleEpoch) = handle.roleEpoch) :
    q.logic.wp (.consumer n) (ClaimEnds n c f)
      (claimLatestUnlocked n handle operation) s := by
  rw [claimLatestUnlocked]
  cases slotStride handle.payloadSize with
  | none =>
      refine hv.wp_throw ?_
      exact fun s₁ _ h₁ => ⟨f, h₁.forget, .refl n f⟩
  | some stride => exact hv.wp_claimLoop (.refl n f) free epoch

/-- The copy fills the buffer with the bytes of the held slot. -/
theorem wp_copyFrom {j size : Nat} {k : Unit → ChannelCode α}
    (hv : Reader n c (some i) floor known f s)
    (hk : ∀ s out, q.Inv s → Reader n (setOut c out) (some i) floor known f s →
      (∀ m, m < j → out m = c.out m) →
      (List.range' j size).map out =
        (List.range' j size).map (fun m => f (.slotPayload i m)) →
      q.logic.wp (.consumer n) Q (k ()) s) :
    q.logic.wp (.consumer n) Q (copyFrom (.slotPayload i) j size >>= k) s := by
  induction size generalizing j s c with
  | zero =>
      apply Logic.wp_intro
      intro s₁ hr hi
      exact hk s₁ c.out hi (stable s s₁ hv hr hi) (fun _ _ => rfl) rfl
  | succ size ih =>
      rw [copyFrom, Prog.bind_assoc]
      apply hv.wp_load (.data rfl rfl)
      intro s₁ _ h₁
      rw [Prog.bind_assoc]
      apply h₁.wp_copyOut
      intro s₂ _ h₂
      apply ih h₂
      intro s₃ out hi₃ h₃ before copied
      refine hk s₃ out hi₃ h₃ ?_ ?_
      · intro m hm
        rw [before m (by omega)]
        exact Function.update_of_ne (by omega) _ _
      · have first : out j = f (.slotPayload i j) := by
          rw [before j (by omega)]
          exact Function.update_self _ _ _
        rw [List.range'_succ, List.map_cons, List.map_cons, copied, first]

end Reader

/-- How a read may end: with the bytes of one committed sample, or with nothing. -/
def ReadEnds (n : Nat) (c : ChannelClient) (f : ChannelMem) (x : Except Error ReadSnapshot)
    (s : ChannelState) : Prop :=
  match x with
  | .ok snapshot => ∃ f' out sample, Reader n (Reader.setOut c out) none 0 (some sample) f' s ∧
      SameFlags n f f' ∧ Found n c f' snapshot sample ∧
      (List.range snapshot.encodedSize).map out = sample.payload
  | .error _ => Empty n c f s

theorem Reader.wp_tryReadLatestUnlocked {encodedCap : Nat}
    (hv : Reader n c none floor known f s) (free : LoanFree c)
    (epoch : f (.identity false .roleEpoch) = handle.roleEpoch) :
    q.logic.wp (.consumer n) (ReadEnds n c f)
      (tryReadLatestUnlocked n handle encodedCap) s := by
  apply Logic.wp_seq (hv.wp_claimLatestUnlocked free epoch)
  · intro loan s₁ _ holding
    obtain ⟨f', sample, h₁, flags, _, hs, found⟩ := holding
    split
    · apply h₁.wp_releaseAndThrow free flags
      exact fun s' _ empty => empty
    · apply h₁.wp_copyFrom
      intro s₂ out _ h₂ _ copied
      apply h₂.wp_slotReleaseRead free
      intro s₃ _ h₃
      refine h₃.wp_ret ?_
      intro s₄ _ h₄
      refine ⟨_, out, sample, h₄, ?_, ?_, ?_⟩
      · apply SameFlags.set (flags.set _ _) <;> simp [consumerWord]
      · refine ⟨found.sequence, found.bootNs, found.size, ?_, found.newer⟩
        simpa [consumerWord] using found.last
      · rw [← List.range_eq_range'] at copied
        rw [copied, found.size]
        exact hs.payload
  · exact fun e s₁ _ failed => failed

end ChannelSystem
end EdgeRuntime

import EdgeRuntime.Channel.Reads
import EdgeRuntime.Channel.WriterRules

/-!
The producer's programs. The search always finds a slot: of the three, the latest one is
skipped, the consumer can hold or claim at most one other, and nothing moves the third.
-/
namespace EdgeRuntime
open Concurrent

namespace ChannelSystem
variable {q : ChannelSystem} {s s' : ChannelState} {l : ChannelLoc} {i v : Nat}
  {c : ChannelClient} {h : List Sample} {staged : Option (Nat × Sample)}
  {claimed : Option Nat} {f : ChannelMem} {α : Type} {Q : Except Error α → ChannelState → Prop}

namespace Writer

/-- Look around, then go on or fail. -/
theorem wp_reads {β : Type} {p : ChannelCode β} {k : β → ChannelCode α}
    (hw : Writer c h staged claimed f s) (all : p.All Memory.Reads) (ends : p.Ends ChecksFail)
    (ok : ∀ a s, q.Inv s → Writer c h staged claimed f s → q.logic.wp .producer Q (k a) s)
    (err : ∀ e s, q.Inv s → FailsCheck e → Writer c h staged claimed f s →
      Q (.error e) s) : q.logic.wp .producer Q (p >>= k) s :=
  Access.wp_reads (D := q.memory) rfl all ends _ stable hw (fun a s hi _ => ok a s hi) err

theorem wp_looks {β : Type} {p : ChannelCode β} {k : β → ChannelCode α}
    (hw : Writer c h staged claimed f s) (looks : p.Looks Memory.Reads)
    (next : ∀ a s, q.Inv s → Writer c h staged claimed f s →
      q.logic.wp .producer Q (k a) s) :
    q.logic.wp .producer Q (p >>= k) s :=
  Access.wp_looks (D := q.memory) rfl looks _ stable hw next

theorem wp_futexWake {count : Nat} {k : Unit → ChannelCode α}
    (hw : Writer c h staged claimed f s)
    (hk : ∀ s, q.Inv s → Writer c h staged claimed f s → q.logic.wp .producer Q (k ()) s) :
    q.logic.wp .producer Q (futexWake .notifyEpoch count >>= k) s := by
  refine Logic.wp_op _ stable hw ?_
  intro s' hi hw' r w he
  obtain rfl : w = setFutex (s'.world.futex.wake .producer) s'.world := he
  obtain ⟨inv, guar⟩ := step_futex (t := .producer) _ hi
  refine ⟨_, rfl, inv, guar, hk _ inv ?_⟩
  exact ⟨hw'.alive, hw'.client, hw'.committed, hw'.staged, hw'.words, hw'.claimed⟩

theorem wp_copyIn {bytes : List Nat} {j : Nat} {k : Unit → ChannelCode α}
    (hw : Writer c h staged (some i) f s)
    (hk : ∀ s f', q.Inv s → Writer c h staged (some i) f' s →
      (∀ l, (∀ n, j ≤ n → l ≠ .slotPayload i n) → f' l = f l) →
      (List.range' j bytes.length).map (fun n => f' (.slotPayload i n)) = bytes →
      q.logic.wp .producer Q (k ()) s) :
    q.logic.wp .producer Q (copyIn (.slotPayload i) j bytes >>= k) s := by
  induction bytes generalizing j s f with
  | nil =>
      apply Logic.wp_intro
      intro s' hr hi
      exact hk s' f hi (stable s s' hw hr hi) (fun _ _ => rfl) rfl
  | cons b bytes ih =>
      rw [copyIn, Prog.bind_assoc]
      apply hw.wp_store_data rfl
      intro s₁ _ h₁
      apply ih h₁
      intro s₂ f' hi₂ h₂ same copied
      refine hk s₂ f' hi₂ h₂ ?_ ?_
      · intro l hl
        rw [same l fun n hn => hl n (by omega), Words.set_apply, if_neg (hl j (Nat.le_refl j))]
      · have first : f' (.slotPayload i j) = b := by
          rw [same _ fun n hn => by simp; omega, Words.set_apply, if_pos rfl]
        rw [List.length_cons, List.range'_succ, List.map_cons, copied, first]

/-- What the producer has done when a sample is announced. -/
def Announced (c : ChannelClient) (f : ChannelMem) (info : PublishInfo) (s : ChannelState) :
    Prop :=
  ∃ c' h f', Writer c' h none none f' s ∧
    (∀ w, f' (.handle .producer w) = f (.handle .producer w)) ∧
    c'.passed = c.passed ∧ c'.writeLoan = c.writeLoan ∧
    c'.ticketStores = c.ticketStores + 1 ∧
    ⟨info.sequence, info.publishBootNs, c.passed⟩ ∈ h

section
variable {sequence bootNs : Nat} {Q : Except Error PublishInfo → ChannelState → Prop}

theorem wp_announceSample {handle : ProducerHandle}
    (hw : Writer c h none (some i) f s) (hlt : i < slotCount)
    (hs : Holds f i ⟨sequence, bootNs, c.passed⟩) (fresh : sequence = h.length + 1)
    (room : sequence ≤ maxSampleSequence)
    (made : c.storedSequence = sequence ∧ c.storedBootNs = bootNs)
    (done : ∀ info s, q.Inv s → Announced c f info s → Q (.ok info) s) :
    q.logic.wp .producer Q (announceSample handle i sequence bootNs) s := by
  subst fresh
  apply hw.wp_publish hs rfl
  intro s₁ _ h₁
  apply h₁.wp_ticket hlt hs room (by rw [made.1, made.2])
  intro s₂ _ h₂
  apply h₂.wp_fetchAdd rfl (by simp)
  intro s₃ _ h₃
  apply h₃.wp_store rfl (by simp)
  intro s₄ _ h₄
  apply h₄.wp_fetchAdd rfl (by simp)
  intro s₅ _ h₅
  apply h₅.wp_futexWake
  intro s₆ _ h₆
  refine h₆.wp_ret ?_
  intro s₇ hi h₇
  refine done _ s₇ hi ⟨_, _, _, h₇, ?_, rfl, rfl, rfl, ?_⟩
  · intro w
    simp
  · exact List.mem_append_right _ (List.mem_singleton.2 rfl)

theorem wp_publishInto {handle : ProducerHandle} (hw : Writer c h none (some i) f s)
    (hlt : i < slotCount) (fresh : sequence = h.length + 1)
    (room : sequence ≤ maxSampleSequence)
    (done : ∀ info s, q.Inv s → Announced c f info s → Q (.ok info) s) :
    q.logic.wp .producer Q (publishInto handle i sequence bootNs c.passed) s := by
  apply hw.wp_store_data rfl
  intro s₁ _ h₁
  apply h₁.wp_store_data rfl
  intro s₂ _ h₂
  apply h₂.wp_store_data rfl
  intro s₃ _ h₃
  apply h₃.wp_copyIn
  intro s₄ f₄ _ h₄ same copied
  apply h₄.wp_store_data rfl
  intro s₅ _ h₅
  apply h₅.wp_announceSample hlt _ fresh room ⟨rfl, rfl⟩
  · intro info s₆ hi done₆
    obtain ⟨c', h', f', hw', handles, rest⟩ := done₆
    refine done info s₆ hi ⟨c', h', f', hw', ?_, rest⟩
    intro w
    rw [handles w, Words.set_apply, if_neg (by simp), same _ (by simp)]
    simp
  · constructor
    case sequence => rw [Words.set_apply, if_neg (by simp), same _ (by simp)]; simp
    case bootNs => rw [Words.set_apply, if_neg (by simp), same _ (by simp)]; simp [recordStore]
    case size => rw [Words.set_apply, if_neg (by simp), same _ (by simp)]; simp [recordStore]
    case payload =>
        rw [← List.range_eq_range'] at copied
        simp only [loanBytes, Words.set_apply]
        exact copied
    case checksum => rw [Words.set_apply, if_pos rfl]; rfl

end

/-- While the ticket stands, a consumer reaches no slot but `x` and the latest one. -/
def Clear (x : Nat) (s : ChannelState) : Prop :=
  s.pending = none ∨ s.pending = some x ∨
    (s.mem .latestTicket ≠ 0 ∧ s.pending = some (ticketSlot (s.mem .latestTicket)))

theorem clear_stable {x : Nat} : q.logic.Stable .producer (Clear x) := by
  intro s s' hc hr _
  have latest : s'.mem .latestTicket = s.mem .latestTicket := hr.words _ (.writer rfl rfl)
  simp only [Clear, latest]
  rcases (hr.writer rfl).pending with same | none | moved
  · rw [same]
    exact hc
  · exact .inl none
  · exact .inr (.inr moved)

/-- The slot the search can count on. -/
structure Spare (f : ChannelMem) (x j : Nat) : Prop where
  slot : j < slotCount
  other : j ≠ x
  old : f .latestTicket ≠ 0 → ticketSlot (f .latestTicket) ≠ j

theorem spare_usable {x j : Nat} (hw : Writer c h none none f s) (clear : Clear x s)
    (hi : q.Inv s) (spare : Spare f x j) :
    s.mem (.slotState j) = SlotState.free.code ∨
      s.mem (.slotState j) = SlotState.published.code := by
  have latest : s.mem .latestTicket = f .latestTicket := hw.words _ rfl
  have free : ¬ Held s.mem j := by
    intro hh
    have pending := hi.slots.hold j spare.slot hh
    rcases clear with hc | hc | ⟨hne, hc⟩
    · cases pending.symm.trans hc
    · cases pending.symm.trans hc
      exact spare.other rfl
    · rw [latest] at hne hc
      exact spare.old hne (Option.some.inj (hc.symm.trans pending))
  have bound := hi.slots.states j spare.slot
  have idle : s.mem (.slotState j) ≠ SlotState.writing.code := by
    intro hs
    cases (hw.claimed j).1 hs
  simp only [Held, HeldCode, SlotState.code] at *
  omega

theorem spare_kept {x j : Nat} (hw : Writer c h none none f s) (clear : Clear x s)
    (hr : q.logic.rely .producer s s') (hi : q.Inv s) (hi' : q.Inv s') (spare : Spare f x j) :
    s'.mem (.slotState j) = s.mem (.slotState j) := by
  have usable := spare_usable hw clear hi spare
  have usable' := spare_usable (stable s s' hw hr hi') (clear_stable s s' clear hr hi') hi' spare
  by_cases hread : Readable s.mem j
  · have hread' := (hr.writer rfl).readable j hread
    simp only [Readable, ReadableCode, HeldCode, SlotState.code] at *
    omega
  · exact hr.words _ (.unread rfl hread)

theorem wp_claimWritableSlot {x stride currentSlot : Nat} {rest : List Nat}
    (hw : Writer c h none none f s) (clear : Clear x s)
    (offsets : ∀ i, i < slotCount → ∃ o, slotByteOffset i stride = some o)
    (current : currentSlot =
      if f .latestTicket = 0 then invalidSlot else ticketSlot (f .latestTicket))
    (slots : ∀ i ∈ rest, i < slotCount) (spare : ∃ j ∈ rest, Spare f x j) :
    q.logic.wp .producer
      (fun r s => ∃ i, r = .ok (some i) ∧ i < slotCount ∧ Writer c h none (some i) f s)
      (claimWritableSlot currentSlot stride rest) s := by
  induction rest generalizing s with
  | nil =>
      obtain ⟨j, hj, _⟩ := spare
      cases hj
  | cons i rest ih =>
      have hlt := slots i (List.mem_cons_self ..)
      have slots' : ∀ i ∈ rest, i < slotCount := fun i hi => slots i (List.mem_cons_of_mem _ hi)
      -- every way to the next slot comes with a reason why this one is not the spare one
      have go : ∀ s, Writer c h none none f s → Clear x s → (¬ Spare f x i) →
          q.logic.wp .producer (fun r s => ∃ i, r = .ok (some i) ∧ i < slotCount ∧
            Writer c h none (some i) f s) (claimWritableSlot currentSlot stride rest) s := by
        intro s hw clear hne
        obtain ⟨j, hj, hs⟩ := spare
        refine ih hw clear slots' ⟨j, ?_, hs⟩
        rcases List.mem_cons.1 hj with he | he
        · exact (hne (he ▸ hs)).elim
        · exact he
      rw [claimWritableSlot]
      by_cases hc : i = currentSlot
      · rw [if_pos hc]
        apply go s hw clear
        intro hs
        rw [current] at hc
        split at hc
        · simp only [hc, invalidSlot, slotCount] at hlt
          omega
        · rename_i hne
          exact hs.old hne hc.symm
      · rw [if_neg hc]
        have old : f .latestTicket ≠ 0 → ticketSlot (f .latestTicket) ≠ i := by
          intro hne he
          rw [current, if_neg hne] at hc
          exact hc he.symm
        obtain ⟨o, ho⟩ := offsets i hlt
        rw [ho]
        apply Access.wp_load (D := q.memory) rfl
        intro s₁ hr₁ hi₁
        have h₁ := stable s s₁ hw hr₁ hi₁
        have clear₁ := clear_stable s s₁ clear hr₁ hi₁
        change q.logic.wp .producer _
          (if s₁.mem (.slotState i) ≠ _ ∧ s₁.mem (.slotState i) ≠ _ then _ else _) s₁
        split
        · rename_i busy
          apply go s₁ h₁ clear₁
          intro hs
          exact (spare_usable h₁ clear₁ hi₁ hs).elim busy.1 busy.2
        · rename_i quiet
          have usable : s₁.mem (.slotState i) = SlotState.free.code ∨
              s₁.mem (.slotState i) = SlotState.published.code := by omega
          apply h₁.wp_claim usable old
          · intro s₂ _ h₂
            refine h₂.wp_ret ?_
            exact fun s₃ _ h₃ => ⟨i, rfl, hlt, h₃⟩
          · intro s₂ hr₂ hi₂ changed
            apply go s₂ (stable s₁ s₂ h₁ hr₂ hi₂) (clear_stable s₁ s₂ clear₁ hr₂ hi₂)
            exact fun hs => changed (spare_kept h₁ clear₁ hr₂ hi₁ hi₂ hs)

end Writer

/-- The layout of a created channel has room for every slot. -/
theorem slotByteOffset_some (q : ChannelSystem) :
    ∃ stride, slotStride q.payloadSize = some stride ∧
      ∀ i, i < slotCount → ∃ o, slotByteOffset i stride = some o := by
  have fits := q.mapping_eq
  simp only [mappingSizeForPayload, Option.bind_eq_bind, Option.bind_eq_some_iff,
    slotCount] at fits
  obtain ⟨stride, hs, total, ht, ha⟩ := fits
  refine ⟨stride, hs, ?_⟩
  intro i hlt
  simp only [checkedMulU64] at ht
  split at ht
  · cases ht
  · cases ht
    obtain ⟨_, bound⟩ := checkedAddU64_some (by simp [firstSlotOffset, uint64Max]) ha
    have small : i * stride ≤ 3 * stride := Nat.mul_le_mul_right stride (Nat.le_of_lt hlt)
    have offset : checkedMulU64 i stride = some (i * stride) := by
      rw [checkedMulU64, if_neg]
      rintro ⟨hi, hgt⟩
      have := (Nat.div_lt_iff_lt_mul (Nat.pos_of_ne_zero hi)).1 hgt
      rw [Nat.mul_comm] at this
      omega
    refine ⟨firstSlotOffset + i * stride, ?_⟩
    simp only [slotByteOffset, if_neg (Nat.not_le.2 hlt), offset, Option.bind_eq_bind,
      Option.bind_some]
    exact checkedAddU64_of_le (by omega)

theorem exists_spare (f : ChannelMem) (x : Nat) :
    ∃ j ∈ List.range slotCount, Writer.Spare f x j := by
  have spare : ∀ y, ∃ j, j < 3 ∧ j ≠ x ∧ y ≠ j := by
    intro y
    by_cases h₀ : 0 ≠ x ∧ y ≠ 0
    · exact ⟨0, by omega, h₀⟩
    · by_cases h₁ : 1 ≠ x ∧ y ≠ 1
      · exact ⟨1, by omega, h₁⟩
      · exact ⟨2, by omega, by omega⟩
  obtain ⟨j, hlt, hx, hy⟩ := spare (ticketSlot (f .latestTicket))
  exact ⟨j, List.mem_range.2 hlt, hlt, hx, fun _ => hy⟩

namespace Writer

theorem wp_findWritableSlot {operation : String} {k : Nat → ChannelCode α}
    (hw : Writer c h none none f s)
    (hk : ∀ i s, q.Inv s → i < slotCount → Writer c h none (some i) f s →
      q.logic.wp .producer Q (k i) s) :
    q.logic.wp .producer Q
      (findWritableSlot q.producerHandle operation (f .latestTicket) >>= k) s := by
  obtain ⟨stride, hs, offsets⟩ := slotByteOffset_some q
  have clear : Clear (s.pending.getD 0) s := by
    cases hp : s.pending with
    | none => exact .inl hp
    | some x => exact .inr (.inl hp)
  have search := hw.wp_claimWritableSlot (q := q) clear offsets rfl
    (fun i (hi : i ∈ List.range slotCount) => List.mem_range.1 hi) (exists_spare f _)
  simp only [findWritableSlot, producerHandle, hs, Prog.bind_assoc]
  apply Logic.wp_seq search
  · intro chosen s₁ hi₁ post
    obtain ⟨i, he, hlt, h₁⟩ := post
    cases he
    exact hk i s₁ hi₁ hlt h₁
  · intro e s₁ _ post
    obtain ⟨i, he, _⟩ := post
    cases he

/-- How a publish ends: announced, or refused with nothing done. -/
def PublishEnds (c : ChannelClient) (h : List Sample) (claimed : Option Nat)
    (f : ChannelMem) (x : Except Error PublishInfo) (s : ChannelState) : Prop :=
  match x with
  | .ok info => Announced c f info s
  | .error e => FailsCheck e ∧ Writer c h none claimed f s

theorem checkedNextSequence_some (hw : Writer c h staged claimed f s) (hi : q.Inv s)
    {next : Nat} (hn : checkedNextSequence (f .latestTicket) = some next) :
    next = h.length + 1 ∧ next ≤ maxSampleSequence := by
  have latest := hw.words .latestTicket rfl
  have committed := hw.committed
  have sequence : ticketSequence (f .latestTicket) = h.length := by
    rcases hi.slots.latest with ⟨hz, hc⟩ | ⟨i, _, _, hm, _, _⟩
    · rw [← latest, hz, ← committed, hc]
      rfl
    · rw [← latest, hm, ticketSequence_makeTicket hi.slots.bounded, committed]
  simp only [checkedNextSequence, sequence] at hn
  split at hn
  · cases hn
  · cases hn
    exact ⟨rfl, by omega⟩

theorem wp_publishUnlocked {header : ChannelHeaderAbi} {encoded : List Nat}
    (hw : Writer c h none none f s) (passed : c.passed = encoded) :
    q.logic.wp .producer (PublishEnds c h none f)
      (publishUnlocked header q.producerHandle encoded) s := by
  subst passed
  rw [publishUnlocked]
  split
  · refine hw.wp_throw ?_
    exact fun s' _ h' => ⟨failsCheck_makeError _ _ (by decide), h'⟩
  · apply hw.wp_reads reads_verifyHandleOwnership ends_verifyHandleOwnership
    · intro _ s₁ _ h₁
      apply h₁.wp_load rfl
      intro s₂ hi₂ h₂
      cases hn : checkedNextSequence (f .latestTicket) with
      | none =>
          refine h₂.wp_throw ?_
          exact fun s' _ h' => ⟨failsCheck_makeError _ _ (by decide), h'⟩
      | some next =>
          obtain ⟨fresh, room⟩ := h₂.checkedNextSequence_some hi₂ hn
          apply h₂.wp_looks looks_boottimeNowNs
          intro now s₃ _ h₃
          split
          · refine h₃.wp_throw ?_
            exact fun s' _ h' => ⟨failsCheck_makeError _ _ (by decide), h'⟩
          · apply h₃.wp_findWritableSlot
            intro i s₄ _ hlt h₄
            apply h₄.wp_publishInto hlt fresh room
            exact fun info s₅ _ announced => announced
    · exact fun e s₁ _ he h₁ => ⟨he, h₁⟩

theorem wp_loanUnlocked {header : ChannelHeaderAbi} (hw : Writer c h none none f s) :
    q.logic.wp .producer
      (fun x s => match x with
        | .ok loan => loan.slotIndex < slotCount ∧ loan.sequence = h.length + 1 ∧
            loan.sequence ≤ maxSampleSequence ∧ Writer c h none (some loan.slotIndex) f s
        | .error e => FailsCheck e ∧ Writer c h none none f s)
      (loanUnlocked header q.producerHandle) s := by
  rw [loanUnlocked]
  apply hw.wp_reads reads_verifyHandleOwnership ends_verifyHandleOwnership
  · intro _ s₁ _ h₁
    apply h₁.wp_load rfl
    intro s₂ hi₂ h₂
    cases hn : checkedNextSequence (f .latestTicket) with
    | none =>
        refine h₂.wp_throw ?_
        exact fun s' _ h' => ⟨failsCheck_makeError _ _ (by decide), h'⟩
    | some next =>
        obtain ⟨fresh, room⟩ := h₂.checkedNextSequence_some hi₂ hn
        apply h₂.wp_findWritableSlot
        intro i s₃ _ hlt h₃
        refine h₃.wp_ret ?_
        exact fun s₄ _ h₄ => ⟨hlt, fresh, room, h₄⟩
  · exact fun e s₁ _ he h₁ => ⟨he, h₁⟩

theorem wp_commitUnlocked (header : ChannelHeaderAbi) (handle : ProducerHandle)
    {loan : WriteLoan} (hw : Writer c h none (some loan.slotIndex) f s)
    (hlt : loan.slotIndex < slotCount) (fresh : loan.sequence = h.length + 1)
    (room : loan.sequence ≤ maxSampleSequence)
    (passed : c.passed = loanBytes f loan.slotIndex loan.size) :
    q.logic.wp .producer (PublishEnds c h (some loan.slotIndex) f)
      (commitUnlocked header handle loan) s := by
  rw [commitUnlocked]
  apply hw.wp_reads reads_verifyHandleOwnership ends_verifyHandleOwnership
  · intro _ s₁ _ h₁
    apply h₁.wp_looks looks_boottimeNowNs
    intro now s₂ _ h₂
    split
    · refine h₂.wp_throw ?_
      exact fun s' _ h' => ⟨failsCheck_makeError _ _ (by decide), h'⟩
    · apply wp_fnv1a64Shared (D := q.memory) (fun j => f (.slotPayload loan.slotIndex j)) rfl stable
        (fun s hw j => hw.words _ rfl) h₂
      intro s₃ _ h₃
      apply h₃.wp_store_data rfl
      intro s₄ _ h₄
      apply h₄.wp_store_data rfl
      intro s₅ _ h₅
      apply h₅.wp_store_data rfl
      intro s₆ _ h₆
      apply h₆.wp_store_data rfl
      intro s₇ _ h₇
      apply h₇.wp_announceSample hlt _ fresh room ⟨rfl, rfl⟩
      · intro info s₈ _ announced
        obtain ⟨c', h', f', hw', handles, rest⟩ := announced
        refine ⟨c', h', f', hw', ?_, rest⟩
        intro w
        rw [handles w]
        simp
      · have length : c.passed.length = loan.size := by rw [passed]; simp [loanBytes]
        constructor
        case sequence => simp
        case bootNs => simp [recordStore]
        case size => simp [recordStore, length]
        case payload =>
            simp only [recordStore, length, loanBytes, Words.set_apply]
            exact passed.symm
        case checksum =>
            simp only [Words.set_apply, recordStore, passed]
            rfl
  · exact fun e s₁ _ he h₁ => ⟨he, h₁⟩

end Writer
end ChannelSystem
end EdgeRuntime

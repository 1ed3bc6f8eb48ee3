import EdgeRuntime.Channel.CallSteps

/-!
What the producer knows while it runs, and one rule for each of its accesses. It knows
its own words, every sample and the history exactly; of the slot states it knows which
one it is writing.
-/
namespace EdgeRuntime
open Concurrent

/-- The words whose contents the producer knows. -/
def ChannelLoc.isWriterWord (l : ChannelLoc) : Bool := l.isProducerWord || l.dataSlot?.isSome

namespace ChannelSystem
variable {q : ChannelSystem} {s s' : ChannelState} {l : ChannelLoc} {i v : Nat}
  {c : ChannelClient} {h : List Sample} {staged : Option (Nat × Sample)}
  {claimed : Option Nat} {f : ChannelMem} {α : Type} {Q : Except Error α → ChannelState → Prop}

structure Writer (c : ChannelClient) (h : List Sample) (staged : Option (Nat × Sample))
    (claimed : Option Nat) (f : ChannelMem) (s : ChannelState) : Prop where
  alive : s.world.crashed .producer = false
  client : s.world.client .producer = c
  committed : s.world.committed = h
  staged : s.staged = staged
  words : ∀ l, l.isWriterWord = true → s.mem l = f l
  claimed : ∀ i, s.mem (.slotState i) = SlotState.writing.code ↔ claimed = some i

theorem fixed_writer (hl : l.isWriterWord = true) : Fixed .producer s l := by
  simp only [ChannelLoc.isWriterWord, Bool.or_eq_true] at hl
  rcases hl with hp | hd
  · exact .writer rfl hp
  · obtain ⟨i, hi⟩ := Option.isSome_iff_exists.1 hd
    exact .data rfl hi

theorem isProducerWord_disjoint (hl : l.isProducerWord = true) :
    l.isConsumerWord = false ∧ l.dataSlot? = none := by
  cases l with
  | identity b w =>
      cases b with
      | false => cases hl
      | true => exact ⟨rfl, rfl⟩
  | bootInitState | initState | producerState | latestTicket | notifyEpoch | publishCount
  | lastPublishBootNs | heartbeatBootNs | handle => exact ⟨rfl, rfl⟩
  | consumerState | readCount | slotState | slotPayloadSize | slotSequence
  | slotPublishBootNs | slotChecksum | slotReaderEpoch | slotPayload => cases hl

/-- For a reader the producer's words are free. -/
theorem not_fixed_producer {u : Endpoint} (hne : u ≠ .producer)
    (hl : l.isProducerWord = true) : ¬ Fixed u s l := by
  intro hf
  cases hf with
  | own =>
      cases u with
      | producer => exact hne rfl
      | consumer n => cases hl
  | writer role | data role | unread role => exact hne role
  | registry _ word =>
      rw [(isProducerWord_disjoint hl).1] at word
      cases word
  | identity | heldState => cases hl
  | heldData _ _ word =>
      rw [(isProducerWord_disjoint hl).2] at word
      cases word

theorem not_fixed_data {u : Endpoint} (hne : u ≠ .producer) (hl : l.dataSlot? = some i)
    (free : ¬ Held s.mem i) : ¬ Fixed u s l := by
  intro hf
  cases hf with
  | own | identity | heldState | unread => cases hl
  | writer role | data role => exact hne role
  | registry _ word => rw [ChannelLoc.dataSlot?_of_isConsumerWord word] at hl; cases hl
  | heldData _ held word =>
      rw [hl] at word
      cases word
      exact free held

theorem not_fixed_state {u : Endpoint} (hne : u ≠ .producer) (free : ¬ Held s.mem i) :
    ¬ Fixed u s (.slotState i) := by
  intro hf
  cases hf with
  | writer role | data role | unread role => exact hne role
  | registry _ word | heldData _ _ word => cases word
  | heldState _ held => exact free held

namespace Writer

theorem stable : q.logic.Stable .producer (Writer c h staged claimed f) := by
  intro s s' hw hr _
  have writer := hr.writer rfl
  constructor
  case alive => exact hr.crashed.trans hw.alive
  case client => exact hr.client.trans hw.client
  case committed => exact writer.committed.trans hw.committed
  case staged => exact writer.staged.trans hw.staged
  case words => exact fun l hl => (hr.words l (fixed_writer hl)).trans (hw.words l hl)
  case claimed =>
      -- a readable slot stays readable, and any other state is the producer's
      intro i
      rw [← hw.claimed i]
      by_cases hread : Readable s.mem i
      · constructor
        · intro hs
          exact (not_readable_writing hs (writer.readable i hread)).elim
        · intro hs
          exact (not_readable_writing hs hread).elim
      · rw [hr.words _ (.unread rfl hread)]

theorem writing (hw : Writer c h staged (some i) f s) : ¬ Readable s.mem i :=
  not_readable_writing ((hw.claimed i).2 rfl)

theorem holds {sample : Sample} (hw : Writer c h staged claimed f s)
    (hs : Holds f i sample) : Holds s.mem i sample := by
  apply holds_congr _ hs
  intro l hl
  apply hw.words
  simp [ChannelLoc.isWriterWord, hl]

theorem wp_ret {a : α} (hw : Writer c h staged claimed f s)
    (post : ∀ s, q.Inv s → Writer c h staged claimed f s → Q (.ok a) s) :
    q.logic.wp .producer Q (.ret a) s :=
  Logic.wp_ret _ stable hw post

theorem wp_throw {e : Error} (hw : Writer c h staged claimed f s)
    (post : ∀ s, q.Inv s → Writer c h staged claimed f s → Q (.error e) s) :
    q.logic.wp .producer Q (.throw e) s :=
  Logic.wp_throw _ stable hw post

theorem wp_load {k : Nat → ChannelCode α} (hw : Writer c h staged claimed f s)
    (hl : l.isWriterWord = true)
    (hk : ∀ s, q.Inv s → Writer c h staged claimed f s →
      q.logic.wp .producer Q (k (f l)) s) :
    q.logic.wp .producer Q (sharedLoad l >>= k) s := by
  apply Access.wp_load (D := q.memory) rfl
  intro s' hr hi
  have hw' := stable s s' hw hr hi
  have value : q.memory.read (q.logic.world s') l = f l := hw'.words l hl
  rw [value]
  exact hk s' hi hw'

theorem isPlain_of_producer (hl : l.isProducerWord = true) (ticket : l ≠ .latestTicket) :
    IsPlain l := by
  refine ⟨?_, (isProducerWord_disjoint hl).1, ?_⟩
  · cases l with
    | latestTicket => exact (ticket rfl).elim
    | slotState | slotPayloadSize | slotSequence | slotPublishBootNs | slotChecksum
    | slotPayload => cases hl
    | _ => rfl
  · intro n he
    rw [he] at hl
    cases hl

/-- What the producer knows after one of its stores, apart from slot states. -/
theorem store_words (hw : Writer c h staged claimed f s) (ticket : l ≠ .latestTicket)
    (state : ∀ i, l ≠ .slotState i) :
    Writer (recordStore l v c) h staged claimed (f.set l v) (store .producer l v s) where
  alive := hw.alive
  client := by rw [store_client_self, hw.client]
  committed := by rw [store_committed ticket, hw.committed]
  staged := hw.staged
  words l' hl' := by
    rw [store_mem, Words.set_apply, Words.set_apply, hw.words l' hl']
  claimed i := by
    rw [store_mem, Words.set_apply, if_neg (Ne.symm (state i))]
    exact hw.claimed i

theorem recordStore_producer (hl : l.isProducerWord = true) (ticket : l ≠ .latestTicket) :
    recordStore l v c = c := by
  cases l with
  | latestTicket => exact (ticket rfl).elim
  | slotSequence | slotPublishBootNs => cases hl
  | _ => rfl

theorem guar_plain (hl : l.isProducerWord = true) (ticket : l ≠ .latestTicket) :
    q.logic.guar .producer s (store .producer l v s) := by
  apply guar_store ticket
  · exact fun u hne => not_fixed_producer hne hl
  · intro u _ _ i he
    rw [he] at hl
    cases hl
  · exact fun hne => (hne rfl).elim
  · intro i hd
    rw [(isProducerWord_disjoint hl).2] at hd
    cases hd

/-- One of the producer's own words. -/
theorem step_plain (hw : Writer c h staged claimed f s) (hi : q.Inv s)
    (hl : l.isProducerWord = true) (ticket : l ≠ .latestTicket) :
    q.Inv (store .producer l v s) ∧
      q.logic.guar .producer s (store .producer l v s) ∧
      Writer c h staged claimed (f.set l v) (store .producer l v s) := by
  refine ⟨inv_store_plain hi (isPlain_of_producer hl ticket), guar_plain hl ticket, ?_⟩
  have next := hw.store_words (v := v) ticket (by
    intro i he
    rw [he] at hl
    cases hl)
  rw [recordStore_producer hl ticket] at next
  exact next

theorem wp_store {k : Unit → ChannelCode α} (hw : Writer c h staged claimed f s)
    (hl : l.isProducerWord = true) (ticket : l ≠ .latestTicket)
    (hk : ∀ s, q.Inv s → Writer c h staged claimed (f.set l v) s →
      q.logic.wp .producer Q (k ()) s) :
    q.logic.wp .producer Q (sharedStore l v >>= k) s := by
  apply Access.wp_store (D := q.memory) rfl
  intro s' hr hi
  obtain ⟨inv, guar, next⟩ := (stable s s' hw hr hi).step_plain (v := v) hi hl ticket
  exact ⟨_, rfl, inv, guar, hk _ inv next⟩

theorem wp_fetchAdd {n bits : Nat} {k : Nat → ChannelCode α}
    (hw : Writer c h staged claimed f s)
    (hl : l.isProducerWord = true) (ticket : l ≠ .latestTicket)
    (hk : ∀ s, q.Inv s → Writer c h staged claimed (f.set l ((f l + n) % 2 ^ bits)) s →
      q.logic.wp .producer Q (k (f l)) s) :
    q.logic.wp .producer Q (sharedFetchAdd l n bits >>= k) s := by
  apply Access.wp_fetchAdd (D := q.memory) rfl
  intro s' hr hi
  have hw' := stable s s' hw hr hi
  have value : q.memory.read (q.logic.world s') l = f l :=
    hw'.words l (by simp [ChannelLoc.isWriterWord, hl])
  obtain ⟨inv, guar, next⟩ := hw'.step_plain (v := (f l + n) % 2 ^ bits) hi hl ticket
  rw [value]
  exact ⟨_, rfl, inv, guar, hk _ inv next⟩

theorem wp_cas {expected desired : Nat} {k : Bool → ChannelCode α}
    (hw : Writer c h staged claimed f s)
    (hl : l.isProducerWord = true) (ticket : l ≠ .latestTicket)
    (swaps : f l = expected → ∀ s, q.Inv s →
      Writer c h staged claimed (f.set l desired) s → q.logic.wp .producer Q (k true) s)
    (fails : f l ≠ expected → ∀ s, q.Inv s → Writer c h staged claimed f s →
      q.logic.wp .producer Q (k false) s) :
    q.logic.wp .producer Q (sharedCas l expected desired >>= k) s := by
  have value : ∀ s', q.logic.rely .producer s s' → q.Inv s' →
      q.memory.read (q.logic.world s') l = f l := fun s' hr hi =>
    (stable s s' hw hr hi).words l (by simp [ChannelLoc.isWriterWord, hl])
  apply Access.wp_cas (D := q.memory) rfl
  · intro s' hr hi hv
    obtain ⟨inv, guar, next⟩ := (stable s s' hw hr hi).step_plain (v := desired) hi hl ticket
    exact ⟨_, rfl, inv, guar, swaps ((value s' hr hi).symm.trans hv) _ inv next⟩
  · intro s' hr hi hv
    refine fails ?_ s' hi (stable s s' hw hr hi)
    exact fun he => hv ((value s' hr hi).trans he)

/-- A word of the sample being written. -/
theorem wp_store_data {k : Unit → ChannelCode α} (hw : Writer c h staged (some i) f s)
    (hl : l.dataSlot? = some i)
    (hk : ∀ s, q.Inv s → Writer (recordStore l v c) h staged (some i) (f.set l v) s →
      q.logic.wp .producer Q (k ()) s) :
    q.logic.wp .producer Q (sharedStore l v >>= k) s := by
  apply Access.wp_store (D := q.memory) rfl
  intro s' hr hi
  have hw' := stable s s' hw hr hi
  have free := not_held_of_not_readable hw'.writing
  have ticket : l ≠ .latestTicket := by
    intro he
    rw [he] at hl
    cases hl
  have state : ∀ j, l ≠ .slotState j := by
    intro j he
    rw [he] at hl
    cases hl
  refine ⟨store .producer l v s', rfl, inv_store_data hi hl hw'.writing, ?_, ?_⟩
  · apply guar_store ticket
    · exact fun u hne => not_fixed_data hne hl free
    · exact fun u _ _ j he => (state j he).elim
    · exact fun hne => (hne rfl).elim
    · intro j hj
      rw [hl] at hj
      cases hj
      exact free
  · exact hk _ (inv_store_data hi hl hw'.writing) (hw'.store_words ticket state)

/-- What the producer knows after it changed the state of a slot. -/
theorem store_state {claimed' : Option Nat} (hw : Writer c h staged claimed f s)
    (state : ∀ j, (if j = i then v else s.mem (.slotState j)) = SlotState.writing.code ↔
      claimed' = some j) :
    Writer c h staged claimed' f (store .producer (.slotState i) v s) where
  alive := hw.alive
  client := by
    rw [store_client_self, hw.client]
    rfl
  committed := by rw [store_committed (by simp), hw.committed]
  staged := hw.staged
  words l' hl' := by
    rw [store_mem, Words.set_apply, if_neg, hw.words l' hl']
    intro he
    rw [he] at hl'
    cases hl'
  claimed j := by
    rw [store_mem, Words.set_apply, ← state j]
    simp only [ChannelLoc.slotState.injEq]

/-- The slot being written gets another state. -/
theorem store_written (hw : Writer c h staged (some i) f s) (hv : v ≠ SlotState.writing.code) :
    Writer c h staged none f (store .producer (.slotState i) v s) := by
  apply hw.store_state
  intro j
  split
  · simp [hv]
  · rename_i hne
    simp [hw.claimed j, Ne.symm hne]

theorem stage (hw : Writer c h staged claimed f s) (staged' : Option (Nat × Sample)) :
    Writer c h staged' claimed f (s.stage staged') :=
  ⟨hw.alive, hw.client, hw.committed, rfl, hw.words, hw.claimed⟩

theorem guar_state (free : ¬ Held s.mem i) (hv : ¬ HeldCode v) :
    q.logic.guar .producer s (store .producer (.slotState i) v s) := by
  apply guar_store (by simp)
  · exact fun u hne => not_fixed_state hne free
  · exact fun _ _ _ _ _ => hv
  · exact fun hne => (hne rfl).elim
  · intro j hd
    cases hd

/-- Claim a slot that was seen FREE or PUBLISHED and is not the latest one. -/
theorem wp_claim {observed : Nat} {k : Bool → ChannelCode α} (hw : Writer c h none none f s)
    (usable : observed = SlotState.free.code ∨ observed = SlotState.published.code)
    (latest : f .latestTicket ≠ 0 → ticketSlot (f .latestTicket) ≠ i)
    (swaps : ∀ s, q.Inv s → Writer c h none (some i) f s → q.logic.wp .producer Q (k true) s)
    (fails : ∀ s', q.logic.rely .producer s s' → q.Inv s' →
      s'.mem (.slotState i) ≠ observed → q.logic.wp .producer Q (k false) s') :
    q.logic.wp .producer Q (slotClaimWritable i observed >>= k) s := by
  apply Access.wp_cas (D := q.memory) rfl
  · intro s' hr hi hv
    have hw' := stable s s' hw hr hi
    have hv : s'.mem (.slotState i) = observed := hv
    have free : ¬ Held s'.mem i := by
      rcases usable with ho | ho <;> simp [Held, HeldCode, hv, ho, SlotState.code]
    have inv : q.Inv (store .producer (.slotState i) SlotState.writing.code s') := by
      apply inv_store_unreadable hi hw'.staged (by simp [SlotState.code]) free
      rw [hw'.words .latestTicket rfl]
      exact latest
    refine ⟨_, rfl, inv, guar_state free (by simp [HeldCode, SlotState.code]), ?_⟩
    apply swaps _ inv
    apply hw'.store_state
    intro j
    split
    · simp [*]
    · rename_i hne
      simp [hw'.claimed j, Ne.symm hne]
  · exact fails

/-- Give up the slot being written. -/
theorem wp_abort {k : Unit → ChannelCode α} (hw : Writer c h none (some i) f s)
    (hk : ∀ s, q.Inv s → Writer c h none none f s → q.logic.wp .producer Q (k ()) s) :
    q.logic.wp .producer Q (slotAbortWrite i >>= k) s := by
  apply Access.wp_store (D := q.memory) rfl
  intro s' hr hi
  have hw' := stable s s' hw hr hi
  have free := not_held_of_not_readable hw'.writing
  have inv : q.Inv (store .producer (.slotState i) SlotState.free.code s') := by
    apply inv_store_unreadable hi hw'.staged (by simp [SlotState.code]) free
    intro hne he
    rcases hi.slots.latest with ⟨hz, _⟩ | ⟨j, hj, _, hm, hread, _⟩
    · exact hne hz
    · rw [hm, ticketSlot_makeTicket hj] at he
      exact hw'.writing (he ▸ hread)
  refine ⟨_, rfl, inv, guar_state free (by simp [HeldCode, SlotState.code]), ?_⟩
  exact hk _ inv (hw'.store_written (by simp [SlotState.code]))

/-- Publish the slot being written: its sample is staged. -/
theorem wp_publish {sample : Sample} {k : Unit → ChannelCode α}
    (hw : Writer c h none (some i) f s) (hs : Holds f i sample)
    (fresh : sample.sequence = h.length + 1)
    (hk : ∀ s, q.Inv s → Writer c h (some (i, sample)) none f s →
      q.logic.wp .producer Q (k ()) s) :
    q.logic.wp .producer Q (slotPublish i >>= k) s := by
  apply Access.wp_store (D := q.memory) rfl
  intro s' hr hi
  have hw' := stable s s' hw hr hi
  have free := not_held_of_not_readable hw'.writing
  have inv := inv_store_published (t := .producer) hi hw'.staged hw'.writing (hw'.holds hs)
    (by rw [hw'.committed]; exact fresh)
  refine ⟨_, rfl, inv, guar_stage (guar_state free (by simp [HeldCode, SlotState.code])), ?_⟩
  exact hk _ inv ((hw'.store_written (by simp [SlotState.code])).stage _)

theorem guar_ticket : q.logic.guar .producer s (store .producer .latestTicket v s) := by
  have same : ∀ l', l' ≠ .latestTicket → (store .producer .latestTicket v s).mem l' =
      s.mem l' := by
    intro l' hne
    simp [hne]
  constructor
  · intro u hne
    constructor
    case crashed => rfl
    case client => exact store_client_other hne
    case committed =>
        simp [store, write]
    case seen =>
        intro x hx
        simp [store, write, hx]
    case lock => exact fun hl => hl
    case words =>
        intro l' hf
        apply same
        intro he
        rw [he] at hf
        exact not_fixed_producer hne rfl hf
    case keeper =>
        intro hk
        refine ⟨hk, rfl, rfl, ?_, ?_⟩
        · intro j hj
          simpa only [Held, same (.slotState j) (by simp)] using hj
        · intro n h hs
          simp only [store_client_handle] at hs
          exact hs
    case writer => exact fun hw => (hne hw).elim
  · intro j l' _ hd
    apply same
    intro he
    rw [he] at hd
    cases hd

/-- Commit the staged sample by the store of its ticket. -/
theorem wp_ticket {sample : Sample} {k : Unit → ChannelCode α}
    (hw : Writer c h (some (i, sample)) none f s) (hlt : i < slotCount)
    (hs : Holds f i sample) (room : h.length + 1 ≤ maxSampleSequence)
    (made : ⟨c.storedSequence, c.storedBootNs, c.passed⟩ = sample)
    (hk : ∀ s, q.Inv s → Writer (recordStore .latestTicket 0 c) (h ++ [sample]) none none
      (f.set .latestTicket (makeTicket (h.length + 1) i)) s →
      q.logic.wp .producer Q (k ()) s) :
    q.logic.wp .producer Q
      (sharedStore .latestTicket (makeTicket (h.length + 1) i) >>= k) s := by
  apply Access.wp_store (D := q.memory) rfl
  intro s' hr hi
  have hw' := stable s s' hw hr hi
  have inv := inv_store_ticket hi hw'.staged hlt (hw'.holds hs) (by rw [hw'.committed]; exact room)
    (by rw [hw'.client]; exact made)
  rw [hw'.committed] at inv
  refine ⟨_, rfl, inv, guar_stage guar_ticket, ?_⟩
  apply hk _ inv
  constructor
  case alive => exact hw'.alive
  case client =>
      rw [ChannelState.stage_world, store_client_self, hw'.client]
      rfl
  case committed =>
      have hc : s'.world.client .producer = c := hw'.client
      simp [store, write, hw'.committed, hc, made]
  case staged => rfl
  case words =>
      intro l' hl'
      rw [ChannelState.stage_mem, store_mem, Words.set_apply, Words.set_apply,
        hw'.words l' hl']
  case claimed =>
      intro j
      rw [ChannelState.stage_mem, store_mem, Words.set_apply, if_neg (by simp)]
      exact hw'.claimed j

end Writer
end ChannelSystem
end EdgeRuntime

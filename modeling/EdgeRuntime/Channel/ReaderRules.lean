import EdgeRuntime.Channel.CallSteps

/-!
What the registered consumer knows while it runs, and one rule for each of its accesses.
It knows its handle, the registry, and the slot it holds; of the history it may remember
how long it was, and one committed sample.
-/
namespace EdgeRuntime
open Concurrent

namespace ChannelSystem
/-- The words whose contents a consumer knows. -/
inductive ReaderWord (n : Nat) (held : Option Nat) : ChannelLoc → Prop
  | own {w} : ReaderWord n held (.handle (.consumer n) w)
  | registry {l} (word : l.isConsumerWord = true) : ReaderWord n held l
  | state {i} (hold : held = some i) : ReaderWord n held (.slotState i)
  | data {l i} (hold : held = some i) (word : l.dataSlot? = some i) : ReaderWord n held l

structure Reader (n : Nat) (c : ChannelClient) (held : Option Nat) (floor : Nat)
    (known : Option Sample) (f : ChannelMem) (s : ChannelState) : Prop where
  alive : s.world.crashed (.consumer n) = false
  reader : s.reader = some n
  client : s.world.client (.consumer n) = c
  words : ∀ l, ReaderWord n held l → s.mem l = f l
  slot : ∀ i, held = some i → i < slotCount
  held : ∀ i, i < slotCount → (Held s.mem i ↔ held = some i)
  floor : floor ≤ s.world.committed.length
  known : ∀ sample, known = some sample → sample ∈ s.world.committed ∧
    ∃ ticket ∈ s.world.seen (.consumer n), ticketSequence ticket = sample.sequence

variable {q : ChannelSystem} {t u : Endpoint} {s s' : ChannelState} {l : ChannelLoc}
  {n i v floor : Nat} {c : ChannelClient} {held : Option Nat} {known : Option Sample}
  {f : ChannelMem} {α : Type} {Q : Except Error α → ChannelState → Prop}

theorem not_fixed_own (hne : u ≠ t) {w : HandleWord} : ¬ Fixed u s (.handle t w) := by
  intro hf
  cases hf with
  | own => exact hne rfl
  | writer role word =>
      cases t with
      | producer => exact hne role
      | consumer n => cases word
  | data _ word | registry _ word | heldData _ _ word => cases word

/-- The registry belongs to its keeper, the identity to whoever also holds the lock. -/
theorem not_fixed_registry (hk : s.Keeper t) (hne : u ≠ t) (hl : l.isConsumerWord = true)
    (free : ∀ w, l = .identity false w → s.world.lock ≠ some u) : ¬ Fixed u s l := by
  intro hf
  cases hf with
  | own | unread | heldState => cases hl
  | writer _ word =>
      cases l with
      | identity b w =>
          cases b with
          | false => cases word
          | true => cases hl
      | consumerState | slotReaderEpoch => cases word
      | _ => cases hl
  | data _ word | heldData _ _ word =>
      rw [ChannelLoc.dataSlot?_of_isConsumerWord hl] at word
      cases word
  | registry keeper => exact hne (ChannelState.keeper_unique keeper hk)
  | identity locked => exact free _ rfl locked

theorem not_fixed_readable (hk : s.Keeper t) (hne : u ≠ t) (read : Readable s.mem i) :
    ¬ Fixed u s (.slotState i) := by
  intro hf
  cases hf with
  | writer _ word | data _ word | registry _ word | heldData _ _ word => cases word
  | unread _ state => exact state read
  | heldState keeper => exact hne (ChannelState.keeper_unique keeper hk)

/-- The keeper's stores to a readable slot. -/
theorem guar_readable (hk : s.Keeper t) (read : Readable s.mem i)
    (after : ReadableCode v) : q.logic.guar t s (store t (.slotState i) v s) := by
  apply guar_store (by simp)
  · exact fun u hu => not_fixed_readable hk hu read
  · exact fun u hu keeper => (hu (ChannelState.keeper_unique keeper hk)).elim
  · exact fun _ _ _ _ => after
  · intro j hd
    cases hd

/-- Stores to words that belong to no slot. -/
theorem guar_outside (free : ∀ u, u ≠ t → ¬ Fixed u s l) (hl : l.isSlotWord = false) :
    q.logic.guar t s (store t l v s) := by
  apply guar_store _ free
  · intro u _ _ i he
    rw [he] at hl
    cases hl
  · intro _ i he
    rw [he] at hl
    cases hl
  · intro i hd
    rw [ChannelLoc.isSlotWord_of_dataSlot? hd] at hl
    cases hl
  · intro he
    rw [he] at hl
    cases hl

namespace Reader

theorem keeper (hv : Reader n c held floor known f s) : s.Keeper (.consumer n) :=
  .inl ⟨n, rfl, hv.reader, hv.alive⟩

theorem fixed (hv : Reader n c held floor known f s) (hl : ReaderWord n held l) :
    Fixed (.consumer n) s l := by
  cases hl with
  | own => exact .own
  | registry word => exact .registry hv.keeper word
  | @state i hold => exact .heldState hv.keeper ((hv.held i (hv.slot i hold)).2 hold)
  | @data _ i hold word =>
      exact .heldData hv.keeper ((hv.held i (hv.slot i hold)).2 hold) word

theorem stable : q.logic.Stable (.consumer n) (Reader n c held floor known f) := by
  intro s s' hv hr _
  have keeper := hr.keeper hv.keeper
  have words : ∀ l, ReaderWord n held l → s'.mem l = f l := fun l hl =>
    (hr.words l (hv.fixed hl)).trans (hv.words l hl)
  constructor
  case alive => exact hr.crashed.trans hv.alive
  case reader => exact keeper.reader.trans hv.reader
  case client => exact hr.client.trans hv.client
  case words => exact words
  case slot => exact hv.slot
  case held =>
      intro i hlt
      constructor
      · exact fun hh => (hv.held i hlt).1 (keeper.held i hh)
      · intro hold
        have before := (hv.held i hlt).2 hold
        simp only [Held, hv.words _ (.state hold)] at before
        simp only [Held, words _ (.state hold)]
        exact before
  case floor => exact Nat.le_trans hv.floor hr.committed.length_le
  case known =>
      intro sample hk
      obtain ⟨mem, ticket, ht, hs⟩ := hv.known sample hk
      exact ⟨hr.committed.subset mem, ticket, hr.seen ticket ht, hs⟩

/-- What was remembered of the history may be dropped. -/
theorem forget (hv : Reader n c held floor known f s) : Reader n c held 0 none f s :=
  ⟨hv.alive, hv.reader, hv.client, hv.words, hv.slot, hv.held, Nat.zero_le _,
    fun _ h => nomatch h⟩

theorem unread (hv : Reader n c none floor known f s) : Unread s.mem := by
  intro i hlt hh
  cases (hv.held i hlt).1 hh

theorem holding (hv : Reader n c (some i) floor known f s) : Held s.mem i :=
  (hv.held i (hv.slot i rfl)).2 rfl

theorem wp_ret {a : α} (hv : Reader n c held floor known f s)
    (post : ∀ s, q.Inv s → Reader n c held floor known f s → Q (.ok a) s) :
    q.logic.wp (.consumer n) Q (.ret a) s :=
  Logic.wp_ret _ stable hv post

theorem wp_throw {e : Error} (hv : Reader n c held floor known f s)
    (post : ∀ s, q.Inv s → Reader n c held floor known f s → Q (.error e) s) :
    q.logic.wp (.consumer n) Q (.throw e) s :=
  Logic.wp_throw _ stable hv post

theorem wp_looks {β : Type} {p : ChannelCode β} {k : β → ChannelCode α}
    (hv : Reader n c held floor known f s) (looks : p.Looks Memory.Reads)
    (next : ∀ a s, q.Inv s → Reader n c held floor known f s →
      q.logic.wp (.consumer n) Q (k a) s) :
    q.logic.wp (.consumer n) Q (p >>= k) s :=
  Access.wp_looks (D := q.memory) rfl looks _ stable hv next

theorem wp_load {k : Nat → ChannelCode α} (hv : Reader n c held floor known f s)
    (hl : ReaderWord n held l)
    (hk : ∀ s, q.Inv s → Reader n c held floor known f s →
      q.logic.wp (.consumer n) Q (k (f l)) s) :
    q.logic.wp (.consumer n) Q (sharedLoad l >>= k) s := by
  apply Access.wp_load (D := q.memory) rfl
  intro s' hr hi
  have hv' := stable s s' hv hr hi
  have value : q.memory.read (q.logic.world s') l = f l := hv'.words l hl
  rw [value]
  exact hk s' hi hv'

/-- What the consumer knows after a store outside the slots. -/
theorem store_word (hv : Reader n c held floor known f s) (hl : l.isSlotWord = false) :
    Reader n c held floor known (f.set l v) (store (.consumer n) l v s) := by
  have ticket : l ≠ .latestTicket := by
    intro he
    rw [he] at hl
    cases hl
  have record : recordStore l v c = c := by
    cases l with
    | slotSequence | slotPublishBootNs | latestTicket => cases hl
    | _ => rfl
  constructor
  case alive => exact hv.alive
  case reader => exact hv.reader
  case client => rw [store_client_self, hv.client, record]
  case words =>
      intro l' hl'
      rw [store_mem, Words.set_apply, Words.set_apply, hv.words l' hl']
  case slot => exact hv.slot
  case held =>
      intro i hlt
      rw [store_held hl]
      exact hv.held i hlt
  case floor =>
      rw [store_committed ticket]
      exact hv.floor
  case known =>
      rw [store_committed ticket, store_seen ticket]
      exact hv.known

/-- A plain word of the handle. -/
theorem step_own {w : HandleWord} (hv : Reader n c held floor known f s) (hi : q.Inv s)
    (hw : w ≠ .lastSequence) :
    q.Inv (store (.consumer n) (consumerWord n w) v s) ∧
      q.logic.guar (.consumer n) s (store (.consumer n) (consumerWord n w) v s) ∧
      Reader n c held floor known (f.set (consumerWord n w) v)
        (store (.consumer n) (consumerWord n w) v s) := by
  refine ⟨inv_store_plain hi ⟨rfl, rfl, ?_⟩, ?_, hv.store_word rfl⟩
  · intro m he
    cases he
    exact hw rfl
  · exact guar_outside (fun u hne => not_fixed_own hne) rfl

theorem wp_store_own {w : HandleWord} {k : Unit → ChannelCode α}
    (hv : Reader n c held floor known f s) (hw : w ≠ .lastSequence)
    (hk : ∀ s, q.Inv s → Reader n c held floor known (f.set (consumerWord n w) v) s →
      q.logic.wp (.consumer n) Q (k ()) s) :
    q.logic.wp (.consumer n) Q (sharedStore (consumerWord n w) v >>= k) s := by
  apply Access.wp_store (D := q.memory) rfl
  intro s' hr hi
  obtain ⟨inv, guar, next⟩ := (stable s s' hv hr hi).step_own (v := v) hi hw
  exact ⟨_, rfl, inv, guar, hk _ inv next⟩

theorem wp_cas_own {w : HandleWord} {expected desired : Nat} {k : Bool → ChannelCode α}
    (hv : Reader n c held floor known f s) (hw : w ≠ .lastSequence)
    (swaps : f (consumerWord n w) = expected → ∀ s, q.Inv s →
      Reader n c held floor known (f.set (consumerWord n w) desired) s →
      q.logic.wp (.consumer n) Q (k true) s)
    (fails : f (consumerWord n w) ≠ expected → ∀ s, q.Inv s →
      Reader n c held floor known f s → q.logic.wp (.consumer n) Q (k false) s) :
    q.logic.wp (.consumer n) Q (sharedCas (consumerWord n w) expected desired >>= k) s := by
  have value : ∀ s', q.logic.rely (.consumer n) s s' → q.Inv s' →
      q.memory.read (q.logic.world s') (consumerWord n w) = f (consumerWord n w) :=
    fun s' hr hi => (stable s s' hv hr hi).words _ .own
  apply Access.wp_cas (D := q.memory) rfl
  · intro s' hr hi he
    obtain ⟨inv, guar, next⟩ := (stable s s' hv hr hi).step_own (v := desired) hi hw
    exact ⟨_, rfl, inv, guar, swaps ((value s' hr hi).symm.trans he) _ inv next⟩
  · intro s' hr hi he
    refine fails ?_ s' hi (stable s s' hv hr hi)
    exact fun hf => he ((value s' hr hi).trans hf)

/-- The last sequence moves past everything delivered. -/
theorem wp_store_last {k : Unit → ChannelCode α} (hv : Reader n c held floor known f s)
    (grows : f (consumerWord n .lastSequence) ≤ v)
    (hk : ∀ s, q.Inv s →
      Reader n c held floor known (f.set (consumerWord n .lastSequence) v) s →
      (∀ d ∈ c.delivered, d ≤ f (consumerWord n .lastSequence)) →
      q.logic.wp (.consumer n) Q (k ()) s) :
    q.logic.wp (.consumer n) Q (sharedStore (consumerWord n .lastSequence) v >>= k) s := by
  apply Access.wp_store (D := q.memory) rfl
  intro s' hr hi
  have hv' := stable s s' hv hr hi
  have delivered : ∀ d ∈ c.delivered, d ≤ f (consumerWord n .lastSequence) := by
    intro d hd
    have last := hv'.words (consumerWord n .lastSequence) .own
    rw [← last]
    exact (hi.clients.delivered n).2 d (by rw [hv'.client]; exact hd)
  have inv : q.Inv (store (.consumer n) (consumerWord n .lastSequence) v s') := by
    apply inv_store_lastSequence hi
    intro d hd
    rw [hv'.client] at hd
    exact Nat.le_trans (delivered d hd) grows
  refine ⟨_, rfl, inv, guar_outside (fun u hne => not_fixed_own hne) rfl, ?_⟩
  exact hk _ inv (hv'.store_word rfl) delivered

theorem wp_count {k : Nat → ChannelCode α} (hv : Reader n c held floor known f s)
    (hk : ∀ m v s, q.Inv s → Reader n c held floor known (f.set .readCount v) s →
      q.logic.wp (.consumer n) Q (k m) s) :
    q.logic.wp (.consumer n) Q (sharedFetchAdd .readCount 1 64 >>= k) s := by
  apply Access.wp_fetchAdd (D := q.memory) rfl
  intro s' hr hi
  have inv := inv_store_plain (t := .consumer n)
    (v := (q.memory.read (q.logic.world s') .readCount + 1) % 2 ^ 64) hi
    (l := .readCount) ⟨rfl, rfl, by simp⟩
  refine ⟨_, rfl, inv, ?_, hk _ _ _ inv ((stable s s' hv hr hi).store_word rfl)⟩
  apply guar_outside _ rfl
  intro u _ hf
  cases hf with
  | writer _ word | data _ word | registry _ word | heldData _ _ word => cases word

/-- The consumer's client with another buffer. -/
def setOut (c : ChannelClient) (out : Nat → Nat) : ChannelClient := { c with out := out }

theorem wp_copyOut {j : Nat} {k : Unit → ChannelCode α}
    (hv : Reader n c held floor known f s)
    (hk : ∀ s, q.Inv s →
      Reader n (setOut c (Function.update c.out j v)) held floor known f s →
      q.logic.wp (.consumer n) Q (k ()) s) :
    q.logic.wp (.consumer n) Q (copyOut j v >>= k) s := by
  apply Access.wp_copyOut (D := q.memory) rfl
  intro s' hr hi
  have hv' := stable s s' hv hr hi
  obtain ⟨inv, guar⟩ := step_fill (t := .consumer n) (j := j) (v := v) hi
  refine ⟨_, rfl, inv, guar, hk _ inv ?_⟩
  refine ⟨hv'.alive, hv'.reader, ?_, hv'.words, hv'.slot, hv'.held, hv'.floor, hv'.known⟩
  rw [← hv'.client]
  exact Function.update_self _ _ _

/-- The epoch of the held slot: the consumer's own, or cleared. -/
theorem wp_store_epoch {k : Unit → ChannelCode α}
    (hv : Reader n c (some i) floor known f s)
    (epoch : v = 0 ∨ v = f (.identity false .roleEpoch))
    (hk : ∀ s, q.Inv s →
      Reader n c (some i) floor known (f.set (.slotReaderEpoch i) v) s →
      q.logic.wp (.consumer n) Q (k ()) s) :
    q.logic.wp (.consumer n) Q (sharedStore (.slotReaderEpoch i) v >>= k) s := by
  apply Access.wp_store (D := q.memory) rfl
  intro s' hr hi
  have hv' := stable s s' hv hr hi
  have inv : q.Inv (store (.consumer n) (.slotReaderEpoch i) v s') := by
    apply inv_store_readerEpoch hi
    rw [hv'.words (.identity false .roleEpoch) (.registry rfl)]
    exact epoch.imp id fun h => ⟨hv'.holding, h⟩
  refine ⟨_, rfl, inv, guar_outside ?_ rfl, hk _ inv (hv'.store_word rfl)⟩
  intro u hne
  apply not_fixed_registry hv'.keeper hne rfl
  intro w he
  cases he

/-- What the consumer knows after it changed the state of a slot. -/
theorem store_state (held' : Option Nat) (hv : Reader n c held floor known f s)
    (slot : ∀ j, held' = some j → j < slotCount)
    (data : ∀ j l, held' = some j → l.dataSlot? = some j → s.mem l = f l)
    (other : ∀ j, held' = some j → j = i)
    (state : ∀ j, j < slotCount → (Held (s.mem.set (.slotState i) v) j ↔ held' = some j)) :
    Reader n c held' floor known (f.set (.slotState i) v)
      (store (.consumer n) (.slotState i) v s) := by
  constructor
  case alive => exact hv.alive
  case reader => exact hv.reader
  case client =>
      rw [store_client_self, hv.client]
      rfl
  case words =>
      intro l hl
      rw [store_mem, Words.set_apply, Words.set_apply]
      cases hl with
      | own => simpa using hv.words _ .own
      | registry word =>
          rw [hv.words _ (.registry word)]
      | state hold =>
          rw [other _ hold]
          simp
      | data hold word => rw [data _ _ hold word]
  case slot => exact slot
  case held => exact state
  case floor =>
      rw [store_committed (by simp)]
      exact hv.floor
  case known =>
      rw [store_committed (by simp), store_seen (by simp)]
      exact hv.known

/-- The loan of the slot may go: nothing is lent, or this is its release. -/
def LoanFree (c : ChannelClient) : Prop := c.readLoan = none ∨ c.call = some .release

theorem no_loan (hv : Reader n c held floor known f s) (hi : q.Inv s) (free : LoanFree c) :
    ∀ m loan, (s.world.client (.consumer m)).readLoan = some loan →
      s.world.crashed (.consumer m) = false →
      (s.world.client (.consumer m)).call ≠ some .release → loan.slotIndex ≠ i := by
  intro m loan hl ha hc
  have inUse := hi.clients.loans m loan hl ha hc
  cases inUse.reader.symm.trans hv.reader
  rw [hv.client] at hl hc
  rcases free with hf | hf
  · cases hl.symm.trans hf
  · exact (hc hf).elim

/-- The held slot goes from claimed to reading. -/
theorem wp_mark {k : Unit → ChannelCode α} (hv : Reader n c (some i) floor known f s)
    (free : LoanFree c)
    (hk : ∀ s, q.Inv s → Reader n c (some i) floor known
      (f.set (.slotState i) SlotState.reading.code) s →
      q.logic.wp (.consumer n) Q (k ()) s) :
    q.logic.wp (.consumer n) Q
      (sharedStore (.slotState i) SlotState.reading.code >>= k) s := by
  apply Access.wp_store (D := q.memory) rfl
  intro s' hr hi
  have hv' := stable s s' hv hr hi
  have after : HeldCode SlotState.reading.code := .inr rfl
  have inv : q.Inv (store (.consumer n) (.slotState i) SlotState.reading.code s') :=
    inv_store_readable hi hv'.holding.readable (.inr after)
      (fun _ => hi.slots.hold i (hv'.slot i rfl) hv'.holding) (.inl after)
      (fun _ => hv'.no_loan hi free)
  refine ⟨_, rfl, inv, guar_readable hv'.keeper hv'.holding.readable (.inr after),
    hk _ inv ?_⟩
  refine hv'.store_state _ hv'.slot (fun j l hj hd => hv'.words l (.data hj hd)) ?_ ?_
  · exact fun j hj => (Option.some.inj hj).symm
  · intro j hlt
    rw [held_set]
    split
    · rename_i he
      cases he
      exact ⟨fun _ => rfl, fun _ => after⟩
    · exact hv'.held j hlt

/-- The held slot is given back, once its epoch is cleared. -/
theorem wp_giveBack {k : Unit → ChannelCode α} (hv : Reader n c (some i) floor known f s)
    (cleared : f (.slotReaderEpoch i) = 0) (free : LoanFree c)
    (hk : ∀ s, q.Inv s → Reader n c none floor known
      (f.set (.slotState i) SlotState.published.code) s →
      q.logic.wp (.consumer n) Q (k ()) s) :
    q.logic.wp (.consumer n) Q
      (sharedStore (.slotState i) SlotState.published.code >>= k) s := by
  apply Access.wp_store (D := q.memory) rfl
  intro s' hr hi
  have hv' := stable s s' hv hr hi
  have inv : q.Inv (store (.consumer n) (.slotState i) SlotState.published.code s') := by
    apply inv_store_readable hi hv'.holding.readable (.inl rfl)
    · intro hh
      simp [HeldCode, SlotState.code] at hh
    · exact .inr ((hv'.words _ (.registry rfl)).trans cleared)
    · exact fun _ => hv'.no_loan hi free
  refine ⟨_, rfl, inv, guar_readable hv'.keeper hv'.holding.readable (.inl rfl),
    hk _ inv ?_⟩
  refine hv'.store_state _ (by rintro j ⟨⟩) (by rintro j l ⟨⟩) (by rintro j ⟨⟩) ?_
  intro j hlt
  rw [held_set]
  split
  · simp [HeldCode, SlotState.code]
  · rename_i hne
    rw [hv'.held j hlt]
    constructor
    · intro he
      cases he
      exact (hne rfl).elim
    · intro he
      cases he

theorem wp_slotReleaseRead {k : Unit → ChannelCode α}
    (hv : Reader n c (some i) floor known f s) (free : LoanFree c)
    (hk : ∀ s, q.Inv s → Reader n c none floor known
      ((f.set (.slotReaderEpoch i) 0).set (.slotState i) SlotState.published.code) s →
      q.logic.wp (.consumer n) Q (k ()) s) :
    q.logic.wp (.consumer n) Q (slotReleaseRead i >>= k) s := by
  rw [slotReleaseRead, Prog.bind_assoc]
  apply hv.wp_store_epoch (.inl rfl)
  intro s₁ _ h₁
  exact h₁.wp_giveBack (by simp) free hk

end Reader
end ChannelSystem
end EdgeRuntime

import EdgeRuntime.Channel.Invariant

/-!
What single stores do to the slots. Each lemma is one kind of store that the protocol
makes, with the least that must hold before it for the slots to stay in order.
-/
namespace EdgeRuntime
open Concurrent

/-- The words the slot invariant speaks of. -/
def ChannelLoc.isSlotWord : ChannelLoc → Bool
  | .latestTicket | .slotState _ => true
  | l => l.dataSlot?.isSome

theorem ChannelLoc.dataSlot?_of_isConsumerWord {l : ChannelLoc}
    (h : l.isConsumerWord = true) : l.dataSlot? = none := by
  cases l <;> first | rfl | cases h

theorem ChannelLoc.isSlotWord_of_dataSlot? {l : ChannelLoc} {i : Nat}
    (h : l.dataSlot? = some i) : l.isSlotWord = true := by
  cases l <;> first | rfl | cases h

variable {m : ChannelMem} {committed : List Sample} {staged : Option (Nat × Sample)}
  {pending : Option Nat} {sample : Sample} {i j v : Nat} {l : ChannelLoc}

theorem Held.readable (h : Held m i) : Readable m i := .inr h

theorem held_of_reading (h : m (.slotState i) = SlotState.reading.code) : Held m i := .inr h

theorem not_held_of_not_readable (h : ¬ Readable m i) : ¬ Held m i := fun hh => h hh.readable

theorem readable_published (h : m (.slotState i) = SlotState.published.code) : Readable m i :=
  .inl h

theorem not_readable_writing (h : m (.slotState i) = SlotState.writing.code) :
    ¬ Readable m i := by
  simp [Readable, ReadableCode, HeldCode, h, SlotState.code]

theorem held_set : Held (m.set l v) j ↔
    if l = .slotState j then HeldCode v else Held m j := by
  simp only [Held, Words.set_apply, eq_comm (a := l)]
  split <;> rfl

theorem readable_set : Readable (m.set l v) j ↔
    if l = .slotState j then ReadableCode v else Readable m j := by
  simp only [Readable, Words.set_apply, eq_comm (a := l)]
  split <;> rfl

theorem holds_congr {m' : ChannelMem} (h : ∀ l, l.dataSlot? = some i → m' l = m l)
    (hs : Holds m i sample) : Holds m' i sample where
  sequence := (h _ rfl).trans hs.sequence
  bootNs := (h _ rfl).trans hs.bootNs
  size := (h _ rfl).trans hs.size
  payload := by
    rw [← hs.payload]
    simp only [ChannelSystem.loanBytes, List.length_map, List.length_range]
    exact List.map_congr_left fun j _ => h _ rfl
  checksum := (h _ rfl).trans hs.checksum

theorem holds_set (hl : l.dataSlot? ≠ some i) (hs : Holds m i sample) :
    Holds (m.set l v) i sample := by
  apply holds_congr _ hs
  intro l' hl'
  rw [Words.set_apply, if_neg]
  intro he
  exact hl (he ▸ hl')

namespace SlotsInv

theorem congr {m' : ChannelMem} (h : ∀ l, l.isSlotWord = true → m' l = m l)
    (hi : SlotsInv m committed staged pending) : SlotsInv m' committed staged pending := by
  have state : ∀ i, m' (.slotState i) = m (.slotState i) := fun i => h _ rfl
  have readable : ∀ i, Readable m' i ↔ Readable m i := fun i => by
    simp only [Readable, state]
  have held : ∀ i, Held m' i ↔ Held m i := fun i => by simp only [Held, state]
  have data : ∀ i l, l.dataSlot? = some i → m' l = m l :=
    fun _ l hl => h l (ChannelLoc.isSlotWord_of_dataSlot? hl)
  constructor
  case numbered => exact hi.numbered
  case bounded => exact hi.bounded
  case states =>
      intro i hlt
      rw [state]
      exact hi.states i hlt
  case latest =>
      rw [h _ rfl]
      refine hi.latest.imp id ?_
      rintro ⟨i, hlt, hne, hm, hread, hseq⟩
      exact ⟨i, hlt, hne, hm, (readable i).2 hread, (h _ rfl).trans hseq⟩
  case content =>
      intro i hlt hread
      obtain ⟨sample, hs, hc⟩ := hi.content i hlt ((readable i).1 hread)
      exact ⟨sample, holds_congr (data i) hs, hc⟩
  case staged =>
      intro i sample hs
      exact ⟨(readable i).2 (hi.staged i sample hs).1, (hi.staged i sample hs).2⟩
  case hold => exact fun i hlt hh => hi.hold i hlt ((held i).1 hh)

/-- A sample under construction is nobody's. -/
theorem set_data (hi : SlotsInv m committed staged pending) (hl : l.dataSlot? = some i)
    (unread : ¬ Readable m i) : SlotsInv (m.set l v) committed staged pending := by
  have hne : l ≠ .latestTicket ∧ ∀ j, l ≠ .slotState j := by
    constructor
    · intro he
      rw [he] at hl
      cases hl
    · intro j he
      rw [he] at hl
      cases hl
  have readable : ∀ j, Readable (m.set l v) j ↔ Readable m j := fun j => by
    rw [readable_set, if_neg (hne.2 j)]
  have other : ∀ j, Readable m j → l.dataSlot? ≠ some j := by
    intro j hj he
    cases hl.symm.trans he
    exact unread hj
  constructor
  case numbered => exact hi.numbered
  case bounded => exact hi.bounded
  case states =>
      intro j hlt
      rw [Words.set_apply, if_neg (hne.2 j).symm]
      exact hi.states j hlt
  case latest =>
      rw [Words.set_apply, if_neg hne.1.symm]
      refine hi.latest.imp id ?_
      rintro ⟨j, hlt, hnil, hm, hread, hseq⟩
      refine ⟨j, hlt, hnil, hm, (readable j).2 hread, ?_⟩
      rw [Words.set_apply, if_neg]
      · exact hseq
      · intro he
        exact other j hread (he ▸ rfl)
  case content =>
      intro j hlt hread
      have hread := (readable j).1 hread
      obtain ⟨sample, hs, hc⟩ := hi.content j hlt hread
      exact ⟨sample, holds_set (other j hread) hs, hc⟩
  case staged =>
      intro j sample hs
      exact ⟨(readable j).2 (hi.staged j sample hs).1, (hi.staged j sample hs).2⟩
  case hold =>
      intro j hlt hh
      rw [held_set, if_neg (hne.2 j)] at hh
      exact hi.hold j hlt hh

/-- The producer takes a slot that is not the latest, or gives one up. -/
theorem set_unreadable (hi : SlotsInv m committed none pending) (hv : v ≤ 1)
    (latest : m .latestTicket ≠ 0 → ticketSlot (m .latestTicket) ≠ i) :
    SlotsInv (m.set (.slotState i) v) committed none pending := by
  have notReadable : ¬ ReadableCode v := by
    simp only [ReadableCode, HeldCode, SlotState.code]
    omega
  have other : ∀ j, Readable (m.set (.slotState i) v) j → j ≠ i ∧ Readable m j := by
    intro j hj
    rw [readable_set] at hj
    split at hj
    · exact absurd hj notReadable
    · rename_i hne
      exact ⟨fun he => hne (he ▸ rfl), hj⟩
  constructor
  case numbered => exact hi.numbered
  case bounded => exact hi.bounded
  case states =>
      intro j hlt
      rw [Words.set_apply]
      split
      · exact Nat.le_trans hv (by decide)
      · exact hi.states j hlt
  case latest =>
      rw [Words.set_apply, if_neg (by simp)]
      refine hi.latest.imp id ?_
      rintro ⟨j, hlt, hnil, hm, hread, hseq⟩
      have hj : j ≠ i := by
        intro he
        have pos : 0 < committed.length := List.length_pos_iff.2 hnil
        have hb := hi.bounded
        apply latest
        · rw [hm]
          simp only [makeTicket, maxSampleSequence] at hb ⊢
          omega
        · rw [hm, ticketSlot_makeTicket hlt]
          exact he
      refine ⟨j, hlt, hnil, hm, ?_, ?_⟩
      · rw [readable_set, if_neg (by simpa using hj.symm)]
        exact hread
      · rw [Words.set_apply, if_neg (by simp)]
        exact hseq
  case content =>
      intro j hlt hread
      obtain ⟨sample, hs, hc⟩ := hi.content j hlt (other j hread).2
      exact ⟨sample, holds_set (by simp [ChannelLoc.dataSlot?]) hs, hc⟩
  case staged =>
      intro j sample hs
      cases hs
  case hold =>
      intro j hlt hh
      have := other j hh.readable
      rw [held_set, if_neg (by simpa using this.1.symm)] at hh
      exact hi.hold j hlt hh

/-- A readable slot changes hands among its readers. -/
theorem set_readable (hi : SlotsInv m committed staged pending) (before : Readable m i)
    (after : ReadableCode v) (claimed : HeldCode v → pending = some i) :
    SlotsInv (m.set (.slotState i) v) committed staged pending := by
  have readable : ∀ j, Readable (m.set (.slotState i) v) j ↔ Readable m j := by
    intro j
    rw [readable_set]
    split
    · rename_i he
      cases he
      exact ⟨fun _ => before, fun _ => after⟩
    · rfl
  constructor
  case numbered => exact hi.numbered
  case bounded => exact hi.bounded
  case states =>
      intro j hlt
      rw [Words.set_apply]
      split
      · rcases after with rfl | rfl | rfl <;> decide
      · exact hi.states j hlt
  case latest =>
      rw [Words.set_apply, if_neg (by simp)]
      refine hi.latest.imp id ?_
      rintro ⟨j, hlt, hnil, hm, hread, hseq⟩
      refine ⟨j, hlt, hnil, hm, (readable j).2 hread, ?_⟩
      rw [Words.set_apply, if_neg (by simp)]
      exact hseq
  case content =>
      intro j hlt hread
      obtain ⟨sample, hs, hc⟩ := hi.content j hlt ((readable j).1 hread)
      exact ⟨sample, holds_set (by simp [ChannelLoc.dataSlot?]) hs, hc⟩
  case staged =>
      intro j sample hs
      exact ⟨(readable j).2 (hi.staged j sample hs).1, (hi.staged j sample hs).2⟩
  case hold =>
      intro j hlt hh
      rw [held_set] at hh
      split at hh
      · rename_i he
        cases he
        exact claimed hh
      · exact hi.hold j hlt hh

/-- The sample is complete in its slot, and the ticket does not name it yet. -/
theorem set_published (hi : SlotsInv m committed none pending) (hs : Holds m i sample)
    (fresh : sample.sequence = committed.length + 1) (unread : ¬ Readable m i) :
    SlotsInv (m.set (.slotState i) SlotState.published.code) committed
      (some (i, sample)) pending := by
  have readable : ∀ j, Readable m j → Readable
      (m.set (.slotState i) SlotState.published.code) j := by
    intro j hj
    rw [readable_set, if_neg]
    · exact hj
    · intro he
      cases he
      exact unread hj
  constructor
  case numbered => exact hi.numbered
  case bounded => exact hi.bounded
  case states =>
      intro j hlt
      rw [Words.set_apply]
      split
      · decide
      · exact hi.states j hlt
  case latest =>
      rw [Words.set_apply, if_neg (by simp)]
      refine hi.latest.imp id ?_
      rintro ⟨j, hlt, hnil, hm, hread, hseq⟩
      refine ⟨j, hlt, hnil, hm, readable j hread, ?_⟩
      rw [Words.set_apply, if_neg (by simp)]
      exact hseq
  case content =>
      intro j hlt hread
      rw [readable_set] at hread
      split at hread
      · rename_i he
        cases he
        exact ⟨sample, holds_set (by simp [ChannelLoc.dataSlot?]) hs, .inr rfl⟩
      · obtain ⟨sample', hs', hc⟩ := hi.content j hlt hread
        refine ⟨sample', holds_set (by simp [ChannelLoc.dataSlot?]) hs', ?_⟩
        exact hc.imp id (nomatch ·)
  case staged =>
      rintro j sample' he
      cases he
      exact ⟨by rw [readable_set, if_pos rfl]; exact .inl rfl, fresh⟩
  case hold =>
      intro j hlt hh
      rw [held_set] at hh
      split at hh
      · simp [HeldCode, SlotState.code] at hh
      · exact hi.hold j hlt hh

/-- The ticket names the staged sample. -/
theorem set_ticket (hi : SlotsInv m committed (some (i, sample)) pending)
    (hlt : i < slotCount) (hs : Holds m i sample)
    (room : committed.length + 1 ≤ maxSampleSequence) :
    SlotsInv (m.set .latestTicket (makeTicket (committed.length + 1) i))
      (committed ++ [sample]) none pending := by
  obtain ⟨read, fresh⟩ := hi.staged i sample rfl
  have readable : ∀ j, Readable (m.set .latestTicket
      (makeTicket (committed.length + 1) i)) j ↔ Readable m j := fun j => by
    rw [readable_set, if_neg (by simp)]
  constructor
  case numbered =>
      rw [List.map_append, List.length_append, hi.numbered]
      simp [fresh, List.range'_concat]
      omega
  case bounded => simpa using room
  case states =>
      intro j hj
      rw [Words.set_apply, if_neg (by simp)]
      exact hi.states j hj
  case latest =>
      refine .inr ⟨i, hlt, by simp, by simp, (readable i).2 read, ?_⟩
      rw [Words.set_apply, if_neg (by simp), hs.sequence, fresh]
      simp
  case content =>
      intro j hj hread
      obtain ⟨sample', hs', hc⟩ := hi.content j hj ((readable j).1 hread)
      refine ⟨sample', holds_set (by simp [ChannelLoc.dataSlot?]) hs', .inl ?_⟩
      rcases hc with hc | hc
      · exact List.mem_append_left _ hc
      · cases hc
        exact List.mem_append_right _ (List.mem_singleton.2 rfl)
  case staged =>
      intro j sample' he
      cases he
  case hold =>
      intro j hj hh
      rw [held_set, if_neg (by simp)] at hh
      exact hi.hold j hj hh

/-- With no slot held, the slot that may be claimed next is free to choose. -/
theorem set_pending (hi : SlotsInv m committed staged pending)
    (free : ∀ i, i < slotCount → ¬ Held m i) (pending' : Option Nat) :
    SlotsInv m committed staged pending' where
  numbered := hi.numbered
  bounded := hi.bounded
  states := hi.states
  latest := hi.latest
  content := hi.content
  staged := hi.staged
  hold i hlt hh := (free i hlt hh).elim

/-- The number of a committed sample is its place in the history. -/
theorem sequence_le (hi : SlotsInv m committed staged pending) (h : sample ∈ committed) :
    1 ≤ sample.sequence ∧ sample.sequence ≤ committed.length ∧
      committed[sample.sequence - 1]? = some sample := by
  obtain ⟨k, hk, he⟩ := List.mem_iff_getElem.1 h
  have number : committed[k].sequence = k + 1 := by
    have := congrArg (fun l => l[k]?) hi.numbered
    simp only [List.getElem?_map, List.getElem?_eq_getElem hk, Option.map_some] at this
    rw [List.getElem?_range'] at this
    · simp at this
      omega
    · exact hk
  rw [he] at number
  refine ⟨by omega, by omega, ?_⟩
  rw [number]
  simp [List.getElem?_eq_getElem hk, he]

end SlotsInv
end EdgeRuntime

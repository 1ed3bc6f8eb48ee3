import EdgeRuntime.Channel.SlotSteps

/-!
What single steps do to the whole invariant and to the other endpoints. A step is
stated for the state in which it happens; the rules for programs use it by name.
-/
namespace EdgeRuntime
open Concurrent

namespace ChannelSystem
variable {q : ChannelSystem} {t u : Endpoint} {s s' : ChannelState} {l : ChannelLoc}
  {i n v : Nat}

def store (t : Endpoint) (l : ChannelLoc) (v : Nat) (s : ChannelState) : ChannelState :=
  s.setWorld (write t l v s.world)

@[simp] theorem store_mem : (store t l v s).mem = s.mem.set l v := rfl
@[simp] theorem store_crashed : (store t l v s).world.crashed = s.world.crashed := rfl

theorem store_committed (h : l ≠ .latestTicket) :
    (store t l v s).world.committed = s.world.committed := by
  simp [store, write, h]

theorem store_seen (h : l ≠ .latestTicket) :
    (store t l v s).world.seen = s.world.seen := by
  simp [store, write, h]

theorem store_client_self :
    (store t l v s).world.client t = recordStore l v (s.world.client t) := by
  simp [store, write]

theorem store_client_other (h : u ≠ t) :
    (store t l v s).world.client u = s.world.client u := by
  simp [store, write, Function.update_of_ne h]

@[simp] theorem recordStore_readLoan (c : ChannelClient) :
    (recordStore l v c).readLoan = c.readLoan := by
  cases l <;> rfl

@[simp] theorem recordStore_call (c : ChannelClient) :
    (recordStore l v c).call = c.call := by
  cases l <;> rfl

@[simp] theorem recordStore_delivered (c : ChannelClient) :
    (recordStore l v c).delivered = c.delivered := by
  cases l <;> rfl

@[simp] theorem recordStore_handle (c : ChannelClient) :
    (recordStore l v c).handle = c.handle := by
  cases l <;> rfl

theorem store_client_handle :
    ((store t l v s).world.client u).handle = (s.world.client u).handle := by
  by_cases h : u = t
  · subst h
    rw [store_client_self]
    simp
  · rw [store_client_other h]

theorem store_client_loan :
    ((store t l v s).world.client u).readLoan = (s.world.client u).readLoan ∧
      ((store t l v s).world.client u).call = (s.world.client u).call ∧
      ((store t l v s).world.client u).delivered = (s.world.client u).delivered := by
  by_cases h : u = t
  · subst h
    rw [store_client_self]
    simp
  · rw [store_client_other h]
    exact ⟨rfl, rfl, rfl⟩

/-- A store to a word nobody counts on, and whose value breaks no promise about slots. -/
theorem rely_store (hne : u ≠ t) (hl : l ≠ .latestTicket) (free : ¬ Fixed u s l)
    (held : s.Keeper u → ∀ i, l = .slotState i → ¬ HeldCode v)
    (readable : u = .producer → ∀ i, l = .slotState i → Readable s.mem i →
      ReadableCode v) : Rely u s (store t l v s) where
  crashed := rfl
  client := store_client_other hne
  committed := by
    simp only [store_committed hl, List.prefix_refl]
  seen := by
    rw [store_seen hl]
    exact fun _ h => h
  lock h := h
  words l' hl' := by
    rw [store_mem, Words.set_apply, if_neg]
    intro he
    exact free (he ▸ hl')
  keeper hk := by
    refine ⟨hk, rfl, rfl, ?_, ?_⟩
    · intro i hi
      rw [store_mem, held_set] at hi
      split at hi
      · rename_i he
        exact (held hk i he hi).elim
      · exact hi
    · intro n h hs
      rw [← store_client_handle]
      exact hs
  writer hw := by
    refine ⟨rfl, store_committed hl, ?_, .inl rfl⟩
    intro i hi
    rw [store_mem, readable_set]
    split
    · rename_i he
      exact readable hw i he hi
    · exact hi

theorem rely_stage {staged : Option (Nat × Sample)} (hne : u ≠ .producer) :
    Rely u s (s.stage staged) where
  crashed := rfl
  client := rfl
  committed := List.prefix_refl _
  seen _ h := h
  lock h := h
  words _ _ := rfl
  keeper hk := ⟨hk, rfl, rfl, fun _ h => h, fun _ _ h => h⟩
  writer hw := (hne hw).elim

/-- Registration and the choice of the next slot are the keeper's. -/
theorem rely_register {reader pending : Option Nat} (hne : u ≠ t) (hk : s.Keeper t)
    (moves : Moves s (s.register reader pending)) : Rely u s (s.register reader pending) where
  crashed := rfl
  client := rfl
  committed := List.prefix_refl _
  seen _ h := h
  lock h := h
  words _ _ := rfl
  keeper hu := (hne (ChannelState.keeper_unique hu hk)).elim
  writer _ := ⟨rfl, rfl, fun _ h => h, moves⟩

theorem guar_store (hl : l ≠ .latestTicket) (free : ∀ u, u ≠ t → ¬ Fixed u s l)
    (held : ∀ u, u ≠ t → s.Keeper u → ∀ i, l = .slotState i → ¬ HeldCode v)
    (readable : t ≠ .producer → ∀ i, l = .slotState i → Readable s.mem i → ReadableCode v)
    (keeps : ∀ i, l.dataSlot? = some i → ¬ Held s.mem i) :
    q.logic.guar t s (store t l v s) := by
  constructor
  · intro u hne
    apply rely_store hne hl (free u hne) (held u hne)
    intro hu
    exact readable (hu ▸ hne.symm)
  · intro i l' hh hd
    rw [store_mem, Words.set_apply, if_neg]
    intro he
    exact keeps i (he ▸ hd) hh

theorem guar_stage {staged : Option (Nat × Sample)} (h : q.logic.guar .producer s s') :
    q.logic.guar .producer s (s'.stage staged) :=
  ⟨fun u hne => rely_trans (h.1 u hne) (rely_stage hne), h.2⟩

theorem guar_register {reader pending : Option Nat} (h : q.logic.guar t s s')
    (keeper : s'.Keeper t) (moves : Moves s' (s'.register reader pending)) :
    q.logic.guar t s (s'.register reader pending) :=
  ⟨fun u hne => rely_trans (h.1 u hne) (rely_register hne keeper moves), h.2⟩

/-- The words of which only counters and flags remember the value. -/
def IsPlain (l : ChannelLoc) : Prop :=
  l.isSlotWord = false ∧ l.isConsumerWord = false ∧
    ∀ n, l ≠ .handle (.consumer n) .lastSequence

theorem registry_congr (hi : q.RegistryInv s) (reader : s'.reader = s.reader)
    (pending : s'.pending = s.pending) (crashed : s'.world.crashed = s.world.crashed)
    (lock : s'.world.lock = s.world.lock)
    (handles : ∀ n, (s'.world.client (.consumer n)).handle =
      (s.world.client (.consumer n)).handle)
    (words : ∀ l, l.isConsumerWord = true → s'.mem l = s.mem l)
    (held : ∀ i, i < slotCount → Held s.mem i →
      Held s'.mem i ∨ s.mem (.slotReaderEpoch i) = 0) : q.RegistryInv s' := by
  have identity : ∀ id, IdentityIs s.mem id → IdentityIs s'.mem id := by
    intro id h
    exact ⟨(words _ rfl).trans h.pid, (words _ rfl).trans h.ticks, (words _ rfl).trans h.hi,
      (words _ rfl).trans h.lo⟩
  constructor
  case offline => rw [words _ rfl, reader]; exact hi.offline
  case states => rw [words _ rfl]; exact hi.states
  case online => rw [words _ rfl, words _ rfl]; exact hi.online
  case unread => rw [reader, pending]; exact hi.unread
  case registered =>
      rw [reader, crashed, words _ rfl]
      exact fun r hr ha => ⟨identity _ (hi.registered r hr ha).1, (hi.registered r hr ha).2⟩
  case identity =>
      rw [words _ rfl]
      intro heven hne
      obtain ⟨r, hr⟩ := hi.identity heven hne
      exact ⟨r, identity _ hr⟩
  case epoch => rw [words _ rfl]; exact hi.epoch
  case epochs =>
      intro i hlt
      rw [words _ rfl, words _ rfl]
      rcases hi.epochs i hlt with h | ⟨hh, he⟩
      · exact .inl h
      · exact (held i hlt hh).elim (fun h => .inr ⟨h, he⟩) .inl
  case lock => rw [lock, crashed]; exact hi.lock
  case handles =>
      intro n h hs
      rw [handles] at hs
      rw [words _ rfl, words _ rfl, reader]
      exact hi.handles n h hs

/-- Loans survive every step that leaves the slots being read alone. -/
theorem loan_congr {loan : ReadLoan} (h : LoanInv s n loan) (reader : s'.reader = s.reader)
    (state : s'.mem (.slotState loan.slotIndex) = s.mem (.slotState loan.slotIndex))
    (data : ∀ l, l.dataSlot? = some loan.slotIndex → s'.mem l = s.mem l)
    (committed : s.world.committed <+: s'.world.committed) : LoanInv s' n loan where
  slot := h.slot
  reader := reader.trans h.reader
  state := state.trans h.state
  sequence := (data _ rfl).trans h.sequence
  bootNs := (data _ rfl).trans h.bootNs
  size := (data _ rfl).trans h.size
  old := Nat.le_trans h.old committed.length_le

theorem clients_congr (hi : ClientsInv s)
    (latest : s'.mem .latestTicket = s.mem .latestTicket)
    (seen : s'.world.seen = s.world.seen)
    (crashed : s'.world.crashed = s.world.crashed)
    (client : ∀ n, (s'.world.client (.consumer n)).readLoan =
        (s.world.client (.consumer n)).readLoan ∧
      (s'.world.client (.consumer n)).call = (s.world.client (.consumer n)).call ∧
      (s'.world.client (.consumer n)).delivered = (s.world.client (.consumer n)).delivered)
    (last : ∀ n, s'.mem (.handle (.consumer n) .lastSequence) =
      s.mem (.handle (.consumer n) .lastSequence))
    (finished : s'.world.finished = s.world.finished)
    (committed : s'.world.committed = s.world.committed)
    (loans : ∀ n loan, LoanInv s n loan →
      (s.world.client (.consumer n)).readLoan = some loan →
      s.world.crashed (.consumer n) = false →
      (s.world.client (.consumer n)).call ≠ some .release → LoanInv s' n loan) :
    ClientsInv s' where
  seen t := by rw [latest, seen]; exact hi.seen t
  loans n loan hl ha hc := by
    obtain ⟨h₁, h₂, _⟩ := client n
    rw [h₁] at hl
    rw [h₂] at hc
    rw [crashed] at ha
    exact loans n loan (hi.loans n loan hl ha hc) hl ha hc
  delivered n := by
    obtain ⟨_, _, h₃⟩ := client n
    rw [h₃, last]
    exact hi.delivered n
  finished := by rw [finished, committed]; exact hi.finished

theorem inv_store_plain (hi : q.Inv s) (plain : IsPlain l) : q.Inv (store t l v s) := by
  obtain ⟨slot, consumer, last⟩ := plain
  have ticket : l ≠ .latestTicket := by
    intro he
    rw [he] at slot
    cases slot
  have same : ∀ l', l' ≠ l → s.mem.set l v l' = s.mem l' := by
    intro l' hne
    rw [Words.set_apply, if_neg hne]
  have slots : ∀ l', l'.isSlotWord = true → s.mem.set l v l' = s.mem l' := by
    intro l' hl'
    apply same
    intro he
    rw [he, slot] at hl'
    cases hl'
  constructor
  case slots =>
      rw [store_committed ticket]
      exact hi.slots.congr slots
  case registry =>
      refine registry_congr hi.registry rfl rfl rfl rfl (fun _ => store_client_handle) ?_ ?_
      · intro l' hl'
        apply same
        intro he
        rw [he, consumer] at hl'
        cases hl'
      · intro i _ hh
        simp only [Held, store_mem, slots (.slotState i) rfl]
        exact .inl hh
  case clients =>
      refine clients_congr hi.clients (slots _ rfl) (store_seen ticket) rfl
        (fun _ => store_client_loan) (fun n => same _ (last n).symm) rfl
        (store_committed ticket) ?_
      intro n loan h _ _ _
      refine loan_congr h rfl (slots _ rfl) ?_ ?_
      · intro l' hl'
        exact slots l' (ChannelLoc.isSlotWord_of_dataSlot? hl')
      · simp only [store_committed ticket, List.prefix_refl]

/-- A word of a sample that nobody can read yet. -/
theorem inv_store_data (hi : q.Inv s) (hl : l.dataSlot? = some i)
    (unread : ¬ Readable s.mem i) : q.Inv (store t l v s) := by
  have ticket : l ≠ .latestTicket := by
    intro he
    rw [he] at hl
    cases hl
  have same : ∀ l', l'.dataSlot? ≠ some i → s.mem.set l v l' = s.mem l' := by
    intro l' hne
    rw [Words.set_apply, if_neg]
    intro he
    rw [he] at hne
    exact hne hl
  constructor
  case slots =>
      rw [store_committed ticket]
      exact hi.slots.set_data hl unread
  case registry =>
      refine registry_congr hi.registry rfl rfl rfl rfl (fun _ => store_client_handle) ?_ ?_
      · intro l' hl'
        apply same
        simp [ChannelLoc.dataSlot?_of_isConsumerWord hl']
      · intro j _ hh
        simp only [Held, store_mem, same (.slotState j) (by simp [ChannelLoc.dataSlot?])]
        exact .inl hh
  case clients =>
      refine clients_congr hi.clients (same _ (by simp [ChannelLoc.dataSlot?]))
        (store_seen ticket) rfl (fun _ => store_client_loan)
        (fun n => same _ (by simp [ChannelLoc.dataSlot?])) rfl (store_committed ticket) ?_
      intro n loan h _ _ _
      have hne : loan.slotIndex ≠ i := by
        intro he
        exact unread (he ▸ (held_of_reading h.state).readable)
      refine loan_congr h rfl (same _ (by simp [ChannelLoc.dataSlot?])) ?_ ?_
      · intro l' hl'
        apply same
        rw [hl']
        simpa using hne
      · simp only [store_committed ticket, List.prefix_refl]

/-- A slot state that leaves the readers' words as they are. -/
theorem inv_store_state {staged : Option (Nat × Sample)} (hi : q.Inv s)
    (slots : SlotsInv (s.mem.set (.slotState i) v) s.world.committed staged s.pending)
    (epochs : Held s.mem i → HeldCode v ∨ s.mem (.slotReaderEpoch i) = 0)
    (loans : s.mem (.slotState i) = SlotState.reading.code → ∀ n loan,
      (s.world.client (.consumer n)).readLoan = some loan →
      s.world.crashed (.consumer n) = false →
      (s.world.client (.consumer n)).call ≠ some .release → loan.slotIndex ≠ i) :
    q.Inv ((store t (.slotState i) v s).stage staged) := by
  have committed : (store t (.slotState i) v s).world.committed = s.world.committed :=
    store_committed (by simp)
  have same : ∀ l', l' ≠ .slotState i →
      ((store t (.slotState i) v s).stage staged).mem l' = s.mem l' := by
    intro l' hne
    simp [hne]
  constructor
  case slots =>
      simp only [ChannelState.stage_world, committed]
      exact slots
  case registry =>
      refine registry_congr hi.registry rfl rfl rfl rfl (fun _ => store_client_handle) ?_ ?_
      · intro l' hl'
        apply same
        intro he
        rw [he] at hl'
        cases hl'
      · -- the epoch of a slot that is no longer held has been cleared before
        intro j _ hh
        simp only [ChannelState.stage_mem, store_mem, held_set]
        split
        · rename_i hj
          cases hj
          exact epochs hh
        · exact .inl hh
  case clients =>
      refine clients_congr hi.clients (same _ (by simp)) (store_seen (by simp)) rfl
        (fun _ => store_client_loan) (fun n => same _ (by simp)) rfl committed ?_
      intro n loan h hl ha hc
      have hne : loan.slotIndex ≠ i := by
        intro he
        exact loans (he ▸ h.state) n loan hl ha hc he
      refine loan_congr h rfl (same _ (by simpa using hne)) ?_ ?_
      · intro l' hl'
        apply same
        intro he
        rw [he] at hl'
        cases hl'
      · simp only [ChannelState.stage_world, committed]
        exact List.prefix_refl _

theorem inv_store_unreadable (hi : q.Inv s) (staged : s.staged = none) (hv : v ≤ 1)
    (free : ¬ Held s.mem i)
    (latest : s.mem .latestTicket ≠ 0 → ticketSlot (s.mem .latestTicket) ≠ i) :
    q.Inv (store t (.slotState i) v s) := by
  have slots := hi.slots
  rw [staged] at slots
  have inv : q.Inv ((store t (.slotState i) v s).stage none) :=
    inv_store_state hi (slots.set_unreadable hv latest) (fun hh => (free hh).elim)
      (fun hr => (free (held_of_reading hr)).elim)
  rw [← staged] at inv
  exact inv

theorem inv_store_readable (hi : q.Inv s) (before : Readable s.mem i) (after : ReadableCode v)
    (claimed : HeldCode v → s.pending = some i)
    (epochs : HeldCode v ∨ s.mem (.slotReaderEpoch i) = 0)
    (loans : s.mem (.slotState i) = SlotState.reading.code → ∀ n loan,
      (s.world.client (.consumer n)).readLoan = some loan →
      s.world.crashed (.consumer n) = false →
      (s.world.client (.consumer n)).call ≠ some .release → loan.slotIndex ≠ i) :
    q.Inv (store t (.slotState i) v s) :=
  inv_store_state hi (hi.slots.set_readable before after claimed) (fun _ => epochs) loans

theorem inv_store_published {sample : Sample} (hi : q.Inv s) (staged : s.staged = none)
    (unread : ¬ Readable s.mem i) (hs : Holds s.mem i sample)
    (fresh : sample.sequence = s.world.committed.length + 1) :
    q.Inv ((store t (.slotState i) SlotState.published.code s).stage (some (i, sample))) := by
  have slots := hi.slots
  rw [staged] at slots
  exact inv_store_state hi (slots.set_published hs fresh unread)
    (fun hh => (unread hh.readable).elim)
    (fun hr => (unread (held_of_reading hr).readable).elim)

theorem returnOk_mono {committed committed' : List Sample} {r : ChannelReturn}
    (h : ∀ x ∈ committed, x ∈ committed') (hr : ReturnOk committed r) :
    ReturnOk committed' r := by
  obtain ⟨endpoint, call, result, passed, out, seen, stores⟩ := r
  cases result with
  | error e => exact hr
  | ok x =>
      cases x with
      | published info => exact ⟨hr.1, h _ hr.2⟩
      | read snapshot =>
          obtain ⟨hs, sample, ⟨hc, hd⟩, ho⟩ := hr
          exact ⟨hs, sample, ⟨h _ hc, hd⟩, ho⟩
      | borrowed loan =>
          obtain ⟨hs, sample, hc, hd⟩ := hr
          exact ⟨hs, sample, h _ hc, hd⟩
      | done | lent _ | opened _ | reconnected _ _ => exact hr

/-- The store of the ticket commits the staged sample. -/
theorem inv_store_ticket {sample : Sample} (hi : q.Inv s)
    (staged : s.staged = some (i, sample)) (hlt : i < slotCount) (hs : Holds s.mem i sample)
    (room : s.world.committed.length + 1 ≤ maxSampleSequence)
    (made : ⟨(s.world.client t).storedSequence, (s.world.client t).storedBootNs,
      (s.world.client t).passed⟩ = sample) :
    q.Inv ((store t .latestTicket (makeTicket (s.world.committed.length + 1) i) s).stage
      none) := by
  have committed : (store t .latestTicket (makeTicket (s.world.committed.length + 1) i)
      s).world.committed = s.world.committed ++ [sample] := by
    simp [store, write, made]
  have same : ∀ l', l' ≠ .latestTicket →
      ((store t .latestTicket (makeTicket (s.world.committed.length + 1) i) s).stage
        none).mem l' = s.mem l' := by
    intro l' hne
    simp [hne]
  constructor
  case slots =>
      simp only [ChannelState.stage_world, committed]
      have slots := hi.slots
      rw [staged] at slots
      exact slots.set_ticket hlt hs room
  case registry =>
      refine registry_congr hi.registry rfl rfl rfl rfl (fun _ => store_client_handle) ?_ ?_
      · intro l' hl'
        apply same
        intro he
        rw [he] at hl'
        cases hl'
      · intro j _ hh
        simp only [Held, same (.slotState j) (by simp)]
        exact .inl hh
  case clients =>
      have hc := hi.clients
      constructor
      case seen =>
          intro u
          simp [store, write]
      case loans =>
          intro n loan hl ha hc'
          simp only [ChannelState.stage_world, store_client_loan.1,
            store_client_loan.2.1] at hl hc'
          refine loan_congr (hc.loans n loan hl ha hc') rfl (same _ (by simp)) ?_ ?_
          · intro l' hd
            apply same
            intro he
            rw [he] at hd
            cases hd
          · simp only [ChannelState.stage_world, committed]
            exact List.prefix_append _ _
      case delivered =>
          intro n
          rw [same (.handle (.consumer n) .lastSequence) (by simp)]
          simp only [ChannelState.stage_world, store_client_loan.2.2]
          exact hc.delivered n
      case finished =>
          intro r hr
          simp only [ChannelState.stage_world, committed]
          exact returnOk_mono (fun x hx => List.mem_append_left _ hx) (hc.finished r hr)

end ChannelSystem
end EdgeRuntime

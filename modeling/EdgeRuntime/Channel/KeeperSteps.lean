import EdgeRuntime.Channel.Steps

/-!
The steps of readers and openers: the epochs of the slots being read, the identity
record, and the registration of a consumer.
-/
namespace EdgeRuntime
open Concurrent

namespace ChannelSystem
variable {q : ChannelSystem} {t u : Endpoint} {s s' : ChannelState} {l : ChannelLoc}
  {i n v : Nat}

/-- No slot is being read. -/
def Unread (m : ChannelMem) : Prop := ∀ i, i < slotCount → ¬ Held m i

/-- Nobody is using a loan while no slot is being read. -/
theorem Unread.no_loan {loan : ReadLoan} (h : Unread s.mem) (hl : LoanInv s n loan) : False :=
  h _ hl.slot (held_of_reading hl.state)

theorem Unread.epoch (h : Unread s.mem) (hi : q.RegistryInv s) (hlt : i < slotCount) :
    s.mem (.slotReaderEpoch i) = 0 :=
  (hi.epochs i hlt).resolve_right fun he => h i hlt he.1

section
variable (hl : l.isSlotWord = false)
include hl

theorem store_slotWord {l' : ChannelLoc} (hl' : l'.isSlotWord = true) :
    (store t l v s).mem l' = s.mem l' := by
  rw [store_mem, Words.set_apply, if_neg]
  intro he
  rw [he, hl] at hl'
  cases hl'

theorem store_held : Held (store t l v s).mem i ↔ Held s.mem i := by
  simp only [Held, store_slotWord hl (show (ChannelLoc.slotState i).isSlotWord = true from rfl)]

theorem store_loan {loan : ReadLoan} (h : LoanInv s n loan) :
    LoanInv (store t l v s) n loan := by
  have ticket : l ≠ .latestTicket := by
    intro he
    rw [he] at hl
    cases hl
  refine loan_congr h rfl (store_slotWord hl rfl) ?_ ?_
  · intro l' hd
    exact store_slotWord hl (ChannelLoc.isSlotWord_of_dataSlot? hd)
  · simp only [store_committed ticket, List.prefix_refl]

/-- A store outside the slots only has to answer for its own component. -/
theorem inv_store_outside (hi : q.Inv s) (registry : q.RegistryInv (store t l v s))
    (last : ∀ n, l = .handle (.consumer n) .lastSequence →
      ∀ d ∈ (s.world.client (.consumer n)).delivered, d ≤ v) : q.Inv (store t l v s) := by
  have ticket : l ≠ .latestTicket := by
    intro he
    rw [he] at hl
    cases hl
  refine ⟨?_, registry, ?_⟩
  · rw [store_committed ticket]
    exact hi.slots.congr fun l' hl' => store_slotWord hl hl'
  · have hc := hi.clients
    constructor
    case seen =>
        intro u
        rw [store_seen ticket, store_slotWord hl rfl]
        exact hc.seen u
    case loans =>
        intro n loan hloan ha hcall
        rw [store_client_loan.1] at hloan
        rw [store_client_loan.2.1] at hcall
        exact store_loan hl (hc.loans n loan hloan ha hcall)
    case delivered =>
        intro n
        rw [store_client_loan.2.2, store_mem, Words.set_apply]
        refine ⟨(hc.delivered n).1, ?_⟩
        intro d hd
        split
        · rename_i he
          exact last n he.symm d hd
        · exact (hc.delivered n).2 d hd
    case finished =>
        rw [store_committed ticket]
        exact hc.finished

end

theorem inv_store_lastSequence (hi : q.Inv s)
    (last : ∀ d ∈ (s.world.client (.consumer n)).delivered, d ≤ v) :
    q.Inv (store t (.handle (.consumer n) .lastSequence) v s) := by
  apply inv_store_outside rfl hi
  · refine registry_congr hi.registry rfl rfl rfl rfl (fun _ => store_client_handle) ?_ ?_
    · intro l' hl'
      rw [store_mem, Words.set_apply, if_neg]
      intro he
      rw [he] at hl'
      cases hl'
    · intro j _ hh
      exact .inl ((store_held rfl).2 hh)
  · intro n' he
    cases he
    exact last

theorem inv_store_readerEpoch (hi : q.Inv s)
    (h : v = 0 ∨ Held s.mem i ∧ v = s.mem (.identity false .roleEpoch)) :
    q.Inv (store t (.slotReaderEpoch i) v s) := by
  refine inv_store_outside rfl hi ?_ (by simp)
  have hr := hi.registry
  have same : ∀ l', l' ≠ .slotReaderEpoch i →
      (store t (.slotReaderEpoch i) v s).mem l' = s.mem l' := by
    intro l' hne
    rw [store_mem, Words.set_apply, if_neg hne]
  have identity : ∀ id, IdentityIs s.mem id →
      IdentityIs (store t (.slotReaderEpoch i) v s).mem id := by
    intro id h
    exact ⟨(same _ (by simp)).trans h.pid, (same _ (by simp)).trans h.ticks,
      (same _ (by simp)).trans h.hi, (same _ (by simp)).trans h.lo⟩
  constructor
  case offline => rw [same _ (by simp)]; exact hr.offline
  case states => rw [same _ (by simp)]; exact hr.states
  case online => rw [same _ (by simp), same _ (by simp)]; exact hr.online
  case unread => exact hr.unread
  case registered =>
      rw [same _ (by simp)]
      exact fun r hrd ha => ⟨identity _ (hr.registered r hrd ha).1, (hr.registered r hrd ha).2⟩
  case identity =>
      rw [same _ (by simp)]
      intro heven hne
      obtain ⟨r, hid⟩ := hr.identity heven hne
      exact ⟨r, identity _ hid⟩
  case epoch => rw [same _ (by simp)]; exact hr.epoch
  case epochs =>
      intro j hlt
      rw [same (.identity false .roleEpoch) (by simp), store_held rfl, store_mem,
        Words.set_apply]
      split
      · rename_i he
        cases he
        exact h
      · exact hr.epochs j hlt
  case lock => exact hr.lock
  case handles =>
      intro n h hs
      rw [store_client_handle] at hs
      rw [same _ (by simp), same _ (by simp)]
      exact hr.handles n h hs

/-- The registered consumer, holding nothing, takes itself off the channel. -/
theorem inv_offline (hi : q.Inv s) (free : Unread s.mem) :
    q.Inv ((store t .consumerState EndpointState.offline.code s).register none none) := by
  have hr := hi.registry
  have same : ∀ l', l' ≠ .consumerState →
      (store t .consumerState EndpointState.offline.code s).mem l' = s.mem l' := by
    intro l' hne
    rw [store_mem, Words.set_apply, if_neg hne]
  have hc := hi.clients
  constructor
  case slots =>
      have slots := (hi.slots.set_pending free none).congr
        fun l' hl' => show (store t .consumerState EndpointState.offline.code s).mem l' = _
          from store_slotWord rfl hl'
      simp only [ChannelState.register_world, store_committed (l := .consumerState) (by simp)]
      exact slots
  case registry =>
      have identity : ∀ id, IdentityIs s.mem id → IdentityIs
          (store t .consumerState EndpointState.offline.code s).mem id := by
        intro id h
        exact ⟨(same _ (by simp)).trans h.pid, (same _ (by simp)).trans h.ticks,
          (same _ (by simp)).trans h.hi, (same _ (by simp)).trans h.lo⟩
      constructor
      case offline => exact fun _ => rfl
      case states => exact .inl (by simp)
      case online =>
          intro h
          simp [EndpointState.code] at h
      case unread => exact fun _ => rfl
      case registered =>
          intro r h
          cases h
      case identity =>
          rw [ChannelState.register_mem, same _ (by simp)]
          intro heven hne
          obtain ⟨r, hid⟩ := hr.identity heven hne
          exact ⟨r, identity _ hid⟩
      case epoch => rw [ChannelState.register_mem, same _ (by simp)]; exact hr.epoch
      case epochs =>
          intro j hlt
          rw [ChannelState.register_mem, same _ (by simp)]
          exact .inl (free.epoch hr hlt)
      case lock => exact hr.lock
      case handles =>
          intro n h hs
          rw [ChannelState.register_world, store_client_handle] at hs
          rw [ChannelState.register_mem, same _ (by simp)]
          refine ⟨(hr.handles n h hs).1, ?_⟩
          intro _ ho
          simp [EndpointState.code] at ho
  case clients =>
      refine clients_congr hc (same _ (by simp)) (store_seen (by simp)) rfl
        (fun _ => store_client_loan) (fun n => same _ (by simp)) rfl
        (store_committed (by simp)) ?_
      intro n loan h _ _ _
      exact (free.no_loan h).elim

/-- An opener that found the channel vacant registers itself. -/
theorem inv_online (hi : q.Inv s) (free : Unread s.mem) (parses : q.Parses)
    (identity : IdentityIs s.mem (q.self (.consumer n)))
    (even : s.mem (.identity false .roleEpoch) % 2 = 0)
    (epoch : s.mem (.identity false .roleEpoch) ≠ 0)
    (fresh : ∀ m h, (s.world.client (.consumer m)).handle = some h →
      h.roleEpoch < s.mem (.identity false .roleEpoch)) :
    q.Inv ((store t .consumerState EndpointState.online.code s).register (some n) none) := by
  have hr := hi.registry
  have same : ∀ l', l' ≠ .consumerState →
      (store t .consumerState EndpointState.online.code s).mem l' = s.mem l' := by
    intro l' hne
    rw [store_mem, Words.set_apply, if_neg hne]
  have identity' : IdentityIs
      (store t .consumerState EndpointState.online.code s).mem (q.self (.consumer n)) :=
    ⟨(same _ (by simp)).trans identity.pid, (same _ (by simp)).trans identity.ticks,
      (same _ (by simp)).trans identity.hi, (same _ (by simp)).trans identity.lo⟩
  constructor
  case slots =>
      have slots := (hi.slots.set_pending free none).congr
        fun l' hl' => show (store t .consumerState EndpointState.online.code s).mem l' = _
          from store_slotWord rfl hl'
      simp only [ChannelState.register_world, store_committed (l := .consumerState) (by simp)]
      exact slots
  case registry =>
      constructor
      case offline =>
          intro h
          simp [EndpointState.code] at h
      case states => exact .inr (by simp)
      case online =>
          intro _
          rw [ChannelState.register_mem, same _ (by simp)]
          exact ⟨epoch, parses⟩
      case unread => exact fun _ => rfl
      case registered =>
          intro r h _
          cases h
          refine ⟨identity', ?_⟩
          rw [ChannelState.register_mem, same _ (by simp)]
          exact even
      case identity => exact fun _ _ => ⟨n, identity'⟩
      case epoch => rw [ChannelState.register_mem, same _ (by simp)]; exact hr.epoch
      case epochs =>
          intro j hlt
          rw [ChannelState.register_mem, same _ (by simp)]
          exact .inl (free.epoch hr hlt)
      case lock => exact hr.lock
      case handles =>
          intro m h hs
          rw [ChannelState.register_world, store_client_handle] at hs
          rw [ChannelState.register_mem, same _ (by simp)]
          have older := fresh m h hs
          exact ⟨Nat.le_of_lt older, fun he => (Nat.ne_of_lt older he).elim⟩
  case clients =>
      refine clients_congr hi.clients (same _ (by simp)) (store_seen (by simp)) rfl
        (fun _ => store_client_loan) (fun n => same _ (by simp)) rfl
        (store_committed (by simp)) ?_
      intro n loan h _ _ _
      exact (free.no_loan h).elim

/-- One store of an identity write on a vacant channel: the epoch is odd until every
word is in place. -/
theorem inv_store_identity {word : IdentityWord} (hi : q.Inv s) (free : Unread s.mem)
    (vacant : s.Vacant)
    (odd : word ≠ .roleEpoch → s.mem (.identity false .roleEpoch) % 2 ≠ 0)
    (epoch : word = .roleEpoch → s.mem (.identity false .roleEpoch) < v ∧ v ≤ uint64Max ∧
      (v % 2 = 0 → ∃ r, IdentityIs s.mem (q.self (.consumer r)))) :
    q.Inv (store t (.identity false word) v s) := by
  have hr := hi.registry
  have same : ∀ l', l' ≠ .identity false word →
      (store t (.identity false word) v s).mem l' = s.mem l' := by
    intro l' hne
    rw [store_mem, Words.set_apply, if_neg hne]
  refine inv_store_outside rfl hi ?_ (by simp)
  constructor
  case offline => rw [same _ (by simp)]; exact hr.offline
  case states => rw [same _ (by simp)]; exact hr.states
  case online =>
      rw [same _ (by simp)]
      intro ho
      by_cases hw : word = .roleEpoch
      · subst hw
        have later := (epoch rfl).1
        simp only [store_mem, Words.set_apply, if_true]
        exact ⟨by omega, (hr.online ho).2⟩
      · rw [same _ (by simpa using Ne.symm hw)]
        exact hr.online ho
  case unread => exact hr.unread
  case registered =>
      intro r h ha
      exact absurd (vacant r h) (by simpa using ha)
  case identity =>
      intro heven hne
      by_cases hw : word = .roleEpoch
      · subst hw
        simp only [store_mem, Words.set_apply, if_true] at heven
        obtain ⟨r, hid⟩ := (epoch rfl).2.2 heven
        exact ⟨r, (same _ (by simp)).trans hid.pid, (same _ (by simp)).trans hid.ticks,
          (same _ (by simp)).trans hid.hi, (same _ (by simp)).trans hid.lo⟩
      · rw [same _ (by simpa using Ne.symm hw)] at heven
        exact (odd hw heven).elim
  case epoch =>
      by_cases hw : word = .roleEpoch
      · subst hw
        simpa using (epoch rfl).2.1
      · rw [same _ (by simpa using Ne.symm hw)]
        exact hr.epoch
  case epochs =>
      intro j hlt
      rw [same _ (by simp)]
      exact .inl (free.epoch hr hlt)
  case lock => exact hr.lock
  case handles =>
      intro n h hs
      rw [store_client_handle] at hs
      have older := hr.handles n h hs
      by_cases hw : word = .roleEpoch
      · subst hw
        have later := Nat.lt_of_le_of_lt older.1 (epoch rfl).1
        simp only [store_mem, Words.set_apply, if_true]
        exact ⟨Nat.le_of_lt later, fun he => (Nat.ne_of_lt later he).elim⟩
      · rw [same _ (by simpa using Ne.symm hw), same _ (by simp)]
        exact older

/-- A registered consumer that holds nothing chooses the slot it will claim. -/
theorem inv_pending (pending : Option Nat) (hi : q.Inv s) (free : Unread s.mem)
    (reader : s.reader = some n) : q.Inv (s.register s.reader pending) where
  slots := hi.slots.set_pending free pending
  registry := by
    have hr := hi.registry
    refine ⟨hr.offline, hr.states, hr.online, ?_, hr.registered, hr.identity, hr.epoch,
      hr.epochs, hr.lock, hr.handles⟩
    intro h
    cases reader.symm.trans h
  clients := by
    refine clients_congr hi.clients rfl rfl rfl (fun _ => ⟨rfl, rfl, rfl⟩) (fun _ => rfl) rfl
      rfl ?_
    intro n loan h _ _ _
    exact loan_congr h rfl rfl (fun _ _ => rfl) (List.prefix_refl _)

end ChannelSystem
end EdgeRuntime

import EdgeRuntime.Channel.KeeperSteps

/-!
The steps outside shared memory: the control lock, the caller's buffer, the start and
the end of a call, and a process that dies.
-/
namespace EdgeRuntime
open Concurrent

namespace ChannelSystem
variable {q : ChannelSystem} {t u : Endpoint} {s s' : ChannelState} {n v : Nat}

/-- The handles of another world were there before, but for one the registered consumer
may just have received. -/
def Issues (s : ChannelState) (w : ChannelWorld) : Prop :=
  ∀ n h, (w.client (.consumer n)).handle = some h →
    (s.world.client (.consumer n)).handle = some h ∨
      (s.Keeper (.consumer n) ∧ s.reader = some n ∧
        h.roleEpoch = s.mem (.identity false .roleEpoch))

theorem issues_client {w : ChannelWorld} (client : w.client = s.world.client) :
    Issues s w := by
  intro n h hs
  rw [client] at hs
  exact .inl hs

/-- Events outside shared memory change a client's records and the history. -/
theorem inv_setWorld {w : ChannelWorld} (hi : q.Inv s) (mem : w.mem = s.world.mem)
    (committed : w.committed = s.world.committed)
    (crashed : w.crashed = s.world.crashed)
    (lock : ∀ t, w.lock = some t → w.crashed t = false) (issues : Issues s w)
    (clients : ClientsInv (s.setWorld w)) : q.Inv (s.setWorld w) := by
  have hm : (s.setWorld w).mem = s.mem := mem
  have hr := hi.registry
  refine ⟨?_, ?_, clients⟩
  · simp only [hm, ChannelState.setWorld_world, committed]
    exact hi.slots
  · refine ⟨?_, ?_, ?_, hr.unread, ?_, ?_, ?_, ?_, lock, ?_⟩
    · rw [hm]; exact hr.offline
    · rw [hm]; exact hr.states
    · rw [hm]; exact hr.online
    · rw [hm, ChannelState.setWorld_world, crashed]; exact hr.registered
    · rw [hm]; exact hr.identity
    · rw [hm]; exact hr.epoch
    · rw [hm]; exact hr.epochs
    · rw [hm]
      intro n h hs
      rcases issues n h hs with hs | ⟨_, reader, epoch⟩
      · exact hr.handles n h hs
      · exact ⟨Nat.le_of_eq epoch, fun _ _ => reader⟩

theorem rely_setWorld {w : ChannelWorld} (mem : w.mem = s.world.mem)
    (committed : w.committed = s.world.committed)
    (crashed : w.crashed u = s.world.crashed u)
    (dead : ∀ r, s.world.crashed r = true → w.crashed r = true)
    (client : w.client u = s.world.client u) (seen : w.seen u = s.world.seen u)
    (lock : s.world.lock = some u → w.lock = some u) (issues : Issues s w) :
    Rely u s (s.setWorld w) where
  crashed := crashed
  client := client
  committed := by
    simp only [ChannelState.setWorld_world, committed, List.prefix_refl]
  seen := by
    rw [ChannelState.setWorld_world, seen]
    exact fun _ h => h
  lock := lock
  words l _ := congrFun mem l
  keeper hk := by
    have held : ∀ i, Held (s.setWorld w).mem i → Held s.mem i := by
      intro i hh
      simp only [Held, ChannelState.setWorld_mem, mem] at hh
      exact hh
    refine ⟨?_, rfl, rfl, held, ?_⟩
    · rcases hk with ⟨n, hn, hr, ha⟩ | ⟨hl, hv⟩
      · exact .inl ⟨n, hn, hr, crashed.trans ha⟩
      · exact .inr ⟨lock hl, fun r hr => dead _ (hv r hr)⟩
    · intro n h hs
      rcases issues n h hs with hs' | ⟨keeper, _⟩
      · exact hs'
      · -- the handle is this endpoint's own
        cases ChannelState.keeper_unique hk keeper
        rw [← client]
        exact hs
  writer _ := by
    refine ⟨rfl, committed, ?_, .inl rfl⟩
    intro i hread
    simp only [Readable, ChannelState.setWorld_mem, mem]
    exact hread

/-- A process dies: its lock is released, and it is no longer anybody's reader. -/
theorem inv_crash (hi : q.Inv s) : q.Inv (s.setWorld (q.machine.crash t s.world)) := by
  have crashed : ∀ u, Function.update s.world.crashed t true u = false →
      s.world.crashed u = false ∧ u ≠ t := by
    intro u hu
    rw [Function.update_apply] at hu
    split at hu
    · cases hu
    · exact ⟨hu, ‹_›⟩
  have hr := hi.registry
  refine ⟨hi.slots, ?_, ?_⟩
  · refine ⟨hr.offline, hr.states, hr.online, hr.unread, ?_, hr.identity, hr.epoch,
      hr.epochs, ?_, hr.handles⟩
    · exact fun r h ha => hr.registered r h (crashed _ ha).1
    · intro u hu
      have lock : (if s.world.lock = some t then none else s.world.lock) = some u := hu
      split at lock
      · cases lock
      · rename_i hne
        change Function.update s.world.crashed t true u = false
        rw [Function.update_of_ne (fun he => hne (by rw [lock, he]))]
        exact hr.lock u lock
  · have hc := hi.clients
    refine ⟨hc.seen, ?_, hc.delivered, hc.finished⟩
    intro n loan hl ha hcall
    exact loan_congr (hc.loans n loan hl (crashed _ ha).1 hcall) rfl rfl (fun _ _ => rfl)
      (List.prefix_refl _)

theorem guar_setWorld {w : ChannelWorld} (mem : w.mem = s.world.mem)
    (committed : w.committed = s.world.committed)
    (crashed : ∀ u, u ≠ t → w.crashed u = s.world.crashed u)
    (dead : ∀ r, s.world.crashed r = true → w.crashed r = true)
    (client : ∀ u, u ≠ t → w.client u = s.world.client u)
    (seen : ∀ u, u ≠ t → w.seen u = s.world.seen u)
    (lock : ∀ u, u ≠ t → s.world.lock = some u → w.lock = some u) (issues : Issues s w) :
    q.logic.guar t s (s.setWorld w) :=
  ⟨fun u hne => rely_setWorld mem committed (crashed u hne) dead (client u hne) (seen u hne)
    (lock u hne) issues, fun _ l _ _ => congrFun mem l⟩

theorem guar_crash : q.logic.guar t s (s.setWorld (q.machine.crash t s.world)) := by
  refine guar_setWorld rfl rfl (fun u hne => Function.update_of_ne hne _ _) ?_
    (fun _ _ => rfl) (fun _ _ => rfl) ?_ (issues_client rfl)
  · intro r h
    change Function.update s.world.crashed t true r = true
    rw [Function.update_apply]
    split
    · rfl
    · exact h
  · intro u hne h
    change (if s.world.lock = some t then none else s.world.lock) = some u
    rw [if_neg, h]
    intro he
    cases h.symm.trans he
    exact hne rfl

/-- The same world with another holder of the control lock. -/
def setLock (lock : Option Endpoint) (w : ChannelWorld) : ChannelWorld :=
  { w with lock := lock }

theorem inv_lock {lock : Option Endpoint} (hi : q.Inv s)
    (alive : ∀ t, lock = some t → s.world.crashed t = false) :
    q.Inv (s.setWorld (setLock lock s.world)) := by
  refine inv_setWorld hi rfl rfl rfl alive (issues_client rfl) ?_
  refine clients_congr hi.clients rfl rfl rfl (fun _ => ⟨rfl, rfl, rfl⟩) (fun _ => rfl) rfl
    rfl ?_
  intro n loan h _ _ _
  exact loan_congr h rfl rfl (fun _ _ => rfl) (List.prefix_refl _)

theorem step_lock {w : ChannelWorld} (hi : q.Inv s) (alive : s.world.crashed t = false)
    (taken : q.memory.lock t s.world = some w) :
    w = setLock (some t) s.world ∧ q.Inv (s.setWorld w) ∧
      q.logic.guar t s (s.setWorld w) := by
  have hl : (if s.world.lock = none then some (setLock (some t) s.world) else none) =
      some w := taken
  split at hl
  · rename_i free
    cases hl
    refine ⟨rfl, inv_lock hi ?_, ?_⟩
    · intro u hu
      cases hu
      exact alive
    · refine guar_setWorld rfl rfl (fun _ _ => rfl) (fun _ h => h) (fun _ _ => rfl)
        (fun _ _ => rfl) ?_ (issues_client rfl)
      intro u _ h
      rw [free] at h
      cases h
  · cases hl

theorem step_unlock (hi : q.Inv s) (held : s.world.lock = some t) :
    q.Inv (s.setWorld (setLock none s.world)) ∧
      q.logic.guar t s (s.setWorld (setLock none s.world)) := by
  constructor
  · apply inv_lock hi
    intro u hu
    cases hu
  · refine guar_setWorld rfl rfl (fun _ _ => rfl) (fun _ h => h) (fun _ _ => rfl)
      (fun _ _ => rfl) ?_ (issues_client rfl)
    intro u hne h
    cases held.symm.trans h
    exact (hne rfl).elim

/-- A byte of the caller's own buffer. -/
theorem step_fill {j : Nat} (hi : q.Inv s) :
    q.Inv (s.setWorld (fill t j v s.world)) ∧
      q.logic.guar t s (s.setWorld (fill t j v s.world)) := by
  have client : ∀ u, u ≠ t → (fill t j v s.world).client u = s.world.client u :=
    fun u hne => Function.update_of_ne hne _ _
  have issues : Issues s (fill t j v s.world) := by
    intro n h hs
    by_cases hn : Endpoint.consumer n = t
    · subst hn
      exact .inl (by simpa [fill] using hs)
    · rw [client _ hn] at hs
      exact .inl hs
  constructor
  · refine inv_setWorld hi rfl rfl rfl hi.registry.lock issues ?_
    refine clients_congr hi.clients rfl rfl rfl ?_ (fun _ => rfl) rfl rfl ?_
    · intro n
      by_cases hn : Endpoint.consumer n = t
      · subst hn
        simp [fill]
      · rw [ChannelState.setWorld_world, client _ hn]
        exact ⟨rfl, rfl, rfl⟩
    · intro n loan h _ _ _
      exact loan_congr h rfl rfl (fun _ _ => rfl) (List.prefix_refl _)
  · exact guar_setWorld rfl rfl (fun _ _ => rfl) (fun _ h => h) client (fun _ _ => rfl)
      (fun _ _ h => h) issues

/-- Who sleeps is nobody's concern here. -/
theorem step_futex (log : FutexLog Endpoint) (hi : q.Inv s) :
    q.Inv (s.setWorld (setFutex log s.world)) ∧
      q.logic.guar t s (s.setWorld (setFutex log s.world)) := by
  constructor
  · refine inv_setWorld hi rfl rfl rfl hi.registry.lock (issues_client rfl) ?_
    refine clients_congr hi.clients rfl rfl rfl (fun _ => ⟨rfl, rfl, rfl⟩) (fun _ => rfl) rfl
      rfl ?_
    intro n loan h _ _ _
    exact loan_congr h rfl rfl (fun _ _ => rfl) (List.prefix_refl _)
  · exact guar_setWorld rfl rfl (fun _ _ => rfl) (fun _ h => h) (fun _ _ => rfl)
      (fun _ _ => rfl) (fun _ _ h => h) (issues_client rfl)

section
variable {a : ChannelCall} {x : Except Error ChannelResult}

theorem enter_client_self (w : ChannelWorld) :
    (q.machine.enter t a w).client t = enterClient t a w := Function.update_self _ _ _

theorem enter_client_other (w : ChannelWorld) (hne : u ≠ t) :
    (q.machine.enter t a w).client u = w.client u := Function.update_of_ne hne _ _

theorem leave_client_self (w : ChannelWorld) : (q.machine.leave t a x w).client t =
    leaveClient a x (w.client t) := Function.update_self _ _ _

theorem leave_client_other (w : ChannelWorld) (hne : u ≠ t) :
    (q.machine.leave t a x w).client u = w.client u := Function.update_of_ne hne _ _

theorem step_enter (hi : q.Inv s) (idle : (s.world.client t).call = none) :
    q.Inv (s.setWorld (q.machine.enter t a s.world)) ∧
      q.logic.guar t s (s.setWorld (q.machine.enter t a s.world)) := by
  have client : ∀ u, u ≠ t → (q.machine.enter t a s.world).client u = s.world.client u :=
    fun u hne => enter_client_other _ hne
  have seen : ∀ u, u ≠ t → (q.machine.enter t a s.world).seen u = s.world.seen u :=
    fun u hne => Function.update_of_ne hne _ _
  have hc := hi.clients
  have issues : Issues s (q.machine.enter t a s.world) := by
    intro n h hs
    by_cases hn : Endpoint.consumer n = t
    · subst hn
      rw [enter_client_self] at hs
      exact .inl hs
    · rw [client _ hn] at hs
      exact .inl hs
  refine ⟨inv_setWorld hi rfl rfl rfl hi.registry.lock issues ?_, guar_setWorld rfl rfl
    (fun _ _ => rfl) (fun _ h => h) client seen (fun _ _ h => h) issues⟩
  constructor
  case seen =>
      intro u
      by_cases hu : u = t
      · subst hu
        have : (q.machine.enter u a s.world).seen u = [s.world.mem .latestTicket] :=
          Function.update_self _ _ _
        rw [ChannelState.setWorld_world, this]
        exact List.mem_singleton.2 rfl
      · rw [ChannelState.setWorld_world, seen u hu]
        exact hc.seen u
  case loans =>
      intro n loan hl ha hcall
      have before : LoanInv s n loan := by
        by_cases hn : Endpoint.consumer n = t
        · subst hn
          rw [ChannelState.setWorld_world, enter_client_self] at hl
          exact hc.loans n loan hl ha (by rw [idle]; simp)
        · rw [ChannelState.setWorld_world, client _ hn] at hl hcall
          exact hc.loans n loan hl ha hcall
      exact loan_congr before rfl rfl (fun _ _ => rfl) (List.prefix_refl _)
  case delivered =>
      intro n
      by_cases hn : Endpoint.consumer n = t
      · subst hn
        rw [ChannelState.setWorld_world, enter_client_self]
        have same := hc.delivered n
        cases a with
        | openConsumer => exact ⟨List.Pairwise.nil, by simp [enterClient]⟩
        | _ => exact same
      · rw [ChannelState.setWorld_world, client _ hn]
        exact hc.delivered n
  case finished => exact hc.finished

theorem step_leave (hi : q.Inv s)
    (ok : ReturnOk s.world.committed ⟨t, a, x, (s.world.client t).passed,
      (s.world.client t).out, s.world.seen t, (s.world.client t).ticketStores⟩)
    (loans : ∀ n loan, t = .consumer n →
      (keepResult a x (s.world.client t)).readLoan = some loan → LoanInv s n loan)
    (delivered : ∀ n, t = .consumer n →
      (keepResult a x (s.world.client t)).delivered.Pairwise (· < ·) ∧
      ∀ v ∈ (keepResult a x (s.world.client t)).delivered,
        v ≤ s.mem (.handle (.consumer n) .lastSequence))
    (opens : ∀ n h, t = .consumer n → (keepResult a x (s.world.client t)).handle = some h →
      (s.world.client t).handle = some h ∨
        (s.Keeper t ∧ s.reader = some n ∧ h.roleEpoch = s.mem (.identity false .roleEpoch))) :
    q.Inv (s.setWorld (q.machine.leave t a x s.world)) ∧
      q.logic.guar t s (s.setWorld (q.machine.leave t a x s.world)) := by
  have client : ∀ u, u ≠ t → (q.machine.leave t a x s.world).client u = s.world.client u :=
    fun u hne => leave_client_other _ hne
  have hc := hi.clients
  have issues : Issues s (q.machine.leave t a x s.world) := by
    intro n h hs
    by_cases hn : Endpoint.consumer n = t
    · subst hn
      rw [leave_client_self] at hs
      exact opens n h rfl hs
    · rw [client _ hn] at hs
      exact .inl hs
  refine ⟨inv_setWorld hi rfl rfl rfl hi.registry.lock issues ?_, guar_setWorld rfl rfl
    (fun _ _ => rfl) (fun _ h => h) client (fun _ _ => rfl) (fun _ _ h => h) issues⟩
  constructor
  case seen => exact hc.seen
  case loans =>
      intro n loan hl ha hcall
      have before : LoanInv s n loan := by
        by_cases hn : Endpoint.consumer n = t
        · rw [ChannelState.setWorld_world, hn, leave_client_self] at hl
          exact loans n loan hn.symm hl
        · rw [ChannelState.setWorld_world, client _ hn] at hl hcall
          exact hc.loans n loan hl ha hcall
      exact loan_congr before rfl rfl (fun _ _ => rfl) (List.prefix_refl _)
  case delivered =>
      intro n
      by_cases hn : Endpoint.consumer n = t
      · subst hn
        rw [ChannelState.setWorld_world, leave_client_self]
        exact delivered n rfl
      · rw [ChannelState.setWorld_world, client _ hn]
        exact hc.delivered n
  case finished =>
      intro r hr
      rcases List.mem_append.1 hr with hr | hr
      · exact hc.finished r hr
      · rw [List.mem_singleton.1 hr]
        exact ok

end

end ChannelSystem
end EdgeRuntime

import EdgeRuntime.Control.Calls

/-!
The broker's socket and the notes on handles. No record depends on them: whatever a call
does there leaves what the lock protects alone.
-/
namespace EdgeRuntime
open Concurrent

/-- The instruction looks, or touches only the broker's path and the notes on handles. -/
def ControlInstr.beside : ControlInstr → Bool
  | .bind _ | .unlinkPath | .listen _ | .stopServer _ | .unlinkSocket _ => true
  | i => i.looks

namespace ControlSystem

section Aside
variable {T : Type} {q : ControlSystem T} {ρ : Regime} {w w' : ControlWorld T} {t : T}

/-- Only the path, the listeners and the notes on the handles of `t` differ. -/
def Aside (t : T) (w w' : ControlWorld T) : Prop :=
  ∃ path serving handles, w' = { w with path, serving, handles } ∧
    (∀ u, u ≠ t → handles u = w.handles u) ∧
    ∀ h ∈ handles t, ∃ h' ∈ w.handles t, h = { h' with socketUnlinked := h.socketUnlinked }

theorem Aside.quiet {path : Option FileIdentity} {serving : FileIdentity → Bool} :
    Aside t w { w with path, serving } :=
  ⟨path, serving, w.handles, rfl, fun _ _ => rfl, fun h mem => ⟨h, mem, rfl⟩⟩

theorem Aside.note [DecidableEq T] (o : FileIdentity) (path : Option FileIdentity) :
    Aside t w { w.noteUnlinked t o with path } := by
  refine ⟨path, w.serving, _, rfl, fun u other => Function.update_of_ne other _ _, ?_⟩
  intro h mem
  change h ∈ Function.update w.handles t _ t at mem
  rw [Function.update_self] at mem
  obtain ⟨h', mem', rfl⟩ := List.mem_map.1 mem
  refine ⟨h', mem', ?_⟩
  split <;> rfl

theorem Aside.inv (h : Aside t w w') (inv : q.Inv ρ w) : q.Inv ρ w' := by
  obtain ⟨path, serving, handles, rfl, others, mine⟩ := h
  refine inv.aside fun u h mem => ?_
  by_cases same : u = t
  · subst same
    obtain ⟨h', mem', eq⟩ := mine h mem
    have owns := inv.owned u h' mem'
    rw [eq]
    exact ⟨owns.maker, owns.committed, owns.self, owns.channel, owns.transport,
      ⟨owns.names.generation, owns.names.nonceHi, owns.names.nonceLo⟩⟩
  · rw [others u same] at mem
    exact inv.owned u h mem

theorem Aside.guar (h : Aside t w w') : Guar t w w' := by
  obtain ⟨path, serving, handles, rfl, others, _⟩ := h
  exact .aside others

theorem Aside.holds {v : View} (h : Aside t w w') (holds : Holds t v w) : Holds t v w' := by
  obtain ⟨path, serving, handles, rfl, _⟩ := h
  exact ⟨holds.lock, holds.journal, holds.name, holds.born⟩

theorem Aside.leaves (h : Aside t w w') (leaves : Leaves ρ t w) : Leaves ρ t w' := by
  obtain ⟨path, serving, handles, rfl, _⟩ := h
  exact leaves

theorem Aside.owns {handle : InstanceHandle} (h : Aside t w w') (owns : q.Owns ρ t handle w) :
    q.Owns ρ t handle w' := by
  obtain ⟨path, serving, handles, rfl, _⟩ := h
  exact owns.congr rfl rfl

end Aside

variable {T : Type} [DecidableEq T] {q : ControlSystem T} {ρ : Regime} {w w' : ControlWorld T}
  {t : T} {P : ControlWorld T → Prop} {α : Type}

theorem exec_beside {i : ControlInstr} (h : i.beside = true) {r : ControlReply i}
    (exec : q.exec t i w r w') : Aside t w w' := by
  cases i with
  | bind fd =>
      rcases exec with ⟨_, _, rfl⟩ | ⟨_, _, rfl⟩ | ⟨_, rfl⟩ <;> exact .quiet
  | unlinkPath | listen _ =>
      rcases exec with ⟨_, rfl⟩ | ⟨_, rfl⟩ <;> exact .quiet
  | stopServer _ =>
      obtain rfl := exec
      exact .quiet
  | unlinkSocket fd =>
      rcases exec with rfl | rfl <;> exact .note fd _
  | currentIdentity | preadJournal | fdatasync | shmOpen | fstat _ | statx _
  | preadBootstrap _ | preadHeader _ | mmap _ _ | readBootstrap _ | loadBootInitState _
  | readHeader _ | readProducer _ | loadProducerState _ | probe _ _ | getrandom
  | socket | connect | chmodPath | startServer _ =>
      obtain rfl := exec_looks rfl exec
      exact .quiet
  | acquireLock | releaseLock | pwrite _ _ | shmCreate | shmUnlink | memfdCreate
  | ftruncate _ _ | fillHeader _ _ | writeProducer _ _ | storeInitState _ _
  | storeProducerState _ _ | storeBootInitState _ _ => cases h

/-- Code that stays beside the records keeps what does not depend on the path. -/
theorem wp_beside {p : ControlCode α} {E : Except Error α → Prop}
    (all : p.All fun i => i.beside = true) (ends : p.Ends E) (stable : (q.logic ρ).Stable t P)
    (keeps : ∀ w w', P w → Aside t w w' → P w') (pre : P w) :
    (q.logic ρ).wp t (fun x w => E x ∧ P w) p w := by
  refine Logic.wp_frame P stable (fun i beside w₁ inv p r w₂ exec => ?_) all ends pre
  have aside := exec_beside beside exec.1
  exact ⟨w₂, rfl, aside.inv inv, aside.guar, keeps w₁ w₂ p aside⟩

/-! ### The programs -/

theorem beside_announceSocket (fd : FileIdentity) :
    (announceSocket fd).All fun i => i.beside = true := by
  refine ⟨rfl, fun r => ?_⟩
  cases r with
  | error _ => exact ⟨rfl, fun _ => trivial⟩
  | ok _ =>
      refine ⟨rfl, fun r => ?_⟩
      cases r with
      | error _ => exact ⟨rfl, fun _ => trivial⟩
      | ok _ => trivial

theorem beside_retry (fd : FileIdentity) (answer : BindAnswer) :
    (rebindSocket.retry fd answer).All fun i => i.beside = true := by
  cases answer with
  | bound => exact beside_announceSocket fd
  | addressInUse | failed _ => trivial

theorem beside_rebindSocket (fd : FileIdentity) :
    (rebindSocket fd).All fun i => i.beside = true := by
  refine ⟨rfl, fun live => ?_⟩
  cases live with
  | true => trivial
  | false =>
      refine ⟨rfl, fun r => ?_⟩
      cases r with
      | ok _ => exact ⟨rfl, beside_retry fd⟩
      | error failure =>
          dsimp only
          split
          · trivial
          · exact ⟨rfl, beside_retry fd⟩

theorem beside_fdBrokerBind (uid : Nat) (channelName : String) (fd : FileIdentity) :
    (fdBrokerBind uid channelName fd).All fun i => i.beside = true := by
  refine ⟨rfl, fun r => ?_⟩
  cases r with
  | error _ => trivial
  | ok _ =>
      change Prog.All _ (if _ then _ else _)
      split
      · trivial
      · refine ⟨rfl, fun answer => ?_⟩
        cases answer with
        | bound => exact beside_announceSocket fd
        | addressInUse => exact beside_rebindSocket fd
        | failed _ => trivial

end ControlSystem
end EdgeRuntime

import EdgeRuntime.Control.Reconcile

/-!
The instance of a predecessor. A creation takes it away only after it has seen that its
producer has left or is dead, and goes on with the generation after it.
-/
namespace EdgeRuntime
open Concurrent

namespace ControlSystem
variable {T : Type} [DecidableEq T] {q : ControlSystem T} {ρ : Regime} {w : ControlWorld T}
  {t : T} {v : View} {o : FileIdentity} {P : ControlWorld T → Prop} {α : Type}

/-- Code that only looks keeps what is known. -/
theorem wp_onlyLooks {p : ControlCode α} (all : p.All fun i => i.looks = true)
    (stable : (q.logic ρ).Stable t P) (pre : P w) :
    (q.logic ρ).wp t (fun _ w => P w) p w := by
  refine Logic.wp_mono (fun _ _ _ h => h.2) (Logic.wp_frame P stable
    (fun i looks w₁ inv p r w₂ exec => ?_) all (Prog.ends_true p) pre)
  obtain rfl := exec_looks looks exec.1
  exact ⟨w₂, rfl, inv, Guar.refl t w₂, p⟩

theorem looks_checkOtherTransport {options : ChannelOptions} {journal : ControlJournalV1} :
    (checkOtherTransport options journal).All fun i => i.looks = true := by
  unfold checkOtherTransport
  split
  · refine ⟨rfl, fun r => ?_⟩
    cases r <;> trivial
  · trivial

theorem ready_of_mapped {σ : SegmentState}
    (h : σ.mapped.initState = InitState.ready.code) :
    ∃ boot, σ.boot = some boot ∧ boot.initState = InitState.ready.code := by
  unfold SegmentState.mapped at h
  cases hb : σ.boot with
  | none =>
      rw [hb] at h
      cases h
  | some boot =>
      rw [hb] at h
      exact ⟨boot, rfl, h⟩

/-- What a creation learns of an instance it may replace. -/
def Replaceable (t : T) (P : ControlWorld T → Prop) (o : FileIdentity) (x : Except Error Nat)
    (w : ControlWorld T) : Prop :=
  (∀ g, x = .ok g → Doomed t o w ∧ g = (w.segment o).header.generation + 1) ∧ P w

theorem wp_irreplaceable {e : Error} (stable : (q.logic ρ).Stable t P) (pre : P w) :
    (q.logic ρ).wp t (Replaceable t P o) (.throw e) w := by
  refine Logic.wp_throw P stable pre fun w _ p => ⟨?_, p⟩
  rintro _ ⟨⟩

section Existing
variable (stable : (q.logic ρ).Stable t P) (holds : ∀ w, P w → Holds t v w)
include stable holds

/-- What the checks on the old producer rest on: its identity record, and a state word that
did not say it was active. -/
structure Seen (t : T) (P : ControlWorld T → Prop) (o : FileIdentity) (old : ProcessIdentityAbi)
    (producerState : Nat) (w : ControlWorld T) : Prop where
  base : P w
  ready : (w.segment o).Ready
  old : (w.segment o).producer = old
  state : activelyOwned producerState = false →
    activelyOwned (w.segment o).producerState = false

theorem stable_seen {old : ProcessIdentityAbi} {producerState : Nat} :
    (q.logic ρ).Stable t (Seen t P o old producerState) := by
  intro w w' h rely inv
  have left := (rely.held (holds w h.base).lock).segment o
  refine ⟨stable w w' h.base rely inv, ?_, ?_, fun idle => left.idle (h.state idle)⟩
  · rcases left with same | left
    · rw [same]
      exact h.ready
    · rw [left]
      exact h.ready
  · rcases left with same | left
    · rw [same]
      exact h.old
    · rw [left]
      exact h.old

/-- The old producer is out of the way once this check has passed. -/
theorem wp_checkOldProducer {old : ProcessIdentityAbi} {producerState : Nat}
    (pre : Seen t P o old producerState w) :
    (q.logic ρ).wp t (fun x w => (∀ u, x = .ok u → Doomed t o w) ∧
      Seen t P o old producerState w) (checkOldProducer old producerState) w := by
  have keep : (q.logic ρ).Stable t (Seen t P o old producerState) := stable_seen stable holds
  -- the two ways to pass
  have left : ∀ {w}, Seen t P o old producerState w → activelyOwned producerState = false →
      Doomed t o w := fun h idle _ _ => .inr (.inr (h.state idle))
  have refused : ∀ {e : Error} {w}, Seen t P o old producerState w →
      (q.logic ρ).wp t (fun x w => (∀ u, x = .ok u → Doomed t o w) ∧
        Seen t P o old producerState w) (.throw e : ControlCode Unit) w := by
    refine fun h => Logic.wp_throw _ keep h fun w _ h => ⟨?_, h⟩
    rintro _ ⟨⟩
  unfold checkOldProducer
  split
  · exact refused pre
  · rename_i valid
    split
    · refine wp_look rfl keep pre fun w₁ r inv h exec _ => ?_
      obtain ⟨_, answer⟩ := exec
      split
      · exact refused h
      · rename_i alive
        split
        · exact refused h
        · rename_i unverifiable
          have doomed : Doomed t o w₁ := by
            cases active : activelyOwned producerState with
            | false => exact left h active
            | true =>
                intro m made
                refine .inr (.inl ?_)
                cases living : w₁.dead m with
                | true => rfl
                | false =>
                    have signed := inv.signed o m made h.ready
                    rw [h.old] at signed
                    rw [signed] at answer
                    rcases q.accurate w₁ m r living answer with yes | unsure
                    · exact (alive ⟨yes, active⟩).elim
                    · exact (unverifiable ⟨unsure, active⟩).elim
          refine Logic.wp_ret (fun w => Doomed t o w ∧ Seen t P o old producerState w) ?_
            ⟨doomed, h⟩ fun w _ h => ⟨fun _ _ => h.1, h.2⟩
          exact fun w w' h rely inv => ⟨h.1.rely (holds w h.2.base).lock rely,
            keep w w' h.2 rely inv⟩
    · rename_i pid
      refine Logic.wp_ret _ keep pre fun w _ h => ⟨fun _ _ => left h ?_, h⟩
      cases active : activelyOwned producerState with
      | false => rfl
      | true =>
          have known : processIdentityValid ⟨old.pid, old.procStartTicks, old.bootIdHashHi,
              old.bootIdHashLo⟩ = true := by
            cases h : processIdentityValid ⟨old.pid, old.procStartTicks, old.bootIdHashHi,
              old.bootIdHashLo⟩ with
            | true => rfl
            | false => exact (valid ⟨active, h⟩).elim
          rw [Decidable.not_not.1 pid] at known
          cases known

/-- A READY instance under the name. -/
theorem wp_checkReady {journal : ControlJournalV1} {boot : BootstrapHeaderAbi}
    (ready : boot.initState = InitState.ready.code)
    (pre : P w ∧ (w.segment o).boot = some boot) :
    (q.logic ρ).wp t (Replaceable t P o) (checkReady journal o) w := by
  have keep : (q.logic ρ).Stable t fun w => P w ∧ (w.segment o).boot = some boot :=
    stable_field (fun _ _ => rfl) stable holds
  refine wp_look rfl keep pre fun w₁ (header : ChannelHeaderAbi) _ p exec _ => ?_
  have headed : (w₁.segment o).header = header := exec.2.symm
  -- from here on the header is known too
  let known (w : ControlWorld T) : Prop :=
    (P w ∧ (w.segment o).boot = some boot) ∧ (w.segment o).header = header
  have keep : (q.logic ρ).Stable t known :=
    stable_field (fun _ _ => rfl) keep fun w h => holds w h.1
  have refused : ∀ {e : Error} {w}, known w →
      (q.logic ρ).wp t (Replaceable t P o) (.throw e) w :=
    fun h => wp_irreplaceable stable h.1.1
  change (q.logic ρ).wp t _ (if header.magic ≠ channelHeaderMagic ∨ header.abiMajor ≠ abiMajor
    then _ else _) w₁
  split
  · exact refused ⟨p, headed⟩
  · refine wp_look rfl keep ⟨p, headed⟩ fun w₂ r _ h exec _ => ?_
    have read : r = seenProducer (w₂.segment o).producer := exec.2
    cases r with
    | error e => exact refused h
    | ok old =>
        have same : (w₂.segment o).producer = old := by
          unfold seenProducer at read
          split at read
          · exact (Except.ok.inj read).symm
          · cases read
        have keep₂ : (q.logic ρ).Stable t fun w => known w ∧ (w.segment o).producer = old :=
          stable_field (fun _ _ => rfl) keep fun w h => holds w h.1.1
        refine wp_look rfl keep₂ ⟨h, same⟩ fun w₃ (producerState : Nat) _ h exec _ => ?_
        have loaded : producerState = (w₃.segment o).producerState := exec.2
        have seen : Seen t known o old producerState w₃ :=
          ⟨h.1, ⟨boot, h.1.1.2, ready⟩, h.2, fun idle => loaded ▸ idle⟩
        change (q.logic ρ).wp t _ (succeedInstance journal header old producerState) w₃
        refine Logic.wp_seq (wp_checkOldProducer keep (fun w h => holds w h.1.1) seen) ?_ ?_
        · rintro u w₄ _ ⟨doomed, h⟩
          refine Logic.wp_lift fun w₅ rely inv => ?_
          have held := (holds w₄ h.base.1.1).lock
          have h₅ := keep w₄ w₅ h.base rely inv
          refine ⟨fun g succeeded => ⟨(doomed u rfl).rely held rely, ?_⟩, h₅.1.1⟩
          simp only [succeedGeneration, ite_error_eq_ok] at succeeded
          rw [h₅.2]
          exact (Except.ok.inj succeeded.2.2).symm
        · rintro e w₄ _ ⟨_, h⟩
          refine ⟨?_, h.base.1.1⟩
          rintro _ ⟨⟩

/-- The checks on what is under the name. -/
theorem wp_checkExisting {journal : ControlJournalV1} {s : FileStatus} (pre : P w) :
    (q.logic ρ).wp t (Replaceable t P o) (checkExisting journal o s) w := by
  unfold checkExisting
  split
  · exact wp_irreplaceable stable pre
  · refine Logic.wp_seq (P := fun _ w => P w) ?_ ?_ ?_
    · refine wp_onlyLooks ⟨rfl, fun r => ?_⟩ stable pre
      cases r <;> trivial
    · intro _ w₁ _ p
      refine wp_look rfl stable p fun w₂ (boot : BootstrapHeaderAbi) _ p _ _ => ?_
      change (q.logic ρ).wp t _ (checkMapped journal o s boot) w₂
      unfold checkMapped
      split
      · exact wp_irreplaceable stable p
      · refine wp_look rfl stable p fun w₃ (initState : Nat) _ p exec _ => ?_
        have loaded : initState = (w₃.segment o).mapped.initState := exec.2
        change (q.logic ρ).wp t _ (if initState ≠ InitState.ready.code then _ else _) w₃
        split
        · exact wp_irreplaceable stable p
        · rename_i state
          obtain ⟨boot, hb, ready⟩ :=
            ready_of_mapped (loaded.symm.trans (Decidable.not_not.1 state))
          exact wp_checkReady stable holds ready ⟨p, hb⟩
    · intro e w₁ _ p
      refine ⟨?_, p⟩
      rintro _ ⟨⟩

end Existing

/-- Nothing is under the name any more, and the generation is later than the recorded
one. -/
def Cleared (ρ : Regime) (t : T) (v : View) (journal : ControlJournalV1) :
    Except Error Nat → ControlWorld T → Prop
  | .ok g, w => Holds t { v with name := none } w ∧ (ρ.orderly → journal.newGeneration < g)
  | .error _, w => Leaves ρ t w

theorem wp_replaceExisting {journal : ControlJournalV1} {generation : Nat}
    (idle : journal.state = JournalState.idle.code)
    (rest : ρ.orderly → Settled v.journal v.born)
    (later : journal.newGeneration < generation)
    (pre : Holds t v w ∧ q.Fits ρ journal w) :
    (q.logic ρ).wp t (Cleared ρ t v journal) (replaceExisting journal generation) w := by
  let known (w : ControlWorld T) : Prop := Holds t v w ∧ q.Fits ρ journal w
  have stable : (q.logic ρ).Stable t known :=
    fun w w' h rely _ => ⟨h.1.rely rely, h.2.same (rely.held h.1.lock)⟩
  have holds : ∀ w, known w → Holds t v w := fun _ h => h.1
  refine wp_examinePresent stable holds ?_ ?_ ?_ pre
  · intro w₁ _ h name
    refine Logic.wp_ret known stable h fun w₂ _ h => ⟨?_, fun _ => later⟩
    exact ⟨h.1.lock, h.1.journal, h.1.name.trans name, h.1.born⟩
  · intro o s w₁ _ h name identity _
    refine Logic.wp_seq (wp_checkExisting stable holds (o := o) h) ?_ ?_
    · rintro g w₂ inv ⟨facts, h⟩
      obtain ⟨doomed, succ⟩ := facts g rfl
      have newer : ρ.orderly → journal.newGeneration < g := by
        intro orderly
        have named := h.1.name.trans name
        obtain ⟨m, made⟩ := (inv.made o named).1
        have shape := h.2.shape (ρ.orderly_posix orderly) o m named made
        rw [succ, (shape.idle idle).2]
        exact Nat.lt_succ_self _
      rw [identity]
      refine Logic.wp_seq (wp_shmUnlinkChecked (P := fun w => known w ∧ Doomed t o w)
        (G := Holds t { v with name := none }) ?_ (fun _ h => h.1.1) stable_holds
        (fun _ h _ => h.2) ?_ (fun _ h => h) ⟨h, doomed⟩) ?_ ?_
      · exact fun w w' h rely inv => ⟨stable w w' h.1 rely inv, h.2.rely h.1.1.lock rely⟩
      · exact fun w h _ => ⟨h.1.1.lock, h.1.1.journal, rfl, h.1.1.born⟩
      · rintro _ w₃ _ ⟨_, gone⟩
        exact Logic.wp_ret _ stable_holds gone fun _ _ gone => ⟨gone, newer⟩
      · rintro e w₃ _ (⟨_, _, gone⟩ | ⟨_, _, h⟩)
        · exact gone.leaves rest
        · exact h.1.1.leaves rest
    · rintro e w₂ _ ⟨_, h⟩
      exact h.1.leaves rest
  · exact fun e w₁ _ h _ => h.1.leaves rest

end ControlSystem
end EdgeRuntime

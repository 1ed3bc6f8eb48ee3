import EdgeRuntime.Queue.Ownership
import EdgeRuntime.Queue.Reads

/-!
Rules for the accesses of a thread outside both gates, and of a gate holder. A call
may fail only with an error that the state explains.
-/
namespace EdgeRuntime
open Concurrent

namespace QueueSystem
variable {T α : Type} [DecidableEq T] {q : QueueSystem T} {t u : T}
  {s s' : QueueState T} {g : Bool} {k : Phase} {slot : Option Nat} {c : QueueClient}
  {f : QueueMem} {l : QueueLoc} {v : Nat} {Q : Except Error α → QueueState T → Prop}

/-- The thread holds no gate. -/
structure Outside (t : T) (c : QueueClient) (s : QueueState T) : Prop where
  holder : ∀ g, s.holder g ≠ some t
  client : s.world.client t = c
  alive : s.world.crashed t = false

theorem outside_stable : q.logic.Stable t (Outside t c) := by
  intro s s' h hr _
  exact ⟨fun g hg => h.holder g ((hr.holder g).1 hg), hr.client.trans h.client,
    hr.alive.trans h.alive⟩

/-- A call may fail once its client is outside again, with an error that the state
explains. -/
def MayFail (q : QueueSystem T) (t : T) (c : QueueClient)
    (Q : Except Error α → QueueState T → Prop) : Prop :=
  ∀ e s, Outside t c s → q.Explained e s → Q (.error e) s

theorem Outside.throw {e : Error} (h : Outside t c s) (he : q.Explained e s)
    (fails : q.MayFail t c Q) : q.logic.wp t Q (.throw e) s := by
  intro s' hr hi
  exact fails e s' (outside_stable s s' h hr hi) (Onward.explained (Rely.onward hr) he)

theorem wp_notifyWaiters {Q : Except Error Unit → QueueState T → Prop}
    (h : Outside t c s) (done : ∀ s', Outside t c s' → Q (.ok ()) s') :
    q.logic.wp t Q notifyWaiters s := by
  refine Access.wp_fetchAdd (D := q.memory) rfl fun s₁ r₁ i₁ => ?_
  have h₁ := outside_stable s s₁ h r₁ i₁
  have onward : ∀ v, Onward s₁ (q.store t .notifyEpoch v s₁) :=
    fun v => onward_store nofun nofun (fun _ _ _ _ => nofun)
  refine ⟨q.store t .notifyEpoch _ s₁, rfl,
    inv_store i₁ harmless_notifyEpoch nofun (onward _) fun _ _ => tidy_notifyEpoch, ?_, ?_⟩
  · intro u hne
    refine rely_store hne ?_ (onward _)
    intro ho
    cases ho with
    | gate holder word => cases word
    | slot holder opened word => cases word
  · have h₂ : Outside t c (q.store t .notifyEpoch
        ((q.memory.read (q.logic.world s₁) .notifyEpoch + 1) % 2 ^ 32) s₁) :=
      ⟨h₁.holder, by simp [store_client_self, h₁.client], h₁.alive⟩
    refine Logic.wp_op (Outside t c) outside_stable h₂ ?_
    intro s₃ i₃ h₃ r w hx
    obtain rfl : w = setFutex (s₃.world.futex.wake t) s₃.world := hx
    refine ⟨{ s₃ with world := setFutex (s₃.world.futex.wake t) s₃.world }, rfl,
      inv_world i₃ rfl rfl rfl rfl rfl (fun _ hu => hu) (fun _ hr => .inl hr),
      fun u _ => rely_world rfl rfl rfl (fun _ hu => hu) rfl, ?_⟩
    exact Logic.wp_ret (Outside t c) outside_stable ⟨h₃.holder, h₃.client, h₃.alive⟩
      fun s₄ _ h₄ => done s₄ h₄

/-- Look around from outside, then go on or fail. -/
theorem wp_look {β : Type} {p : QueueCode β} {next : β → QueueCode α} (h : Outside t c s)
    (all : p.All Memory.Reads) {Info : Except Error β → QueueState T → Prop}
    (info : q.logic.obs t Info p s)
    (told : ∀ e s', Info (.error e) s' → q.Explained e s')
    (cont : ∀ a s', Outside t c s' → Info (.ok a) s' → q.logic.wp t Q (next a) s')
    (fails : q.MayFail t c Q) : q.logic.wp t Q (p >>= next) s := by
  refine Logic.wp_bind (Logic.obs_wp (Logic.obs_mono ?_
    (Logic.obs_and info (obs_reads all outside_stable h))))
  rintro (e | a) s' _ ⟨seen, h'⟩
  · exact fails e s' h' (told e s' seen)
  · exact cont a s' h' seen

theorem wp_lift {β : Type} {x : Except Error β} {next : β → QueueCode α}
    (h : Outside t c s) (tame : Tame x)
    (cont : ∀ a, x = .ok a → q.logic.wp t Q (next a) s) (fails : q.MayFail t c Q) :
    q.logic.wp t Q (Prog.lift x >>= next) s := by
  cases x with
  | ok a => exact cont a rfl
  | error e => exact h.throw (explained_of_ne (tame e rfl)) fails

theorem Owner.store (h : q.Owner g t slot c k f s) (quiet : Quiet g k l) :
    q.Owner g t slot c k (f.set l v) (q.store t l v s) where
  holder := h.holder
  single := h.single
  opened i hi := by
    have henq : (q.store t l v s).enq = s.enq := by
      simp [QueueState.enq, quiet.enq.symm]
    have hdeq : (q.store t l v s).deq = s.deq := by
      simp [QueueState.deq, quiet.deq.symm]
    have := h.opened i hi
    unfold SlotOpen at this ⊢
    rw [henq, hdeq]
    exact this
  words l' hl' := by
    simp [h.words l' hl']
  client := quiet.client_eq h.client
  alive := h.alive
  working := h.working
  floor := by
    have henq : (q.store t l v s).enq = s.enq := by
      simp [QueueState.enq, quiet.enq.symm]
    rw [henq]
    exact h.floor
  clear sound fresh := by
    rw [store_exhausted, Bool.or_eq_false_iff] at fresh
    exact h.clear sound fresh.1

/-- The stores of a gate holder are within what everyone keeps. -/
theorem Owner.onward (h : q.Owner g t slot c k f s) (mine : Mine g slot l)
    (proper : Proper g k f l v) : Onward s (q.store t l v s) := by
  refine onward_store (h.counts mine proper) ?_ (h.live mine)
  rintro g' w rfl
  obtain rfl : g' = g := by
    rcases mine with mine | ⟨i, _, mine⟩
    · exact Option.some.inj mine
    · cases mine
  rw [h.words (.gateEpoch g') (.inl rfl)]
  exact (proper.owner w rfl).2

theorem guar_store (h : q.Owner g t slot c k f s) (mine : Mine g slot l)
    (proper : Proper g k f l v) (u : T) (hne : u ≠ t) :
    q.Rely u s (q.store t l v s) :=
  rely_store hne (fun ho => hne (owns_unique ho (h.owns mine))) (h.onward mine proper)

theorem inv_owned (h : q.Owner g t slot c k f s) (hi : q.Inv s) (mine : Mine g slot l)
    (quiet : Quiet g k l) (proper : Proper g k f l v) : q.Inv (q.store t l v s) :=
  inv_store hi (h.harmless hi mine quiet) (h.counts mine proper) (h.onward mine proper)
    fun _ _ => h.tidy hi mine proper

theorem wp_store_owned {next : Unit → QueueCode α} (h : q.Owner g t slot c k f s)
    (mine : Mine g slot l) (quiet : Quiet g k l) (proper : Proper g k f l v)
    (cont : ∀ s', q.Owner g t slot c k (f.set l v) s' → q.logic.wp t Q (next ()) s') :
    q.logic.wp t Q (sharedStore l v >>= next) s := by
  refine Access.wp_store (D := q.memory) rfl fun s' hr hi => ?_
  have h' := owner_stable s s' h hr hi
  exact ⟨q.store t l v s', rfl, inv_owned h' hi mine quiet proper,
    guar_store h' mine proper, cont _ (h'.store quiet)⟩

theorem wp_load_owned {next : Nat → QueueCode α} (h : q.Owner g t slot c k f s)
    (mine : Mine g slot l)
    (cont : ∀ s', q.Owner g t slot c k f s' → q.logic.wp t Q (next (f l)) s') :
    q.logic.wp t Q (sharedLoad l >>= next) s := by
  refine Access.wp_load (D := q.memory) rfl fun s' hr hi => ?_
  have h' := owner_stable s s' h hr hi
  have hl : q.memory.read (q.logic.world s') l = f l := h'.words l mine
  rw [hl]
  exact cont s' h'

/-- A swap of a word the thread owns, which cannot fail. -/
theorem wp_cas_owned {next : Bool → QueueCode α}
    (h : q.Owner g t slot c k f s) (mine : Mine g slot l) (quiet : Quiet g k l)
    (proper : Proper g k f l v)
    (swaps : ∀ s', q.Owner g t slot c k (f.set l v) s' → q.logic.wp t Q (next true) s') :
    q.logic.wp t Q (sharedCas l (f l) v >>= next) s := by
  refine Access.wp_cas (D := q.memory) rfl ?_ ?_
  · intro s' hr hi _
    have h' := owner_stable s s' h hr hi
    exact ⟨q.store t l v s', rfl, inv_owned h' hi mine quiet proper,
      guar_store h' mine proper, swaps _ (h'.store quiet)⟩
  · intro s' hr hi hv
    have h' := owner_stable s s' h hr hi
    exact (hv (h'.words l mine)).elim

/-- A commit on an epoch the thread owns: it becomes odd, or nothing happens. -/
theorem wp_beginOwnerCommit {reserve : Nat} {next : OwnerCommitResult × Nat → QueueCode α}
    (h : q.Owner g t slot c k f s) (mine : Mine g slot l) (quiet : Quiet g k l)
    (hl : 2 ≤ reserve)
    (proper : f l + 2 ≤ maxCommittedOwnerEpoch → Proper g k f l (f l + 1))
    (ready : f l % 2 = 0 → f l + reserve ≤ maxCommittedOwnerEpoch →
      ∀ s', q.Owner g t slot c k (f.set l (f l + 1)) s' →
        q.logic.wp t Q (next (.ready, f l + 2)) s')
    (fails : ¬ (f l % 2 = 0 ∧ f l + reserve ≤ maxCommittedOwnerEpoch) → ∀ r s', r ≠ .ready →
      (r = .epochExhausted ∨ ¬ (f l % 2 = 0 ∧ f l ≤ maxCommittedOwnerEpoch)) →
      q.Owner g t slot c k f s' → q.logic.wp t Q (next (r, 0)) s') :
    q.logic.wp t Q (beginOwnerCommit l reserve >>= next) s := by
  unfold beginOwnerCommit
  rw [Prog.bind_assoc]
  refine wp_load_owned h mine fun s' h' => ?_
  split
  · rename_i hbad
    exact fails (by omega) _ s' (by simp) (.inr (by omega)) h'
  · split
    · rename_i hbad
      exact fails (by omega) _ s' (by simp) (.inl rfl) h'
    · rename_i hodd hroom
      have hsum : f l + 2 ≤ uint64Max := by
        unfold maxCommittedOwnerEpoch at hroom hodd
        omega
      rw [addU64_eq (by omega), addU64_eq hsum, Prog.bind_assoc]
      refine wp_cas_owned h' mine quiet (proper (by omega)) ?_
      intro s'' h''
      exact ready (by omega) (by omega) s'' h''

/-- Storing the four identity words changes nothing else. -/
theorem wp_setOwner {owner : OwnerWord → QueueLoc} {id : ProcessIdentity}
    {next : Unit → QueueCode α} (h : q.Owner g t slot c k f s)
    (mine : ∀ w, Mine g slot (owner w)) (quiet : ∀ w, Quiet g k (owner w))
    (proper : ∀ f', (∀ l, (∀ w, l ≠ owner w) → f' l = f l) →
      ∀ w v, Proper g k f' (owner w) v)
    (apart : ∀ w w', owner w = owner w' → w = w')
    (cont : ∀ s' f', (∀ l, (∀ w, l ≠ owner w) → f' l = f l) →
      (∀ w, f' (owner w) = (ownerFromProcess id).word w) →
      q.Owner g t slot c k f' s' → q.logic.wp t Q (next ()) s') :
    q.logic.wp t Q (setOwner owner id >>= next) s := by
  have other : ∀ {f₁ : QueueMem}, (∀ l, (∀ w, l ≠ owner w) → f₁ l = f l) → ∀ w v l,
      (∀ w, l ≠ owner w) → f₁.set (owner w) v l = f l := by
    intro f₁ same w v l hl
    rw [Words.set_apply, if_neg (hl w)]
    exact same l hl
  unfold setOwner storeOwnerSeqCst
  simp only [Prog.bind_assoc]
  have e₀ : ∀ l, (∀ w, l ≠ owner w) → f l = f l := fun _ _ => rfl
  refine wp_store_owned h (mine _) (quiet _) (proper _ e₀ _ _) fun s₁ h₁ => ?_
  have e₁ := other e₀ .pid (ownerFromProcess id).pid
  refine wp_store_owned h₁ (mine _) (quiet _) (proper _ e₁ _ _) fun s₂ h₂ => ?_
  have e₂ := other e₁ .procStartTicks (ownerFromProcess id).procStartTicks
  refine wp_store_owned h₂ (mine _) (quiet _) (proper _ e₂ _ _) fun s₃ h₃ => ?_
  have e₃ := other e₂ .bootIdHashHi (ownerFromProcess id).bootIdHashHi
  refine wp_store_owned h₃ (mine _) (quiet _) (proper _ e₃ _ _) fun s₄ h₄ => ?_
  have e₄ := other e₃ .bootIdHashLo (ownerFromProcess id).bootIdHashLo
  refine cont s₄ _ e₄ ?_ h₄
  have ne : ∀ {w w'}, w ≠ w' → owner w ≠ owner w' := fun hw he => hw (apart _ _ he)
  intro w
  cases w with
  | pid => simp [ne, OwnerAbi.word]
  | procStartTicks => simp [ne, OwnerAbi.word]
  | bootIdHashHi => simp [ne, OwnerAbi.word]
  | bootIdHashLo => simp [OwnerAbi.word]

end QueueSystem
end EdgeRuntime

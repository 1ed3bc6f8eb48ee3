import EdgeRuntime.Sync.OwnerProtocol

/-!
Runs of the owner protocol. The client that has claimed the record knows its words, so
every store of a session is checked against them; a snapshot by anyone else is true of an
instant at which the invariant held.
-/
namespace EdgeRuntime
open Concurrent

namespace OwnerRoles
variable {T α : Type} {roles : OwnerRoles} {t : T} {s : RecordState T}
  {m : RecordView} {o : OwnerAbi} {l : RecordLoc} {v : Nat}
  {Q : Except Error α → RecordState T → Prop}

/-- The client has claimed the record, and these are its words. -/
structure Custody (t : T) (o : OwnerAbi) (m : RecordView) (s : RecordState T) : Prop where
  holder : s.holder = some t
  now : s.world.now = m
  intent : s.world.intent t = some o

/-- The client has not claimed the record. -/
def Outside (t : T) (s : RecordState T) : Prop := s.holder ≠ some t

/-- The state after a store by `t`. -/
def store (t : T) (holder : Option T) (l : RecordLoc) (v : Nat) (s : RecordState T) :
    RecordState T := ⟨write t l v s.world, holder⟩

theorem inv_store {holder : Option T} (hi : roles.Inv s)
    (lawful : roles.Lawful (s.world.now.put (s.world.intent t) l v))
    (claimed : ∀ u, holder = some u →
      roles.Claimed (s.world.now.put (s.world.intent t) l v))
    (unclaimed : holder = none → roles.Unclaimed (s.world.now.put (s.world.intent t) l v)) :
    roles.Inv (store t holder l v s) where
  lawful := lawful
  claimed := claimed
  unclaimed := unclaimed
  current _ := List.mem_append_right _ List.mem_cons_self
  reports := hi.reports

theorem rely_store {u : T} {holder : Option T}
    (onward : s.world.now.Onward (s.world.now.put (s.world.intent t) l v))
    (other : s.holder ≠ some u) (still : holder ≠ some u) :
    Rely u s (store t holder l v s) where
  onward := onward
  holder := ⟨fun h => (still h).elim, fun h => (other h).elim⟩
  mine h := (other h).elim
  intent := rfl
  instants := List.subset_append_left _ _

/-- Nobody but `t` holds a record that `t` holds, or that nobody holds. -/
theorem other_holder {u : T} (hu : u ≠ t) (h : s.holder = some t ∨ s.holder = none) :
    s.holder ≠ some u := by
  rcases h with h | h
  · rw [h]
    exact fun same => hu (Option.some.inj same).symm
  · rw [h]
    exact nofun

/-- A store by which the client keeps the record. -/
theorem step_held (h : Custody t o m s) (hi : roles.Inv s)
    (lawful : roles.Lawful (m.put (some o) l v)) (claimed : roles.Claimed (m.put (some o) l v))
    (onward : m.Onward (m.put (some o) l v)) :
    roles.Inv (store t (some t) l v s) ∧
      (∀ u, u ≠ t → Rely u s (store t (some t) l v s)) ∧
      Custody t o (m.put (some o) l v) (store t (some t) l v s) := by
  obtain ⟨holder, rfl, intent⟩ := h
  rw [← intent] at lawful claimed onward ⊢
  refine ⟨inv_store hi lawful (fun _ _ => claimed) nofun, ?_, ⟨rfl, rfl, intent⟩⟩
  intro u hu
  exact rely_store onward (other_holder hu (.inl holder))
    fun same => hu (Option.some.inj same).symm

variable [DecidableEq T]

theorem custody_stable : roles.logic.Stable t (Custody t o m) := by
  intro s s' h hr _
  exact ⟨hr.holder.2 h.holder, (hr.mine h.holder).trans h.now, hr.intent.trans h.intent⟩

theorem outside_stable : roles.logic.Stable t (Outside t) := by
  intro s s' h hr _ mine
  exact h (hr.holder.1 mine)

section Rules
variable {next : Unit → Code RecordLoc Error α}

theorem wp_load_held {k : Nat → Code RecordLoc Error α} (h : Custody t o m s)
    (cont : ∀ s', Custody t o m s' → roles.logic.wp t Q (k (m.words l)) s') :
    roles.logic.wp t Q (sharedLoad l >>= k) s := by
  refine Access.wp_load (D := memory) rfl fun s' hr hi => ?_
  have h' := custody_stable s s' h hr hi
  have seen : (memory : Memory T _ _).read (roles.logic.world s') l = m.words l := by
    rw [← h'.now]
    rfl
  rw [seen]
  exact cont s' h'

theorem wp_store_held (h : Custody t o m s) (lawful : roles.Lawful (m.put (some o) l v))
    (claimed : roles.Claimed (m.put (some o) l v)) (onward : m.Onward (m.put (some o) l v))
    (cont : ∀ s', Custody t o (m.put (some o) l v) s' → roles.logic.wp t Q (next ()) s') :
    roles.logic.wp t Q (sharedStore l v >>= next) s := by
  refine Access.wp_store (D := memory) rfl fun s' hr hi => ?_
  have h' := custody_stable s s' h hr hi
  obtain ⟨inv, guar, held⟩ := step_held h' hi lawful claimed onward
  exact ⟨_, rfl, inv, guar, cont _ held⟩

/-- The last store of a session. -/
theorem wp_store_release (h : Custody t o m s)
    (lawful : roles.Lawful (m.put (some o) .state v))
    (unclaimed : roles.Unclaimed (m.put (some o) .state v))
    (cont : ∀ s', Outside t s' → roles.logic.wp t Q (next ()) s') :
    roles.logic.wp t Q (sharedStore .state v >>= next) s := by
  refine Access.wp_store (D := memory) rfl fun s' hr hi => ?_
  obtain ⟨holder, rfl, intent⟩ := custody_stable s s' h hr hi
  rw [← intent] at lawful unclaimed
  have onward : s'.world.now.Onward (s'.world.now.put (s'.world.intent t) .state v) :=
    ⟨Nat.le_refl _, fun _ _ _ => rfl⟩
  refine ⟨store t none .state v s', rfl, inv_store hi lawful nofun (fun _ => unclaimed), ?_,
    cont _ nofun⟩
  intro u hu
  exact rely_store onward (other_holder hu (.inl holder)) nofun

end Rules

/-- A claimed record whose state is not the owned one asks little of its words. -/
theorem Lawful.claiming {m : RecordView} (state : roles.classify (m.words .state) = .claiming)
    (bounded : m.words .epoch ≤ maxCommittedOwnerEpoch) : roles.Lawful m where
  even other := (other state).elim
  bounded := bounded
  committed owned := by
    rw [state] at owned
    cases owned

/-- At an even epoch a record without an owner is lawful. -/
theorem Lawful.unclaimed {m : RecordView} (state : roles.Unclaimed m)
    (even : m.words .epoch % 2 = 0) (bounded : m.words .epoch ≤ maxCommittedOwnerEpoch) :
    roles.Lawful m where
  even _ := even
  bounded := bounded
  committed owned := by
    rcases state with state | state
    · cases state.symm.trans owned
    · cases state.symm.trans owned

/-- The record is claimed, at an even epoch. -/
structure Opened (roles : OwnerRoles) (m : RecordView) : Prop where
  state : roles.classify (m.words .state) = .claiming
  even : m.words .epoch % 2 = 0
  bounded : m.words .epoch ≤ maxCommittedOwnerEpoch

theorem wp_begin {x : OwnerSession} {k : OwnerCommitResult × Nat → Code RecordLoc Error α}
    (h : Custody t o m s) (opened : roles.Opened m) (reserve : 2 ≤ x.reserve)
    (ready : m.words .epoch + 2 ≤ maxCommittedOwnerEpoch → ∀ s',
      Custody t o (m.put (some o) .epoch (m.words .epoch + 1)) s' →
      roles.logic.wp t Q (k (.ready, m.words .epoch + 2)) s')
    (refused : ∀ s', Custody t o m s' → roles.logic.wp t Q (k (.epochExhausted, 0)) s') :
    roles.logic.wp t Q (beginOwnerCommit .epoch x.reserve >>= k) s := by
  have even := opened.even
  have bounded := opened.bounded
  unfold beginOwnerCommit
  rw [Prog.bind_assoc]
  refine wp_load_held h fun s₁ h₁ => ?_
  rw [if_neg (by omega)]
  split
  · exact refused s₁ h₁
  · rename_i room
    have fits : m.words .epoch + 2 ≤ uint64Max := by
      unfold maxCommittedOwnerEpoch at room bounded
      omega
    rw [addU64_eq (by omega), addU64_eq fits, Prog.bind_assoc]
    refine Access.wp_cas (D := memory) rfl ?_ ?_
    · intro s₂ r₂ i₂ _
      have state : roles.classify
          ((m.put (some o) .epoch (m.words .epoch + 1)).words .state) = .claiming :=
        opened.state
      obtain ⟨inv, guar, held⟩ := step_held (custody_stable s₁ s₂ h₁ r₂ i₂) i₂
        (.claiming state (by simp; omega)) (.inl state)
        ⟨by simp, fun same => by simp at same⟩
      exact ⟨_, rfl, inv, guar, ready (by omega) _ held⟩
    · intro s₂ r₂ i₂ changed
      have h₂ := custody_stable s₁ s₂ h₁ r₂ i₂
      exact (changed (congrArg (fun m => m.words .epoch) h₂.now)).elim

/-- The identity words are stored while the epoch is odd. -/
theorem wp_store_word {w : OwnerWord} {next : Unit → Code RecordLoc Error α}
    (h : Custody t o m s) (state : roles.classify (m.words .state) = .claiming)
    (odd : m.words .epoch % 2 = 1) (bounded : m.words .epoch ≤ maxCommittedOwnerEpoch)
    (cont : ∀ s', Custody t o (m.put (some o) (.owner w) v) s' →
      roles.logic.wp t Q (next ()) s') :
    roles.logic.wp t Q (sharedStore (.owner w) v >>= next) s := by
  refine wp_store_held h (.claiming state bounded) (.inl state) ⟨Nat.le_refl _, ?_⟩ cont
  intro _ even
  omega

theorem wp_storeOwnerSeqCst {next : Unit → Code RecordLoc Error α} (h : Custody t o m s)
    (state : roles.classify (m.words .state) = .claiming) (odd : m.words .epoch % 2 = 1)
    (bounded : m.words .epoch ≤ maxCommittedOwnerEpoch)
    (cont : ∀ s' m', m'.words .state = m.words .state → m'.words .epoch = m.words .epoch →
      (∀ w, m'.words (.owner w) = o.word w) → Custody t o m' s' →
      roles.logic.wp t Q (next ()) s') :
    roles.logic.wp t Q (storeOwnerSeqCst .owner o >>= next) s := by
  unfold storeOwnerSeqCst
  simp only [Prog.bind_assoc]
  refine wp_store_word h state odd bounded fun s₁ h₁ => ?_
  refine wp_store_word h₁ state odd bounded fun s₂ h₂ => ?_
  refine wp_store_word h₂ state odd bounded fun s₃ h₃ => ?_
  refine wp_store_word h₃ state odd bounded fun s₄ h₄ => ?_
  refine cont s₄ _ ?_ ?_ ?_ h₄
  · rfl
  · rfl
  intro w
  cases w with
  | pid | procStartTicks | bootIdHashHi | bootIdHashLo => simp [OwnerAbi.word]

/-- The even epoch commits the tuple, and the owned state shows it. -/
theorem wp_commit {x : OwnerSession} {next : Unit → Code RecordLoc Error α}
    (h : Custody t x.owner m s) (allows : roles.Allows x)
    (state : roles.classify (m.words .state) = .claiming) {e : Nat}
    (epoch : m.words .epoch = e + 1) (even : e % 2 = 0) (room : e + 2 ≤ maxCommittedOwnerEpoch)
    (words : ∀ w, m.words (.owner w) = x.owner.word w)
    (cont : ∀ s', Outside t s' → roles.logic.wp t Q (next ()) s') :
    roles.logic.wp t Q (sharedStore .epoch (e + 2) >>= fun _ => sharedStore .state x.owned
      >>= fun _ => sharedStore .state x.released >>= next) s := by
  have shown : roles.classify ((m.put (some x.owner) .epoch (e + 2)).words .state) =
      .claiming := state
  refine wp_store_held h (.claiming shown (by simpa using room)) (.inl shown) ?_ ?_
  · exact ⟨by simp [epoch], fun same => by simp [epoch] at same⟩
  intro s₁ h₁
  have tuple : (m.put (some x.owner) .epoch (e + 2)).committed (e + 2) = some x.owner := by
    have commits : (e + 2) % 2 = 0 := by omega
    simp [RecordView.put, commits]
  have owned : roles.classify (((m.put (some x.owner) .epoch (e + 2)).put
      (some x.owner) .state x.owned).words .state) = .owned := by
    simpa using allows.owned
  refine wp_store_held h₁ ⟨fun _ => by simp; omega, by simpa using room, fun _ => ?_⟩
    (.inr owned) ⟨Nat.le_refl _, fun _ _ _ => rfl⟩ ?_
  · refine ⟨x.owner, ?_, fun w => by simpa using words w, allows.valid⟩
    simpa [RecordView.put] using tuple
  intro s₂ h₂
  have free : roles.Unclaimed ((((m.put (some x.owner) .epoch (e + 2)).put
      (some x.owner) .state x.owned)).put (some x.owner) .state x.released) :=
    .inl (by simpa using allows.released)
  refine wp_store_release h₂ (.unclaimed free ?_ ?_) free cont
  · simp
    omega
  · simpa using room

/-- A session leaves the record to the others again, whatever it did. -/
theorem wp_ownerSession {x : OwnerSession} (allows : roles.Allows x)
    (intent : s.world.intent t = some x.owner)
    {Q : Except Error (Option OwnerSnapshot) → RecordState T → Prop}
    (outside : Outside t s) (done : ∀ s', roles.Inv s' → Outside t s' → Q (.ok none) s') :
    roles.logic.wp t Q (ownerSession x) s := by
  have ends : ∀ s', Outside t s' → roles.logic.wp t Q (.ret none) s' :=
    fun s' h => Logic.wp_ret (Outside t) outside_stable h done
  refine Access.wp_cas (D := memory) rfl ?_ ?_
  · intro s₁ r₁ i₁ (inactive : s₁.world.now.words .state = x.inactive)
    have free : s₁.holder = none := by
      cases held : s₁.holder with
      | none => rfl
      | some u =>
          rcases i₁.claimed u held with state | state
          · cases allows.inactive.symm.trans (inactive ▸ state)
          · cases allows.inactive.symm.trans (inactive ▸ state)
    have even : s₁.world.now.words .epoch % 2 = 0 := by
      refine i₁.lawful.even ?_
      rw [inactive, allows.inactive]
      exact nofun
    have opened : roles.Opened (s₁.world.now.put (some x.owner) .state x.claiming) :=
      ⟨by simpa using allows.claiming, even, i₁.lawful.bounded⟩
    have intent₁ : s₁.world.intent t = some x.owner := r₁.intent.trans intent
    have held : Custody t x.owner (s₁.world.now.put (some x.owner) .state x.claiming)
        (store t (some t) .state x.claiming s₁) := by
      refine ⟨rfl, ?_, intent₁⟩
      rw [← intent₁]
      rfl
    refine ⟨store t (some t) .state x.claiming s₁, rfl, ?_, ?_, ?_⟩
    · rw [← intent₁] at opened
      exact inv_store i₁ (.claiming opened.state opened.bounded) (fun _ _ => .inl opened.state)
        nofun
    · intro u hu
      exact rely_store ⟨Nat.le_refl _, fun _ _ _ => rfl⟩ (other_holder hu (.inr free))
        fun same => hu (Option.some.inj same).symm
    · split
      · exact ends _ (absurd rfl ‹_›)
      split
      · have free : roles.Unclaimed ((s₁.world.now.put (some x.owner) .state x.claiming).put
            (some x.owner) .state x.released) := .inl (by simpa using allows.released)
        exact wp_store_release held (.unclaimed free even i₁.lawful.bounded) free ends
      · refine wp_begin held opened allows.reserve ?_ ?_
        · intro room s₂ h₂
          dsimp only
          rw [if_neg (fun unready => unready rfl)]
          refine wp_storeOwnerSeqCst h₂ opened.state ?_ ?_ ?_
          · simp
            omega
          · simp at room ⊢
            omega
          · intro s₃ m₃ state epoch words h₃
            exact wp_commit h₃ allows (state ▸ opened.state) epoch even room words ends
        · intro s₂ h₂
          have free : roles.Unclaimed ((s₁.world.now.put (some x.owner) .state x.claiming).put
              (some x.owner) .state (x.refused .epochExhausted)) := by
            simpa [Unclaimed] using allows.refused
          exact wp_store_release h₂ (.unclaimed free even i₁.lawful.bounded) free ends
  · intro s₁ r₁ i₁ _
    exact ends s₁ (outside_stable s s₁ outside r₁ i₁)

end OwnerRoles
end EdgeRuntime

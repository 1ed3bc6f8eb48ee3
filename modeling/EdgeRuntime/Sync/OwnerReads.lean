import EdgeRuntime.Sync.AccessRules
import EdgeRuntime.Sync.OwnerSnapshot

/-!
An owner snapshot only reads, and what it reports was true at one instant: the
epochs around the state word agree, so nothing moved while the words were read.
-/
namespace EdgeRuntime
open Concurrent Prog

variable {L ε : Type} (state epoch : L) (owner : OwnerWord → L)
  (classify : Nat → OwnerStateKind) (valid : OwnerAbi → Bool)

section Looks
variable {state epoch owner} {P : Instr L → Prop} (atState : P (.load state))
  (atEpoch : P (.load epoch)) (atOwner : ∀ w, P (.load (owner w)))

include atOwner in
theorem looks_loadOwnerSeqCst : (loadOwnerSeqCst owner : Code L ε OwnerAbi).Looks P := by
  refine looks_bind (looks_load (atOwner _)) fun _ => looks_bind (looks_load (atOwner _)) ?_
  intro _
  refine looks_bind (looks_load (atOwner _)) fun _ => looks_bind (looks_load (atOwner _)) ?_
  exact fun _ => trivial

include atState atEpoch in
theorem looks_snapshotOwnerFinal :
    (snapshotOwnerFinal state epoch classify : Code L ε _).Looks P := by
  refine looks_bind (looks_load atState) fun _ => looks_bind (looks_load atEpoch) fun _ => ?_
  split <;> trivial

include atState atEpoch in
theorem looks_snapshotOwnerInactive (before : Nat) :
    (snapshotOwnerInactive state epoch classify before : Code L ε _).Looks P := by
  refine looks_bind (looks_load atEpoch) fun _ => looks_bind (looks_load atState) fun _ => ?_
  refine looks_bind (looks_load atEpoch) fun _ => ?_
  split
  · split <;> trivial
  · split <;> trivial

include atState atEpoch atOwner in
theorem looks_snapshotOwnerOwned :
    (snapshotOwnerOwned state epoch owner classify valid : Code L ε _).Looks P := by
  refine looks_bind (looks_load atEpoch) fun _ => ?_
  split
  · trivial
  · refine looks_bind (looks_loadOwnerSeqCst atOwner) fun _ => ?_
    refine looks_bind (looks_load atEpoch) fun _ => looks_bind (looks_load atState) fun _ => ?_
    refine looks_bind (looks_load atEpoch) fun _ => ?_
    split
    · split <;> trivial
    · split <;> trivial

include atState atEpoch atOwner in
theorem looks_snapshotOwnerAttempt :
    (snapshotOwnerAttempt state epoch owner classify valid : Code L ε _).Looks P := by
  refine looks_bind (looks_load atState) fun _ => ?_
  split
  · exact looks_snapshotOwnerInactive classify atState atEpoch _
  · exact looks_bind (looks_load atEpoch) fun _ => trivial
  · exact looks_bind (looks_load atEpoch) fun _ => trivial
  · exact looks_bind (looks_load atEpoch) fun _ => trivial
  · exact looks_bind (looks_load atEpoch) fun _ => trivial
  · exact looks_snapshotOwnerOwned classify valid atState atEpoch atOwner

include atState atEpoch atOwner in
theorem looks_snapshotOwnerLoop (n : Nat) :
    (snapshotOwnerLoop state epoch owner classify valid n : Code L ε _).Looks P := by
  induction n with
  | zero => exact looks_snapshotOwnerFinal classify atState atEpoch
  | succ n ih =>
      refine looks_bind (looks_snapshotOwnerAttempt classify valid atState atEpoch atOwner) ?_
      intro seen
      cases seen with
      | some _ => trivial
      | none => exact ih

include atState atEpoch atOwner in
/-- A snapshot looks at the words of its record and at nothing else. -/
theorem looks_snapshotOwnerSeqCst :
    (snapshotOwnerSeqCst state epoch owner classify valid : Code L ε _).Looks P :=
  looks_snapshotOwnerLoop classify valid atState atEpoch atOwner _

end Looks

theorem looks_ownerEpochCapacity (reserve : Nat) :
    (ownerEpochCapacity epoch reserve : Code L ε _).Looks Memory.Reads := by
  refine looks_bind (looks_sharedLoad _) fun _ => ?_
  split
  · trivial
  · split <;> trivial

section Instant
variable {T W S : Type}

/-- The words of the record in a world. -/
structure OwnerRecord (L : Type) where
  state : L
  epoch : L
  owner : OwnerWord → L
  classify : Nat → OwnerStateKind
  valid : OwnerAbi → Bool

/-- The record breaks the owner protocol. -/
def OwnerRecord.Broken (r : OwnerRecord L) (read : L → Nat) : Prop :=
  match r.classify (read r.state) with
  | .protocolFault | .unexpected => True
  | .inactive => ¬ (read r.epoch % 2 = 0 ∧ read r.epoch ≤ maxCommittedOwnerEpoch)
  | .owned => read r.epoch % 2 = 0 ∧ ∃ o : OwnerAbi,
      (∀ w, read (r.owner w) = o.word w) ∧ r.valid o = false
  | _ => False

/-- What a snapshot says of the record. -/
def OwnerRecord.Shows (r : OwnerRecord L) (read : L → Nat) (snapshot : OwnerSnapshot) : Prop :=
  match snapshot.kind with
  | .inactive => read r.state = snapshot.state ∧ r.classify snapshot.state = .inactive ∧
      read r.epoch = snapshot.epoch ∧ snapshot.epoch % 2 = 0 ∧
      snapshot.epoch ≤ maxCommittedOwnerEpoch
  | .stable => read r.state = snapshot.state ∧ r.classify snapshot.state = .owned ∧
      read r.epoch = snapshot.epoch ∧ snapshot.epoch % 2 = 0 ∧
      (∀ w, read (r.owner w) = snapshot.owner.word w) ∧ r.valid snapshot.owner = true
  | .epochExhausted => r.classify (read r.state) = .epochExhausted
  | .corrupt => r.Broken read
  | .claiming | .unstable => True

variable (M : Logic T (Instr L) Reply W S) (D : Memory T L W) (t : T) (r : OwnerRecord L)

/-- The snapshot was true at some instant between `s` and `s'`. -/
def ShownAt (s s' : S) (snapshot : OwnerSnapshot) : Prop :=
  ∃ s₁, M.rely t s s₁ ∧ M.inv s₁ ∧ M.rely t s₁ s' ∧ r.Shows (D.read (M.world s₁)) snapshot

/-- What the report of a call that began at `s` means at `s'`. -/
def Reports (s : S) (x : Except ε (Option OwnerSnapshot)) (s' : S) : Prop :=
  ∀ snapshot, x = .ok (some snapshot) → ShownAt M D t r s s' snapshot

/-- The epoch only grows, and at an even epoch that stands still so do the owner words. -/
structure Guarded : Prop where
  mono : ∀ s s', M.rely t s s' →
    D.read (M.world s) r.epoch ≤ D.read (M.world s') r.epoch
  kept : ∀ s s', M.rely t s s' →
    D.read (M.world s') r.epoch = D.read (M.world s) r.epoch →
    D.read (M.world s) r.epoch % 2 = 0 →
    ∀ w, D.read (M.world s') (r.owner w) = D.read (M.world s) (r.owner w)

variable {M D t r}

theorem reports_none {s s' : S} :
    Reports M D t r s (.ok none : Except ε (Option OwnerSnapshot)) s' := nofun

theorem reports_some {s s₁ s' : S} {snapshot : OwnerSnapshot} (before : M.rely t s s₁)
    (inv : M.inv s₁) (after : M.rely t s₁ s')
    (shows : r.Shows (D.read (M.world s₁)) snapshot) :
    Reports M D t r s (.ok (some snapshot) : Except ε (Option OwnerSnapshot)) s' := by
  rintro _ ⟨⟩
  exact ⟨s₁, before, inv, after, shows⟩

/-- A report that claims nothing of the record. -/
theorem obs_report_trivial {s₀ s : S} {kind : OwnerSnapshotKind} {state epoch : Nat}
    {o : OwnerAbi} (hs : M.rely t s₀ s)
    (shows : ∀ read, r.Shows read ⟨kind, state, o, epoch⟩) :
    M.obs t (Reports M D t r s₀)
      (.ret (some ⟨kind, state, o, epoch⟩) : Code L ε _) s :=
  fun _ hr hi => reports_some (M.rely_trans _ _ _ _ hs hr) hi (M.rely_refl _ _) (shows _)

/-- A report about the state word alone, which was read at `s₁`. -/
theorem obs_report_state {s₀ s₁ s : S} {kind : OwnerSnapshotKind} {state epoch : Nat}
    {o : OwnerAbi} (before : M.rely t s₀ s₁) (inv : M.inv s₁) (after : M.rely t s₁ s)
    (shows : r.Shows (D.read (M.world s₁)) ⟨kind, state, o, epoch⟩) :
    M.obs t (Reports M D t r s₀)
      (.ret (some ⟨kind, state, o, epoch⟩) : Code L ε _) s :=
  fun _ hr _ => reports_some before inv (M.rely_trans _ _ _ _ after hr) shows

variable [DecidableEq T]

/-- The two epoch loads around the second state load agree, so the epoch stood
still at the moment the state was seen inactive. -/
theorem obs_snapshotOwnerInactive (hx : M.exec = D.exec) (guarded : Guarded M D t r)
    {before : Nat} (hb : r.classify before = .inactive) {s₀ s : S} (hs : M.rely t s₀ s) :
    M.obs t (Reports M D t r s₀)
      (snapshotOwnerInactive r.state r.epoch r.classify before : Code L ε _) s := by
  refine Access.obs_load hx fun s₁ r₁ i₁ => ?_
  refine Access.obs_load hx fun s₂ r₂ i₂ => ?_
  refine Access.obs_load hx fun s₃ r₃ i₃ => ?_
  have h₁ := guarded.mono _ _ r₂
  have h₂ := guarded.mono _ _ r₃
  have hs₂ := M.rely_trans _ _ _ _ hs (M.rely_trans _ _ _ _ r₁ r₂)
  split
  · rename_i same
    have epoch : D.read (M.world s₂) r.epoch = D.read (M.world s₃) r.epoch := by omega
    have inactive : r.classify (D.read (M.world s₂) r.state) = .inactive := same.1 ▸ hb
    split
    · rename_i bad
      refine obs_report_state hs₂ i₂ r₃ ?_
      simp only [OwnerRecord.Shows, OwnerRecord.Broken, inactive, epoch]
      omega
    · rename_i good
      have even : D.read (M.world s₃) r.epoch % 2 = 0 := by omega
      have bounded : D.read (M.world s₃) r.epoch ≤ maxCommittedOwnerEpoch := by omega
      exact obs_report_state hs₂ i₂ r₃ ⟨rfl, inactive, epoch, even, bounded⟩
  · split
    · exact obs_report_trivial (M.rely_trans _ _ _ _ hs₂ r₃) fun _ => trivial
    · rename_i kind
      exact obs_report_state hs₂ i₂ r₃ kind
    · rename_i kind
      refine obs_report_state hs₂ i₂ r₃ ?_
      simp only [OwnerRecord.Shows, OwnerRecord.Broken, kind]
    · rename_i kind
      refine obs_report_state hs₂ i₂ r₃ ?_
      simp only [OwnerRecord.Shows, OwnerRecord.Broken, kind]
    · exact fun _ _ _ => reports_none
    · exact fun _ _ _ => reports_none

/-- The words were read between two equal even epochs, and the state word before a
third: at that last load the whole record was as reported. -/
theorem obs_snapshotOwnerOwned (hx : M.exec = D.exec) (guarded : Guarded M D t r)
    {s₀ s : S} (hs : M.rely t s₀ s) :
    M.obs t (Reports M D t r s₀)
      (snapshotOwnerOwned r.state r.epoch r.owner r.classify r.valid : Code L ε _) s := by
  refine Access.obs_load hx fun s₁ r₁ i₁ => ?_
  split
  · exact fun _ _ _ => reports_none
  · refine Access.obs_load hx fun s₂ r₂ i₂ => ?_
    refine Access.obs_load hx fun s₃ r₃ i₃ => ?_
    refine Access.obs_load hx fun s₄ r₄ i₄ => ?_
    refine Access.obs_load hx fun s₅ r₅ i₅ => ?_
    refine Access.obs_load hx fun s₆ r₆ i₆ => ?_
    refine Access.obs_load hx fun s₇ r₇ i₇ => ?_
    refine Access.obs_load hx fun s₈ r₈ i₈ => ?_
    have up₂ := guarded.mono _ _ r₂
    have up₃ := guarded.mono _ _ r₃
    have up₄ := guarded.mono _ _ r₄
    have up₅ := guarded.mono _ _ r₅
    have up₆ := guarded.mono _ _ r₆
    have up₇ := guarded.mono _ _ r₇
    have up₈ := guarded.mono _ _ r₈
    have r₆₇ := M.rely_trans _ _ _ _ r₆ r₇
    have r₅₇ := M.rely_trans _ _ _ _ r₅ r₆₇
    have r₄₇ := M.rely_trans _ _ _ _ r₄ r₅₇
    have r₃₇ := M.rely_trans _ _ _ _ r₃ r₄₇
    have hs₇ := M.rely_trans _ _ _ _ hs (M.rely_trans _ _ _ _ r₁
      (M.rely_trans _ _ _ _ r₂ r₃₇))
    split
    · rename_i same
      obtain ⟨owned, first, second, even⟩ := same
      have words : ∀ w, D.read (M.world s₇) (r.owner w) =
          (⟨D.read (M.world s₂) (r.owner .pid), D.read (M.world s₃) (r.owner .procStartTicks),
            D.read (M.world s₄) (r.owner .bootIdHashHi),
            D.read (M.world s₅) (r.owner .bootIdHashLo)⟩ : OwnerAbi).word w := by
        intro w
        cases w with
        | pid => exact guarded.kept _ _ r₃₇ (by omega) (by omega) _
        | procStartTicks => exact guarded.kept _ _ r₄₇ (by omega) (by omega) _
        | bootIdHashHi => exact guarded.kept _ _ r₅₇ (by omega) (by omega) _
        | bootIdHashLo => exact guarded.kept _ _ r₆₇ (by omega) (by omega) _
      have epoch : D.read (M.world s₇) r.epoch = D.read (M.world s₈) r.epoch := by omega
      split
      · rename_i ok
        exact obs_report_state hs₇ i₇ r₈ ⟨rfl, owned, epoch, even, words, ok⟩
      · rename_i bad
        refine obs_report_state hs₇ i₇ r₈ ?_
        simp only [OwnerRecord.Shows, OwnerRecord.Broken, owned]
        exact ⟨by omega, _, words, by simpa using bad⟩
    · split
      · rename_i kind
        exact obs_report_state hs₇ i₇ r₈ kind
      · rename_i kind
        refine obs_report_state hs₇ i₇ r₈ ?_
        simp only [OwnerRecord.Shows, OwnerRecord.Broken, kind]
      · rename_i kind
        refine obs_report_state hs₇ i₇ r₈ ?_
        simp only [OwnerRecord.Shows, OwnerRecord.Broken, kind]
      · exact fun _ _ _ => reports_none

theorem obs_snapshotOwnerAttempt (hx : M.exec = D.exec) (guarded : Guarded M D t r)
    {s₀ s : S} (hs : M.rely t s₀ s) :
    M.obs t (Reports M D t r s₀)
      (snapshotOwnerAttempt r.state r.epoch r.owner r.classify r.valid : Code L ε _) s := by
  refine Access.obs_load hx fun s₁ r₁ i₁ => ?_
  have hs₁ := M.rely_trans _ _ _ _ hs r₁
  split
  · rename_i kind
    exact obs_snapshotOwnerInactive hx guarded kind hs₁
  · refine Access.obs_load hx fun s₂ r₂ _ => ?_
    exact obs_report_trivial (M.rely_trans _ _ _ _ hs₁ r₂) fun _ => trivial
  · rename_i kind
    exact Access.obs_load hx fun s₂ r₂ _ => obs_report_state hs₁ i₁ r₂ kind
  · rename_i kind
    refine Access.obs_load hx fun s₂ r₂ _ => obs_report_state hs₁ i₁ r₂ ?_
    simp only [OwnerRecord.Shows, OwnerRecord.Broken, kind]
  · rename_i kind
    refine Access.obs_load hx fun s₂ r₂ _ => obs_report_state hs₁ i₁ r₂ ?_
    simp only [OwnerRecord.Shows, OwnerRecord.Broken, kind]
  · exact obs_snapshotOwnerOwned hx guarded hs₁

theorem obs_snapshotOwnerFinal (hx : M.exec = D.exec) {s₀ s : S} (hs : M.rely t s₀ s) :
    M.obs t (fun x => Reports M D t r s₀ (x.map some))
      (snapshotOwnerFinal r.state r.epoch r.classify : Code L ε _) s := by
  refine Access.obs_load hx fun s₁ r₁ i₁ => ?_
  refine Access.obs_load hx fun s₂ r₂ i₂ => ?_
  have hs₁ := M.rely_trans _ _ _ _ hs r₁
  split
  · rename_i kind
    exact obs_report_state hs₁ i₁ r₂ kind
  · rename_i kind
    refine obs_report_state hs₁ i₁ r₂ ?_
    simp only [OwnerRecord.Shows, OwnerRecord.Broken, kind]
  · rename_i kind
    refine obs_report_state hs₁ i₁ r₂ ?_
    simp only [OwnerRecord.Shows, OwnerRecord.Broken, kind]
  · exact obs_report_trivial (M.rely_trans _ _ _ _ hs₁ r₂) fun _ => trivial

/-- What a snapshot reports was true at one instant of the call. -/
theorem obs_snapshotOwnerSeqCst (hx : M.exec = D.exec) (guarded : Guarded M D t r) (s : S) :
    M.obs t (fun x => Reports M D t r s (x.map some))
      (snapshotOwnerSeqCst r.state r.epoch r.owner r.classify r.valid : Code L ε _) s := by
  have loop : ∀ n s₁, M.rely t s s₁ →
      M.obs t (fun x => Reports M D t r s (x.map some))
        (snapshotOwnerLoop r.state r.epoch r.owner r.classify r.valid n : Code L ε _) s₁ := by
    intro n
    induction n with
    | zero => exact fun s₁ hs => obs_snapshotOwnerFinal hx hs
    | succ n ih =>
        intro s₁ hs
        refine Logic.obs_bind (Logic.obs_mono ?_
          (Logic.obs_and (obs_snapshotOwnerAttempt hx guarded hs)
            (Access.obs_frame hx
              (looks_snapshotOwnerAttempt r.classify r.valid trivial trivial
                fun _ => trivial).all
              (M.rely t s) (fun _ _ h h' _ => M.rely_trans _ _ _ _ h h') hs)))
        rintro (e | seen) s₂ _ ⟨hr, hs₂⟩
        · intro snapshot h
          cases h
        · cases seen with
          | none => exact ih s₂ hs₂
          | some snapshot =>
              intro s₃ r₃ _ _ h
              cases h
              obtain ⟨s₄, r₄, i₄, r₅, h₄⟩ := hr snapshot rfl
              exact ⟨s₄, r₄, i₄, M.rely_trans _ _ _ _ r₅ r₃, h₄⟩
  exact loop _ s (M.rely_refl t s)

end Instant
end EdgeRuntime

import EdgeRuntime.Control.Calls

/-!
Cleaning up: what a creation finds in the journal, and what it makes of a transaction whose
creator is gone. Only an object of that creator is ever taken away.
-/
namespace EdgeRuntime
open Concurrent

namespace ControlSystem

section Records
variable {T : Type} {q : ControlSystem T} {ρ : Regime} {w : ControlWorld T} {t : T} {v : View}
  {o : FileIdentity} {j : ControlJournalV1}

/-- An idle record fits where the object under the name, if any, is complete and of the
recorded generation. -/
theorem fits_idle (idle : j.state = JournalState.idle.code) (genuine : ρ.posix → q.Genuine j)
    (committed : ρ.posix → ∀ o m, w.name = some o → w.maker o = some m →
      q.Committed m (w.segment o) ∧ (w.segment o).header.generation = j.newGeneration) :
    q.Fits ρ j w where
  creator creation := by
    rcases creation with h | h | h <;> cases idle.symm.trans h
  genuine := genuine
  shape posix o m name made := by
    refine ⟨fun _ => committed posix o m name made, fun h => ?_, fun h => ?_, fun h => ?_⟩ <;>
      cases idle.symm.trans h

theorem fits_unnamed (genuine : ρ.posix → q.Genuine j) (unnamed : w.name = none) :
    q.Fits ρ j w where
  creator _ _ _ name := by cases unnamed.symm.trans name
  genuine := genuine
  shape _ _ _ name := by cases unnamed.symm.trans name

/-- A reset record, whatever generation it takes over. -/
theorem Genuine.reset (h : q.Genuine j) (busy : j.state ≠ JournalState.idle.code)
    (generation nonceHi nonceLo : Nat) :
    q.Genuine { resetJournal j with
      newGeneration := generation, newNonceHi := nonceHi, newNonceLo := nonceLo } where
  hash := h.hash
  version none := (busy (h.version none).1).elim
  transport := h.transport
  state := .inl rfl
  creator idle := (idle rfl).elim

/-- The lock is held, and the creator of the record on file is dead. -/
structure Inherits (q : ControlSystem T) (t : T) (v : View) (j : ControlJournalV1)
    (w : ControlWorld T) : Prop where
  holds : Holds t v w
  orphaned : ∀ m, journalCreator j = q.self m → w.dead m = true

/-- What cleaning up ends with: a record to go on from that fits the world, whatever is
left under the name. -/
def Reconciled (q : ControlSystem T) (ρ : Regime) (t : T) (v : View) :
    Except Error ControlJournalV1 → ControlWorld T → Prop
  | .ok reset, w => ∃ name, Holds t { v with name } w ∧
      reset.state = JournalState.idle.code ∧ q.Fits ρ reset w
  | .error _, w => w.lock = some t

/-- Nothing is under the name, or no longer. -/
theorem reconciled_unnamed (recorded : v.journal = some j)
    (busy : j.state ≠ JournalState.idle.code) (inv : q.Inv ρ w)
    (holds : Holds t { v with name := none } w) :
    Reconciled q ρ t v (.ok (resetJournal j)) w := by
  refine ⟨none, holds, rfl, fits_unnamed (fun posix => ?_) holds.name⟩
  exact ((inv.fits j (holds.journal.trans recorded)).genuine posix).reset busy _ _ _

/-- What a creation starts from: an idle record that fits, and in orderly runs no committed
instance is later than it. -/
def Started (q : ControlSystem T) (ρ : Regime) (t : T) (born : List Nat) :
    Except Error ControlJournalV1 → ControlWorld T → Prop
  | .ok j, w => (∃ file name, Holds t ⟨some file, name, born⟩ w) ∧
      j.state = JournalState.idle.code ∧ q.Fits ρ j w ∧
      (ρ.orderly → Settled w.journal born ∧ j.oldGeneration ≤ j.newGeneration ∧
        ∀ g ∈ born, g ≤ j.newGeneration)
  | .error _, w => Leaves ρ t w

theorem started_error {born : List Nat} {e : Error} (disorder : ¬ ρ.orderly)
    (lock : w.lock = some t) : Started q ρ t born (.error e) w :=
  ⟨lock, fun orderly => (disorder orderly).elim⟩

end Records

variable {T : Type} [DecidableEq T] {q : ControlSystem T} {ρ : Regime} {w : ControlWorld T}
  {t : T} {v : View} {o : FileIdentity} {j : ControlJournalV1}

theorem stable_lock : (q.logic ρ).Stable t fun w => w.lock = some t :=
  fun _ _ lock rely _ => rely.lock.2 lock

theorem stable_inherits : (q.logic ρ).Stable t (Inherits q t v j) :=
  fun _ _ h rely _ => ⟨h.holds.rely rely, fun m creator => rely.dead m (h.orphaned m creator)⟩

theorem stable_reconciled {reset : ControlJournalV1} :
    (q.logic ρ).Stable t (Reconciled q ρ t v (.ok reset)) := by
  rintro w w' ⟨name, holds, idle, fits⟩ rely _
  exact ⟨name, holds.rely rely, idle, fits.same (rely.held holds.lock)⟩

/-- Any failure on the way leaves the lock to be given back. -/
theorem wp_blocked {P : ControlWorld T → Prop} {e : Error} (stable : (q.logic ρ).Stable t P)
    (held : ∀ w, P w → w.lock = some t) (pre : P w) :
    (q.logic ρ).wp t (Reconciled q ρ t v) (.throw e) w :=
  Logic.wp_throw P stable pre fun w _ p => held w p

theorem wp_reconciled {reset : ControlJournalV1} (h : Reconciled q ρ t v (.ok reset) w) :
    (q.logic ρ).wp t (Reconciled q ρ t v) (.ret reset) w :=
  Logic.wp_ret _ stable_reconciled h fun _ _ h => h

section Stale
variable (recorded : v.journal = some j) (busy : j.state ≠ JournalState.idle.code)
include recorded busy

/-- The clean-up by what is under the name. -/
theorem wp_examine {present : FileIdentity → FileStatus → ControlCode ControlJournalV1}
    (some : ∀ o s w, q.Inv ρ w → Inherits q t v j w → v.name = some o → s.identity = o →
      (q.logic ρ).wp t (Reconciled q ρ t v) (present o s) w) (pre : Inherits q t v j w) :
    (q.logic ρ).wp t (Reconciled q ρ t v) (examinePresent (resetJournal j) present) w := by
  refine wp_examinePresent stable_inherits (fun _ h => h.holds) ?_ ?_ ?_ pre
  · intro w₁ inv p name
    refine wp_reconciled (reconciled_unnamed recorded busy inv ?_)
    exact ⟨p.holds.lock, p.holds.journal, p.holds.name.trans name, p.holds.born⟩
  · intro o s w₁ inv p name identity _
    exact some o s w₁ inv p name identity
  · exact fun _ _ _ p _ => p.holds.lock

/-- The dead creator's object is taken away. -/
theorem wp_discard (creation : j.InCreation) (name : v.name = some o)
    (pre : Inherits q t v j w) :
    (q.logic ρ).wp t (Reconciled q ρ t v)
      (Control.shmUnlinkChecked o >>= fun _ => .ret (resetJournal j)) w := by
  -- the creator is the maker of what is under the name
  have doomed : ∀ w, q.Inv ρ w ∧ Inherits q t v j w → v.name = some o → Doomed t o w := by
    rintro w ⟨inv, h⟩ _ m made
    have fits := inv.fits j (h.holds.journal.trans recorded)
    have creator := fits.creator creation o m (h.holds.name.trans name) made
    exact .inr (.inl (h.orphaned m creator))
  have stable : (q.logic ρ).Stable t fun w => q.Inv ρ w ∧ Inherits q t v j w :=
    fun w w' h rely inv => ⟨inv, stable_inherits w w' h.2 rely inv⟩
  apply Logic.wp_intro
  intro w' rely inv
  refine Logic.wp_seq (wp_shmUnlinkChecked (G := Holds t { v with name := none }) stable
    (fun _ h => h.2.holds) stable_holds doomed ?_ (fun _ h => h)
    ⟨inv, stable_inherits w w' pre rely inv⟩) ?_ ?_
  · rintro w₁ ⟨_, h⟩ _
    exact ⟨h.holds.lock, h.holds.journal, rfl, h.holds.born⟩
  · rintro _ w₁ inv ⟨_, holds⟩
    exact wp_reconciled (reconciled_unnamed recorded busy inv holds)
  · rintro e w₁ _ (⟨_, _, holds⟩ | ⟨_, _, h⟩)
    · exact holds.lock
    · exact h.2.holds.lock

theorem wp_reconcilePreObject (state : j.state = JournalState.creatingPreObject.code)
    (pre : Inherits q t v j w) :
    (q.logic ρ).wp t (Reconciled q ρ t v) (reconcilePreObject j) w := by
  refine wp_examine recorded busy ?_ pre
  intro o s w₁ _ p name identity
  rw [identity]
  split
  · exact wp_blocked stable_inherits (fun _ h => h.holds.lock) p
  · exact wp_discard recorded busy (.inl state) name p

/-- A READY object of the dead creator is kept. -/
theorem wp_adoptCommitted {boot : BootstrapHeaderAbi} (name : v.name = some o)
    (creating : ρ.posix → j.state = JournalState.creatingObject.code)
    (ready : boot.initState = InitState.ready.code)
    (pre : Inherits q t v j w ∧ (w.segment o).boot = some boot) :
    (q.logic ρ).wp t (Reconciled q ρ t v) (adoptCommitted j o) w := by
  have stable : (q.logic ρ).Stable t fun w =>
      Inherits q t v j w ∧ (w.segment o).boot = some boot :=
    stable_field (fun _ _ => rfl) stable_inherits fun _ h => h.holds
  refine wp_look rfl stable pre fun w₁ r inv p exec _ => ?_
  obtain ⟨_, tells⟩ := exec
  cases r with
  | error e => exact wp_blocked stable (fun _ h => h.1.holds.lock) p
  | ok header =>
      obtain rfl := tells header rfl
      obtain ⟨h, hb⟩ := p
      have fits := inv.fits j (h.holds.journal.trans recorded)
      refine wp_reconciled ⟨v.name, h.holds, rfl, fits_idle rfl ?_ ?_⟩
      · exact fun posix => (fits.genuine posix).reset busy _ _ _
      · intro posix o' m name' made
        obtain rfl := Option.some_inj.1 (name'.symm.trans (h.holds.name.trans name))
        have shape := fits.shape posix o' m name' made
        exact ⟨((shape.object (creating posix) boot hb).ready ready).1, rfl⟩

theorem wp_reconcileObject (state : j.state = JournalState.creatingObject.code ∨
      j.state = JournalState.replacing.code) (pre : Inherits q t v j w) :
    (q.logic ρ).wp t (Reconciled q ρ t v) (reconcileObject j) w := by
  have held : ∀ w, Inherits q t v j w → w.lock = some t := fun _ h => h.holds.lock
  refine wp_examine recorded busy ?_ pre
  intro o s w₁ _ p name identity
  split
  · exact wp_blocked stable_inherits held p
  · refine wp_look rfl stable_inherits p fun w₂ r inv p exec _ => ?_
    obtain ⟨_, read⟩ := exec
    cases r with
    | error e => exact wp_blocked stable_inherits held p
    | ok boot =>
        change (q.logic ρ).wp t _ (reconcileBootstrap j o s boot) w₂
        unfold reconcileBootstrap
        split
        · exact wp_blocked stable_inherits held p
        · split
          · exact wp_blocked stable_inherits held p
          · split
            · rename_i ready
              refine wp_adoptCommitted recorded busy name (fun posix => ?_) ready
                ⟨p, read boot rfl⟩
              have genuine := (inv.fits j (p.holds.journal.trans recorded)).genuine posix
              rcases state with creating | replacing
              · exact creating
              · rcases genuine.state with h | h | h | h <;> cases replacing.symm.trans h
            · rw [identity]
              exact wp_discard recorded busy (.inr state) name p

theorem wp_reconcileRemoving (state : j.state = JournalState.removing.code)
    (pre : Inherits q t v j w) :
    (q.logic ρ).wp t (Reconciled q ρ t v) (reconcileRemoving j) w := by
  refine wp_examine recorded busy ?_ pre
  intro o s w₁ inv p name _
  split
  · exact wp_blocked stable_inherits (fun _ h => h.holds.lock) p
  · have fits := inv.fits j (p.holds.journal.trans recorded)
    refine wp_reconciled ⟨v.name, p.holds, rfl, fits_idle rfl ?_ ?_⟩
    · exact fun posix => (fits.genuine posix).reset busy _ _ _
    · exact fun posix o' m name' made =>
        ((fits.shape posix o' m name' made).removing state).2

theorem wp_reconcileByState (pre : Inherits q t v j w) :
    (q.logic ρ).wp t (Reconciled q ρ t v) (reconcileByState j) w := by
  unfold reconcileByState
  split
  · rename_i state
    exact wp_reconcilePreObject recorded busy state pre
  · split
    · rename_i state
      exact wp_reconcileObject recorded busy state pre
    · split
      · rename_i state
        exact wp_reconcileRemoving recorded busy state pre
      · rename_i preObject creating removing
        apply Logic.wp_intro
        intro w' rely inv
        have h := stable_inherits w w' pre rely inv
        have fits := inv.fits j (h.holds.journal.trans recorded)
        refine wp_reconciled ⟨v.name, h.holds, rfl, fits_idle rfl ?_ ?_⟩
        · exact fun posix => (fits.genuine posix).reset busy _ _ _
        · intro posix
          -- no record of this control plane has another state
          rcases (fits.genuine posix).state with s | s | s | s
          · exact (busy s).elim
          · exact (preObject s).elim
          · exact (creating (.inl s)).elim
          · exact (removing s).elim

end Stale

/-- The reset record goes into the journal. -/
theorem wp_restart {reset : ControlJournalV1} {x : Option ControlJournalV1}
    {name : Option FileIdentity} {born : List Nat} (disorder : ¬ ρ.orderly)
    (idle : reset.state = JournalState.idle.code)
    (pre : Holds t ⟨x, name, born⟩ w ∧ q.Fits ρ reset w) :
    (q.logic ρ).wp t (Started q ρ t born)
      (lockWriteJournal reset >>= fun _ => .ret reset) w := by
  have stable : ∀ x, (q.logic ρ).Stable t fun w =>
      Holds t ⟨x, name, born⟩ w ∧ q.Fits ρ reset w :=
    fun x w w' h rely _ => ⟨h.1.rely rely, h.2.same (rely.held h.1.lock)⟩
  refine Logic.wp_seq (wp_lockWriteJournal stable (fun _ _ h => h.1.lock) ?_
    (fun _ _ h => h.2) (fun _ busy => (busy idle).elim) pre) ?_ ?_
  · rintro x y w ⟨holds, fits⟩
    exact ⟨⟨holds.lock, rfl, holds.name, holds.born⟩,
      ⟨fits.creator, fits.genuine, fits.shape⟩⟩
  · rintro _ w₁ _ (⟨_, p⟩ | ⟨⟨_, never⟩, _⟩)
    · refine Logic.wp_ret _ (stable _) p fun w₂ _ p => ?_
      exact ⟨⟨_, _, p.1⟩, idle, p.2, fun orderly => (disorder orderly).elim⟩
    · cases never
  · rintro e w₁ _ (⟨never, _⟩ | ⟨_, _, _, p⟩)
    · cases never
    · exact started_error disorder p.1.lock

section Stale
variable (recorded : v.journal = some j) (busy : j.state ≠ JournalState.idle.code)
include recorded busy

/-- The whole clean-up, with the record written. -/
theorem wp_reconcileStaleJournal (disorder : ¬ ρ.orderly) (pre : Holds t v w) :
    (q.logic ρ).wp t (Started q ρ t v.born) (reconcileStaleJournal j) w := by
  have blocked : ∀ {e : Error} {w}, Holds t v w →
      (q.logic ρ).wp t (Started q ρ t v.born) (.throw e) w :=
    fun h => Logic.wp_throw _ stable_holds h fun _ _ h => (started_error disorder h.lock)
  unfold reconcileStaleJournal
  split
  · rename_i idle
    exact (busy idle).elim
  · split
    · exact blocked pre
    · refine wp_look rfl stable_holds pre fun w₁ r _ holds exec _ => ?_
      obtain ⟨_, answer⟩ := exec
      cases r with
      | alive | unverifiable => exact blocked holds
      | exited | pidReused =>
          have gone : Inherits q t v j w₁ := by
            refine ⟨holds, fun m creator => ?_⟩
            cases alive : w₁.dead m with
            | true => rfl
            | false =>
                have pid : j.creator.pid = (q.self m).pid := congrArg (·.pid) creator
                have ticks : j.creator.procStartTicks = (q.self m).procStartTicks :=
                  congrArg (·.procStartTicks) creator
                rw [pid, ticks] at answer
                rcases q.accurate w₁ m _ alive answer with h | h <;> cases h
          refine Logic.wp_seq (wp_reconcileByState recorded busy gone) ?_ ?_
          · rintro reset w₂ _ ⟨name, holds, idle, fits⟩
            exact wp_restart disorder idle ⟨holds, fits⟩
          · rintro e w₂ _ lock
            exact started_error disorder lock

end Stale

theorem wp_startingJournal {options : ChannelOptions} (channel : options.name = q.channelName)
    (rest : ρ.orderly → Settled v.journal v.born) (pre : Holds t v w) :
    (q.logic ρ).wp t (Started q ρ t v.born) (startingJournal options) w := by
  have blocked : ∀ {e : Error} {w}, Holds t v w →
      (q.logic ρ).wp t (Started q ρ t v.born) (.throw e) w := by
    refine fun h => Logic.wp_throw _ stable_holds h fun w _ h => ⟨h.lock, fun orderly => ?_⟩
    rw [h.journal, h.born]
    exact rest orderly
  refine wp_look rfl stable_holds pre fun w₁ r inv holds exec _ => ?_
  obtain ⟨_, read⟩ := exec
  cases r with
  | error e => exact blocked holds
  | ok j =>
      have file := read j rfl
      have recorded := holds.journal.symm.trans file
      have fits := inv.fits j file
      have settled : ρ.orderly → j.state = JournalState.idle.code ∧
          j.oldGeneration ≤ j.newGeneration ∧ ∀ g ∈ v.born, g ≤ j.newGeneration := by
        intro orderly
        obtain ⟨j', same, facts⟩ := rest orderly
        obtain rfl := Option.some_inj.1 (same.symm.trans recorded)
        exact facts
      have begin : ∀ j' : ControlJournalV1, j'.state = JournalState.idle.code →
          q.Fits ρ j' w₁ → (ρ.orderly → j'.oldGeneration ≤ j'.newGeneration ∧
            ∀ g ∈ v.born, g ≤ j'.newGeneration) →
          (q.logic ρ).wp t (Started q ρ t v.born) (.ret j') w₁ := by
        intro j' idle fits' bounds
        refine Logic.wp_ret (fun w => Holds t v w ∧ q.Fits ρ j' w) ?_ ⟨holds, fits'⟩ ?_
        · exact fun w w' h rely _ => ⟨h.1.rely rely, h.2.same (rely.held h.1.lock)⟩
        · rintro w₂ _ ⟨h, fits'⟩
          refine ⟨⟨j, v.name, h.lock, h.journal.trans recorded, h.name, h.born⟩, idle, fits',
            fun orderly => ⟨?_, bounds orderly⟩⟩
          rw [h.journal]
          exact rest orderly
      change (q.logic ρ).wp t _ (if j.channelHash ≠ 0 ∧
        j.channelHash ≠ channelNameHash options.name then _ else _) w₁
      split
      · exact blocked holds
      · by_cases fresh : j.version = 0
        · rw [if_pos fresh, if_neg (by simp [makeControlJournal])]
          have zero : ρ.posix → j.state = JournalState.idle.code ∧ j.newGeneration = 0 :=
            fun posix => (fits.genuine posix).version fresh
          refine begin _ rfl (fits_idle rfl (fun posix => ?_) fun posix o m name made => ?_)
            fun orderly => ?_
          · refine ⟨.inr ?_, fun h => ⟨rfl, rfl⟩, rfl, .inl rfl, fun h => (h rfl).elim⟩
            rw [← channel]
            rfl
          · have shape := (fits.shape posix o m name made).idle (zero posix).1
            rw [(zero posix).2] at shape
            exact shape
          · refine ⟨Nat.le_refl _, fun g mem => ?_⟩
            have bound := (settled orderly).2.2 g mem
            rw [(zero (ρ.orderly_posix orderly)).2] at bound
            exact bound
        · rw [if_neg fresh]
          split
          · rename_i busy
            refine wp_reconcileStaleJournal recorded busy (fun orderly => ?_) holds
            exact busy (settled orderly).1
          · rename_i idle
            exact begin j (Decidable.not_not.1 idle) fits fun orderly => (settled orderly).2

end ControlSystem
end EdgeRuntime

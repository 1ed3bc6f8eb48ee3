import EdgeRuntime.Control.Build

/-!
The calls of a process, each as one transaction under the lock: making an instance, leaving
it, and removing it.
-/
namespace EdgeRuntime
open Concurrent

theorem nextGenerationFromJournal_later {journal : ControlJournalV1} {generation : Nat}
    (idle : journal.state = JournalState.idle.code)
    (next : nextGenerationFromJournal journal = some generation) :
    journal.newGeneration < generation := by
  simp only [nextGenerationFromJournal, if_pos idle] at next
  split at next
  · cases next
  · cases next
    omega

namespace ControlSystem

section Facts
variable {T : Type} {q : ControlSystem T} {ρ : Regime} {w w' : ControlWorld T} {t : T}
  {v : View} {handle : InstanceHandle} {journal : ControlJournalV1}

/-- The process is alive and does not hold the lock. -/
structure Free (t : T) (w : ControlWorld T) : Prop where
  lock : w.lock ≠ some t
  alive : w.dead t = false

theorem Free.rely (h : Free t w) (rely : Rely t w w') : Free t w' :=
  ⟨fun held => h.lock (rely.lock.1 held), rely.alive.trans h.alive⟩

theorem Free.aside (h : Free t w) (aside : Aside t w w') : Free t w' := by
  obtain ⟨path, serving, handles, rfl, _⟩ := aside
  exact ⟨h.lock, h.alive⟩

/-- An owner at its own instance, and the record it found still fits. -/
structure Leaving (q : ControlSystem T) (ρ : Regime) (t : T) (v : View)
    (handle : InstanceHandle) (journal : ControlJournalV1) (w : ControlWorld T) : Prop where
  holds : Holds t v w
  owns : q.Owns ρ t handle w
  old : q.Fits ρ journal w

theorem Leaving.setJournal (h : Leaving q ρ t v handle journal w)
    (x : Option ControlJournalV1) :
    Leaving q ρ t { v with journal := x } handle journal (w.setJournal x) where
  holds := ⟨h.holds.lock, rfl, h.holds.name, h.holds.born⟩
  owns := h.owns.congr rfl rfl
  old := h.old.congr rfl rfl rfl

theorem Leaving.aside (h : Leaving q ρ t v handle journal w) (aside : Aside t w w') :
    Leaving q ρ t v handle journal w' := by
  have holds := aside.holds h.holds
  have owns := aside.owns h.owns
  obtain ⟨path, serving, handles, rfl, _⟩ := aside
  exact ⟨holds, owns, h.old.congr rfl rfl rfl⟩

theorem Leaving.rely (h : Leaving q ρ t v handle journal w) (rely : Rely t w w') :
    Leaving q ρ t v handle journal w' where
  holds := h.holds.rely rely
  owns := h.owns.rely rely
  old := h.old.same (rely.held h.holds.lock)

/-- The records of a removal are genuine. -/
theorem Owns.record (owns : q.Owns ρ t handle w) {state : JournalState}
    (known : state = .idle ∨ state = .removing) (target : FileIdentity) (posix : ρ.posix) :
    q.Genuine (removalRecord handle state target) where
  hash := .inr (congrArg channelNameHash owns.channel)
  version none := by cases none
  transport := congrArg Transport.code (owns.transport posix)
  state := by
    rcases known with rfl | rfl
    · exact .inl rfl
    · exact .inr (.inr (.inr rfl))
  creator _ := ⟨t, owns.self⟩

/-- The first record of a removal fits the instance that is to be removed. -/
theorem Leaving.fits {target : FileIdentity} (h : Leaving q ρ t v handle journal w)
    (found : ρ.posix → target = handle.shm ∧ v.name = some handle.shm) :
    q.Fits ρ (removalRecord handle .removing target) w where
  creator creation := by rcases creation with h | h | h <;> cases h
  genuine := h.owns.record (.inr rfl) target
  shape posix o m name made := by
    obtain ⟨rfl, here⟩ := found posix
    obtain rfl := Option.some_inj.1 ((h.holds.name.trans here).symm.trans name)
    obtain rfl := Option.some_inj.1 (h.owns.maker.symm.trans made)
    refine ⟨fun h => ?_, fun h => ?_, fun h => ?_,
      fun _ => ⟨rfl, h.owns.committed, h.owns.names.generation⟩⟩ <;> cases h

/-- The instance under the name is the last one. -/
theorem Leaving.latest (h : Leaving q ρ t v handle journal w) (recorded : v.journal = some journal)
    (rest : ρ.orderly → Settled v.journal v.born)
    (found : ρ.posix → v.name = some handle.shm) :
    ρ.orderly → ∀ g ∈ v.born, g ≤ handle.generation := by
  intro orderly g mem
  have posix := ρ.orderly_posix orderly
  obtain ⟨j, same, idle, _, bound⟩ := rest orderly
  obtain rfl := Option.some_inj.1 (same.symm.trans recorded)
  have shape := h.old.shape posix _ t (h.holds.name.trans (found posix)) h.owns.maker
  rw [← h.owns.names.generation, (shape.idle idle).2]
  exact bound g mem

end Facts

variable {T : Type} [DecidableEq T] {q : ControlSystem T} {ρ : Regime} {w : ControlWorld T}
  {t : T} {v : View} {handle : InstanceHandle} {journal : ControlJournalV1} {α : Type}
  {P : ControlWorld T → Prop}

theorem stable_free : (q.logic ρ).Stable t (Free t) := fun _ _ h rely _ => h.rely rely

theorem stable_owns : (q.logic ρ).Stable t (q.Owns ρ t handle) := fun _ _ h rely _ => h.rely rely

theorem stable_leaving : (q.logic ρ).Stable t (Leaving q ρ t v handle journal) :=
  fun _ _ h rely _ => h.rely rely

/-! ### The lock -/

/-- A call under the lock. What it is given and what it returns do not speak of the lock. -/
theorem wp_withChannelLock {body : ControlCode α} {F : Except Error α → ControlWorld T → Prop}
    (stable : (q.logic ρ).Stable t P) (relock : ∀ w, P w → P { w with lock := some t })
    (stable' : ∀ x, (q.logic ρ).Stable t (F x))
    (unlock : ∀ x w, F x w → F x { w with lock := none })
    (refused : ∀ e w, P w → F (.error e) w)
    (inside : ∀ v w, P w → Holds t v w → (ρ.orderly → Settled v.journal v.born) →
      (q.logic ρ).wp t (fun x w => Leaves ρ t w ∧ F x w) body w)
    (pre : Free t w ∧ P w) :
    (q.logic ρ).wp t (fun x w => F x w ∧ Free t w) (withChannelLock body) w := by
  have outside : (q.logic ρ).Stable t fun w => Free t w ∧ P w :=
    fun w w' h rely inv => ⟨h.1.rely rely, stable w w' h.2 rely inv⟩
  refine wp_act outside pre fun w₁ r w₂ inv h exec _ => ?_
  rcases exec with ⟨rfl, free, rfl⟩ | ⟨⟨e, rfl⟩, rfl⟩
  · refine ⟨inv.acquire h.1.alive, .acquire free, ?_⟩
    refine Logic.wp_attempt_seq (inside ⟨w₁.journal, w₁.name, w₁.born⟩ _ (relock w₁ h.2)
      ⟨rfl, rfl, rfl, rfl⟩ fun orderly => inv.settled orderly free) ?_
    rintro x w₃ _ h
    have held : (q.logic ρ).Stable t fun w => Leaves ρ t w ∧ F x w :=
      fun w w' h rely inv => ⟨stable_leaves w w' h.1 rely inv, stable' x w w' h.2 rely inv⟩
    refine wp_act held h fun w₄ r w₅ inv h exec _ => ?_
    obtain rfl := exec
    rw [if_pos h.1.1]
    refine ⟨inv.release h.1.2, .release h.1.1, Logic.wp_lift fun w₆ rely inv₆ => ?_⟩
    have out : Free t { w₄ with lock := none } := ⟨fun held => (by cases held), inv.holder t h.1.1⟩
    exact ⟨stable' x _ w₆ (unlock x w₄ h.2) rely inv₆, out.rely rely⟩
  · refine ⟨inv, Guar.refl t _, ?_⟩
    exact Logic.wp_throw _ outside h fun w _ h => ⟨refused e w h.2, h.1⟩

/-! ### Making an instance -/

theorem wp_startServing (pre : Leaves ρ t w ∧ q.Owns ρ t handle w) :
    (q.logic ρ).wp t (Executed q ρ t) (startServing handle) w := by
  unfold startServing
  split
  · refine wp_look rfl stable_owned pre fun w₁ r _ h _ _ => ?_
    cases r with
    | ok _ => exact Logic.wp_ret _ stable_owned h fun _ _ h => h
    | error _ =>
        refine Logic.wp_mono ?_ (wp_beside (E := fun x => ∃ e, x = .error e)
          ⟨rfl, fun _ => ⟨rfl, fun _ => trivial⟩⟩ (fun _ _ => ⟨_, rfl⟩) stable_leaves
          (fun _ _ leaves aside => aside.leaves leaves) h.1)
        rintro x w₂ _ ⟨⟨e, rfl⟩, leaves⟩
        exact leaves
  · exact Logic.wp_ret _ stable_owned pre fun _ _ h => h

theorem wp_createLocked {options : ChannelOptions} {schema : SchemaDescriptor}
    {payloadSize : Nat} (channel : options.name = q.channelName)
    (transport : ρ.posix → options.transport = .posixShm)
    (rest : ρ.orderly → Settled v.journal v.born) (pre : Holds t v w) :
    (q.logic ρ).wp t (Executed q ρ t)
      (createLocked q.uid options schema payloadSize (q.self t)) w := by
  refine Logic.wp_seq (wp_startingJournal channel rest pre) ?_ fun _ _ _ leaves => leaves
  rintro journal w₁ _ ⟨⟨file, name, holds⟩, idle, fits, facts⟩
  have settled : ρ.orderly → Settled (some file) v.born := by
    intro orderly
    have settled := (facts orderly).1
    rw [holds.journal] at settled
    exact settled
  have stable : (q.logic ρ).Stable t fun w => Holds t ⟨some file, name, v.born⟩ w ∧
      q.Fits ρ journal w :=
    fun w w' h rely _ => ⟨h.1.rely rely, h.2.same (rely.held h.1.lock)⟩
  split
  · exact Logic.wp_throw _ stable_holds holds fun _ _ h => h.leaves settled
  · rename_i generation next
    refine Logic.wp_seq (wp_onlyLooks looks_checkOtherTransport stable ⟨holds, fits⟩) ?_
      fun _ _ _ h => h.1.leaves settled
    rintro _ w₂ _ h
    refine Logic.wp_seq (wp_replaceExisting idle settled
      (nextGenerationFromJournal_later idle next) h) ?_ fun _ _ _ leaves => leaves
    rintro generation' w₃ _ ⟨cleared, newer⟩
    refine wp_look rfl stable_holds cleared fun w₄ r _ cleared _ _ => ?_
    cases r with
    | error f => exact Logic.wp_throw _ stable_holds cleared fun _ _ h => h.leaves settled
    | ok nonces =>
        obtain ⟨nonceHi, nonceLo⟩ := nonces
        have planned : Planned q ρ t v.born ⟨q.uid, options, schema, payloadSize, q.self t,
            journal, generation', nonceHi, nonceLo⟩ := by
          refine ⟨channel, rfl, transport, idle, fits.genuine, fun orderly => (facts orderly).2,
            fun orderly => ?_, fun orderly g mem => ?_⟩
          · exact Nat.le_of_lt (Nat.lt_of_le_of_lt (facts orderly).2.1 (newer orderly))
          · exact Nat.lt_of_le_of_lt ((facts orderly).2.2 g mem) (newer orderly)
        refine Logic.wp_seq (wp_execute (v := ⟨some file, none, v.born⟩) planned rfl cleared) ?_
          fun _ _ _ leaves => leaves
        exact fun handle w₅ _ h => wp_startServing h

theorem wp_producerCreateImpl {options : ChannelOptions} {schema : SchemaDescriptor}
    {payloadSize : Nat} (channel : options.name = q.channelName)
    (transport : ρ.posix → options.transport = .posixShm) (pre : Free t w) :
    (q.logic ρ).wp t (fun x w => (∀ h, x = .ok h → q.Owns ρ t h w) ∧ Free t w)
      (producerCreateImpl q.uid options schema payloadSize) w := by
  have refused : ∀ {e : Error} {w}, Free t w → (q.logic ρ).wp t (fun x w =>
      (∀ h, x = .ok h → q.Owns ρ t h w) ∧ Free t w) (.throw e) w := by
    refine fun h => Logic.wp_throw _ stable_free h fun w _ h => ⟨?_, h⟩
    rintro _ ⟨⟩
  unfold producerCreateImpl
  split
  · exact refused pre
  · refine Logic.wp_seq (P := fun _ w => Free t w)
      (Logic.wp_lift fun w₁ rely _ => pre.rely rely) ?_ ?_
    · intro _ w₁ _ h
      refine wp_look rfl stable_free h fun w₂ r _ h exec _ => ?_
      cases r with
      | error e => exact refused h
      | ok self =>
          obtain rfl := exec.2 self rfl
          refine wp_withChannelLock (P := fun _ => True)
            (F := fun x w => ∀ h, x = .ok h → q.Owns ρ t h w) (fun _ _ _ _ _ => trivial)
            (fun _ _ => trivial) ?_ ?_ ?_ ?_ ⟨h, trivial⟩
          · exact fun x w w' owns rely _ h made => (owns h made).rely rely
          · intro x w owns h made
            exact (owns h made).congr rfl rfl
          · rintro e w _ _ ⟨⟩
          · intro v w _ holds rest
            refine Logic.wp_mono ?_ (wp_createLocked channel transport rest holds)
            rintro (e | handle) w₃ _ executed
            · refine ⟨executed, ?_⟩
              rintro _ ⟨⟩
            · refine ⟨executed.1, ?_⟩
              rintro _ ⟨⟩
              exact executed.2
    · intro e w₁ _ h
      refine ⟨?_, h⟩
      rintro _ ⟨⟩

/-! ### Leaving -/

theorem wp_retireSocket (pre : Free t w) :
    (q.logic ρ).wp t (fun _ w => Free t w) (retireSocket handle) w := by
  refine wp_act stable_free pre fun w₁ r w₂ inv h exec _ => ?_
  have aside := exec_beside rfl exec
  refine ⟨aside.inv inv, aside.guar, ?_⟩
  refine Logic.wp_mono (fun _ _ _ h => h.2) (wp_withChannelLock (P := fun _ => True)
    (F := fun _ _ => True) (fun _ _ _ _ _ => trivial) (fun _ _ => trivial)
    (fun _ _ _ _ _ _ => trivial) (fun _ _ _ => trivial) (fun _ _ _ => trivial) ?_
    ⟨h.aside aside, trivial⟩)
  intro v w₃ _ holds rest
  refine Logic.wp_mono (fun _ _ _ h => ⟨h.2, trivial⟩) (wp_beside ?_ (Prog.ends_true _)
    stable_leaves (fun _ _ leaves aside => aside.leaves leaves) (holds.leaves rest))
  refine Prog.all_bind (Prog.all_attempt ⟨rfl, fun r => ?_⟩) fun x => ?_
  · cases r <;> trivial
  · cases x with
    | error _ => trivial
    | ok journal =>
        dsimp only
        split
        · exact ⟨rfl, fun _ => trivial⟩
        · trivial

theorem wp_retireProducer (pre : Free t w ∧ q.Owns ρ t handle w) :
    (q.logic ρ).wp t (fun _ w => Free t w) (retireProducer handle) w := by
  have stable : (q.logic ρ).Stable t fun w => Free t w ∧ q.Owns ρ t handle w :=
    fun w w' h rely _ => ⟨h.1.rely rely, h.2.rely rely⟩
  have done : ∀ {w}, Free t w → (q.logic ρ).wp t (fun _ w => Free t w)
      (.ret () : ControlCode Unit) w :=
    fun h => Logic.wp_ret _ stable_free h fun _ _ h => h
  refine wp_look rfl stable pre fun w₁ r _ h _ _ => ?_
  cases r with
  | error e => exact done h.1
  | ok id =>
      change (q.logic ρ).wp t _ (if id.roleEpoch ≠ handle.roleEpoch then _ else _) w₁
      split
      · exact done h.1
      · refine wp_act stable h fun w₂ r w₃ inv h exec _ => ?_
        obtain rfl := exec
        refine ⟨inv.retire h.2.maker, .retire h.2.maker, ?_⟩
        have out : Free t (w₂.setSegment handle.shm
            ((w₂.segment handle.shm).withProducer .offline)) := ⟨h.1.lock, h.1.alive⟩
        change (q.logic ρ).wp t _ (if handle.transport ≠ .memfdFdPass ∨ handle.socketUnlinked
          then _ else _) _
        split
        · exact done out
        · refine Logic.wp_attempt_seq (wp_retireSocket out) ?_
          exact fun _ w₄ _ h => done h

/-! ### Removing -/

theorem wp_confirmNamed (stable : (q.logic ρ).Stable t P) (holds : ∀ w, P w → Holds t v w)
    (pre : P w) :
    (q.logic ρ).wp t (fun x w => (∀ target, x = .ok target →
        target = handle.shm ∧ v.name = some handle.shm) ∧ P w) (confirmNamed handle) w := by
  refine Logic.wp_seq (wp_shmOpenExisting stable holds pre) ?_ ?_
  · rintro fd w₁ _ ⟨opened, h⟩
    refine Logic.wp_seq (wp_shmFstatAndCapture stable holds (o := fd) h) ?_ ?_
    · rintro s w₂ _ ⟨tells, _, h⟩
      split
      · refine Logic.wp_throw _ stable h fun w _ h => ⟨?_, h⟩
        rintro _ ⟨⟩
      · rename_i same
        have found := Decidable.not_not.1 same
        refine Logic.wp_ret _ stable h fun w _ h => ⟨?_, h⟩
        rintro _ ⟨⟩
        refine ⟨found, ?_⟩
        rw [← found, (tells s rfl).1]
        exact opened
    · rintro e w₂ _ ⟨_, _, h⟩
      refine ⟨?_, h⟩
      rintro _ ⟨⟩
  · rintro e w₁ _ ⟨_, h⟩
    refine ⟨?_, h⟩
    rintro _ ⟨⟩

/-- The object that is to be removed is the owner's, under the name. -/
def Targeted (v : View) (handle : InstanceHandle) (target : FileIdentity) : Prop :=
  handle.transport ≠ .memfdFdPass → target = handle.shm ∧ v.name = some handle.shm

theorem wp_removalTarget (stable : (q.logic ρ).Stable t P) (holds : ∀ w, P w → Holds t v w)
    (pre : P w) :
    (q.logic ρ).wp t (fun x w => (∀ target, x = .ok target → Targeted v handle target) ∧ P w)
      (removalTarget handle) w := by
  unfold removalTarget
  split
  · rename_i memfd
    exact wp_done stable pre fun _ _ posix => (posix memfd).elim
  · refine Logic.wp_mono ?_ (wp_confirmNamed stable holds pre)
    exact fun x w _ h => ⟨fun target ok _ => h.1 target ok, h.2⟩

theorem looks_confirmInstanceOwned :
    (confirmInstanceOwned handle).All fun i => i.looks = true := by
  refine ⟨rfl, fun header => ?_⟩
  dsimp only
  split
  · trivial
  · refine ⟨rfl, fun r => ?_⟩
    cases r with
    | error _ => trivial
    | ok id =>
        dsimp only
        split <;> trivial

/-- How taking the name away ends: in success the name is free. -/
def Withdrawn (q : ControlSystem T) (ρ : Regime) (t : T) (born : List Nat)
    (handle : InstanceHandle) (journal : ControlJournalV1) (x : Except Error Unit)
    (w : ControlWorld T) : Prop :=
  ∃ v : View, Leaving q ρ t v handle journal w ∧ v.born = born ∧
    ((∃ e, x = .error e) → ¬ ρ.orderly) ∧ (x = .ok () → ρ.posix → v.name = none)

theorem wp_removeName {target : FileIdentity} (found : Targeted v handle target)
    (pre : Leaving q ρ t v handle journal w) :
    (q.logic ρ).wp t (Withdrawn q ρ t v.born handle journal) (removeName handle target) w := by
  unfold removeName
  split
  · rename_i memfd
    have done : (if handle.socketUnlinked then (.ret () : ControlCode Unit)
        else .op (.unlinkSocket handle.shm) .ret).Ends fun x => x = .ok () := by
      split
      · rfl
      · exact fun _ => rfl
    refine Logic.wp_mono ?_ (wp_beside ?_ done stable_leaving
      (fun _ _ h aside => h.aside aside) pre)
    · rintro _ w₁ _ ⟨rfl, h⟩
      refine ⟨v, h, rfl, ?_, fun _ posix => ?_⟩
      · rintro ⟨_, ⟨⟩⟩
      · cases memfd.symm.trans (h.owns.transport posix)
    · split
      · trivial
      · exact ⟨rfl, fun _ => trivial⟩
  · rename_i posix
    obtain ⟨rfl, here⟩ := found posix
    refine Logic.wp_mono ?_ (wp_shmUnlinkChecked stable_leaving (fun _ h => h.holds)
      stable_leaving (G := Leaving q ρ t { v with name := none } handle journal)
      (fun _ h _ m made => .inl (Option.some_inj.1 (made.symm.trans h.owns.maker))) ?_
      (fun _ h => h.holds) pre)
    · rintro (e | _) w₁ _ unlinked
      · rcases unlinked with ⟨_, disorder, h⟩ | ⟨_, other, h⟩
        · exact ⟨_, h, rfl, fun _ => disorder, fun _ _ => rfl⟩
        · refine ⟨_, h, rfl, fun _ orderly => other orderly here, ?_⟩
          rintro ⟨⟩
      · refine ⟨_, unlinked.2, rfl, ?_, fun _ _ => rfl⟩
        rintro ⟨_, ⟨⟩⟩
    · intro w h _
      exact ⟨⟨h.holds.lock, h.holds.journal, rfl, h.holds.born⟩,
        h.owns.congr rfl rfl, fits_unnamed h.old.genuine rfl⟩

/-- How a removal ends after its first record. -/
def Removed (q : ControlSystem T) (ρ : Regime) (t : T) (handle : InstanceHandle)
    (journal : ControlJournalV1) : Except Error Unit → ControlWorld T → Prop
  | .ok _, w => Leaves ρ t w
  | .error _, w => ¬ ρ.orderly ∧ ∃ v, Leaving q ρ t v handle journal w

theorem wp_finishRemoval {target : FileIdentity} (found : Targeted v handle target)
    (latest : ρ.orderly → ∀ g ∈ v.born, g ≤ handle.generation)
    (pre : Leaving q ρ t v handle journal w) :
    (q.logic ρ).wp t (Removed q ρ t handle journal) (finishRemoval handle target) w := by
  refine Logic.wp_seq (wp_removeName found pre) ?_ ?_
  · rintro _ w₁ _ ⟨v₁, h, born, _, free⟩
    refine Logic.wp_mono ?_ (wp_lockWriteJournal (x := v₁.journal)
      (P := fun x => Leaving q ρ t { v₁ with journal := x } handle journal)
      (fun _ => stable_leaving) (fun _ _ h => h.holds.lock) (fun _ y _ h => h.setJournal y)
      ?_ (fun _ busy => (busy rfl).elim) h)
    · rintro x w₂ _ (⟨rfl, h⟩ | ⟨⟨e, rfl⟩, disorder, torn, h⟩)
      · refine h.holds.leaves fun orderly => ?_
        obtain ⟨sum, eq⟩ := exists_sealJournal (removalRecord handle .idle target)
        refine ⟨_, congrArg some eq, rfl, Nat.le_refl handle.generation, ?_⟩
        rw [show v₁.born = v.born from born]
        exact latest orderly
      · exact ⟨disorder, _, h⟩
    · intro _ w h
      refine fits_idle rfl (h.owns.record (.inl rfl) target) fun posix o m name => ?_
      cases (h.holds.name.trans (free rfl posix)).symm.trans name
  · rintro e w₁ _ ⟨v₁, h, _, disorder, _⟩
    exact ⟨disorder ⟨e, rfl⟩, v₁, h⟩

theorem wp_removeLocked (rest : ρ.orderly → Settled v.journal v.born)
    (pre : Holds t v w ∧ q.Owns ρ t handle w) :
    (q.logic ρ).wp t (fun _ w => Leaves ρ t w) (removeLocked handle) w := by
  have stable : (q.logic ρ).Stable t fun w => Holds t v w ∧ q.Owns ρ t handle w :=
    fun w w' h rely _ => ⟨h.1.rely rely, h.2.rely rely⟩
  refine wp_look rfl stable pre fun w₁ r inv h exec _ => ?_
  cases r with
  | error e => exact Logic.wp_throw _ stable h fun _ _ h => h.1.leaves rest
  | ok journal =>
      have file := exec.2 journal rfl
      have recorded := h.1.journal.symm.trans file
      have failed : ∀ {w}, Leaving q ρ t v handle journal w → Leaves ρ t w :=
        fun h => h.holds.leaves rest
      refine Logic.wp_seq (P := fun x w => x = .ok journal ∧ Leaving q ρ t v handle journal w)
        (Logic.wp_lift fun w' rely _ => ⟨rfl, Leaving.rely ⟨h.1, h.2, inv.fits journal file⟩ rely⟩)
        ?_ fun _ _ _ h => failed h.2
      rintro _ w₂ _ ⟨⟨⟩, h⟩
      refine Logic.wp_seq (wp_removalTarget stable_leaving (fun _ h => h.holds) h) ?_
        fun _ _ _ h => failed h.2
      rintro target w₃ _ ⟨found, h⟩
      have found := found target rfl
      have aimed : ρ.posix → target = handle.shm ∧ v.name = some handle.shm := by
        refine fun posix => found ?_
        rw [h.owns.transport posix]
        rintro ⟨⟩
      refine Logic.wp_seq (wp_onlyLooks looks_confirmInstanceOwned stable_leaving h) ?_
        fun _ _ _ h => failed h
      rintro _ w₄ _ h
      refine Logic.wp_seq (wp_beside (E := fun _ => True) ?_ (Prog.ends_true _) stable_leaving
        (fun _ _ h aside => h.aside aside) h) ?_ fun _ _ _ h => failed h.2
      · unfold stopServing
        split
        · exact ⟨rfl, fun _ => trivial⟩
        · trivial
      rintro _ w₄ _ ⟨_, h⟩
      have latest := h.latest recorded rest fun posix => (aimed posix).2
      refine Logic.wp_seq (wp_lockWriteJournal (x := v.journal)
        (P := fun x => Leaving q ρ t { v with journal := x } handle journal)
        (fun _ => stable_leaving) (fun _ _ h => h.holds.lock) (fun _ y _ h => h.setJournal y)
        (fun _ _ h => h.fits aimed) ?_ h) ?_ ?_
      · intro _ _
        change processIdentityValid handle.self = true
        rw [h.owns.self]
        exact q.valid t
      · rintro _ w₅ _ (⟨_, h⟩ | ⟨⟨_, never⟩, _⟩)
        · refine Logic.wp_attempt_seq (wp_finishRemoval (v := ⟨some (sealJournal (removalRecord
            handle .removing target)), v.name, v.born⟩) found latest
            h) ?_
          rintro (e | _) w₆ _ removed
          · obtain ⟨disorder, v₆, h⟩ := removed
            refine Logic.wp_attempt_seq (wp_lockWriteJournal (x := v₆.journal)
              (P := fun x => Leaving q ρ t { v₆ with journal := x } handle journal)
              (fun _ => stable_leaving) (fun _ _ h => h.holds.lock)
              (fun _ y _ h => h.setJournal y) (fun _ _ h => h.old)
              (fun orderly => (disorder orderly).elim) h) ?_
            rintro x w₇ _ wrote
            refine Logic.wp_throw _ stable_lock ?_ fun _ _ lock =>
              ⟨lock, fun orderly => (disorder orderly).elim⟩
            rcases wrote with ⟨_, h⟩ | ⟨_, _, _, h⟩ <;> exact h.holds.lock
          · exact Logic.wp_ret _ stable_leaves removed fun _ _ leaves => leaves
        · cases never
      · rintro e w₅ _ (⟨never, _⟩ | ⟨_, disorder, torn, h⟩)
        · cases never
        · exact ⟨h.holds.lock, fun orderly => (disorder orderly).elim⟩

theorem wp_producerRemoveIfOwnerImpl (pre : Free t w ∧ q.Owns ρ t handle w) :
    (q.logic ρ).wp t (fun _ w => Free t w) (producerRemoveIfOwnerImpl handle) w := by
  refine Logic.wp_mono (fun _ _ _ h => h.2) (wp_withChannelLock (F := fun _ _ => True)
    stable_owns ?_ (fun _ _ _ _ _ _ => trivial) (fun _ _ _ => trivial) (fun _ _ _ => trivial)
    ?_ pre)
  · exact fun w owns => owns.congr rfl rfl
  · intro v w₁ owns holds rest
    exact Logic.wp_mono (fun _ _ _ h => ⟨h, trivial⟩) (wp_removeLocked rest ⟨holds, owns⟩)

end ControlSystem
end EdgeRuntime

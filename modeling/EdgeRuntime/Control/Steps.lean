import EdgeRuntime.Control.Rules

/-!
The steps that change the world, one by one: when each keeps the invariant, and that it
stays within the guarantee of the process that takes it.
-/
namespace EdgeRuntime
open Concurrent

theorem activelyOwned_offline : activelyOwned EndpointState.offline.code = false := rfl

theorem SegmentState.Left.idle {σ σ' : SegmentState} (h : σ.Left σ')
    (idle : activelyOwned σ.producerState = false) :
    activelyOwned σ'.producerState = false := by
  rcases h with rfl | rfl
  · exact idle
  · exact activelyOwned_offline

namespace ControlSystem
variable {T : Type} {q : ControlSystem T} {ρ : Regime}
  {w w' : ControlWorld T} {t u m : T} {o : FileIdentity} {j : ControlJournalV1}
  {σ σ' : SegmentState}

/-! ### The producer's state word is nobody else's business -/

theorem Committed.withProducer (h : q.Committed m σ) (state : EndpointState) :
    q.Committed m (σ.withProducer state) :=
  ⟨h.boot, h.size, h.magic, h.major, h.producer⟩

theorem Shape.withProducer (h : q.Shape j o m σ) (state : EndpointState) :
    q.Shape j o m (σ.withProducer state) where
  idle st := ⟨(h.idle st).1.withProducer state, (h.idle st).2⟩
  preObject st := h.preObject st
  object st boot hb :=
    have under := h.object st boot hb
    ⟨under.target, under.size, under.written,
      fun ready => ⟨(under.ready ready).1.withProducer state, (under.ready ready).2⟩⟩
  removing st := ⟨(h.removing st).1, (h.removing st).2.1.withProducer state, (h.removing st).2.2⟩

theorem Shape.left (h : q.Shape j o m σ) (left : σ.Left σ') : q.Shape j o m σ' := by
  rcases left with rfl | rfl
  · exact h
  · exact h.withProducer _

theorem Fits.same (h : q.Fits ρ j w) (same : SameRecords w w') : q.Fits ρ j w' where
  creator creation o m name made := by
    rw [same.name] at name
    rw [same.maker] at made
    exact h.creator creation o m name made
  genuine := h.genuine
  shape posix o m name made := by
    rw [same.name] at name
    rw [same.maker] at made
    exact (h.shape posix o m name made).left (same.segment o)

/-- Where the name and the objects are the same, a record fits as before. -/
theorem Fits.congr (h : q.Fits ρ j w) (name : w'.name = w.name) (maker : w'.maker = w.maker)
    (segment : w'.segment = w.segment) : q.Fits ρ j w' where
  creator := by
    rw [name, maker]
    exact h.creator
  genuine := h.genuine
  shape := by
    rw [name, maker, segment]
    exact h.shape

theorem Owns.congr {h : InstanceHandle} (owns : q.Owns ρ t h w) (maker : w'.maker = w.maker)
    (segment : w'.segment = w.segment) : q.Owns ρ t h w' where
  maker := by
    rw [maker]
    exact owns.maker
  committed := by
    rw [segment]
    exact owns.committed
  self := owns.self
  channel := owns.channel
  transport := owns.transport
  names := by
    rw [segment]
    exact owns.names

/-- Sealing changes the checksum only, and nothing depends on its value. -/
theorem exists_sealJournal (j : ControlJournalV1) :
    ∃ sum, sealJournal j = { j with recordChecksum := sum } := ⟨_, rfl⟩

theorem Genuine.seal {j : ControlJournalV1} (h : q.Genuine j) : q.Genuine (sealJournal j) := by
  obtain ⟨sum, eq⟩ := exists_sealJournal j
  rw [eq]
  exact ⟨h.hash, h.version, h.transport, h.state, h.creator⟩

theorem Shape.seal {j : ControlJournalV1} {m : T} {σ : SegmentState} (h : q.Shape j o m σ) :
    q.Shape (sealJournal j) o m σ := by
  obtain ⟨sum, eq⟩ := exists_sealJournal j
  rw [eq]
  refine ⟨h.idle, h.preObject, fun state boot hb => ?_, h.removing⟩
  have under := h.object state boot hb
  exact ⟨under.target, under.size, under.written, under.ready⟩

theorem Fits.seal {j : ControlJournalV1} (h : q.Fits ρ j w) : q.Fits ρ (sealJournal j) w := by
  refine ⟨?_, fun posix => (h.genuine posix).seal,
    fun posix o m name made => (h.shape posix o m name made).seal⟩
  obtain ⟨sum, eq⟩ := exists_sealJournal j
  rw [eq]
  exact h.creator

/-- The object may be taken away from the name by `t`. -/
def Doomed (t : T) (o : FileIdentity) (w : ControlWorld T) : Prop :=
  ∀ m, w.maker o = some m →
    m = t ∨ w.dead m = true ∨ activelyOwned (w.segment o).producerState = false

theorem Doomed.rely (h : Doomed t o w) (lock : w.lock = some t) (rely : Rely t w w') :
    Doomed t o w' := by
  have same := rely.held lock
  intro m made
  rw [same.maker] at made
  rcases h m made with mine | dead | idle
  · exact .inl mine
  · exact .inr (.inl (rely.dead m dead))
  · exact .inr (.inr ((same.segment o).idle idle))

theorem Owns.rely {h : InstanceHandle} (owns : q.Owns ρ t h w) (rely : Rely t w w') :
    q.Owns ρ t h w' where
  maker := rely.maker _ _ owns.maker
  committed := by
    rw [rely.own _ owns.maker]
    exact owns.committed
  self := owns.self
  channel := owns.channel
  transport := owns.transport
  names := by
    rw [rely.own _ owns.maker]
    exact owns.names

/-! ### The lock -/

/-- A world in which only the lock and the deaths differ. -/
theorem Inv.relock {lock : Option T} {dead : T → Bool} (inv : q.Inv ρ w)
    (holder : ∀ t, lock = some t → dead t = false)
    (deaths : ∀ u, w.dead u = true → dead u = true)
    (settled : ρ.orderly → lock = none → Settled w.journal w.born) :
    q.Inv ρ { w with lock, dead } where
  holder := holder
  made := inv.made
  fits j hj := (inv.fits j hj).congr rfl rfl rfl
  signed := inv.signed
  kept o m made named := by
    rcases inv.kept o m made named with here | own | gone | idle
    · exact .inl here
    · exact .inr (.inl own)
    · exact .inr (.inr (.inl (deaths m gone)))
    · exact .inr (.inr (.inr idle))
  owned t h mem := (inv.owned t h mem).congr rfl rfl
  sorted := inv.sorted
  settled := settled

theorem Inv.acquire (inv : q.Inv ρ w) (alive : w.dead t = false) :
    q.Inv ρ { w with lock := some t } := by
  refine inv.relock ?_ (fun _ gone => gone) ?_
  · rintro _ ⟨⟩
    exact alive
  · rintro _ ⟨⟩

theorem Inv.release (inv : q.Inv ρ w) (settled : ρ.orderly → Settled w.journal w.born) :
    q.Inv ρ { w with lock := none } := by
  refine inv.relock ?_ (fun _ gone => gone) (fun orderly _ => settled orderly)
  rintro _ ⟨⟩

theorem Inv.kill [DecidableEq T] (inv : q.Inv ρ w) (outside : ρ.orderly → w.lock ≠ some t) :
    q.Inv ρ (w.kill t) := by
  refine inv.relock ?_ ?_ ?_
  · intro u held
    split at held
    · cases held
    · rename_i other
      have ne : u ≠ t := by
        rintro rfl
        exact other held
      rw [Function.update_of_ne ne]
      exact inv.holder u held
  · intro u gone
    by_cases h : u = t
    · rw [h, Function.update_self]
    · rw [Function.update_of_ne h]
      exact gone
  · intro orderly free
    rw [if_neg (outside orderly)] at free
    exact inv.settled orderly free

/-- Only the lock moves, and only between `t` and nobody. -/
theorem Guar.relock {lock : Option T} (others : ∀ u, u ≠ t → (lock = some u ↔ w.lock = some u)) :
    Guar t w { w with lock } where
  lock := others
  outside _ := ⟨rfl, rfl, rfl, rfl, rfl, rfl, fun _ => .inl rfl⟩
  foreign _ _ _ _ := rfl
  maker _ _ h := h
  dead _ h := h
  others _ _ := ⟨rfl, rfl⟩
  unlinks _ _ name other := (other name).elim

theorem Guar.acquire (free : w.lock = none) : Guar t w { w with lock := some t } := by
  refine .relock fun u other => ?_
  rw [free]
  constructor
  · rintro ⟨⟩
    exact (other rfl).elim
  · rintro ⟨⟩

theorem Guar.release (held : w.lock = some t) : Guar t w { w with lock := none } := by
  refine .relock fun u other => ?_
  rw [held]
  constructor
  · rintro ⟨⟩
  · rintro ⟨⟩
    exact (other rfl).elim

theorem Guar.kill [DecidableEq T] : Guar t w (w.kill t) where
  lock u other := by
    change (if w.lock = some t then none else w.lock) = some u ↔ _
    split
    · rename_i held
      rw [held, Option.some_inj]
      constructor
      · rintro ⟨⟩
      · rintro rfl
        exact (other rfl).elim
    · exact Iff.rfl
  outside _ := ⟨rfl, rfl, rfl, rfl, rfl, rfl, fun _ => .inl rfl⟩
  foreign _ _ _ _ := rfl
  maker _ _ h := h
  dead u gone := by
    change Function.update w.dead t true u = true
    by_cases h : u = t
    · rw [h, Function.update_self]
    · rw [Function.update_of_ne h]
      exact gone
  others u other := ⟨Function.update_of_ne other _ _, rfl⟩
  unlinks _ _ name other := (other name).elim

/-! ### What only the holder of the lock does -/

section Held
variable (held : w.lock = some t)
include held

/-- A step of the holder that leaves lock, deaths and handles alone. -/
theorem Guar.holder (lock : w'.lock = w.lock) (dead : w'.dead = w.dead)
    (handles : w'.handles = w.handles)
    (foreign : ∀ o m, w.maker o = some m → m ≠ t → w'.segment o = w.segment o)
    (maker : ∀ o m, w.maker o = some m → w'.maker o = some m)
    (unlinks : ∀ o m, w.name = some o → w'.name ≠ some o → w.maker o = some m →
      m = t ∨ w.dead m = true ∨ activelyOwned (w.segment o).producerState = false) :
    Guar t w w' where
  lock _ _ := by rw [lock]
  outside free := (free held).elim
  foreign := foreign
  maker := maker
  dead _ gone := by rw [dead]; exact gone
  others _ _ := by rw [dead, handles]; exact ⟨rfl, rfl⟩
  unlinks := unlinks

theorem Inv.setJournal {x : Option ControlJournalV1} (inv : q.Inv ρ w)
    (fits : ∀ j, x = some j → q.Fits ρ j w) : q.Inv ρ (w.setJournal x) where
  holder := inv.holder
  made := inv.made
  fits j hj := (fits j hj).congr rfl rfl rfl
  signed := inv.signed
  kept := inv.kept
  owned t h mem := (inv.owned t h mem).congr rfl rfl
  sorted := inv.sorted
  settled _ free := by cases held.symm.trans free

theorem Guar.setJournal (x : Option ControlJournalV1) : Guar t w (w.setJournal x) :=
  .holder held rfl rfl rfl (fun _ _ _ _ => rfl) (fun _ _ h => h)
    (fun _ _ name other => (other name).elim)

theorem Inv.takeName (inv : q.Inv ρ w) (name : w.name = some o) (doomed : Doomed t o w) :
    q.Inv ρ { w with name := none, unlinker := Function.update w.unlinker o (some t) } where
  holder := inv.holder
  made _ h := by cases h
  fits j hj :=
    ⟨fun _ _ _ h => (by cases h), (inv.fits j hj).genuine, fun _ _ _ h => (by cases h)⟩
  signed := inv.signed
  kept o' m made named := by
    by_cases h : o' = o
    · subst h
      rcases doomed m made with rfl | rest
      · exact .inr (.inl (Function.update_self _ _ _))
      · exact .inr (.inr rest)
    · change _ ∨ Function.update w.unlinker o (some t) o' = some m ∨ _
      rw [Function.update_of_ne h]
      rcases inv.kept o' m made named with here | rest
      · exact (h (Option.some_inj.1 (here.symm.trans name))).elim
      · exact .inr rest
  owned t h mem := (inv.owned t h mem).congr rfl rfl
  sorted := inv.sorted
  settled _ free := by cases held.symm.trans free

theorem Guar.takeName (name : w.name = some o) (doomed : Doomed t o w) :
    Guar t w { w with name := none, unlinker := Function.update w.unlinker o (some t) } := by
  refine .holder held rfl rfl rfl (fun _ _ _ _ => rfl) (fun _ _ h => h) ?_
  intro o' m here _ made
  obtain rfl := Option.some_inj.1 (here.symm.trans name)
  exact doomed m made

/-! ### New objects -/

section Fresh
variable (fresh : w.maker o = none)
include fresh

theorem Guar.makeObject (named : Bool) (unnamed : w.name = none) :
    Guar t w (w.makeObject t o named) := by
  have other : ∀ o' m, w.maker o' = some m → o' ≠ o := by
    rintro o' m made rfl
    cases fresh.symm.trans made
  refine .holder held rfl rfl rfl ?_ ?_ ?_
  · intro o' m made _
    exact Function.update_of_ne (other o' m made) _ _
  · intro o' m made
    exact (Function.update_of_ne (other o' m made) _ _).trans made
  · intro o' m here
    cases unnamed.symm.trans here

theorem Inv.makeObject (named : Bool) (inv : q.Inv ρ w) (unnamed : w.name = none)
    (fits : ∀ j, w.journal = some j → named = true → q.Fits ρ j (w.makeObject t o true)) :
    q.Inv ρ (w.makeObject t o named) where
  holder := inv.holder
  made o' here := by
    cases named with
    | false => cases unnamed.symm.trans here
    | true =>
        cases here
        exact ⟨⟨t, Function.update_self _ _ _⟩, Function.update_self _ _ _⟩
  fits j hj := by
    cases named with
    | false =>
        refine ⟨fun _ o' m here => ?_, (inv.fits j hj).genuine, fun _ o' m here => ?_⟩ <;>
          cases unnamed.symm.trans here
    | true => exact fits j hj rfl
  signed o' m made ready := by
    change Function.update w.maker o (some t) o' = some m at made
    change (Function.update w.segment o .blank o').producer = _
    change (Function.update w.segment o .blank o').Ready at ready
    by_cases h : o' = o
    · subst h
      rw [Function.update_self] at ready
      obtain ⟨_, none, _⟩ := ready
      cases none
    · rw [Function.update_of_ne h] at made ready ⊢
      exact inv.signed o' m made ready
  kept o' m made hn := by
    change Function.update w.maker o (some t) o' = some m at made
    change Function.update w.named o named o' = true at hn
    change _ ∨ _ ∨ _ ∨ activelyOwned (Function.update w.segment o .blank o').producerState = false
    by_cases h : o' = o
    · subst h
      rw [Function.update_self]
      exact .inr (.inr (.inr activelyOwned_offline))
    · rw [Function.update_of_ne h] at made hn ⊢
      rcases inv.kept o' m made hn with here | rest
      · cases unnamed.symm.trans here
      · exact .inr rest
  owned u h mem := by
    have owns := inv.owned u h mem
    have other : h.shm ≠ o := by
      intro same
      have made := owns.maker
      rw [same, fresh] at made
      cases made
    have kept : (w.makeObject t o named).segment h.shm = w.segment h.shm :=
      Function.update_of_ne other _ _
    refine ⟨?_, ?_, owns.self, owns.channel, owns.transport, ?_⟩
    · exact (Function.update_of_ne other _ _).trans owns.maker
    · rw [kept]
      exact owns.committed
    · rw [kept]
      exact owns.names
  sorted := inv.sorted
  settled _ free := by cases held.symm.trans free

end Fresh
end Held

/-! ### The words of one's own object -/

theorem Fits.setSegment (h : q.Fits ρ j w)
    (shape : ρ.posix → w.name = some o → ∀ m, w.maker o = some m → q.Shape j o m σ) :
    q.Fits ρ j (w.setSegment o σ) where
  creator := h.creator
  genuine := h.genuine
  shape posix o' m name made := by
    change q.Shape j o' m (Function.update w.segment o σ o')
    by_cases same : o' = o
    · subst same
      rw [Function.update_self]
      exact shape posix name m made
    · rw [Function.update_of_ne same]
      exact h.shape posix o' m name made

theorem Inv.setSegment (inv : q.Inv ρ w) (own : w.maker o = some t)
    (shape : ρ.posix → w.name = some o → ∀ j, w.journal = some j → q.Shape j o t σ)
    (signed : σ.Ready → σ.producer = stamped (q.self t) 2)
    (kept : w.named o = true → w.name = some o ∨ w.unlinker o = some t ∨ w.dead t = true ∨
      activelyOwned σ.producerState = false)
    (owned : ∀ h, h ∈ w.handles t → h.shm = o → q.Committed t σ ∧ h.Names σ.header) :
    q.Inv ρ (w.setSegment o σ) where
  holder := inv.holder
  made := inv.made
  fits j hj := by
    refine Fits.setSegment (inv.fits j hj) fun posix name m made => ?_
    obtain rfl := Option.some_inj.1 (own.symm.trans made)
    exact shape posix name j hj
  signed o' m made ready := by
    change (Function.update w.segment o σ o').producer = _
    change (Function.update w.segment o σ o').Ready at ready
    by_cases same : o' = o
    · subst same
      obtain rfl := Option.some_inj.1 (own.symm.trans made)
      rw [Function.update_self] at ready ⊢
      exact signed ready
    · rw [Function.update_of_ne same] at ready ⊢
      exact inv.signed o' m made ready
  kept o' m made named := by
    change _ ∨ _ ∨ _ ∨ activelyOwned (Function.update w.segment o σ o').producerState = false
    by_cases same : o' = o
    · subst same
      obtain rfl := Option.some_inj.1 (own.symm.trans made)
      rw [Function.update_self]
      exact kept named
    · rw [Function.update_of_ne same]
      exact inv.kept o' m made named
  owned u h mem := by
    have owns := inv.owned u h mem
    have kept : q.Committed u (Function.update w.segment o σ h.shm) ∧
        h.Names (Function.update w.segment o σ h.shm).header := by
      by_cases same : h.shm = o
      · have mine := owns.maker
        rw [same] at mine
        obtain rfl := Option.some_inj.1 (own.symm.trans mine)
        rw [same, Function.update_self]
        exact owned h mem same
      · rw [Function.update_of_ne same]
        exact ⟨owns.committed, owns.names⟩
    exact ⟨owns.maker, kept.1, owns.self, owns.channel, owns.transport, kept.2⟩
  sorted := inv.sorted
  settled := inv.settled

theorem setSegment_foreign (own : w.maker o = some t) (o' : FileIdentity) (m : T)
    (made : w.maker o' = some m) (other : m ≠ t) :
    (w.setSegment o σ).segment o' = w.segment o' := by
  refine Function.update_of_ne ?_ _ _
  rintro rfl
  exact other (Option.some_inj.1 (made.symm.trans own))

theorem Guar.setSegment (held : w.lock = some t) (own : w.maker o = some t) :
    Guar t w (w.setSegment o σ) :=
  .holder held rfl rfl rfl (setSegment_foreign own) (fun _ _ h => h)
    (fun _ _ name other => (other name).elim)

/-- The store that READY is: the generation joins the history. -/
theorem Inv.commit (held : w.lock = some t) (inv : q.Inv ρ (w.setSegment o σ)) {g : Nat}
    (later : ρ.orderly → ∀ g' ∈ w.born, g' < g) :
    q.Inv ρ { w.setSegment o σ with born := w.born ++ [g] } where
  holder := inv.holder
  made := inv.made
  fits j hj := (inv.fits j hj).congr rfl rfl rfl
  signed := inv.signed
  kept := inv.kept
  owned t h mem := (inv.owned t h mem).congr rfl rfl
  sorted orderly := by
    refine List.pairwise_append.2 ⟨inv.sorted orderly, List.pairwise_singleton _ _, ?_⟩
    intro a ha b hb
    rw [List.mem_singleton.1 hb]
    exact later orderly a ha
  settled _ free := by cases held.symm.trans free

theorem Guar.commit (held : w.lock = some t) (own : w.maker o = some t) {born : List Nat} :
    Guar t w { w.setSegment o σ with born } :=
  .holder held rfl rfl rfl (setSegment_foreign own) (fun _ _ h => h)
    (fun _ _ name other => (other name).elim)

/-- A producer goes offline, with the lock or without. -/
theorem Inv.retire (inv : q.Inv ρ w) (own : w.maker o = some t) :
    q.Inv ρ (w.setSegment o ((w.segment o).withProducer .offline)) := by
  refine inv.setSegment own ?_ ?_ ?_ ?_
  · intro posix name j hj
    exact ((inv.fits j hj).shape posix o t name own).withProducer _
  · exact inv.signed o t own
  · exact fun _ => .inr (.inr (.inr activelyOwned_offline))
  · rintro h mem rfl
    exact ⟨(inv.owned t h mem).committed.withProducer _, (inv.owned t h mem).names⟩

theorem Guar.retire (own : w.maker o = some t) :
    Guar t w (w.setSegment o ((w.segment o).withProducer .offline)) where
  lock _ _ := Iff.rfl
  outside _ := by
    refine ⟨rfl, rfl, rfl, rfl, rfl, rfl, fun o' => ?_⟩
    change (w.segment o').Left (Function.update w.segment o _ o')
    by_cases same : o' = o
    · subst same
      rw [Function.update_self]
      exact .inr rfl
    · rw [Function.update_of_ne same]
      exact .inl rfl
  foreign := setSegment_foreign own
  maker _ _ h := h
  dead _ h := h
  others _ _ := ⟨rfl, rfl⟩
  unlinks _ _ name other := (other name).elim

/-! ### The broker's path and the handles -/

/-- Nobody relies on the path; a handle may be noted down, or a note added to it. -/
theorem Inv.aside {path : Option FileIdentity} {serving : FileIdentity → Bool}
    {handles : T → List InstanceHandle} (inv : q.Inv ρ w)
    (owned : ∀ t h, h ∈ handles t → q.Owns ρ t h w) :
    q.Inv ρ { w with path, serving, handles } where
  holder := inv.holder
  made := inv.made
  fits j hj := (inv.fits j hj).congr rfl rfl rfl
  signed := inv.signed
  kept := inv.kept
  owned t h mem := (owned t h mem).congr rfl rfl
  sorted := inv.sorted
  settled := inv.settled

theorem Guar.aside {path : Option FileIdentity} {serving : FileIdentity → Bool}
    {handles : T → List InstanceHandle} (others : ∀ u, u ≠ t → handles u = w.handles u) :
    Guar t w { w with path, serving, handles } where
  lock _ _ := Iff.rfl
  outside _ := ⟨rfl, rfl, rfl, rfl, rfl, rfl, fun _ => .inl rfl⟩
  foreign _ _ _ _ := rfl
  maker _ _ h := h
  dead _ h := h
  others u other := ⟨rfl, others u other⟩
  unlinks _ _ name other := (other name).elim

end ControlSystem
end EdgeRuntime

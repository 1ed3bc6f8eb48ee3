import EdgeRuntime.Control.Broker
import EdgeRuntime.Control.Replace

/-!
Building an instance: from the first journal record over the object and its words to READY
and the last record, and what the guards take back when it fails. Whoever is killed on the
way leaves an object that its journal record accounts for.
-/
namespace EdgeRuntime
open Concurrent

theorem mapping_large {payloadSize mapping : Nat}
    (h : mappingSizeForPayload payloadSize = some mapping) : bootstrapHeaderSize ≤ mapping := by
  simp only [mappingSizeForPayload, Option.bind_eq_bind, Option.bind_eq_some_iff] at h
  obtain ⟨_, _, slots, _, added⟩ := h
  obtain ⟨rfl, _⟩ := checkedAddU64_some (by decide) added
  exact Nat.le_trans (by decide) (Nat.le_add_right firstSlotOffset slots)

theorem createBootstrap_writtenBy (options : ChannelOptions) {mapping : Nat}
    (large : bootstrapHeaderSize ≤ mapping) (nonceHi nonceLo : Nat) (self : ProcessIdentity) :
    (createBootstrap options mapping nonceHi nonceLo self).WrittenBy self nonceHi nonceLo := by
  refine ⟨options, mapping, ?_, ?_⟩
  · rintro rfl
    cases large
  · generalize createBootstrap options mapping nonceHi nonceLo self = boot
    cases boot
    rfl

/-- The state word does not count. -/
theorem BootstrapHeaderAbi.WrittenBy.withState {boot : BootstrapHeaderAbi}
    {self : ProcessIdentity} {nonceHi nonceLo : Nat} (h : boot.WrittenBy self nonceHi nonceLo)
    (state : Nat) :
    BootstrapHeaderAbi.WrittenBy { boot with initState := state } self nonceHi nonceLo := by
  obtain ⟨options, mapping, some, same⟩ := h
  refine ⟨options, mapping, some, ?_⟩
  rw [same]

/-- The header is that of the planned instance. -/
structure Plan.Heads (p : Plan) (header : ChannelHeaderAbi) : Prop where
  generation : header.generation = p.generation
  nonceHi : header.instanceNonceHi = p.nonceHi
  nonceLo : header.instanceNonceLo = p.nonceLo

/-- Where the object of a creation is to be found while it is being built. -/
def Plan.place (p : Plan) (o : FileIdentity) : Option FileIdentity :=
  match p.options.transport with
  | .posixShm => some o
  | .memfdFdPass => none

namespace ControlSystem

section Facts
variable {T : Type} {q : ControlSystem T} {ρ : Regime} {w w' : ControlWorld T} {t : T}
  {v : View} {o : FileIdentity} {p : Plan} {σ σ' : SegmentState}

/-- The plan is this process's, for this channel, and starts from a journal at rest. -/
structure Planned (q : ControlSystem T) (ρ : Regime) (t : T) (born : List Nat) (p : Plan) :
    Prop where
  channel : p.options.name = q.channelName
  self : p.self = q.self t
  posix : ρ.posix → p.options.transport = .posixShm
  idle : p.journal.state = JournalState.idle.code
  genuine : ρ.posix → q.Genuine p.journal
  rest : ρ.orderly → p.journal.oldGeneration ≤ p.journal.newGeneration ∧
    ∀ g ∈ born, g ≤ p.journal.newGeneration
  ahead : ρ.orderly → p.journal.oldGeneration ≤ p.generation
  later : ρ.orderly → ∀ g ∈ born, g < p.generation

/-- An object under construction, its words known. -/
structure Building (t : T) (v : View) (o : FileIdentity) (σ : SegmentState)
    (w : ControlWorld T) : Prop where
  holds : Holds t v w
  own : w.maker o = some t
  named : w.named o = true → v.name = some o
  alone : ∀ o', v.name = some o' → o' = o
  new : ∀ h ∈ w.handles t, h.shm ≠ o
  segment : w.segment o = σ

theorem Building.rely (b : Building t v o σ w) (rely : Rely t w w') : Building t v o σ w' where
  holds := b.holds.rely rely
  own := rely.maker o t b.own
  named named := b.named ((congrFun (rely.held b.holds.lock).named o).symm.trans named)
  alone := b.alone
  new h mem := b.new h (rely.handles ▸ mem)
  segment := (rely.own o b.own).trans b.segment

theorem Building.setJournal (b : Building t v o σ w) (x : Option ControlJournalV1) :
    Building t { v with journal := x } o σ (w.setJournal x) :=
  ⟨⟨b.holds.lock, rfl, b.holds.name, b.holds.born⟩, b.own, b.named, b.alone, b.new, b.segment⟩

/-- One store into the object. -/
theorem Building.touch (b : Building t v o σ w) (inv : q.Inv ρ w)
    (shape : ρ.posix → v.name = some o → ∀ j, v.journal = some j → q.Shape j o t σ')
    (signed : σ'.Ready → σ'.producer = stamped (q.self t) 2) :
    q.Inv ρ (w.setSegment o σ') ∧ Guar t w (w.setSegment o σ') ∧
      Building t v o σ' (w.setSegment o σ') := by
  refine ⟨inv.setSegment b.own ?_ signed ?_ ?_, .setSegment b.holds.lock b.own, ?_⟩
  · intro posix name j file
    exact shape posix (b.holds.name.symm.trans name) j (b.holds.journal.symm.trans file)
  · exact fun named => .inl (b.holds.name.trans (b.named named))
  · exact fun h mem same => (b.new h mem same).elim
  · exact ⟨⟨b.holds.lock, b.holds.journal, b.holds.name, b.holds.born⟩, b.own, b.named, b.alone,
      b.new, Function.update_self _ _ _⟩

theorem Building.doomed (b : Building t v o σ w) : Doomed t o w :=
  fun _ made => .inl (Option.some_inj.1 (made.symm.trans b.own))

/-- The records of a creation are genuine. -/
theorem Planned.record {born : List Nat} (h : Planned q ρ t born p) {state : JournalState}
    (known : state = .idle ∨ state = .creatingPreObject ∨ state = .creatingObject)
    (target : FileIdentity) (posix : ρ.posix) : q.Genuine (p.record state target) where
  hash := .inr (congrArg channelNameHash h.channel)
  version none := by cases none
  transport := congrArg Transport.code (h.posix posix)
  state := by
    rcases known with rfl | rfl | rfl
    · exact .inl rfl
    · exact .inr (.inl rfl)
    · exact .inr (.inr (.inl rfl))
  creator _ := ⟨t, h.self⟩

theorem Planned.creator {born : List Nat} (h : Planned q ρ t born p) (state : JournalState)
    (target : FileIdentity) : journalCreator (p.record state target) = q.self t := h.self

/-- A record of the creation fits while its object is being built. -/
theorem Building.fits {born : List Nat} (b : Building t v o σ w) (h : Planned q ρ t born p)
    {state : JournalState}
    (known : state = .idle ∨ state = .creatingPreObject ∨ state = .creatingObject)
    {target : FileIdentity}
    (shape : ρ.posix → v.name = some o → q.Shape (p.record state target) o t σ) :
    q.Fits ρ (p.record state target) w where
  creator _ o' m name made := by
    obtain rfl := b.alone o' (b.holds.name.symm.trans name)
    obtain rfl := Option.some_inj.1 (b.own.symm.trans made)
    exact h.creator state target
  genuine := h.record known target
  shape posix o' m name made := by
    have named := b.holds.name.symm.trans name
    obtain rfl := b.alone o' named
    obtain rfl := Option.some_inj.1 (b.own.symm.trans made)
    rw [b.segment]
    exact shape posix named

/-- The object has no bootstrap record yet. -/
theorem shape_bare {target : FileIdentity} (bare : σ.boot = none) :
    q.Shape (p.record .creatingObject target) o t σ where
  idle h := by cases h
  preObject h := by cases h
  object _ boot hb := by cases bare.symm.trans hb
  removing h := by cases h

/-- The object has its bootstrap record, INITIALIZING, and room for it. -/
structure Raw (p : Plan) (mapping : Nat) (σ : SegmentState) : Prop where
  boot : σ.boot = some (createBootstrap p.options mapping p.nonceHi p.nonceLo p.self)
  size : bootstrapHeaderSize ≤ σ.size

theorem Raw.not_ready {mapping : Nat} (raw : Raw p mapping σ) : ¬ σ.Ready := by
  rintro ⟨boot, hb, ready⟩
  obtain rfl := Option.some_inj.1 (raw.boot.symm.trans hb)
  cases ready

theorem Raw.shape {mapping : Nat} (raw : Raw p mapping σ) (self : p.self = q.self t)
    (large : bootstrapHeaderSize ≤ mapping) :
    q.Shape (p.record .creatingObject o) o t σ where
  idle h := by cases h
  preObject h := by cases h
  object _ boot hb := by
    obtain rfl := Option.some_inj.1 (raw.boot.symm.trans hb)
    refine ⟨rfl, raw.size, ?_, fun ready => (raw.not_ready ⟨_, raw.boot, ready⟩).elim⟩
    rw [← self]
    exact createBootstrap_writtenBy p.options large p.nonceHi p.nonceLo p.self
  removing h := by cases h

/-- The bootstrap record is missing or not READY. -/
def Unready (p : Plan) (mapping : Nat) (σ : SegmentState) : Prop :=
  σ.boot = none ∨ Raw p mapping σ

theorem Unready.not_ready {mapping : Nat} (h : Unready p mapping σ) : ¬ σ.Ready := by
  rcases h with bare | raw
  · rintro ⟨boot, hb, _⟩
    cases bare.symm.trans hb
  · exact raw.not_ready

theorem Unready.shape {mapping : Nat} (h : Unready p mapping σ) (self : p.self = q.self t)
    (large : bootstrapHeaderSize ≤ mapping) : q.Shape (p.record .creatingObject o) o t σ := by
  rcases h with bare | raw
  · exact shape_bare bare
  · exact raw.shape self large

/-- The instance is complete but for the commit. -/
structure Complete (q : ControlSystem T) (t : T) (p : Plan) (mapping : Nat) (σ : SegmentState) :
    Prop where
  raw : Raw p mapping σ
  header : σ.header = createHeader p.options p.schema p.payloadSize mapping p.generation
    p.nonceHi p.nonceLo
  producer : σ.producer = stamped (q.self t) 2

/-- READY in the bootstrap record is the commit. -/
theorem Complete.committed {mapping : Nat} (h : Complete q t p mapping σ)
    (self : p.self = q.self t) (large : bootstrapHeaderSize ≤ mapping) :
    q.Committed t (σ.withBoot .ready) where
  boot := by
    refine ⟨_, p.nonceHi, p.nonceLo, congrArg (Option.map _) h.raw.boot, rfl, ?_⟩
    rw [← self]
    exact (createBootstrap_writtenBy p.options large p.nonceHi p.nonceLo p.self).withState _
  size := h.raw.size
  magic := congrArg ChannelHeaderAbi.magic h.header
  major := congrArg ChannelHeaderAbi.abiMajor h.header
  producer := h.producer

theorem Complete.heads {mapping : Nat} (h : Complete q t p mapping σ) :
    p.Heads (σ.withBoot .ready).header :=
  ⟨congrArg ChannelHeaderAbi.generation h.header,
    congrArg ChannelHeaderAbi.instanceNonceHi h.header,
    congrArg ChannelHeaderAbi.instanceNonceLo h.header⟩

/-- The committed object fits the record of its creation and the one that ends it. -/
theorem shape_committed (committed : q.Committed t σ)
    (generation : σ.header.generation = p.generation)
    (written : ∀ boot, σ.boot = some boot → boot.WrittenBy (q.self t) p.nonceHi p.nonceLo)
    {state : JournalState} (known : state = .idle ∨ state = .creatingObject) :
    q.Shape (p.record state o) o t σ where
  idle _ := ⟨committed, generation⟩
  preObject h := by rcases known with rfl | rfl <;> cases h
  object _ boot hb := ⟨rfl, committed.size, written boot hb, fun _ => ⟨committed, generation⟩⟩
  removing h := by rcases known with rfl | rfl <;> cases h

/-- What the end of a part leaves: the object under construction, and on success `F` of
its words. -/
def Stage {α : Type} (t : T) (v : View) (o : FileIdentity) (F : SegmentState → Prop)
    (x : Except Error α) (w : ControlWorld T) : Prop :=
  ∃ σ, (∀ a, x = .ok a → F σ) ∧ Building t v o σ w

theorem Building.failed {α : Type} {F : SegmentState → Prop} {e : Error}
    (b : Building t v o σ w) : Stage t v o F (.error e : Except Error α) w := by
  refine ⟨σ, ?_, b⟩
  rintro _ ⟨⟩

/-- The creation has failed with its object made. -/
def Broken (ρ : Regime) (t : T) (v : View) (o : FileIdentity) (w : ControlWorld T) : Prop :=
  ∃ v' σ, v'.name = v.name ∧ (ρ.orderly → v'.born = v.born) ∧ Building t v' o σ w

/-- The creation has failed and its object is gone, if the journal may be restored. -/
def Spoilt (ρ : Regime) (t : T) (born : List Nat) (armed : Bool) (w : ControlWorld T) : Prop :=
  ∃ v : View, Holds t v w ∧ (armed = true → v.name = none) ∧
    (ρ.orderly → armed = true ∧ v.born = born)

/-- How a creation ends. -/
def Executed (q : ControlSystem T) (ρ : Regime) (t : T) :
    Except Error InstanceHandle → ControlWorld T → Prop
  | .ok handle, w => Leaves ρ t w ∧ q.Owns ρ t handle w
  | .error _, w => Leaves ρ t w

/-- How the step that makes the object ends. -/
def Made (ρ : Regime) (t : T) (v : View) (p : Plan) :
    Except Error Creation → ControlWorld T → Prop
  | .ok (.made o), w => Building t { v with name := p.place o } o .blank w
  | .ok (.failed _ armed), w => Spoilt ρ t v.born armed w
  | .error _, _ => False

/-- A new object, empty. -/
theorem Building.start [DecidableEq T] (inv : q.Inv ρ w) (holds : Holds t v w)
    (unnamed : w.name = none) (fresh : w.maker o = none) (named : Bool) :
    Building t { v with name := if named then some o else none } o .blank
      (w.makeObject t o named) where
  holds := by
    refine ⟨holds.lock, holds.journal, ?_, holds.born⟩
    cases named with
    | true => rfl
    | false => exact unnamed
  own := Function.update_self _ _ _
  named h := by
    have same : Function.update w.named o named o = true := h
    rw [Function.update_self] at same
    rw [same]
    rfl
  alone o' h := by
    cases named with
    | true => exact (Option.some_inj.1 h).symm
    | false => cases h
  new h mem same := by
    have made := (inv.owned t h mem).maker
    rw [same, fresh] at made
    cases made
  segment := Function.update_self _ _ _

/-- The record of the creation fits until the commit. -/
theorem shape_unready {mapping : Nat}
    (recorded : v.journal = some (sealJournal (p.record .creatingObject o)))
    (self : p.self = q.self t) (large : bootstrapHeaderSize ≤ mapping)
    (unready : Unready p mapping σ) :
    ∀ j, v.journal = some j → q.Shape j o t σ := by
  intro j file
  obtain rfl := Option.some_inj.1 (recorded.symm.trans file)
  exact (unready.shape self large).seal

theorem Building.aside (b : Building t v o σ w) (h : Aside t w w') :
    Building t v o σ w' := by
  have holds := h.holds b.holds
  obtain ⟨path, serving, handles, rfl, _, mine⟩ := h
  refine ⟨holds, b.own, b.named, b.alone, fun h mem => ?_, b.segment⟩
  obtain ⟨h', mem', eq⟩ := mine h mem
  rw [eq]
  exact b.new h' mem'

/-- A committed instance and its record. -/
theorem Building.owned {roleEpoch : Nat} (planned : Planned q ρ t v.born p)
    (committed : q.Committed t σ) (heads : p.Heads σ.header)
    (b : Building t ⟨some (sealJournal (p.record .idle o)), v.name, v.born ++ [p.generation]⟩ o σ
      w) :
    Leaves ρ t w ∧ q.Owns ρ t (p.handle o roleEpoch) w := by
  refine ⟨b.holds.leaves fun orderly => ?_, b.own, b.segment.symm ▸ committed, planned.self,
    planned.channel, planned.posix, ?_⟩
  rotate_left
  · change (p.handle o roleEpoch).Names (w.segment o).header
    rw [b.segment]
    exact ⟨heads.generation, heads.nonceHi, heads.nonceLo⟩
  obtain ⟨sum, eq⟩ := exists_sealJournal (p.record .idle o)
  refine ⟨_, congrArg some eq, rfl, planned.ahead orderly, fun g mem => ?_⟩
  rcases List.mem_append.1 mem with old | new
  · exact Nat.le_of_lt (planned.later orderly g old)
  · exact Nat.le_of_eq (List.mem_singleton.1 new)

/-- The name is free, and the journal announces the creation. -/
structure Announced (t : T) (v : View) (p : Plan) (w : ControlWorld T) : Prop where
  holds : Holds t v w
  free : v.name = none
  recorded : v.journal = some (sealJournal (p.record .creatingPreObject ⟨0, 0⟩))

theorem Announced.spoilt (h : Announced t v p w) : Spoilt ρ t v.born true w :=
  ⟨v, h.holds, fun _ => h.free, fun _ => ⟨rfl, rfl⟩⟩

end Facts

variable {T : Type} [DecidableEq T] {q : ControlSystem T} {ρ : Regime} {w : ControlWorld T}
  {t : T} {v : View} {o : FileIdentity} {p : Plan} {σ : SegmentState} {α : Type}
  {Q : Except Error α → ControlWorld T → Prop}

theorem stable_building : (q.logic ρ).Stable t (Building t v o σ) :=
  fun _ _ b rely _ => b.rely rely

theorem stable_leaves : (q.logic ρ).Stable t (Leaves ρ t) := by
  intro w w' h rely _
  refine ⟨rely.lock.2 h.1, fun orderly => ?_⟩
  rw [(rely.held h.1).journal, (rely.held h.1).born]
  exact h.2 orderly

/-! ### The words of the object -/

/-- A store into the object under construction. -/
theorem wp_store {i : ControlInstr} {k : ControlReply i → ControlCode α}
    {f : SegmentState → SegmentState}
    (stores : ∀ w r w', q.exec t i w r w' → w' = w.setSegment o (f (w.segment o)))
    (shape : ρ.posix → v.name = some o → ∀ j, v.journal = some j → q.Shape j o t (f σ))
    (signed : (f σ).Ready → (f σ).producer = stamped (q.self t) 2)
    (pre : Building t v o σ w)
    (next : ∀ r w, Building t v o (f σ) w → (q.logic ρ).wp t Q (k r) w) :
    (q.logic ρ).wp t Q (.op i k) w := by
  refine wp_act stable_building pre fun w₁ r w₂ inv b exec _ => ?_
  obtain rfl := stores w₁ r w₂ exec
  rw [b.segment]
  obtain ⟨inv', guar, b'⟩ := b.touch inv shape signed
  exact ⟨inv', guar, next r _ b'⟩

section Words
variable {mapping : Nat} (recorded : v.journal = some (sealJournal (p.record .creatingObject o)))
  (self : p.self = q.self t) (large : bootstrapHeaderSize ≤ mapping)
include recorded self large

/-- A store that leaves the bootstrap record as it is. -/
theorem wp_storeRaw {i : ControlInstr} {k : ControlReply i → ControlCode α}
    {f : SegmentState → SegmentState}
    (stores : ∀ w r w', q.exec t i w r w' → w' = w.setSegment o (f (w.segment o)))
    (pre : Building t v o σ w) (raw : Raw p mapping (f σ))
    (next : ∀ r w, Building t v o (f σ) w → (q.logic ρ).wp t Q (k r) w) :
    (q.logic ρ).wp t Q (.op i k) w :=
  wp_store stores (fun _ _ => shape_unready recorded self large (.inr raw))
    (fun ready => (raw.not_ready ready).elim) pre next

/-- The write loop of the bootstrap record. -/
theorem wp_pwriteBootstrap {fuel written : Nat} (enough : bootstrapHeaderSize ≤ fuel + written)
    (whole : bootstrapHeaderSize ≤ written → Raw p mapping σ) (pre : Building t v o σ w) :
    (q.logic ρ).wp t (Stage t v o (Raw p mapping)) (pwriteFull (.bootstrap o
      (createBootstrap p.options mapping p.nonceHi p.nonceLo p.self)) fuel written) w := by
  have finished : ∀ {σ w}, Raw p mapping σ → Building t v o σ w →
      (q.logic ρ).wp t (Stage t v o (Raw p mapping)) (.ret () : ControlCode Unit) w :=
    fun raw b => Logic.wp_ret _ stable_building b fun _ _ b => ⟨_, fun _ _ => raw, b⟩
  induction fuel generalizing written σ w with
  | zero => exact finished (whole (by omega)) pre
  | succ fuel ih =>
      unfold pwriteFull
      split
      · rename_i done
        exact finished (whole done) pre
      · rename_i short
        change ¬ bootstrapHeaderSize ≤ written at short
        refine wp_act stable_building pre fun w₁ r w₂ inv b exec _ => ?_
        rcases exec with ⟨more, rfl, rfl⟩ | ⟨⟨f, rfl⟩, rfl⟩
        · rw [b.segment]
          change q.Inv ρ (w₁.setSegment o (σ.wrote _ (written + min (more + 1)
              (bootstrapHeaderSize - written)))) ∧
            Guar t w₁ (w₁.setSegment o (σ.wrote _ (written + min (more + 1)
              (bootstrapHeaderSize - written)))) ∧
            (q.logic ρ).wp t _ (pwriteFull _ fuel (written + min (more + 1)
              (bootstrapHeaderSize - written))) (w₁.setSegment o (σ.wrote _ (written +
                min (more + 1) (bootstrapHeaderSize - written))))
          generalize more' : written + min (more + 1) (bootstrapHeaderSize - written) = bytes
          have next : bootstrapHeaderSize ≤ bytes → Raw p mapping (σ.wrote (createBootstrap
              p.options mapping p.nonceHi p.nonceLo p.self) bytes) :=
            fun done => ⟨if_pos done, done⟩
          have unready : Unready p mapping (σ.wrote (createBootstrap p.options mapping p.nonceHi
              p.nonceLo p.self) bytes) := by
            by_cases done : bootstrapHeaderSize ≤ bytes
            · exact .inr (next done)
            · exact .inl (if_neg done)
          obtain ⟨inv', guar, b'⟩ := b.touch inv
            (fun _ _ => shape_unready recorded self large unready)
            (fun ready => (unready.not_ready ready).elim)
          exact ⟨inv', guar, ih (by omega) next b'⟩
        · refine ⟨inv, Guar.refl t _, ?_⟩
          exact Logic.wp_throw _ stable_building b fun _ _ b => b.failed

theorem wp_shmTruncate (raw : Raw p mapping σ) (pre : Building t v o σ w) :
    (q.logic ρ).wp t (Stage t v o (Raw p mapping)) (shmTruncate o mapping) w := by
  unfold shmTruncate
  split
  · exact Logic.wp_throw _ stable_building pre fun _ _ b => b.failed
  · refine wp_act stable_building pre fun w₁ r w₂ inv b exec _ => ?_
    rcases exec with ⟨rfl, rfl⟩ | ⟨⟨f, rfl⟩, rfl⟩
    · rw [b.segment]
      have raw' : Raw p mapping (σ.truncated mapping) := ⟨raw.boot, large⟩
      obtain ⟨inv', guar, b'⟩ := b.touch inv
        (fun _ _ => shape_unready recorded self large (.inr raw'))
        (fun ready => (raw'.not_ready ready).elim)
      refine ⟨inv', guar, ?_⟩
      exact Logic.wp_ret _ stable_building b' fun _ _ b => ⟨_, fun _ _ => raw', b⟩
    · refine ⟨inv, Guar.refl t _, ?_⟩
      exact Logic.wp_throw _ stable_building b fun _ _ b => b.failed

/-- From the empty object to one that is complete but for the commit. -/
theorem wp_initSegment (pre : Building t v o σ w) :
    (q.logic ρ).wp t (Stage t v o (Complete q t p mapping)) (p.initSegment o mapping) w := by
  refine Logic.wp_seq (wp_pwriteBootstrap recorded self large (Nat.le_refl _)
    (fun none => absurd none (by decide)) pre) ?_ ?_
  · rintro _ w₁ _ ⟨σ₁, raw, b⟩
    refine Logic.wp_seq (wp_shmTruncate recorded self large (raw () rfl) b) ?_ ?_
    · rintro _ w₂ _ ⟨σ₂, raw, b⟩
      have raw₂ := raw () rfl
      refine Logic.wp_seq (P := fun _ w => Building t v o σ₂ w) ?_ ?_ (fun _ _ _ b => b.failed)
      · refine wp_onlyLooks ⟨rfl, fun r => ?_⟩ stable_building b
        cases r <;> trivial
      · intro _ w₃ _ b
        refine wp_storeRaw recorded self large (fun _ _ _ exec => exec)
          (f := fun σ => σ.filled _) b ⟨raw₂.boot, raw₂.size⟩ fun _ w₄ b => ?_
        refine wp_act stable_building b fun w₅ r w₆ inv b exec _ => ?_
        rcases exec with ⟨_, ⟨epoch, rfl, rfl⟩ | ⟨⟨e, rfl⟩, rfl⟩⟩
        · rw [b.segment]
          have raw₃ : Raw p mapping (((σ₂.filled (createHeader p.options p.schema p.payloadSize
              mapping p.generation p.nonceHi p.nonceLo))).signed p.self) :=
            ⟨raw₂.boot, raw₂.size⟩
          obtain ⟨inv', guar, b'⟩ := b.touch inv
            (fun _ _ => shape_unready recorded self large (.inr raw₃))
            (fun ready => (raw₃.not_ready ready).elim)
          refine ⟨inv', guar, ?_⟩
          refine wp_storeRaw recorded self large (fun _ _ _ exec => exec)
            (f := fun σ => σ.withInit .initializing) b' ⟨raw₂.boot, raw₂.size⟩ fun _ w₇ b => ?_
          refine wp_storeRaw recorded self large (fun _ _ _ exec => exec)
            (f := fun σ => σ.withProducer .online) b ⟨raw₂.boot, raw₂.size⟩ fun _ w₈ b => ?_
          refine Logic.wp_ret _ stable_building b fun _ _ b => ⟨_, fun _ _ => ?_, b⟩
          refine ⟨⟨raw₂.boot, raw₂.size⟩, rfl, ?_⟩
          rw [← self]
          rfl
        · refine ⟨inv, Guar.refl t _, ?_⟩
          exact Logic.wp_throw _ stable_building b fun _ _ b => b.failed
    · rintro e w₂ _ ⟨σ₂, _, b⟩
      exact b.failed
  · rintro e w₁ _ ⟨σ₁, _, b⟩
    exact b.failed

end Words

theorem wp_bindSocket (pre : Building t v o σ w) :
    (q.logic ρ).wp t (fun _ w => True ∧ Building t v o σ w) (p.bindSocket o) w := by
  refine wp_beside ?_ (Prog.ends_true _) stable_building (fun _ _ b aside => b.aside aside) pre
  unfold Plan.bindSocket
  split
  · exact beside_fdBrokerBind _ _ _
  · trivial

/-! ### The commit -/

/-- The journal of a transaction fails only in runs that are not orderly. -/
theorem wp_record {state : JournalState} {target : FileIdentity} {born : List Nat}
    (planned : Planned q ρ t born p)
    (known : state = .idle ∨ state = .creatingPreObject ∨ state = .creatingObject)
    (shape : ρ.posix → v.name = some o → q.Shape (p.record state target) o t σ)
    (pre : Building t v o σ w) :
    (q.logic ρ).wp t (Wrote ρ (p.record state target)
      fun x => Building t { v with journal := x } o σ) (lockWriteJournal (p.record state target))
      w := by
  refine wp_lockWriteJournal (x := v.journal) (fun _ => stable_building)
    (fun _ _ b => b.holds.lock) (fun _ y _ b => b.setJournal y)
    (fun _ _ b => b.fits planned known shape) (fun _ _ => ?_) pre
  rw [planned.creator]
  exact q.valid t

/-- The instance is committed and the journal says so. -/
def Finished (q : ControlSystem T) (ρ : Regime) (t : T) (v : View) (p : Plan) (o : FileIdentity) :
    Except Error Unit → ControlWorld T → Prop
  | .ok _, w => ∃ σ, q.Committed t σ ∧ p.Heads σ.header ∧
      Building t ⟨some (sealJournal (p.record .idle o)), v.name, v.born ++ [p.generation]⟩ o σ w
  | .error _, w => Broken ρ t v o w

theorem wp_commit {mapping : Nat} (planned : Planned q ρ t v.born p)
    (recorded : v.journal = some (sealJournal (p.record .creatingObject o)))
    (large : bootstrapHeaderSize ≤ mapping) (complete : Complete q t p mapping σ)
    (pre : Building t v o σ w) :
    (q.logic ρ).wp t (Finished q ρ t v p o) (p.commit o) w := by
  have self := planned.self
  refine wp_storeRaw recorded self large (fun _ _ _ exec => exec)
    (f := fun σ => σ.withInit .ready) pre ⟨complete.raw.boot, complete.raw.size⟩
    fun _ w₁ b => ?_
  have complete₁ : Complete q t p mapping (σ.withInit .ready) :=
    ⟨⟨complete.raw.boot, complete.raw.size⟩, complete.header, complete.producer⟩
  have committed := complete₁.committed self large
  generalize σ.withInit .ready = σ₁ at b complete₁ committed
  have written : ∀ boot, (σ₁.withBoot .ready).boot = some boot →
      boot.WrittenBy (q.self t) p.nonceHi p.nonceLo := by
    intro boot hb
    obtain rfl := Option.some_inj.1 ((congrArg (Option.map _) complete₁.raw.boot).symm.trans hb)
    rw [← self]
    exact (createBootstrap_writtenBy p.options large p.nonceHi p.nonceLo p.self).withState _
  have shape : ∀ {state : JournalState}, state = .idle ∨ state = .creatingObject →
      q.Shape (p.record state o) o t (σ₁.withBoot .ready) :=
    shape_committed committed complete₁.heads.generation written
  refine wp_act stable_building b fun w₂ r w₃ inv b exec _ => ?_
  obtain rfl := exec
  have fits : ∀ j, v.journal = some j → q.Shape j o t (σ₁.withBoot .ready) := by
    intro j file
    obtain rfl := Option.some_inj.1 (recorded.symm.trans file)
    exact (shape (.inr rfl)).seal
  obtain ⟨inv', _, b'⟩ := b.touch inv (fun _ _ => fits) (fun _ => committed.producer)
  have same : w₂.commit o .ready = { w₂.setSegment o (σ₁.withBoot .ready) with
      born := w₂.born ++ [p.generation] } := by
    unfold ControlWorld.commit
    rw [b.segment, show σ₁.header.generation = p.generation from complete₁.heads.generation,
      if_pos rfl]
  rw [same]
  refine ⟨inv'.commit b.holds.lock ?_, .commit b.holds.lock b.own, ?_⟩
  · intro orderly g mem
    rw [b.holds.born] at mem
    exact planned.later orderly g mem
  have b₃ : Building t ⟨v.journal, v.name, v.born ++ [p.generation]⟩ o (σ₁.withBoot .ready)
      { w₂.setSegment o (σ₁.withBoot .ready) with born := w₂.born ++ [p.generation] } :=
    ⟨⟨b'.holds.lock, b'.holds.journal, b'.holds.name, by rw [b.holds.born]⟩, b'.own, b'.named,
      b'.alone, b'.new, b'.segment⟩
  refine Logic.wp_attempt_seq (wp_record planned (.inl rfl) (fun _ _ => shape (.inl rfl)) b₃) ?_
  rintro x w₄ _ (⟨rfl, b⟩ | ⟨⟨e, rfl⟩, disorder, torn, b⟩)
  · exact Logic.wp_ret _ stable_building b fun _ _ b => ⟨_, committed, complete₁.heads, b⟩
  · have broken : ∀ {w}, Building t ⟨torn, v.name, v.born ++ [p.generation]⟩ o
        (σ₁.withBoot .ready) w → Broken ρ t v o w :=
      fun b => ⟨⟨torn, v.name, v.born ++ [p.generation]⟩, _, rfl,
        fun orderly => (disorder orderly).elim, b⟩
    change (q.logic ρ).wp t _ (if p.options.transport = .memfdFdPass then _ else _) w₄
    split
    · refine Logic.wp_mono ?_ (wp_beside (E := fun x => x = .error e) ⟨rfl, fun _ => ⟨rfl, fun _ =>
        trivial⟩⟩ (fun _ _ => rfl) stable_building (fun _ _ b aside => b.aside aside) b)
      rintro x w₅ _ ⟨rfl, b⟩
      exact broken b
    · exact Logic.wp_throw _ stable_building b fun _ _ b => broken b

/-- How building ends. -/
def Built (q : ControlSystem T) (ρ : Regime) (t : T) (v : View) (o : FileIdentity) :
    Except Error InstanceHandle → ControlWorld T → Prop
  | .ok handle, w => Leaves ρ t w ∧ q.Owns ρ t handle w
  | .error _, w => Broken ρ t v o w

theorem stable_owned {handle : InstanceHandle} :
    (q.logic ρ).Stable t fun w => Leaves ρ t w ∧ q.Owns ρ t handle w :=
  fun w w' h rely inv => ⟨stable_leaves w w' h.1 rely inv, h.2.rely rely⟩

theorem wp_build (planned : Planned q ρ t v.born p) (bare : σ.boot = none)
    (pre : Building t v o σ w) :
    (q.logic ρ).wp t (Built q ρ t v o) (p.build o) w := by
  -- the view with the journal that names the object
  let v₁ : View := { v with journal := some (sealJournal (p.record .creatingObject o)) }
  have broken : ∀ {σ w}, Building t v₁ o σ w → Broken ρ t v o w :=
    fun b => ⟨v₁, _, rfl, fun _ => rfl, b⟩
  refine Logic.wp_seq (wp_record planned (.inr (.inr rfl)) (fun _ _ => shape_bare bare) pre) ?_ ?_
  · rintro _ w₁ _ (⟨_, b⟩ | ⟨⟨_, never⟩, _⟩)
    · have b₁ : Building t v₁ o σ w₁ := b
      have planned₁ : Planned q ρ t v₁.born p := planned
      split
      · exact Logic.wp_throw _ stable_building b₁ fun _ _ b => broken b
      · rename_i mapping sized
        have large := mapping_large sized
        refine Logic.wp_seq (wp_initSegment rfl planned.self large b₁) ?_ ?_
        · rintro roleEpoch w₂ _ ⟨σ₂, complete, b⟩
          refine Logic.wp_seq (wp_bindSocket b) ?_ (fun _ _ _ b => broken b.2)
          rintro _ w₃ _ ⟨_, b⟩
          refine Logic.wp_seq (wp_commit planned₁ rfl large (complete roleEpoch rfl) b) ?_
            (fun _ _ _ failed => failed)
          rintro _ w₄ _ ⟨σ₄, committed, heads, b⟩
          exact Logic.wp_ret _ stable_owned (b.owned planned committed heads) fun _ _ h => h
        · rintro e w₂ _ ⟨σ₂, _, b⟩
          exact broken b
    · cases never
  · rintro e w₁ _ (⟨never, _⟩ | ⟨_, disorder, torn, b⟩)
    · cases never
    · exact ⟨{ v with journal := torn }, σ, rfl, fun _ => rfl, b⟩

/-! ### Making the object -/

theorem stable_announced : (q.logic ρ).Stable t (Announced t v p) :=
  fun _ _ h rely _ => ⟨h.holds.rely rely, h.free, h.recorded⟩

/-- One more object, under the name or not. -/
theorem Announced.make (h : Announced t v p w) (planned : Planned q ρ t v.born p)
    (inv : q.Inv ρ w) (fresh : w.maker o = none) (named : Bool) :
    q.Inv ρ (w.makeObject t o named) ∧ Guar t w (w.makeObject t o named) ∧
      Building t { v with name := if named then some o else none } o .blank
        (w.makeObject t o named) := by
  have unnamed := h.holds.name.trans h.free
  refine ⟨inv.makeObject h.holds.lock fresh named unnamed ?_,
    .makeObject h.holds.lock fresh named unnamed, .start inv h.holds unnamed fresh named⟩
  intro j file _
  obtain rfl := Option.some_inj.1 (h.recorded.symm.trans (h.holds.journal.symm.trans file))
  refine Fits.seal (Building.fits (.start inv h.holds unnamed fresh true) planned
    (.inr (.inl rfl)) fun _ _ => ?_)
  refine ⟨fun h => ?_, fun _ => ⟨rfl, rfl⟩, fun h => ?_, fun h => ?_⟩ <;> cases h

theorem wp_shmOpenCreate (planned : Planned q ρ t v.born p) (pre : Announced t v p w) :
    (q.logic ρ).wp t (fun x w => (∃ o, x = .ok o ∧
        Building t { v with name := some o } o .blank w) ∨
      ((∃ e, x = .error e) ∧ Announced t v p w)) shmOpenCreate w := by
  refine wp_act stable_announced pre fun w₁ r w₂ inv h exec _ => ?_
  rcases exec with ⟨o, rfl, _, fresh, rfl⟩ | ⟨f, rfl, _, rfl⟩
  · obtain ⟨inv', guar, b⟩ := h.make planned inv fresh true
    exact ⟨inv', guar, Logic.wp_ret _ stable_building b fun _ _ b => .inl ⟨o, rfl, b⟩⟩
  · refine ⟨inv, Guar.refl t _, ?_⟩
    exact Logic.wp_throw _ stable_announced h fun _ _ h => .inr ⟨⟨_, rfl⟩, h⟩

/-- The object is made but cannot be examined. -/
theorem wp_retainCreated {e : Error} (planned : Planned q ρ t v.born p) (disorder : ¬ ρ.orderly)
    (pre : Building t { v with name := some o } o .blank w) :
    (q.logic ρ).wp t (Made ρ t v p) (retainCreated (p.record .creatingPreObject ⟨0, 0⟩) o e)
      w := by
  have kept : ∀ {v' : View} {w}, Holds t v' w → Spoilt ρ t v.born false w := by
    refine fun h => ⟨_, h, ?_, fun orderly => (disorder orderly).elim⟩
    rintro ⟨⟩
  have gone : ∀ {v' : View} {w}, v'.name = none → Holds t v' w → Spoilt ρ t v.born true w :=
    fun none h => ⟨_, h, fun _ => none, fun orderly => (disorder orderly).elim⟩
  refine Logic.wp_attempt_seq (wp_shmCaptureCreatedIdentity (o := o) stable_building pre) ?_
  rintro captured w₁ _ ⟨⟨identity, _⟩, b⟩
  have record : ∀ target : FileIdentity, (q.logic ρ).wp t (Wrote ρ (p.record .creatingObject target)
      fun x => Building t ⟨x, some o, v.born⟩ o .blank)
      (lockWriteJournal (p.record .creatingObject target)) w₁ :=
    fun target => wp_record planned (.inr (.inr rfl)) (fun _ _ => shape_bare rfl) b
  refine Logic.wp_attempt_seq (record (captured.toOption.getD ⟨0, 0⟩)) ?_
  rintro x w₂ _ (⟨rfl, b⟩ | ⟨⟨e', rfl⟩, _, torn, b⟩)
  · cases captured with
    | error e' =>
        exact Logic.wp_ret _ stable_building b fun _ _ b => kept b.holds
    | ok found =>
        obtain rfl := identity found rfl
        refine Logic.wp_attempt_seq (wp_shmUnlinkChecked stable_building (fun _ b => b.holds)
          stable_holds (fun _ b _ => b.doomed) ?_ (fun _ h => h) b) ?_
        · exact fun w b _ => ⟨b.holds.lock, b.holds.journal, rfl, b.holds.born⟩
        · rintro (e' | _) w₃ _ unlinked
          · change (q.logic ρ).wp t _ (if e'.code ≠ .notFound then _ else _) w₃
            rcases unlinked with ⟨code, _, h⟩ | ⟨none, _, b⟩
            · rw [if_pos code]
              exact Logic.wp_ret _ stable_holds h fun _ _ h => kept h
            · split
              · exact Logic.wp_ret _ stable_building b fun _ _ b => kept b.holds
              · rename_i code
                cases none (Decidable.not_not.1 code)
          · exact Logic.wp_ret _ stable_holds unlinked.2 fun _ _ h => gone rfl h
  · exact Logic.wp_ret _ stable_building b fun _ _ b => kept b.holds

theorem wp_createPosixObject (posix : p.options.transport = .posixShm)
    (planned : Planned q ρ t v.born p) (pre : Announced t v p w) :
    (q.logic ρ).wp t (Made ρ t v p)
      (createPosixObject (p.record .creatingPreObject ⟨0, 0⟩)) w := by
  have spoilt : ∀ {e : Error} {w}, Announced t v p w →
      (q.logic ρ).wp t (Made ρ t v p) (.ret (.failed e true)) w :=
    fun h => Logic.wp_ret _ stable_announced h fun _ _ h => h.spoilt
  refine Logic.wp_attempt_seq (wp_shmOpenCreate planned pre) ?_
  rintro x w₁ _ (⟨o, rfl, b⟩ | ⟨⟨e, rfl⟩, h⟩)
  · refine Logic.wp_attempt_seq (wp_shmFstatAndCapture stable_building (fun _ b => b.holds)
      (o := o) b) ?_
    rintro (e | s) w₂ _ ⟨tells, fine, b⟩
    · refine wp_retainCreated planned (fun orderly => ?_) b
      obtain ⟨_, ok⟩ := fine orderly
      cases ok
    · refine Logic.wp_ret _ stable_building b fun w₃ _ b => ?_
      change Building t { v with name := p.place s.identity } s.identity .blank w₃
      rw [(tells s rfl).1, Plan.place, posix]
      exact b
  · change (q.logic ρ).wp t _ (if e.code = .alreadyOwned then _ else _) w₁
    split <;> exact spoilt h

theorem wp_createMemfd (memfd : p.options.transport = .memfdFdPass)
    (planned : Planned q ρ t v.born p) (pre : Announced t v p w) :
    (q.logic ρ).wp t (Made ρ t v p) createMemfd w := by
  refine Logic.wp_attempt_seq (P := fun x w => (∃ o, x = .ok o ∧
      Building t { v with name := none } o .blank w) ∨
    ((∃ e, x = .error e) ∧ Announced t v p w)) ?_ ?_
  · refine wp_act stable_announced pre fun w₁ r w₂ inv h exec _ => ?_
    rcases exec with ⟨o, rfl, fresh, rfl⟩ | ⟨⟨f, rfl⟩, rfl⟩
    · obtain ⟨inv', guar, b⟩ := h.make planned inv fresh false
      exact ⟨inv', guar, Logic.wp_ret _ stable_building b fun _ _ b => .inl ⟨o, rfl, b⟩⟩
    · refine ⟨inv, Guar.refl t _, ?_⟩
      exact Logic.wp_throw _ stable_announced h fun _ _ h => .inr ⟨⟨_, rfl⟩, h⟩
  · rintro x w₁ _ (⟨o, rfl, b⟩ | ⟨⟨e, rfl⟩, h⟩)
    · refine Logic.wp_attempt_seq (wp_memfdFstatAndCapture (o := o) stable_building b) ?_
      rintro (e | s) w₂ _ ⟨tells, b⟩
      · refine Logic.wp_ret _ stable_building b fun w₃ _ b => ?_
        exact ⟨_, b.holds, fun _ => rfl, fun _ => ⟨rfl, rfl⟩⟩
      · refine Logic.wp_ret _ stable_building b fun w₃ _ b => ?_
        change Building t { v with name := p.place s.identity } s.identity .blank w₃
        rw [tells s rfl, Plan.place, memfd]
        exact b
    · exact Logic.wp_ret _ stable_announced h fun _ _ h => h.spoilt

theorem wp_createObject (planned : Planned q ρ t v.born p) (pre : Announced t v p w) :
    (q.logic ρ).wp t (Made ρ t v p) p.createObject w := by
  unfold Plan.createObject
  split
  · rename_i memfd
    exact wp_createMemfd memfd planned pre
  · rename_i posix
    exact wp_createPosixObject posix planned pre

/-! ### The guards -/

theorem wp_restoreJournal {armed : Bool} {born : List Nat} (planned : Planned q ρ t born p)
    (pre : Spoilt ρ t born armed w) :
    (q.logic ρ).wp t (fun x w => (∃ u, x = .ok u) ∧ Leaves ρ t w) (p.restoreJournal armed) w := by
  obtain ⟨v, holds, none, orderly⟩ := pre
  cases armed with
  | false =>
      refine Logic.wp_ret _ stable_holds holds fun _ _ h => ⟨⟨_, rfl⟩, h.lock, fun o => ?_⟩
      cases (orderly o).1
  | true =>
      refine Logic.wp_attempt_seq (wp_lockWriteJournal (x := v.journal)
        (P := fun x => Holds t { v with journal := x }) (fun _ => stable_holds)
        (fun _ _ h => h.lock) ?_ ?_ ?_ holds) ?_
      · exact fun _ y w h => ⟨h.lock, rfl, h.name, h.born⟩
      · exact fun _ w h => fits_unnamed planned.genuine (h.name.trans (none rfl))
      · exact fun _ busy => (busy planned.idle).elim
      · rintro x w₁ _ (⟨rfl, h⟩ | ⟨⟨e, rfl⟩, disorder, torn, h⟩)
        · refine Logic.wp_ret _ stable_holds h fun w₂ _ h => ⟨⟨_, rfl⟩, h.leaves fun o => ?_⟩
          obtain ⟨sum, eq⟩ := exists_sealJournal p.journal
          refine ⟨_, congrArg some eq, planned.idle, (planned.rest o).1, ?_⟩
          rw [show v.born = born from (orderly o).2]
          exact (planned.rest o).2
        · refine Logic.wp_ret _ stable_holds h fun w₂ _ h => ⟨⟨_, rfl⟩, h.lock, ?_⟩
          exact fun orderly => (disorder orderly).elim

theorem wp_withdrawObject (placed : v.name = p.place o) (pre : Broken ρ t v o w) :
    (q.logic ρ).wp t (fun x w => ∃ armed, x = .ok armed ∧ Spoilt ρ t v.born armed w)
      (p.withdrawObject o) w := by
  obtain ⟨v', σ, name, born, b⟩ := pre
  have spot := name.trans placed
  unfold Plan.withdrawObject
  unfold Plan.place at spot
  split
  · rename_i memfd
    rw [memfd] at spot
    refine Logic.wp_ret _ stable_building b fun w _ b => ⟨true, rfl, v', b.holds, ?_, ?_⟩
    · exact fun _ => spot
    · exact fun orderly => ⟨rfl, born orderly⟩
  · rename_i posix
    rw [posix] at spot
    refine Logic.wp_attempt_seq (wp_shmUnlinkChecked stable_building (fun _ b => b.holds)
      stable_holds (fun _ b _ => b.doomed) ?_ (fun _ h => h) b) ?_
    · exact fun w b _ => ⟨b.holds.lock, b.holds.journal, rfl, b.holds.born⟩
    · rintro (e | _) w₁ _ unlinked
      · rcases unlinked with ⟨code, disorder, h⟩ | ⟨none, other, b⟩
        · refine Logic.wp_ret _ stable_holds h fun w _ h => ⟨_, rfl, _, h, fun _ => rfl, ?_⟩
          exact fun orderly => (disorder orderly).elim
        · refine Logic.wp_ret _ stable_building b fun w _ b => ⟨_, rfl, _, b.holds, ?_, ?_⟩
          · exact fun code => none (of_decide_eq_true code)
          · exact fun orderly => (other orderly spot).elim
      · refine Logic.wp_ret _ stable_holds unlinked.2 fun w _ h =>
          ⟨true, rfl, _, h, fun _ => rfl, fun orderly => ⟨rfl, born orderly⟩⟩

/-- The whole transaction, from a free name to an instance or back. -/
theorem wp_execute (planned : Planned q ρ t v.born p) (free : v.name = none)
    (pre : Holds t v w) : (q.logic ρ).wp t (Executed q ρ t) p.execute w := by
  have giveUp : ∀ {e : Error} {armed : Bool} {w}, Spoilt ρ t v.born armed w →
      (q.logic ρ).wp t (Executed q ρ t)
        (p.restoreJournal armed >>= fun _ => (.throw e : ControlCode InstanceHandle)) w := by
    intro e armed w spoilt
    refine Logic.wp_seq (wp_restoreJournal planned spoilt) ?_ ?_
    · rintro _ w₁ _ ⟨_, leaves⟩
      exact Logic.wp_throw _ stable_leaves leaves fun _ _ leaves => leaves
    · rintro _ w₁ _ ⟨⟨_, never⟩, _⟩
      cases never
  refine Logic.wp_seq (wp_lockWriteJournal (x := v.journal)
    (P := fun x => Holds t { v with journal := x }) (fun _ => stable_holds)
    (fun _ _ h => h.lock) ?_ ?_ ?_ pre) ?_ ?_
  · exact fun _ y w h => ⟨h.lock, rfl, h.name, h.born⟩
  · intro _ w h
    exact fits_unnamed (planned.record (.inr (.inl rfl)) _) (h.name.trans free)
  · intro _ _
    rw [planned.creator]
    exact q.valid t
  · rintro _ w₁ _ (⟨_, h⟩ | ⟨⟨_, never⟩, _⟩)
    · refine Logic.wp_seq (wp_createObject (v := { v with journal := some (sealJournal
        (p.record .creatingPreObject ⟨0, 0⟩)) }) planned ⟨h, free, rfl⟩) ?_ ?_
      · rintro (o | ⟨e, armed⟩) w₂ _ made
        · have b : Building t ⟨some (sealJournal (p.record .creatingPreObject ⟨0, 0⟩)),
            p.place o, v.born⟩ o .blank w₂ := made
          refine Logic.wp_attempt_seq (wp_build (v := ⟨_, p.place o, v.born⟩) planned rfl b) ?_
          rintro (e | handle) w₃ _ built
          · refine Logic.wp_seq (wp_withdrawObject rfl built) ?_ ?_
            · rintro armed w₄ _ ⟨_, same, spoilt⟩
              cases same
              exact giveUp spoilt
            · rintro _ w₄ _ ⟨_, never, _⟩
              cases never
          · exact Logic.wp_ret _ stable_owned built fun _ _ h => h
        · exact giveUp made
      · exact fun _ _ _ never => never.elim
    · cases never
  · rintro e w₁ _ (⟨never, _⟩ | ⟨_, disorder, torn, h⟩)
    · cases never
    · exact ⟨h.lock, fun orderly => (disorder orderly).elim⟩

end ControlSystem
end EdgeRuntime

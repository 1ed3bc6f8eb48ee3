import EdgeRuntime.Concurrent.Outline
import EdgeRuntime.Control.World

/-!
What every step of the control plane keeps, whoever takes it and wherever it is killed.
The journal always fits the object under the name: a transaction that is on record was
begun by the process that made the object. What the lock protects is changed by its holder
only; without the lock a producer may still go offline, and processes may die.
-/
namespace EdgeRuntime
open Concurrent

/-- The circumstances under which runs are looked at. -/
structure Regime where
  /-- Every instance is a POSIX shared-memory object. -/
  posix : Prop
  /-- No transaction is cut short: nobody is killed in one, and the calls that its journal
  and its clean-up rest on succeed. -/
  orderly : Prop
  orderly_posix : orderly → posix

/-- The reply is not the failure of a call that a journal or a clean-up rests on. -/
def smooth : (i : ControlInstr) → ControlReply i → Bool
  | .pwrite (.journal _) _, .error _ => false
  | .fdatasync, .error _ => false
  | .shmOpen, .error f => f.errno = enoent
  | .fstat _, .error _ => false
  | .fstat _, .ok status => (checkShmStatus status).isOk
  | .shmUnlink, .error _ => false
  | _, _ => true

/-- Between the first record of a creation and its end. -/
def ControlJournalV1.InCreation (j : ControlJournalV1) : Prop :=
  j.state = JournalState.creatingPreObject.code ∨ j.state = JournalState.creatingObject.code ∨
    j.state = JournalState.replacing.code

/-- The bootstrap record that a creator wrote, whatever its state word. -/
def BootstrapHeaderAbi.WrittenBy (boot : BootstrapHeaderAbi) (self : ProcessIdentity)
    (nonceHi nonceLo : Nat) : Prop :=
  ∃ options mapping, mapping ≠ 0 ∧
    boot = { createBootstrap options mapping nonceHi nonceLo self with
      initState := boot.initState }

/-- The segment except for the producer's state word, which its producer may set to OFFLINE
at any time. -/
def SegmentState.Left (σ σ' : SegmentState) : Prop := σ' = σ ∨ σ' = σ.withProducer .offline

/-- The instance of this header is the one the handle was made for. -/
structure InstanceHandle.Names (h : InstanceHandle) (header : ChannelHeaderAbi) : Prop where
  generation : header.generation = h.generation
  nonceHi : header.instanceNonceHi = h.instanceNonceHi
  nonceLo : header.instanceNonceLo = h.instanceNonceLo

namespace ControlSystem
variable {T : Type} [DecidableEq T] (q : ControlSystem T) (ρ : Regime)

/-- A complete instance of `m`. -/
structure Committed (m : T) (σ : SegmentState) : Prop where
  boot : ∃ boot nonceHi nonceLo, σ.boot = some boot ∧ boot.initState = InitState.ready.code ∧
    boot.WrittenBy (q.self m) nonceHi nonceLo
  size : bootstrapHeaderSize ≤ σ.size
  magic : σ.header.magic = channelHeaderMagic
  major : σ.header.abiMajor = abiMajor
  producer : σ.producer = stamped (q.self m) 2

/-- The object of a creation whose record names it: its bootstrap record may be missing,
but what there is is the creator's. -/
structure Underway (j : ControlJournalV1) (o : FileIdentity) (m : T) (σ : SegmentState)
    (boot : BootstrapHeaderAbi) : Prop where
  target : o = ⟨j.targetDev, j.targetIno⟩
  size : bootstrapHeaderSize ≤ σ.size
  written : boot.WrittenBy (q.self m) j.newNonceHi j.newNonceLo
  ready : boot.initState = InitState.ready.code →
    q.Committed m σ ∧ σ.header.generation = j.newGeneration

/-- The object under the name, by the state of the journal. -/
structure Shape (j : ControlJournalV1) (o : FileIdentity) (m : T) (σ : SegmentState) :
    Prop where
  idle : j.state = JournalState.idle.code →
    q.Committed m σ ∧ σ.header.generation = j.newGeneration
  preObject : j.state = JournalState.creatingPreObject.code → σ.boot = none ∧ σ.size = 0
  object : j.state = JournalState.creatingObject.code →
    ∀ boot, σ.boot = some boot → q.Underway j o m σ boot
  removing : j.state = JournalState.removing.code →
    o = ⟨j.targetDev, j.targetIno⟩ ∧ q.Committed m σ ∧ σ.header.generation = j.oldGeneration

/-- A record as this control plane writes them. -/
structure Genuine (j : ControlJournalV1) : Prop where
  hash : j.channelHash = 0 ∨ j.channelHash = channelNameHash q.channelName
  version : j.version = 0 → j.state = JournalState.idle.code ∧ j.newGeneration = 0
  transport : j.transport = Transport.posixShm.code
  state : j.state = JournalState.idle.code ∨ j.state = JournalState.creatingPreObject.code ∨
    j.state = JournalState.creatingObject.code ∨ j.state = JournalState.removing.code
  creator : j.state ≠ JournalState.idle.code → ∃ m, journalCreator j = q.self m

/-- The journal may say this of the world. -/
structure Fits (j : ControlJournalV1) (w : ControlWorld T) : Prop where
  creator : j.InCreation → ∀ o m, w.name = some o → w.maker o = some m →
    journalCreator j = q.self m
  genuine : ρ.posix → q.Genuine j
  shape : ρ.posix → ∀ o m, w.name = some o → w.maker o = some m → q.Shape j o m (w.segment o)

/-- The handle belongs to the process and to a committed instance of it, which its
generation and nonce name. -/
structure Owns (t : T) (h : InstanceHandle) (w : ControlWorld T) : Prop where
  maker : w.maker h.shm = some t
  committed : q.Committed t (w.segment h.shm)
  self : h.self = q.self t
  channel : h.channelName = q.channelName
  transport : ρ.posix → h.transport = .posixShm
  names : h.Names (w.segment h.shm).header

/-- No transaction is on record and no instance is later than the recorded one. -/
def Settled (journal : Option ControlJournalV1) (born : List Nat) : Prop :=
  ∃ j, journal = some j ∧ j.state = JournalState.idle.code ∧
    j.oldGeneration ≤ j.newGeneration ∧ ∀ g ∈ born, g ≤ j.newGeneration

structure Inv (w : ControlWorld T) : Prop where
  holder : ∀ t, w.lock = some t → w.dead t = false
  made : ∀ o, w.name = some o → (∃ m, w.maker o = some m) ∧ w.named o = true
  fits : ∀ j, w.journal = some j → q.Fits ρ j w
  signed : ∀ o m, w.maker o = some m → (w.segment o).Ready →
    (w.segment o).producer = stamped (q.self m) 2
  /-- An object leaves the name by its maker, or when its producer is dead or has left. -/
  kept : ∀ o m, w.maker o = some m → w.named o = true →
    w.name = some o ∨ w.unlinker o = some m ∨ w.dead m = true ∨
      activelyOwned (w.segment o).producerState = false
  owned : ∀ t h, h ∈ w.handles t → q.Owns ρ t h w
  sorted : ρ.orderly → w.born.Pairwise (· < ·)
  settled : ρ.orderly → w.lock = none → Settled w.journal w.born

/-- What the lock protects is the same. -/
structure SameRecords (w w' : ControlWorld T) : Prop where
  journal : w'.journal = w.journal
  name : w'.name = w.name
  maker : w'.maker = w.maker
  named : w'.named = w.named
  unlinker : w'.unlinker = w.unlinker
  born : w'.born = w.born
  segment : ∀ o, (w.segment o).Left (w'.segment o)

/-- What the others may do while `t` looks away. -/
structure Rely (t : T) (w w' : ControlWorld T) : Prop where
  lock : w'.lock = some t ↔ w.lock = some t
  held : w.lock = some t → SameRecords w w'
  own : ∀ o, w.maker o = some t → w'.segment o = w.segment o
  maker : ∀ o m, w.maker o = some m → w'.maker o = some m
  dead : ∀ u, w.dead u = true → w'.dead u = true
  alive : w'.dead t = w.dead t
  handles : w'.handles t = w.handles t

/-- What a step of `t` may do. -/
structure Guar (t : T) (w w' : ControlWorld T) : Prop where
  lock : ∀ u, u ≠ t → (w'.lock = some u ↔ w.lock = some u)
  outside : w.lock ≠ some t → SameRecords w w'
  foreign : ∀ o m, w.maker o = some m → m ≠ t → w'.segment o = w.segment o
  maker : ∀ o m, w.maker o = some m → w'.maker o = some m
  dead : ∀ u, w.dead u = true → w'.dead u = true
  others : ∀ u, u ≠ t → w'.dead u = w.dead u ∧ w'.handles u = w.handles u
  unlinks : ∀ o m, w.name = some o → w'.name ≠ some o → w.maker o = some m →
    m = t ∨ w.dead m = true ∨ activelyOwned (w.segment o).producerState = false

end ControlSystem

theorem SegmentState.Left.trans {σ σ' σ'' : SegmentState} (h : σ.Left σ') (h' : σ'.Left σ'') :
    σ.Left σ'' := by
  rcases h with rfl | rfl
  · exact h'
  · rcases h' with rfl | rfl <;> exact .inr rfl

namespace ControlSystem
variable {T : Type} {w w' w'' : ControlWorld T} {t u : T}

theorem SameRecords.refl (w : ControlWorld T) : SameRecords w w :=
  ⟨rfl, rfl, rfl, rfl, rfl, rfl, fun _ => .inl rfl⟩

theorem SameRecords.trans (h : SameRecords w w') (h' : SameRecords w' w'') :
    SameRecords w w'' where
  journal := h'.journal.trans h.journal
  name := h'.name.trans h.name
  maker := h'.maker.trans h.maker
  named := h'.named.trans h.named
  unlinker := h'.unlinker.trans h.unlinker
  born := h'.born.trans h.born
  segment o := (h.segment o).trans (h'.segment o)

theorem Rely.refl (t : T) (w : ControlWorld T) : Rely t w w where
  lock := Iff.rfl
  held _ := .refl w
  own _ _ := rfl
  maker _ _ h := h
  dead _ h := h
  alive := rfl
  handles := rfl

theorem Rely.trans (h : Rely t w w') (h' : Rely t w' w'') : Rely t w w'' where
  lock := h'.lock.trans h.lock
  held lock := (h.held lock).trans (h'.held (h.lock.2 lock))
  own o own := (h'.own o (h.maker o t own)).trans (h.own o own)
  maker o m made := h'.maker o m (h.maker o m made)
  dead v gone := h'.dead v (h.dead v gone)
  alive := h'.alive.trans h.alive
  handles := h'.handles.trans h.handles

theorem Guar.refl (t : T) (w : ControlWorld T) : Guar t w w where
  lock _ _ := Iff.rfl
  outside _ := .refl w
  foreign _ _ _ _ := rfl
  maker _ _ h := h
  dead _ h := h
  others _ _ := ⟨rfl, rfl⟩
  unlinks _ _ name other := (other name).elim

theorem Guar.rely (other : t ≠ u) (h : Guar t w w') : Rely u w w' where
  lock := h.lock u (Ne.symm other)
  held lock := by
    refine h.outside fun mine => other ?_
    exact Option.some_inj.1 (mine.symm.trans lock)
  own o own := h.foreign o u own (Ne.symm other)
  maker := h.maker
  dead := h.dead
  alive := (h.others u (Ne.symm other)).1
  handles := (h.others u (Ne.symm other)).2

def logic [DecidableEq T] (q : ControlSystem T) (ρ : Regime) :
    Logic T ControlInstr ControlReply (ControlWorld T) (ControlWorld T) where
  exec t i w r w' := q.exec t i w r w' ∧ (ρ.orderly → smooth i r = true)
  world w := w
  inv := q.Inv ρ
  rely := Rely
  guar := Guar
  rely_refl := Rely.refl
  rely_trans _ _ _ _ := Rely.trans
  guar_refl := Guar.refl
  guar_rely _ _ _ _ := Guar.rely

/-- What the holder of the lock knows of what the lock protects. -/
structure View where
  journal : Option ControlJournalV1
  name : Option FileIdentity
  born : List Nat

structure Holds (t : T) (v : View) (w : ControlWorld T) : Prop where
  lock : w.lock = some t
  journal : w.journal = v.journal
  name : w.name = v.name
  born : w.born = v.born

theorem Holds.rely {v : View} (h : Holds t v w) (rely : Rely t w w') : Holds t v w' where
  lock := rely.lock.2 h.lock
  journal := (rely.held h.lock).journal.trans h.journal
  name := (rely.held h.lock).name.trans h.name
  born := (rely.held h.lock).born.trans h.born

/-- The lock is held, and in orderly runs the journal is at rest: a way out of every
transaction. -/
def Leaves (ρ : Regime) (t : T) (w : ControlWorld T) : Prop :=
  w.lock = some t ∧ (ρ.orderly → Settled w.journal w.born)

theorem Holds.leaves {ρ : Regime} {v : View} (h : Holds t v w)
    (rest : ρ.orderly → Settled v.journal v.born) : Leaves ρ t w := by
  refine ⟨h.lock, fun orderly => ?_⟩
  rw [h.journal, h.born]
  exact rest orderly

end ControlSystem
end EdgeRuntime

import EdgeRuntime.Sync.OwnerReads

/-!
One owner record and its clients. A client claims the record by a swap of the state word,
makes the epoch odd, stores its identity, makes the epoch even again and shows the owned
state; it may also give the record back without a commit. The world remembers which tuple
was meant to be committed at which epoch, and every view of the record since a call began.
-/
namespace EdgeRuntime
open Concurrent

inductive RecordLoc
  | state
  | epoch
  | owner (word : OwnerWord)
  deriving DecidableEq, Repr

/-- What one claim of the record does: the states it goes through, the tuple it commits,
the epochs it asks for, and whether it commits at all. -/
structure OwnerSession where
  inactive : Nat
  claiming : Nat
  owned : Nat
  released : Nat
  /-- The state after a commit that was refused. -/
  refused : OwnerCommitResult → Nat
  owner : OwnerAbi
  reserve : Nat
  commits : Bool

def ownerSession (x : OwnerSession) : Code RecordLoc Error (Option OwnerSnapshot) := do
  let claimed ← sharedCas .state x.inactive x.claiming
  if ¬ claimed then
    return none
  else if ¬ x.commits then
    sharedStore .state x.released
    return none
  else
    let (ownerCommit, committedEpoch) ← beginOwnerCommit .epoch x.reserve
    if ownerCommit ≠ .ready then
      sharedStore .state (x.refused ownerCommit)
      return none
    else
      storeOwnerSeqCst .owner x.owner
      sharedStore .epoch committedEpoch
      sharedStore .state x.owned
      sharedStore .state x.released
      return none

inductive RecordCall
  | session (x : OwnerSession)
  | snapshot

/-- The words of the record, and the tuples that were to be committed at its epochs. -/
structure RecordView where
  words : Words RecordLoc
  committed : Nat → Option OwnerAbi

/-- A finished snapshot with the views of the record during its call. -/
structure RecordReport where
  snapshot : OwnerSnapshot
  instants : List RecordView

structure RecordWorld (T : Type) where
  now : RecordView
  /-- The tuple that the claim in flight is to commit. -/
  intent : T → Option OwnerAbi
  /-- Every view of the record since the client's call began. -/
  instants : T → List RecordView
  reports : List RecordReport

def RecordCall.intent : RecordCall → Option OwnerAbi
  | .session x => some x.owner
  | .snapshot => none

/-- A store to the record; an even epoch is a commit. -/
def RecordView.put (m : RecordView) (intent : Option OwnerAbi) (l : RecordLoc) (v : Nat) :
    RecordView where
  words := m.words.set l v
  committed := if l = .epoch ∧ v % 2 = 0 then Function.update m.committed v intent
    else m.committed

@[simp] theorem RecordView.put_words (m : RecordView) (intent : Option OwnerAbi)
    (l : RecordLoc) (v : Nat) : (m.put intent l v).words = m.words.set l v := rfl

/-- How the state word of a record is read, and what an owner must look like. -/
structure OwnerRoles where
  classify : Nat → OwnerStateKind
  valid : OwnerAbi → Bool

/-- The claim goes through states of the right kinds and commits a valid tuple. -/
@[mk_iff]
structure OwnerRoles.Allows (roles : OwnerRoles) (x : OwnerSession) : Prop where
  inactive : roles.classify x.inactive = .inactive
  claiming : roles.classify x.claiming = .claiming
  owned : roles.classify x.owned = .owned
  released : roles.classify x.released = .inactive
  refused : roles.classify (x.refused .epochExhausted) = .inactive ∨
    roles.classify (x.refused .epochExhausted) = .epochExhausted
  valid : roles.valid x.owner = true
  reserve : 2 ≤ x.reserve

namespace OwnerRoles
variable {T : Type} [DecidableEq T] (roles : OwnerRoles)

def record : OwnerRecord RecordLoc := ⟨.state, .epoch, .owner, roles.classify, roles.valid⟩

def write (t : T) (l : RecordLoc) (v : Nat) (w : RecordWorld T) : RecordWorld T :=
  let m := w.now.put (w.intent t) l v
  { w with now := m, instants := fun u => w.instants u ++ [m] }

def memory : Memory T RecordLoc (RecordWorld T) where
  read w := w.now.words
  write := write
  fill _ _ _ w := w
  answers _ _ _ _ := True
  lock _ _ := none
  unlock _ w := w
  futex _ := .fresh
  setFutex _ w := w

def machine : Machine T (Instr RecordLoc) Reply Error (Option OwnerSnapshot) RecordCall
    (RecordWorld T) where
  exec := memory.exec
  code _ a _ := match a with
    | .session x => ownerSession x
    | .snapshot => do
        let snapshot ← snapshotOwnerSeqCst .state .epoch .owner roles.classify roles.valid
        return some snapshot
  allowed _ a _ := match a with
    | .session x => roles.Allows x
    | .snapshot => True
  enter t a w :=
    { w with
      intent := Function.update w.intent t a.intent
      instants := Function.update w.instants t [w.now] }
  leave t _ x w := match x with
    | .ok (some snapshot) => { w with reports := w.reports ++ [⟨snapshot, w.instants t⟩] }
    | _ => w
  crash _ w := w

instance (t : T) (a : RecordCall) (w : RecordWorld T) :
    Decidable (roles.machine.allowed t a w) :=
  match a with
  | .session x => decidable_of_iff _ (allows_iff roles x).symm
  | .snapshot => .isTrue trivial

/-- A record that nobody has claimed. -/
def init (words : Words RecordLoc) : RecordWorld T where
  now := ⟨words, fun _ => none⟩
  intent _ := none
  instants _ := [⟨words, fun _ => none⟩]
  reports := []

/-- What the words of the record mean at every instant. -/
structure Lawful (m : RecordView) : Prop where
  even : roles.classify (m.words .state) ≠ .claiming → m.words .epoch % 2 = 0
  bounded : m.words .epoch ≤ maxCommittedOwnerEpoch
  committed : roles.classify (m.words .state) = .owned → ∃ o,
    m.committed (m.words .epoch) = some o ∧ (∀ w, m.words (.owner w) = o.word w) ∧
      roles.valid o = true

/-- The record is in the hands of a client. -/
def Claimed (m : RecordView) : Prop :=
  roles.classify (m.words .state) = .claiming ∨ roles.classify (m.words .state) = .owned

/-- The record may be claimed, or has run out of epochs. -/
def Unclaimed (m : RecordView) : Prop :=
  roles.classify (m.words .state) = .inactive ∨
    roles.classify (m.words .state) = .epochExhausted

/-- A report that is true of one instant of its call. -/
structure Linearized (report : RecordReport) : Prop where
  stable : report.snapshot.kind = .stable → ∃ m ∈ report.instants,
    m.words .state = report.snapshot.state ∧
    roles.classify report.snapshot.state = .owned ∧
    m.words .epoch = report.snapshot.epoch ∧
    m.committed report.snapshot.epoch = some report.snapshot.owner
  inactive : report.snapshot.kind = .inactive → ∃ m ∈ report.instants,
    m.words .state = report.snapshot.state ∧
    roles.classify report.snapshot.state = .inactive ∧
    m.words .epoch = report.snapshot.epoch ∧ report.snapshot.epoch % 2 = 0
  sound : report.snapshot.kind ≠ .corrupt

end OwnerRoles

/-- The world and the client that has claimed the record. -/
structure RecordState (T : Type) where
  world : RecordWorld T
  holder : Option T

/-- The epoch only grows, and while it stands at an even value the owner stays. -/
structure RecordView.Onward (m m' : RecordView) : Prop where
  mono : m.words .epoch ≤ m'.words .epoch
  kept : m'.words .epoch = m.words .epoch → m.words .epoch % 2 = 0 →
    ∀ w, m'.words (.owner w) = m.words (.owner w)

theorem RecordView.Onward.refl (m : RecordView) : m.Onward m :=
  ⟨Nat.le_refl _, fun _ _ _ => rfl⟩

theorem RecordView.Onward.trans {m m' m'' : RecordView} (h : m.Onward m')
    (h' : m'.Onward m'') : m.Onward m'' where
  mono := Nat.le_trans h.mono h'.mono
  kept same even := by
    have here : m'.words .epoch = m.words .epoch := by
      have := h.mono
      have := h'.mono
      omega
    intro w
    exact (h'.kept (same.trans here.symm) (here ▸ even) w).trans (h.kept here even w)

namespace OwnerRoles
variable {T : Type} [DecidableEq T] (roles : OwnerRoles)

structure Inv (s : RecordState T) : Prop where
  lawful : roles.Lawful s.world.now
  claimed : ∀ t, s.holder = some t → roles.Claimed s.world.now
  unclaimed : s.holder = none → roles.Unclaimed s.world.now
  current : ∀ t, s.world.now ∈ s.world.instants t
  reports : ∀ report ∈ s.world.reports, roles.Linearized report

/-- What client `t` may count on while others run. -/
structure Rely (t : T) (s s' : RecordState T) : Prop where
  onward : s.world.now.Onward s'.world.now
  holder : s'.holder = some t ↔ s.holder = some t
  mine : s.holder = some t → s'.world.now = s.world.now
  intent : s'.world.intent t = s.world.intent t
  instants : s.world.instants t ⊆ s'.world.instants t

def logic : Logic T (Instr RecordLoc) Reply (RecordWorld T) (RecordState T) where
  exec := memory.exec
  world := RecordState.world
  inv := roles.Inv
  rely := Rely
  guar t s s' := ∀ u, u ≠ t → Rely u s s'
  rely_refl _ _ := ⟨.refl _, Iff.rfl, fun _ => rfl, rfl, List.Subset.refl _⟩
  rely_trans _ _ _ _ h h' :=
    ⟨h.onward.trans h'.onward, h'.holder.trans h.holder,
      fun mine => (h'.mine (h.holder.2 mine)).trans (h.mine mine), h'.intent.trans h.intent,
      List.Subset.trans h.instants h'.instants⟩
  guar_refl _ _ _ _ := ⟨.refl _, Iff.rfl, fun _ => rfl, rfl, List.Subset.refl _⟩
  guar_rely _ _ _ _ ne h := h _ ne.symm

end OwnerRoles
end EdgeRuntime

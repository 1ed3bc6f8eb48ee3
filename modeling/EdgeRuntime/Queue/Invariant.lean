import EdgeRuntime.Sync.AccessRules
import EdgeRuntime.Queue.World

/-!
The invariant of a queue and what its clients guarantee each other. Proof states
add to the world who holds which gate and whether the holder works on its slot:
fills a free one, or takes the oldest message.

Ownership follows the gates: the holder of a gate owns the gate's words and its
position, and the one slot that position points to while the queue has room for
a push, or a message for a pop. The two slots never coincide.

As long as nothing is out of epochs, a gate and a slot are lost only with their
holder: `Healthy` says so, and that every call that found recovery blocked had met
such a gate.
-/
namespace EdgeRuntime
open Concurrent

/-- The gate whose holder alone writes the word. -/
def QueueLoc.gate? : QueueLoc → Option Bool
  | .enqueuePosition => some true
  | .dequeuePosition => some false
  | .gateState g | .gateEpoch g | .gateOwner g _ => some g
  | _ => none

/-- The slot a word belongs to. -/
def QueueLoc.slot? : QueueLoc → Option Nat
  | .slotSequence i | .slotState i | .slotOwner i _ | .slotTicket i | .slotEpoch i
  | .slotPayload i _ => some i
  | _ => none

def QueueLoc.isPayload : QueueLoc → Bool
  | .slotPayload _ _ => true
  | _ => false

structure QueueState (T : Type) where
  world : QueueWorld T
  holder : Bool → Option T
  working : Bool → Bool

namespace QueueState
variable {T : Type}

def mem (s : QueueState T) : QueueMem := s.world.mem
def enq (s : QueueState T) : Nat := s.mem .enqueuePosition
def deq (s : QueueState T) : Nat := s.mem .dequeuePosition

end QueueState

/-- A finished call made exactly the position store its result promises. -/
def QueueReturn.Exact (r : QueueReturn) : Prop :=
  (r.enqueueStores, r.dequeueStores) =
    match r.result, r.call with
    | .ok _, .push _ => (1, 0)
    | .ok _, .pop _ => (0, 1)
    | .error _, _ => (0, 0)

/-- The call found recovery blocked. -/
def QueueReturn.FoundBlocked (r : QueueReturn) : Prop :=
  ∃ e, r.result = .error e ∧ e.code = .recoveryBlocked

namespace QueueSystem
variable {T : Type} (q : QueueSystem T)

/-- The ring index of a position. -/
def ring (p : Nat) : Nat := p % q.handle.capacity

theorem fresh : FreshQueue q.handle q.initial := (mpmcCreateImpl_ok q.created).2.2

theorem payloadSize_eq : q.handle.payloadSize = q.payloadSize :=
  (mpmcCreateImpl_ok q.created).2.1

theorem handleOf_capacity (t : T) : (q.handleOf t).capacity = q.handle.capacity := rfl

/-- The slot offset of a ring index never overflows. -/
theorem slotAt_handleOf (t : T) (p : Nat) : slotAt (q.handleOf t) p = some (q.ring p) := by
  have hlt : q.ring p < q.handle.capacity := Nat.mod_lt p q.fresh.capacity_pos
  obtain ⟨offset, ho⟩ := Option.isSome_iff_exists.1 (q.fresh.slots.offset _ hlt)
  change (mpmcSlotOffset (q.ring p) q.handle.capacity q.handle.slotStride).map _ = _
  rw [ho]
  rfl

/-- Positions less than one round apart use different slots. -/
theorem ring_ne {p p' : Nat} (h : p < p') (h' : p' < p + q.handle.capacity) :
    q.ring p ≠ q.ring p' := by
  intro he
  have hd := Nat.dvd_of_mod_eq_zero (Nat.sub_mod_eq_zero_of_mod_eq he.symm)
  have := Nat.le_of_dvd (by omega) hd
  omega

/-- The slot of position `p` holds a message that a pop can claim. -/
structure Published (m : QueueMem) (p : Nat) : Prop where
  sequence : m (.slotSequence (q.ring p)) = p + 1
  state : m (.slotState (q.ring p)) = MpmcSlotState.ready.code
  even : m (.slotEpoch (q.ring p)) % 2 = 0
  reserve : m (.slotEpoch (q.ring p)) + 2 ≤ maxCommittedOwnerEpoch

/-- The slot of position `p` is free for a push. -/
structure Vacant (m : QueueMem) (p : Nat) : Prop where
  sequence : m (.slotSequence (q.ring p)) = p
  state : m (.slotState (q.ring p)) = MpmcSlotState.free.code
  even : m (.slotEpoch (q.ring p)) % 2 = 0
  bounded : m (.slotEpoch (q.ring p)) ≤ maxCommittedOwnerEpoch

/-- The clients are processes of one boot with valid identities, and a probe calls a
process stopped only when all its clients have stopped. -/
structure Sound : Prop where
  valid : ∀ t, ownerValid (ownerFromProcess (q.self t)) = true
  boot : ∀ t u, (q.self t).bootIdHashHi = (q.self u).bootIdHashHi ∧
    (q.self t).bootIdHashLo = (q.self u).bootIdHashLo
  probe : ∀ w pid ticks l, q.answers w pid ticks l → l ≠ .alive → ∀ u,
    (q.self u).pid = pid → (q.self u).procStartTicks = ticks → w.crashed u = true

/-- Every client of the process has stopped. -/
def Stopped (u : T) (w : QueueWorld T) : Prop :=
  ∀ u', (q.self u').pid = (q.self u).pid →
    (q.self u').procStartTicks = (q.self u).procStartTicks → w.crashed u' = true

/-- A process that stopped while its gate was OWNED. -/
def Blocked (s : QueueState T) : Prop :=
  ∃ g u, s.holder g = some u ∧ q.Stopped u s.world ∧
    s.mem (.gateState g) = MpmcLockState.owned.code

/-- A gate is lost, unless something is out of epochs. -/
def Lost (s : QueueState T) : Prop := q.Sound → s.world.exhausted = false → q.Blocked s

/-- An error that reports blocked recovery has its reason in the state. -/
def Explained (e : Error) (s : QueueState T) : Prop := e.code = .recoveryBlocked → q.Lost s

/-- What holds while nothing is out of epochs. -/
structure Healthy (s : QueueState T) : Prop where
  vacant : ∀ p, s.enq ≤ p → p < s.deq + q.handle.capacity →
    (s.working true = true ∧ p = s.enq) ∨ q.Vacant s.mem p
  known : ∀ g, s.mem (.gateState g) = MpmcLockState.free.code ∨
    s.mem (.gateState g) = MpmcLockState.claiming.code ∨
    s.mem (.gateState g) = MpmcLockState.owned.code
  even : ∀ g, s.mem (.gateState g) ≠ MpmcLockState.claiming.code →
    s.mem (.gateEpoch g) % 2 = 0
  bounded : ∀ g, s.mem (.gateEpoch g) ≤ maxCommittedOwnerEpoch
  owned : ∀ g, s.mem (.gateState g) = MpmcLockState.owned.code →
    ∃ u, s.holder g = some u ∧
      ∀ w, s.mem (.gateOwner g w) = (ownerFromProcess (q.self u)).word w
  verdicts : ∀ r ∈ s.world.finished, r.FoundBlocked → q.Blocked s

structure Inv (s : QueueState T) : Prop where
  ready : s.mem .initState = MpmcInitState.ready.code
  order : s.deq ≤ s.enq
  room : s.enq ≤ s.deq + q.handle.capacity
  drainable : 2 * s.enq ≤ maxCommittedOwnerEpoch
  pushed : s.world.pushed.length = s.enq
  popped : s.world.popped = s.world.pushed.take s.deq
  payloads : ∀ p, s.deq ≤ p → p < s.enq → s.world.pushed[p]? =
    some ((List.range q.payloadSize).map fun j => s.mem (.slotPayload (q.ring p) j))
  published : ∀ p, s.deq ≤ p → p < s.enq →
    (s.working false = true ∧ p = s.deq) ∨ q.Published s.mem p
  freeGate : ∀ g, s.mem (.gateState g) = MpmcLockState.free.code → s.holder g = none
  /-- The dequeue gate is never lost: unheld, it is free and has spent two epochs
  for each message popped. -/
  drainGate : s.holder false = none → s.mem (.gateState false) = MpmcLockState.free.code ∧
    s.mem (.gateEpoch false) = 2 * s.deq ∧ s.working false = false
  fillGate : s.holder true = none → s.working true = false
  lasting : s.mem (.gateState false) ≠ MpmcLockState.epochExhausted.code
  counts : s.world.wrapped = false
  finished : ∀ r ∈ s.world.finished, r.Exact
  healthy : q.Sound → s.world.exhausted = false → q.Healthy s

/-- The slot that the holder of gate `g` may work on. -/
def SlotOpen (g : Bool) (i : Nat) (s : QueueState T) : Prop :=
  match g with
  | true => i = q.ring s.enq ∧ s.enq < s.deq + q.handle.capacity
  | false => i = q.ring s.deq ∧ s.deq < s.enq

inductive Owns (t : T) (s : QueueState T) : QueueLoc → Prop
  | gate {g l} (holder : s.holder g = some t) (word : l.gate? = some g) : Owns t s l
  | slot {g l i} (holder : s.holder g = some t) (opened : q.SlotOpen g i s)
      (word : l.slot? = some i) : Owns t s l

end QueueSystem

/-- What every step of every client keeps: counters grow, owner words change only at an
odd epoch, the dead stay dead and what they held stays as it was. -/
structure Onward {T : Type} (s s' : QueueState T) : Prop where
  enq : s.enq ≤ s'.enq
  deq : s.deq ≤ s'.deq
  epoch : ∀ g, s.mem (.gateEpoch g) ≤ s'.mem (.gateEpoch g)
  owner : ∀ g, s'.mem (.gateEpoch g) = s.mem (.gateEpoch g) →
    s.mem (.gateEpoch g) % 2 = 0 → ∀ w, s'.mem (.gateOwner g w) = s.mem (.gateOwner g w)
  dies : ∀ u, s.world.crashed u = true → s'.world.crashed u = true
  dead : ∀ g u, s.holder g = some u → s.world.crashed u = true →
    s'.holder g = some u ∧ ∀ l, l.gate? = some g → s'.mem l = s.mem l
  exhausted : s.world.exhausted = true → s'.world.exhausted = true

namespace Onward
variable {T : Type} {s s' s'' : QueueState T}

theorem refl (s : QueueState T) : Onward s s where
  enq := Nat.le_refl _
  deq := Nat.le_refl _
  epoch _ := Nat.le_refl _
  owner _ _ _ _ := rfl
  dies _ hu := hu
  dead _ _ hold _ := ⟨hold, fun _ _ => rfl⟩
  exhausted he := he

theorem trans (h : Onward s s') (h' : Onward s' s'') : Onward s s'' where
  enq := Nat.le_trans h.enq h'.enq
  deq := Nat.le_trans h.deq h'.deq
  epoch g := Nat.le_trans (h.epoch g) (h'.epoch g)
  owner g same even w := by
    -- the epoch stood still in both halves
    have first := h.epoch g
    have second := h'.epoch g
    have middle : s'.mem (.gateEpoch g) = s.mem (.gateEpoch g) := by omega
    rw [h'.owner g (by omega) (by omega) w, h.owner g middle even w]
  dies u hu := h'.dies u (h.dies u hu)
  dead g u hold hu := by
    obtain ⟨hold', words⟩ := h.dead g u hold hu
    obtain ⟨hold'', words'⟩ := h'.dead g u hold' (h.dies u hu)
    exact ⟨hold'', fun l hl => (words' l hl).trans (words l hl)⟩
  exhausted he := h'.exhausted (h.exhausted he)

theorem fresh (h : Onward s s') (he : s'.world.exhausted = false) :
    s.world.exhausted = false := by
  cases hs : s.world.exhausted with
  | false => rfl
  | true => exact (h.exhausted hs).symm.trans he

/-- A lost gate stays lost. -/
theorem blocked {q : QueueSystem T} (h : Onward s s') (hb : q.Blocked s) :
    q.Blocked s' := by
  obtain ⟨g, u, hold, stopped, state⟩ := hb
  obtain ⟨hold', words⟩ := h.dead g u hold (stopped u rfl rfl)
  exact ⟨g, u, hold', fun u' pid ticks => h.dies u' (stopped u' pid ticks),
    (words _ rfl).trans state⟩

theorem lost {q : QueueSystem T} (h : Onward s s') (hl : q.Lost s) : q.Lost s' :=
  fun sound fresh => h.blocked (hl sound (h.fresh fresh))

theorem explained {q : QueueSystem T} {e : Error} (h : Onward s s')
    (he : q.Explained e s) : q.Explained e s' := fun code => h.lost (he code)

end Onward

namespace QueueSystem
variable {T : Type} (q : QueueSystem T)

structure Rely (t : T) (s s' : QueueState T) : Prop where
  client : s'.world.client t = s.world.client t
  alive : s'.world.crashed t = s.world.crashed t
  holder : ∀ g, s'.holder g = some t ↔ s.holder g = some t
  working : ∀ g, s.holder g = some t → s'.working g = s.working g
  words : ∀ l, q.Owns t s l → s'.mem l = s.mem l
  onward : Onward s s'

variable {q} {t u : T} {s s' : QueueState T}

theorem Rely.enq (h : q.Rely t s s') : s.enq ≤ s'.enq := h.onward.enq

theorem Rely.deq (h : q.Rely t s s') : s.deq ≤ s'.deq := h.onward.deq

theorem slotOpen_rely {g : Bool} {i : Nat} (h : q.SlotOpen g i s)
    (hh : s.holder g = some t) (hr : q.Rely t s s') : q.SlotOpen g i s' := by
  cases g with
  | true =>
      have he : s'.enq = s.enq := hr.words _ (.gate hh rfl)
      have hd := hr.deq
      exact ⟨he ▸ h.1, by have := h.2; omega⟩
  | false =>
      have hd : s'.deq = s.deq := hr.words _ (.gate hh rfl)
      have he := hr.enq
      exact ⟨hd ▸ h.1, by have := h.2; omega⟩

theorem owns_rely {l : QueueLoc} (h : q.Owns t s l) (hr : q.Rely t s s') :
    q.Owns t s' l := by
  cases h with
  | gate holder word => exact .gate ((hr.holder _).2 holder) word
  | slot holder opened word =>
      exact .slot ((hr.holder _).2 holder) (slotOpen_rely opened holder hr) word

theorem rely_refl (t : T) (s : QueueState T) : q.Rely t s s where
  client := rfl
  alive := rfl
  holder _ := Iff.rfl
  working _ _ := rfl
  words _ _ := rfl
  onward := .refl s

theorem rely_trans {s'' : QueueState T} (h : q.Rely t s s') (h' : q.Rely t s' s'') :
    q.Rely t s s'' where
  client := h'.client.trans h.client
  alive := h'.alive.trans h.alive
  holder g := (h'.holder g).trans (h.holder g)
  working g hh := (h'.working g ((h.holder _).2 hh)).trans (h.working g hh)
  words l hl := (h'.words l (owns_rely hl h)).trans (h.words l hl)
  onward := h.onward.trans h'.onward

/-- No word has two owners. -/
theorem owns_unique {l : QueueLoc} (h : q.Owns t s l) (h' : q.Owns u s l) : t = u := by
  have gate_slot : ∀ {g i}, l.gate? = some g → l.slot? = some i → False := by
    intro g i hg hi
    cases l <;> simp [QueueLoc.gate?, QueueLoc.slot?] at hg hi
  cases h with
  | @gate g _ holder word =>
      cases h' with
      | @gate g' _ holder' word' =>
          cases word.symm.trans word'
          exact Option.some.inj (holder.symm.trans holder')
      | slot holder' opened' word' => exact (gate_slot word word').elim
  | @slot g _ i holder opened word =>
      cases h' with
      | gate holder' word' => exact (gate_slot word' word).elim
      | @slot g' _ i' holder' opened' word' =>
          cases word.symm.trans word'
          cases g <;> cases g'
          · exact Option.some.inj (holder.symm.trans holder')
          · exact (q.ring_ne opened.2 opened'.2 (opened.1.symm.trans opened'.1)).elim
          · exact (q.ring_ne opened'.2 opened.2 (opened'.1.symm.trans opened.1)).elim
          · exact Option.some.inj (holder.symm.trans holder')

variable [DecidableEq T] (q)

/-- The rely-guarantee logic of a queue. -/
def logic : Logic T (Instr QueueLoc) Reply (QueueWorld T) (QueueState T) where
  exec := q.memory.exec
  world := QueueState.world
  inv := q.Inv
  rely := q.Rely
  guar t s s' := ∀ u, u ≠ t → q.Rely u s s'
  rely_refl := rely_refl
  rely_trans _ _ _ _ := rely_trans
  guar_refl _ s _ _ := rely_refl _ s
  guar_rely _ u _ _ hne h := h u hne.symm

end QueueSystem
end EdgeRuntime

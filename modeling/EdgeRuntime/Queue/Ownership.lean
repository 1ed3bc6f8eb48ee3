import EdgeRuntime.Queue.Invariant

/-!
Working under a gate. `Owner` is the view a thread has while it holds one: the
exact values of all the words it owns. It survives interference as a whole, so a
proof about gated code only has to follow its own stores.
-/
namespace EdgeRuntime
open Concurrent

/-- How far the holder of a gate has come: whether it works on its slot, a position the
enqueue position is known to have reached, and what it knows unless something is out of
epochs. -/
structure Phase where
  working : Bool
  floor : Nat
  clear : Prop

namespace QueueSystem
variable {T : Type} {q : QueueSystem T} {t u : T} {s s' : QueueState T} {g : Bool} {k : Phase}
  {slot : Option Nat} {c : QueueClient} {f : QueueMem} {l : QueueLoc} {v : Nat}

/-- A counter that is stored upwards never decreases. -/
theorem set_counter_le (counts : l.isCounter = true → s.mem l ≤ v) {l' : QueueLoc}
    (h : l'.isCounter = true) : s.mem l' ≤ s.mem.set l v l' := by
  rw [Words.set_apply]
  split
  · rename_i he
    exact he ▸ counts (he ▸ h)
  · exact Nat.le_refl _

/-- Only the holders and what they do change, and no gate of the dead. -/
theorem onward_ghost {holder : Bool → Option T} {working : Bool → Bool}
    (dead : ∀ g u, s.holder g = some u → s.world.crashed u = true → holder g = some u) :
    Onward s { s with holder := holder, working := working } where
  enq := Nat.le_refl _
  deq := Nat.le_refl _
  epoch _ := Nat.le_refl _
  owner _ _ _ _ := rfl
  dies _ hu := hu
  dead g u hold hu := ⟨dead g u hold hu, fun _ _ => rfl⟩
  exhausted he := he

theorem rely_ghost {holder : Bool → Option T} {working : Bool → Bool}
    (hh : ∀ g, holder g = some u ↔ s.holder g = some u)
    (hw : ∀ g, s.holder g = some u → working g = s.working g)
    (dead : ∀ g u, s.holder g = some u → s.world.crashed u = true → holder g = some u) :
    q.Rely u s { s with holder := holder, working := working } where
  client := rfl
  alive := rfl
  holder := hh
  working := hw
  words _ _ := rfl
  onward := onward_ghost dead

theorem onward_world {w : QueueWorld T} (mem : w.mem = s.world.mem)
    (dies : ∀ u, s.world.crashed u = true → w.crashed u = true)
    (exhausted : w.exhausted = s.world.exhausted) : Onward s { s with world := w } := by
  have same : ({ s with world := w } : QueueState T).mem = s.mem := mem
  refine ⟨?_, ?_, ?_, ?_, dies, ?_, fun he => exhausted.trans he⟩
  · exact Nat.le_of_eq (by unfold QueueState.enq; rw [same])
  · exact Nat.le_of_eq (by unfold QueueState.deq; rw [same])
  · exact fun g => Nat.le_of_eq (by rw [same])
  · exact fun g _ _ w => by rw [same]
  · exact fun g u hold _ => ⟨hold, fun l _ => by rw [same]⟩

/-- Events outside shared memory only touch a client's own records. -/
theorem inv_world {w : QueueWorld T} (hi : q.Inv s) (mem : w.mem = s.world.mem)
    (pushed : w.pushed = s.world.pushed) (popped : w.popped = s.world.popped)
    (wrapped : w.wrapped = s.world.wrapped) (exhausted : w.exhausted = s.world.exhausted)
    (dies : ∀ u, s.world.crashed u = true → w.crashed u = true)
    (finished : ∀ r ∈ w.finished, r ∈ s.world.finished ∨
      r.Exact ∧ ∀ e, r.result = .error e → q.Explained e s) :
    q.Inv { s with world := w } := by
  have onward := onward_world (s := s) mem dies exhausted
  obtain ⟨mem', client', pushed', popped', finished', wrapped', exhausted', crashed'⟩ := w
  cases mem
  cases pushed
  cases popped
  cases wrapped
  cases exhausted
  refine ⟨hi.ready, hi.order, hi.room, hi.drainable, hi.pushed, hi.popped, hi.payloads,
    hi.published, hi.freeGate, hi.drainGate, hi.fillGate, hi.lasting, hi.counts, ?_, ?_⟩
  · intro r hr
    rcases finished r hr with old | new
    · exact hi.finished r old
    · exact new.1
  · intro sound fresh
    have healthy := hi.healthy sound fresh
    refine ⟨healthy.vacant, healthy.known, healthy.even, healthy.bounded, healthy.owned, ?_⟩
    intro r hr found
    apply onward.blocked
    rcases finished r hr with old | new
    · exact healthy.verdicts r old found
    · obtain ⟨e, he, code⟩ := found
      exact new.2 e he code sound fresh

theorem rely_world {w : QueueWorld T} {u : T} (mem : w.mem = s.world.mem)
    (client : w.client u = s.world.client u) (alive : w.crashed u = s.world.crashed u)
    (dies : ∀ u, s.world.crashed u = true → w.crashed u = true)
    (exhausted : w.exhausted = s.world.exhausted) :
    q.Rely u s { s with world := w } where
  client := client
  alive := alive
  holder _ := Iff.rfl
  working _ _ := rfl
  words l _ := congrFun mem l
  onward := onward_world mem dies exhausted

/-- The words a thread owns through gate `g`, with the slot it has opened. -/
def Mine (g : Bool) (slot : Option Nat) (l : QueueLoc) : Prop :=
  l.gate? = some g ∨ ∃ i, slot = some i ∧ l.slot? = some i

variable (q) in
structure Owner (g : Bool) (t : T) (slot : Option Nat) (c : QueueClient) (k : Phase)
    (f : QueueMem) (s : QueueState T) : Prop where
  holder : s.holder g = some t
  single : s.holder (!g) ≠ some t
  opened : ∀ i, slot = some i → q.SlotOpen g i s
  words : ∀ l, Mine g slot l → s.mem l = f l
  client : s.world.client t = c
  alive : s.world.crashed t = false
  working : s.working g = k.working
  floor : k.floor ≤ s.enq
  clear : q.Sound → s.world.exhausted = false → k.clear

theorem Owner.owns (h : q.Owner g t slot c k f s) (hl : Mine g slot l) :
    q.Owns t s l := by
  rcases hl with hl | ⟨i, hi, hl⟩
  · exact .gate h.holder hl
  · exact .slot h.holder (h.opened i hi) hl

theorem Owner.enq (h : q.Owner true t slot c k f s) : s.enq = f .enqueuePosition :=
  h.words _ (.inl rfl)

theorem Owner.deq (h : q.Owner false t slot c k f s) : s.deq = f .dequeuePosition :=
  h.words _ (.inl rfl)

theorem Owner.congr {f' : QueueMem} (h : q.Owner g t slot c k f s)
    (hf : ∀ l, Mine g slot l → f' l = f l) : q.Owner g t slot c k f' s where
  holder := h.holder
  single := h.single
  opened := h.opened
  words l hl := (h.words l hl).trans (hf l hl).symm
  client := h.client
  alive := h.alive
  working := h.working
  floor := h.floor
  clear := h.clear

theorem Owner.raise {n : Nat} (h : q.Owner g t slot c k f s) (hn : n ≤ s.enq) :
    q.Owner g t slot c { k with floor := n } f s where
  holder := h.holder
  single := h.single
  opened := h.opened
  words := h.words
  client := h.client
  alive := h.alive
  working := h.working
  floor := hn
  clear := h.clear

/-- Remember what a healthy queue shows now. -/
theorem Owner.learn {p : Prop} (h : q.Owner g t slot c k f s)
    (hp : q.Sound → s.world.exhausted = false → p) :
    q.Owner g t slot c { k with clear := p } f s where
  holder := h.holder
  single := h.single
  opened := h.opened
  words := h.words
  client := h.client
  alive := h.alive
  working := h.working
  floor := h.floor
  clear := hp

/-- What contradicts the holder's knowledge means that a gate is lost. -/
theorem Owner.lost (h : q.Owner g t slot c k f s) (broken : ¬ k.clear) : q.Lost s :=
  fun sound fresh => (broken (h.clear sound fresh)).elim

/-- Take the opened slot into the view, with the values it has now. -/
theorem Owner.openSlot {i : Nat} (h : q.Owner g t none c k f s)
    (opened : q.SlotOpen g i s) : q.Owner g t (some i) c k s.mem s where
  holder := h.holder
  single := h.single
  opened _ hi := by cases hi; exact opened
  words _ _ := rfl
  client := h.client
  alive := h.alive
  working := h.working
  floor := h.floor
  clear := h.clear

/-- Forget the slot. -/
theorem Owner.closeSlot (h : q.Owner g t slot c k f s) : q.Owner g t none c k f s where
  holder := h.holder
  single := h.single
  opened _ hi := by cases hi
  words l hl := by
    rcases hl with hl | ⟨i, hi, _⟩
    · exact h.words l (.inl hl)
    · cases hi
  client := h.client
  alive := h.alive
  working := h.working
  floor := h.floor
  clear := h.clear

/-- Stores a gate holder may make at any time: not to the positions, not to the
gate's own state, and as a consumer only to the slot it is taking. -/
structure Quiet (g : Bool) (k : Phase) (l : QueueLoc) : Prop where
  enq : l ≠ .enqueuePosition
  deq : l ≠ .dequeuePosition
  gate : l ≠ .gateState g
  slot : l.slot?.isSome = true → g = true ∨ k.working = true ∧ l.isPayload = false

theorem quiet_gateEpoch : Quiet g k (.gateEpoch g) := by
  constructor <;> simp [QueueLoc.slot?]

theorem quiet_gateOwner (w : OwnerWord) : Quiet g k (.gateOwner g w) := by
  constructor <;> simp [QueueLoc.slot?]

theorem quiet_slot {i : Nat} (hl : l.slot? = some i)
    (hg : g = true ∨ k.working = true ∧ l.isPayload = false) : Quiet g k l := by
  refine ⟨?_, ?_, ?_, fun _ => hg⟩
  all_goals
    rintro rfl
    cases hl

theorem published_congr {m m' : QueueMem} {p : Nat}
    (h : ∀ l, l.slot? = some (q.ring p) → m' l = m l) (hp : q.Published m p) :
    q.Published m' p where
  sequence := (h _ rfl).trans hp.sequence
  state := (h _ rfl).trans hp.state
  even := by rw [h _ rfl]; exact hp.even
  reserve := by rw [h _ rfl]; exact hp.reserve

theorem vacant_congr {m m' : QueueMem} {p : Nat}
    (h : ∀ l, l.slot? = some (q.ring p) → m' l = m l) (hp : q.Vacant m p) :
    q.Vacant m' p where
  sequence := (h _ rfl).trans hp.sequence
  state := (h _ rfl).trans hp.state
  even := by rw [h _ rfl]; exact hp.even
  bounded := by rw [h _ rfl]; exact hp.bounded

/-- The slot a quiet store touches holds no message anyone may still read: it is
the free slot of a push, or the one its consumer is taking. -/
theorem slot_of_quiet (h : q.Owner g t slot c k f s) (hi : q.Inv s)
    (mine : Mine g slot l) (quiet : Quiet g k l) {p : Nat} (hp : s.deq ≤ p)
    (hp' : p < s.enq) (hl : l.slot? = some (q.ring p)) :
    s.working false = true ∧ p = s.deq ∧ l.isPayload = false := by
  rcases mine with mine | ⟨i, rfl, mine⟩
  · cases l <;> simp [QueueLoc.slot?, QueueLoc.gate?] at hl mine
  · cases hl.symm.trans mine
    have opened := h.opened _ rfl
    rcases quiet.slot (by rw [hl]; rfl) with rfl | ⟨hk, hpay⟩
    · have room : s.enq < p + q.handle.capacity := by
        have := opened.2
        omega
      exact (q.ring_ne hp' room opened.1).elim
    · cases g with
      | true =>
          have room : s.enq < p + q.handle.capacity := by
            have := opened.2
            omega
          exact (q.ring_ne hp' room opened.1).elim
      | false =>
          refine ⟨h.working.trans hk, ?_, hpay⟩
          by_contra hne
          have hlt : s.deq < p := by omega
          have := hi.room
          exact q.ring_ne hlt (by omega) opened.1.symm

/-- What a store must respect to keep the invariant as it stands. -/
structure Harmless (q : QueueSystem T) (s : QueueState T) (l : QueueLoc) : Prop where
  enq : l ≠ .enqueuePosition
  deq : l ≠ .dequeuePosition
  init : l ≠ .initState
  gate : ∀ g, l ≠ .gateState g
  epoch : l = .gateEpoch false → s.holder false ≠ none
  window : ∀ p, s.deq ≤ p → p < s.enq → l.slot? = some (q.ring p) →
    s.working false = true ∧ p = s.deq ∧ l.isPayload = false

theorem Owner.harmless (h : q.Owner g t slot c k f s) (hi : q.Inv s)
    (mine : Mine g slot l) (quiet : Quiet g k l) : Harmless q s l where
  enq := quiet.enq
  deq := quiet.deq
  init := by
    rintro rfl
    rcases mine with mine | ⟨i, _, mine⟩ <;> cases mine
  gate := by
    rintro g' rfl
    rcases mine with mine | ⟨i, _, mine⟩
    · cases mine
      exact quiet.gate rfl
    · cases mine
  epoch := by
    rintro rfl hnone
    rcases mine with mine | ⟨i, _, mine⟩
    · cases mine
      cases h.holder.symm.trans hnone
    · cases mine
  window _ hp hp' := slot_of_quiet h hi mine quiet hp hp'

/-- Waking sleepers touches a word the invariant does not mention. -/
theorem harmless_notifyEpoch : Harmless q s .notifyEpoch := by
  constructor <;> simp [QueueLoc.slot?]

/-- What a store must respect as long as nothing is out of epochs. -/
structure Tidy (q : QueueSystem T) (s : QueueState T) (l : QueueLoc) (v : Nat) : Prop where
  vacancy : ∀ p, s.enq ≤ p → p < s.deq + q.handle.capacity → l.slot? = some (q.ring p) →
    s.working true = true ∧ p = s.enq
  epoch : ∀ g, l = .gateEpoch g → s.mem (.gateState g) = MpmcLockState.claiming.code ∧
    v ≤ maxCommittedOwnerEpoch
  owner : ∀ g w, l = .gateOwner g w → s.mem (.gateState g) = MpmcLockState.claiming.code

theorem tidy_notifyEpoch : Tidy q s .notifyEpoch v := by
  constructor <;> simp [QueueLoc.slot?]

/-- The stores of a holder that follows the owner protocol: counters grow, an owner is
written at an odd epoch, gate and epoch move in a claim, and a producer writes its slot
only once it has claimed it. -/
structure Proper (g : Bool) (k : Phase) (f : QueueMem) (l : QueueLoc) (v : Nat) : Prop where
  counts : l.isCounter = true → f l ≤ v
  slot : g = true → l.slot?.isSome = true → k.working = true
  epoch : l = .gateEpoch g → f (.gateState g) = MpmcLockState.claiming.code ∧
    v ≤ maxCommittedOwnerEpoch
  owner : ∀ w, l = .gateOwner g w → f (.gateState g) = MpmcLockState.claiming.code ∧
    f (.gateEpoch g) % 2 = 1

theorem proper_slot {i : Nat} (hl : l.slot? = some i) (hk : k.working = true)
    (counts : l.isCounter = true → f l ≤ v) : Proper g k f l v where
  counts := counts
  slot _ _ := hk
  epoch := by
    rintro rfl
    cases hl
  owner := by
    rintro w rfl
    cases hl

theorem proper_gateEpoch (grows : f (.gateEpoch g) ≤ v) (bounded : v ≤ maxCommittedOwnerEpoch)
    (claimed : f (.gateState g) = MpmcLockState.claiming.code) :
    Proper g k f (.gateEpoch g) v where
  counts _ := grows
  slot _ hl := nomatch hl
  epoch _ := ⟨claimed, bounded⟩
  owner _ hl := nomatch hl

theorem proper_gateOwner {w : OwnerWord} (odd : f (.gateEpoch g) % 2 = 1)
    (claimed : f (.gateState g) = MpmcLockState.claiming.code) :
    Proper g k f (.gateOwner g w) v where
  counts hl := nomatch hl
  slot _ hl := nomatch hl
  epoch hl := nomatch hl
  owner _ _ := ⟨claimed, odd⟩

/-- A gate word that a living thread owns belongs to no dead holder's gate. -/
theorem Owner.live (h : q.Owner g t slot c k f s) (mine : Mine g slot l) (g' : Bool) (u : T)
    (hold : s.holder g' = some u) (hu : s.world.crashed u = true) : l.gate? ≠ some g' := by
  intro word
  have here : g' = g := by
    rcases mine with mine | ⟨i, _, mine⟩
    · exact Option.some.inj (word.symm.trans mine)
    · cases l <;> simp [QueueLoc.gate?, QueueLoc.slot?] at word mine
  subst here
  cases hold.symm.trans h.holder
  cases hu.symm.trans h.alive

theorem Owner.counts (h : q.Owner g t slot c k f s) (mine : Mine g slot l)
    (proper : Proper g k f l v) : l.isCounter = true → s.mem l ≤ v := by
  rw [h.words l mine]
  exact proper.counts

theorem Owner.tidy (h : q.Owner g t slot c k f s) (hi : q.Inv s) (mine : Mine g slot l)
    (proper : Proper g k f l v) : Tidy q s l v where
  vacancy p hp hp' word := by
    rcases mine with mine | ⟨i, rfl, mine⟩
    · cases l <;> simp [QueueLoc.gate?, QueueLoc.slot?] at word mine
    · cases word.symm.trans mine
      have opened := h.opened _ rfl
      cases g with
      | true =>
          refine ⟨h.working.trans (proper.slot rfl (by rw [word]; rfl)), ?_⟩
          by_contra hne
          have order := hi.order
          exact @ring_ne _ q s.enq p (by omega) (by omega) opened.1.symm
      | false =>
          have ahead := opened.2
          exact (@ring_ne _ q s.deq p (by omega) (by omega) opened.1.symm).elim
  epoch g' hl := by
    subst hl
    have here : g' = g := by
      rcases mine with mine | ⟨i, _, mine⟩
      · exact Option.some.inj mine
      · cases mine
    subst here
    obtain ⟨claimed, bounded⟩ := proper.epoch rfl
    exact ⟨(h.words _ (.inl rfl)).trans claimed, bounded⟩
  owner g' w hl := by
    subst hl
    have here : g' = g := by
      rcases mine with mine | ⟨i, _, mine⟩
      · exact Option.some.inj mine
      · cases mine
    subst here
    exact (h.words _ (.inl rfl)).trans (proper.owner w rfl).1

/-- A step that leaves the gates as they are only has to keep the free slots. -/
theorem Healthy.transfer (healthy : q.Healthy s) (onward : Onward s s')
    (gates : ∀ l, l.gate?.isSome = true → l ≠ .enqueuePosition → l ≠ .dequeuePosition →
      s'.mem l = s.mem l)
    (holder : s'.holder = s.holder) (finished : s'.world.finished = s.world.finished)
    (vacant : ∀ p, s'.enq ≤ p → p < s'.deq + q.handle.capacity →
      (s'.working true = true ∧ p = s'.enq) ∨ q.Vacant s'.mem p) : q.Healthy s' where
  vacant := vacant
  known g := by
    rw [gates (.gateState g) rfl nofun nofun]
    exact healthy.known g
  even g := by
    rw [gates (.gateState g) rfl nofun nofun, gates (.gateEpoch g) rfl nofun nofun]
    exact healthy.even g
  bounded g := by
    rw [gates (.gateEpoch g) rfl nofun nofun]
    exact healthy.bounded g
  owned g := by
    simp only [gates (.gateState g) rfl nofun nofun, holder,
      fun w => gates (.gateOwner g w) rfl nofun nofun]
    exact healthy.owned g
  verdicts r hr found := onward.blocked (healthy.verdicts r (finished ▸ hr) found)

variable [DecidableEq T]

theorem owner_stable : q.logic.Stable t (q.Owner g t slot c k f) := by
  intro s s' h hr _
  refine ⟨(hr.holder g).2 h.holder, fun hs => h.single ((hr.holder _).1 hs), ?_, ?_,
    hr.client.trans h.client, hr.alive.trans h.alive,
    (hr.working g h.holder).trans h.working, Nat.le_trans h.floor hr.enq,
    fun sound fresh => h.clear sound (hr.onward.fresh fresh)⟩
  · intro i hi
    exact slotOpen_rely (h.opened i hi) h.holder hr
  · intro l hl
    exact (hr.words l (h.owns hl)).trans (h.words l hl)

variable (q) in
def store (t : T) (l : QueueLoc) (v : Nat) (s : QueueState T) : QueueState T :=
  { s with world := q.write t l v s.world }

@[simp] theorem store_mem : (q.store t l v s).mem = s.mem.set l v := rfl
@[simp] theorem store_holder : (q.store t l v s).holder = s.holder := rfl
@[simp] theorem store_working : (q.store t l v s).working = s.working := rfl

theorem store_exhausted : (q.store t l v s).world.exhausted =
    (s.world.exhausted || l.exhausts v) := rfl

theorem store_client_self : (q.store t l v s).world.client t =
    { s.world.client t with
      enqueueStores := (s.world.client t).enqueueStores +
        (if l = .enqueuePosition then 1 else 0)
      dequeueStores := (s.world.client t).dequeueStores +
        (if l = .dequeuePosition then 1 else 0) } := by
  simp [store, write]

theorem store_client_other (h : u ≠ t) :
    (q.store t l v s).world.client u = s.world.client u := by
  simp [store, write, Function.update_of_ne h]

theorem onward_store (counts : l.isCounter = true → s.mem l ≤ v)
    (odd : ∀ g w, l = .gateOwner g w → s.mem (.gateEpoch g) % 2 = 1)
    (live : ∀ g u, s.holder g = some u → s.world.crashed u = true → l.gate? ≠ some g) :
    Onward s (q.store t l v s) where
  enq := set_counter_le counts rfl
  deq := set_counter_le counts rfl
  epoch _ := set_counter_le counts rfl
  owner g _ even w := by
    rw [store_mem, Words.set_apply, if_neg]
    intro hl
    have := odd g w hl.symm
    omega
  dies _ hu := hu
  dead g u hold hu := by
    refine ⟨hold, fun l' hl' => ?_⟩
    rw [store_mem, Words.set_apply, if_neg]
    rintro rfl
    exact live g u hold hu hl'
  exhausted he := by
    rw [store_exhausted, he]
    rfl

/-- Storing to a word nobody else owns stays within every other thread's rely. -/
theorem rely_store (hne : u ≠ t) (other : ¬ q.Owns u s l)
    (onward : Onward s (q.store t l v s)) : q.Rely u s (q.store t l v s) where
  client := store_client_other hne
  alive := rfl
  holder _ := Iff.rfl
  working _ _ := rfl
  words l' hl' := by
    rw [store_mem, Words.set_apply, if_neg]
    rintro rfl
    exact other hl'
  onward := onward

theorem Quiet.client_eq (quiet : Quiet g k l) (hc : s.world.client t = c) :
    (q.store t l v s).world.client t = c := by
  rw [store_client_self]
  simp [quiet.enq, quiet.deq, ← hc]

theorem healthy_store (healthy : q.Healthy s) (safe : Harmless q s l) (tidy : Tidy q s l v)
    (onward : Onward s (q.store t l v s)) : q.Healthy (q.store t l v s) := by
  have henq : (q.store t l v s).enq = s.enq := by
    simp [QueueState.enq, safe.enq.symm]
  have hdeq : (q.store t l v s).deq = s.deq := by
    simp [QueueState.deq, safe.deq.symm]
  have state : ∀ g, (q.store t l v s).mem (.gateState g) = s.mem (.gateState g) := by
    intro g
    simp [(safe.gate g).symm]
  constructor
  case vacant =>
      rw [henq, hdeq]
      intro p hp hp'
      by_cases hl : l.slot? = some (q.ring p)
      · exact .inl (tidy.vacancy p hp hp' hl)
      · refine (healthy.vacant p hp hp').imp id (vacant_congr ?_)
        intro l' hl'
        rw [store_mem, Words.set_apply, if_neg]
        rintro rfl
        exact hl hl'
  case known =>
      intro g
      rw [state]
      exact healthy.known g
  case even =>
      intro g settled
      rw [state] at settled
      rw [store_mem, Words.set_apply, if_neg]
      · exact healthy.even g settled
      · intro hl
        exact settled (tidy.epoch g hl.symm).1
  case bounded =>
      intro g
      rw [store_mem, Words.set_apply]
      split
      · rename_i hl
        exact (tidy.epoch g hl.symm).2
      · exact healthy.bounded g
  case owned =>
      intro g owned
      rw [state] at owned
      obtain ⟨u, hold, words⟩ := healthy.owned g owned
      refine ⟨u, hold, fun w => ?_⟩
      rw [store_mem, Words.set_apply, if_neg]
      · exact words w
      · intro hl
        cases (tidy.owner g w hl.symm).symm.trans owned
  case verdicts => exact fun r hr found => onward.blocked (healthy.verdicts r hr found)

theorem inv_store (hi : q.Inv s) (safe : Harmless q s l)
    (counts : l.isCounter = true → s.mem l ≤ v) (onward : Onward s (q.store t l v s))
    (tidy : q.Sound → (q.store t l v s).world.exhausted = false → Tidy q s l v) :
    q.Inv (q.store t l v s) := by
  have henq : (q.store t l v s).enq = s.enq := by
    simp [QueueState.enq, safe.enq.symm]
  have hdeq : (q.store t l v s).deq = s.deq := by
    simp [QueueState.deq, safe.deq.symm]
  have hpushed : (q.store t l v s).world.pushed = s.world.pushed := by
    simp [store, write, safe.enq]
  have hpopped : (q.store t l v s).world.popped = s.world.popped := by
    simp [store, write, safe.deq]
  constructor
  case ready => simpa [safe.init.symm] using hi.ready
  case order => rw [henq, hdeq]; exact hi.order
  case room => rw [henq, hdeq]; exact hi.room
  case drainable => rw [henq]; exact hi.drainable
  case pushed => rw [hpushed, henq]; exact hi.pushed
  case popped => rw [hpushed, hpopped, hdeq]; exact hi.popped
  case payloads =>
      rw [henq, hdeq, hpushed]
      intro p hp hp'
      have same : ∀ j, s.mem.set l v (.slotPayload (q.ring p) j) =
          s.mem (.slotPayload (q.ring p) j) := by
        intro j
        rw [Words.set_apply, if_neg]
        rintro rfl
        exact Bool.noConfusion (safe.window p hp hp' rfl).2.2
      simp only [store_mem, same]
      exact hi.payloads p hp hp'
  case published =>
      rw [henq, hdeq]
      intro p hp hp'
      by_cases hl : l.slot? = some (q.ring p)
      · obtain ⟨ht, hd, _⟩ := safe.window p hp hp' hl
        exact .inl ⟨ht, hd⟩
      · refine (hi.published p hp hp').imp id (published_congr ?_)
        intro l' hl'
        rw [store_mem, Words.set_apply, if_neg]
        rintro rfl
        exact hl hl'
  case freeGate =>
      intro g
      simpa [(safe.gate g).symm] using hi.freeGate g
  case drainGate =>
      intro hnone
      have hepoch : l ≠ .gateEpoch false := fun hl => safe.epoch hl hnone
      rw [hdeq]
      simpa [(safe.gate false).symm, hepoch.symm] using hi.drainGate hnone
  case fillGate => exact hi.fillGate
  case lasting => simpa [(safe.gate false).symm] using hi.lasting
  case counts =>
      have hw := hi.counts
      cases hl : l.isCounter with
      | false => simp [store, write, hw, hl]
      | true =>
          have := counts hl
          simp [store, write, hw, hl, QueueState.mem] at this ⊢
          omega
  case finished => exact hi.finished
  case healthy =>
      intro sound fresh
      exact healthy_store (hi.healthy sound (onward.fresh fresh)) safe (tidy sound fresh)
        onward

end QueueSystem
end EdgeRuntime

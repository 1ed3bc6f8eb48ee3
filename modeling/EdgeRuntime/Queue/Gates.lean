import EdgeRuntime.Queue.GateRules

/-!
Entering and leaving a gate. While nothing is out of epochs a gate is free, claimed or
owned by the process whose identity it shows, and only its living holder moves it.
-/
namespace EdgeRuntime
open Concurrent

namespace QueueSystem
variable {T α : Type} {q : QueueSystem T} {t u : T}
  {s s' : QueueState T} {g : Bool} {k : Phase} {slot : Option Nat} {c : QueueClient}
  {f : QueueMem} {l : QueueLoc} {v : Nat} {Q : Except Error α → QueueState T → Prop}

/-- A gate changes hands only between the living. -/
theorem dead_of_living (hold : s.holder g = none ∨ s.holder g = some t)
    (alive : s.world.crashed t = false) {g' : Bool} (hu : s.holder g' = some u)
    (dead : s.world.crashed u = true) : g' ≠ g := by
  rintro rfl
  rcases hold with none | self
  · cases none.symm.trans hu
  · cases self.symm.trans hu
    cases alive.symm.trans dead

/-- The state in which the holder of a gate works on the slot its position points to,
or is done with it. -/
def setWork (g b : Bool) (s : QueueState T) : QueueState T :=
  { s with working := Function.update s.working g b }

theorem rely_setWork {b : Bool} (hold : s.holder g = some t) (hne : u ≠ t) :
    q.Rely u s (setWork g b s) := by
  refine rely_ghost (fun _ => Iff.rfl) ?_ fun _ _ hu _ => hu
  intro g' hu
  refine Function.update_of_ne ?_ _ _
  rintro rfl
  exact hne (Option.some.inj (hu.symm.trans hold))

theorem startWork_working {g' : Bool} (h : s.working g' = true) :
    (setWork g true s).working g' = true := by
  by_cases hg : g' = g
  · simp [setWork, hg]
  · simpa [setWork, Function.update_of_ne hg] using h

theorem setWork_other {b g' : Bool} (held : s.holder g ≠ none) (hnone : s.holder g' = none) :
    (setWork g b s).working g' = s.working g' := by
  refine Function.update_of_ne ?_ _ _
  rintro rfl
  exact held hnone

theorem inv_startWork (hi : q.Inv s) (held : s.holder g ≠ none) :
    q.Inv (setWork g true s) where
  ready := hi.ready
  order := hi.order
  room := hi.room
  drainable := hi.drainable
  pushed := hi.pushed
  popped := hi.popped
  payloads := hi.payloads
  published p hp hp' := (hi.published p hp hp').imp (fun h => ⟨startWork_working h.1, h.2⟩) id
  freeGate := hi.freeGate
  drainGate hnone := by
    rw [setWork_other held hnone]
    exact hi.drainGate hnone
  fillGate hnone := (setWork_other held hnone).trans (hi.fillGate hnone)
  lasting := hi.lasting
  counts := hi.counts
  finished := hi.finished
  healthy sound fresh := by
    have healthy := hi.healthy sound fresh
    refine healthy.transfer (onward_ghost fun _ _ hu _ => hu) (fun _ _ _ _ => rfl) rfl rfl ?_
    intro p hp hp'
    exact (healthy.vacant p hp hp').imp (fun h => ⟨startWork_working h.1, h.2⟩) id

theorem Owner.setWork {b : Bool} (h : q.Owner g t slot c k f s) :
    q.Owner g t slot c { k with working := b } f (setWork g b s) where
  holder := h.holder
  single := h.single
  opened := h.opened
  words := h.words
  client := h.client
  alive := h.alive
  working := Function.update_self _ _ _
  floor := h.floor
  clear := h.clear

variable [DecidableEq T]

/-- The state after a store to the state word of gate `g` that leaves `x` as the
gate's holder. Nobody works on a slot while a gate changes hands. -/
def passGate (q : QueueSystem T) (t : T) (g : Bool) (v : Nat) (x : Option T)
    (s : QueueState T) : QueueState T :=
  { q.store t (.gateState g) v s with
    holder := Function.update s.holder g x
    working := Function.update s.working g false }

theorem onward_storeState (hold : s.holder g = none ∨ s.holder g = some t)
    (alive : s.world.crashed t = false) : Onward s (q.store t (.gateState g) v s) := by
  refine onward_store nofun nofun ?_
  intro g' u hu dead word
  exact dead_of_living hold alive hu dead (Option.some.inj word).symm

theorem onward_passGate {x : Option T} (hold : s.holder g = none ∨ s.holder g = some t)
    (alive : s.world.crashed t = false) : Onward s (q.passGate t g v x s) := by
  refine (onward_storeState (q := q) (v := v) hold alive).trans (onward_ghost ?_)
  intro g' u hu dead
  rw [Function.update_of_ne (dead_of_living hold alive hu dead)]
  exact hu

theorem guar_passGate {x : Option T} (hold : s.holder g = none ∨ s.holder g = some t)
    (alive : s.world.crashed t = false) (hx : x = none ∨ x = some t) (u : T) (hne : u ≠ t) :
    q.Rely u s (q.passGate t g v x s) := by
  have hold' : s.holder g ≠ some u := by
    rcases hold with h | h <;> simp [h, hne.symm]
  have hx' : x ≠ some u := by
    rcases hx with h | h <;> simp [h, hne.symm]
  have away : ∀ {g'}, s.holder g' = some u → g' ≠ g := by
    rintro g' hu rfl
    exact hold' hu
  refine rely_trans (rely_store (v := v) hne ?_ (onward_storeState hold alive))
    (rely_ghost ?_ ?_ ?_)
  · intro ho
    cases ho with
    | gate holder word =>
        cases word
        exact hold' holder
    | slot holder opened word => cases word
  · intro g'
    by_cases hg : g' = g
    · subst hg
      simp [hx', hold']
    · simp [Function.update_of_ne hg]
  · intro g' hu
    exact Function.update_of_ne (away hu) _ _
  · intro g' u' hu dead
    rw [Function.update_of_ne (dead_of_living hold alive hu dead)]
    exact hu

/-- What a new state of a gate must respect as long as nothing is out of epochs. -/
structure Lawful (q : QueueSystem T) (s : QueueState T) (g : Bool) (v : Nat)
    (x : Option T) : Prop where
  known : v = MpmcLockState.free.code ∨ v = MpmcLockState.claiming.code ∨
    v = MpmcLockState.owned.code
  even : v ≠ MpmcLockState.claiming.code → s.mem (.gateEpoch g) % 2 = 0
  owned : v = MpmcLockState.owned.code → ∃ u, x = some u ∧
    ∀ w, s.mem (.gateOwner g w) = (ownerFromProcess (q.self u)).word w
  rest : s.working g = false

theorem passGate_mem {x : Option T} {l : QueueLoc} (hl : l ≠ .gateState g) :
    (q.passGate t g v x s).mem l = s.mem l := by
  change s.mem.set (.gateState g) v l = _
  simp [hl]

theorem passGate_state {x : Option T} : (q.passGate t g v x s).mem (.gateState g) = v := by
  change s.mem.set (.gateState g) v _ = _
  simp

theorem passGate_working {x : Option T} (rest : s.working g = false) :
    (q.passGate t g v x s).working = s.working := by
  change Function.update s.working g false = _
  rw [← rest]
  exact Function.update_eq_self g s.working

theorem healthy_passGate {x : Option T} (healthy : q.Healthy s)
    (onward : Onward s (q.passGate t g v x s)) (lawful : Lawful q s g v x) :
    q.Healthy (q.passGate t g v x s) := by
  constructor
  case vacant =>
      rw [passGate_working lawful.rest]
      intro p hp hp'
      refine (healthy.vacant p ?_ ?_).imp (fun h => ⟨h.1, ?_⟩) (vacant_congr ?_)
      · simpa [QueueState.enq, passGate_mem] using hp
      · simpa [QueueState.deq, passGate_mem] using hp'
      · simpa [QueueState.enq, passGate_mem] using h.2
      · intro l hl
        refine passGate_mem ?_
        rintro rfl
        cases hl
  case known =>
      intro g'
      by_cases hg : g' = g
      · subst hg
        rw [passGate_state]
        exact lawful.known
      · rw [passGate_mem (by simp [hg])]
        exact healthy.known g'
  case even =>
      intro g'
      rw [passGate_mem (l := .gateEpoch g') (by simp)]
      by_cases hg : g' = g
      · subst hg
        rw [passGate_state]
        exact lawful.even
      · rw [passGate_mem (by simp [hg])]
        exact healthy.even g'
  case bounded =>
      intro g'
      rw [passGate_mem (by simp)]
      exact healthy.bounded g'
  case owned =>
      intro g'
      simp only [passGate_mem (show QueueLoc.gateOwner g' _ ≠ .gateState g by simp)]
      by_cases hg : g' = g
      · subst hg
        rw [passGate_state]
        simpa [passGate] using lawful.owned
      · rw [passGate_mem (by simp [hg])]
        simpa [passGate, Function.update_of_ne hg] using healthy.owned g'
  case verdicts => exact fun r hr found => onward.blocked (healthy.verdicts r hr found)

theorem inv_passGate {x : Option T} (hi : q.Inv s)
    (onward : Onward s (q.passGate t g v x s))
    (free : v = MpmcLockState.free.code → x = none)
    (drain : g = false → s.working false = false ∧ (x = none →
      v = MpmcLockState.free.code ∧ s.mem (.gateEpoch false) = 2 * s.deq))
    (lasting : g = false → v ≠ MpmcLockState.epochExhausted.code)
    (lawful : q.Sound → (q.passGate t g v x s).world.exhausted = false → Lawful q s g v x) :
    q.Inv (q.passGate t g v x s) := by
  have same : ∀ l, l ≠ .gateState g → (q.passGate t g v x s).mem l = s.mem l :=
    fun l => passGate_mem
  have henq : (q.passGate t g v x s).enq = s.enq := same _ (by simp)
  have hdeq : (q.passGate t g v x s).deq = s.deq := same _ (by simp)
  constructor
  case ready => rw [same _ (by simp)]; exact hi.ready
  case order => rw [henq, hdeq]; exact hi.order
  case room => rw [henq, hdeq]; exact hi.room
  case drainable => rw [henq]; exact hi.drainable
  case pushed => rw [henq]; exact hi.pushed
  case popped => rw [hdeq]; exact hi.popped
  case payloads =>
      intro p hp hp'
      rw [henq] at hp'
      rw [hdeq] at hp
      simp only [same _ (show QueueLoc.slotPayload _ _ ≠ .gateState g by simp)]
      exact hi.payloads p hp hp'
  case published =>
      have taking : (q.passGate t g v x s).working false = s.working false := by
        cases g with
        | false => rw [passGate_working (drain rfl).1]
        | true =>
            change Function.update s.working true false false = _
            simp
      intro p hp hp'
      rw [henq] at hp'
      rw [hdeq] at hp ⊢
      rw [taking]
      refine (hi.published p hp hp').imp id (published_congr ?_)
      intro l hl
      refine same l ?_
      rintro rfl
      cases hl
  case freeGate =>
      intro g' hfree
      by_cases hg : g' = g
      · subst hg
        rw [passGate_state] at hfree
        simp [passGate, free hfree]
      · rw [same _ (by simp [hg])] at hfree
        simpa [passGate, Function.update_of_ne hg] using hi.freeGate g' hfree
  case drainGate =>
      intro hnone
      rw [same (.gateEpoch false) (by simp), hdeq]
      by_cases hg : g = false
      · subst hg
        rw [passGate_state]
        obtain ⟨hv, epoch⟩ := (drain rfl).2 (by simpa [passGate] using hnone)
        exact ⟨hv, epoch, by simp [passGate]⟩
      · have hg' : false ≠ g := fun h => hg h.symm
        rw [same _ (by simp [hg'])]
        simpa [passGate, Function.update_of_ne hg'] using
          hi.drainGate (by simpa [passGate, Function.update_of_ne hg'] using hnone)
  case fillGate =>
      intro hnone
      by_cases hg : true = g
      · simp [passGate, ← hg]
      · simpa [passGate, Function.update_of_ne hg] using
          hi.fillGate (by simpa [passGate, Function.update_of_ne hg] using hnone)
  case lasting =>
      by_cases hg : g = false
      · subst hg
        rw [passGate_state]
        exact lasting rfl
      · have hg' : false ≠ g := fun h => hg h.symm
        rw [same _ (by simp [hg'])]
        exact hi.lasting
  case counts => simpa [passGate, QueueSystem.store, write, QueueLoc.isCounter] using hi.counts
  case finished => exact hi.finished
  case healthy =>
      intro sound fresh
      exact healthy_passGate (hi.healthy sound (onward.fresh fresh)) onward
        (lawful sound fresh)

theorem client_passGate {x : Option T} :
    (q.passGate t g v x s).world.client t = s.world.client t := by
  change (q.store t (.gateState g) v s).world.client t = _
  simp [store_client_self]

/-- The view of a thread that has just become, or stays, the holder of a gate. -/
theorem owner_passGate (h : Outside t c s ∨ s.holder (!g) ≠ some t ∧
      s.world.client t = c ∧ s.world.crashed t = false)
    (rest : k.working = false) (hn : k.floor ≤ s.enq)
    (onward : Onward s (q.passGate t g v (some t) s))
    (clear : q.Sound → s.world.exhausted = false → k.clear) :
    q.Owner g t none c k (s.mem.set (.gateState g) v) (q.passGate t g v (some t) s) := by
  obtain ⟨single, client, alive⟩ : s.holder (!g) ≠ some t ∧ s.world.client t = c ∧
      s.world.crashed t = false := h.elim (fun h => ⟨h.holder _, h.client, h.alive⟩) id
  refine ⟨by simp [passGate], ?_, fun _ hi => (nomatch hi), fun _ _ => rfl,
    client_passGate.trans client, alive, ?_, hn,
    fun sound fresh => clear sound (onward.fresh fresh)⟩
  · have : (!g) ≠ g := by cases g <;> simp
    simpa [passGate, Function.update_of_ne this] using single
  · simp [passGate, rest]

theorem Owner.outside_passGate (h : q.Owner g t slot c k f s) :
    Outside t c (q.passGate t g v none s) where
  holder g' := by
    by_cases hg : g' = g
    · subst hg
      simp [passGate]
    · have : g' = !g := by cases g <;> cases g' <;> simp_all
      subst this
      simpa [passGate, Function.update_of_ne hg] using h.single
  client := client_passGate.trans h.client
  alive := h.alive

/-- The holder may leave its gate free: the epoch is settled, no slot is half done, and
a consumer has spent exactly what it took. -/
structure AtRest (g : Bool) (k : Phase) (f : QueueMem) : Prop where
  even : f (.gateEpoch g) % 2 = 0
  rest : k.clear → k.working = false
  drain : g = false → k.working = false ∧ f (.gateEpoch false) = 2 * f .dequeuePosition

/-- Give the gate up. A consumer must leave it free and its budget exact; a producer
may also leave it in a terminal state, when something is out of epochs. -/
theorem wp_leaveGate {next : Unit → QueueCode α} (h : q.Owner g t slot c k f s)
    (drain : g = false → v = MpmcLockState.free.code ∧ k.working = false ∧
      f (.gateEpoch false) = 2 * f .dequeuePosition)
    (lawful : k.clear → v ≠ MpmcLockState.epochExhausted.code →
      v = MpmcLockState.free.code ∧ f (.gateEpoch g) % 2 = 0 ∧ k.working = false)
    (cont : ∀ s', Outside t c s' → Onward s s' →
      (v = MpmcLockState.epochExhausted.code → s'.world.exhausted = true) →
      q.logic.wp t Q (next ()) s') :
    q.logic.wp t Q (sharedStore (.gateState g) v >>= next) s := by
  refine Access.wp_store (D := q.memory) rfl fun s' hr hi => ?_
  have h' := owner_stable s s' h hr hi
  have onward : Onward s' (q.passGate t g v none s') :=
    onward_passGate (.inr h'.holder) h'.alive
  refine ⟨q.passGate t g v none s', rfl, ?_,
    guar_passGate (.inr h'.holder) h'.alive (.inl rfl),
    cont _ h'.outside_passGate ((Rely.onward hr).trans onward) fun hv => ?_⟩
  rotate_left
  · subst hv
    exact Bool.or_true _
  refine inv_passGate hi onward (fun _ => rfl) ?_ ?_ ?_
  · rintro rfl
    obtain ⟨hv, hk, hf⟩ := drain rfl
    have hepoch := h'.words (.gateEpoch false) (.inl rfl)
    have hdeq := h'.words .dequeuePosition (.inl rfl)
    refine ⟨h'.working.trans hk, fun _ => ⟨hv, ?_⟩⟩
    rw [hepoch, hf, ← hdeq]
    rfl
  · rintro rfl
    rw [(drain rfl).1]
    decide
  · intro sound fresh
    change (s'.world.exhausted || decide (v = MpmcLockState.epochExhausted.code)) = false
      at fresh
    rw [Bool.or_eq_false_iff, decide_eq_false_iff_not] at fresh
    obtain ⟨hv, even, rest⟩ := lawful (h'.clear sound fresh.1) fresh.2
    refine ⟨.inl hv, fun _ => ?_, fun owned => ?_, h'.working.trans rest⟩
    · rw [h'.words (.gateEpoch g) (.inl rfl)]
      exact even
    · exact absurd (hv.symm.trans owned) (by decide)

theorem wp_releaseGate {next : Unit → QueueCode α} (h : q.Owner g t slot c k f s)
    (rest : AtRest g k f)
    (cont : ∀ s', Outside t c s' → Onward s s' → q.logic.wp t Q (next ()) s') :
    q.logic.wp t Q (releaseGate g >>= next) s :=
  wp_leaveGate h (fun hg => ⟨rfl, rest.drain hg⟩)
    (fun clear _ => ⟨rfl, rest.even, rest.rest clear⟩) fun s' h' onward _ => cont s' h' onward

/-- Look, then fail: the gate is given up on the way out. -/
theorem wp_releaseOnError {β : Type} {p : QueueCode β} {next : β → QueueCode α}
    {Info : Except Error β → QueueState T → Prop} (h : q.Owner g t slot c k f s)
    (all : p.All Memory.Reads) (info : q.logic.obs t Info p s) (rest : AtRest g k f)
    (told : ∀ e s', Info (.error e) s' → q.Explained e s')
    (cont : ∀ a s', q.Owner g t slot c k f s' → Info (.ok a) s' →
      q.logic.wp t Q (next a) s')
    (fails : q.MayFail t c Q) : q.logic.wp t Q (releaseOnError g p >>= next) s := by
  unfold releaseOnError
  rw [Prog.bind_assoc]
  refine Logic.wp_bind (Logic.obs_wp (Logic.obs_attempt (Logic.obs_mono ?_
    (Logic.obs_and info (obs_reads all owner_stable h)))))
  rintro (e | a) s' _ ⟨seen, h'⟩
  · refine wp_releaseGate h' rest fun s'' h'' onward => ?_
    exact h''.throw (onward.explained (told e s' seen)) fails
  · exact cont a s' h' seen

theorem wp_releaseOnError_lift {β : Type} {x : Except Error β} {next : β → QueueCode α}
    (h : q.Owner g t slot c k f s) (rest : AtRest g k f) (tame : Tame x)
    (cont : ∀ a, x = .ok a → q.logic.wp t Q (next a) s)
    (fails : q.MayFail t c Q) :
    q.logic.wp t Q (releaseOnError g (Prog.lift x) >>= next) s := by
  cases x with
  | ok a => exact cont a rfl
  | error e =>
      refine wp_releaseGate h rest fun s' h' _ => ?_
      exact h'.throw (explained_of_ne (tame e rfl)) fails

/-- What a claim finds in the epoch of its gate. -/
def Steady (g : Bool) (f : QueueMem) : Prop :=
  f (.gateEpoch g) % 2 = 0 ∧ f (.gateEpoch g) ≤ maxCommittedOwnerEpoch

theorem wp_claimGate {handle : MpmcQueueHandle} {next : Unit → QueueCode α}
    (hself : handle.self = q.self t) (h : Outside t c s)
    (cont : ∀ s' f, q.Owner g t none c ⟨false, 0, Steady g f⟩ f s' →
      f (.gateState g) = MpmcLockState.claiming.code →
      (g = false → f (.gateEpoch false) = 2 * f .dequeuePosition) →
      q.logic.wp t Q (next ()) s')
    (fails : q.MayFail t c Q) : q.logic.wp t Q (claimGate handle g >>= next) s := by
  unfold claimGate
  rw [Prog.bind_assoc]
  refine Access.wp_load (D := q.memory) rfl fun s₁ r₁ i₁ => ?_
  have h₁ := outside_stable s s₁ h r₁ i₁
  split
  · rw [Prog.bind_assoc]
    refine Access.wp_learn (D := q.memory) rfl (looks_gateBusyResult handle g) (Outside t c)
      outside_stable h₁ (obs_gateBusyResult handle hself g s₁) fun busy s₂ _ h₂ told => ?_
    exact h₂.throw told fails
  · rw [Prog.bind_assoc]
    refine Access.wp_cas (D := q.memory) rfl ?_ ?_
    · intro s₂ r₂ i₂ hfree
      have h₂ := outside_stable s₁ s₂ h₁ r₂ i₂
      have unheld := i₂.freeGate g hfree
      have onward : Onward s₂ (q.passGate t g MpmcLockState.claiming.code (some t) s₂) :=
        onward_passGate (.inl unheld) h₂.alive
      have rest : s₂.working g = false := by
        cases g with
        | false => exact (i₂.drainGate unheld).2.2
        | true => exact i₂.fillGate unheld
      refine ⟨q.passGate t g MpmcLockState.claiming.code (some t) s₂, rfl, ?_,
        guar_passGate (.inl unheld) h₂.alive (.inr rfl), ?_⟩
      · refine inv_passGate i₂ onward (fun hv => ?_) ?_ (fun _ => by decide) fun _ _ => ?_
        · exact absurd hv (by decide)
        · rintro rfl
          exact ⟨rest, by rintro ⟨⟩⟩
        · refine ⟨.inr (.inl rfl), fun hv => (hv rfl).elim, fun hv => ?_, rest⟩
          exact absurd hv (by decide)
      · refine cont _ (s₂.mem.set (.gateState g) _)
          (owner_passGate (.inl h₂) rfl (Nat.zero_le _) onward fun sound fresh => ?_) ?_ ?_
        · have healthy := i₂.healthy sound fresh
          have even := healthy.even g (by rw [show s₂.mem (.gateState g) = _ from hfree]; decide)
          have bounded := healthy.bounded g
          simpa [Steady] using And.intro even bounded
        · simp
        · rintro rfl
          simpa [QueueState.deq] using (i₂.drainGate unheld).2.1
    · intro s₂ r₂ i₂ _
      exact (outside_stable s₁ s₂ h₁ r₂ i₂).throw (explained_of_ne (by rintro ⟨⟩)) fails

/-- Mark a claimed gate as owned. -/
theorem wp_ownGate {next : Unit → QueueCode α} (h : q.Owner g t none c k f s)
    (even : f (.gateEpoch g) % 2 = 0) (rest : k.working = false)
    (words : ∀ w, f (.gateOwner g w) = (ownerFromProcess (q.self t)).word w)
    (cont : ∀ s', q.Owner g t none c k
      (f.set (.gateState g) MpmcLockState.owned.code) s' → q.logic.wp t Q (next ()) s') :
    q.logic.wp t Q (sharedStore (.gateState g) MpmcLockState.owned.code >>= next) s := by
  refine Access.wp_store (D := q.memory) rfl fun s' hr hi => ?_
  have h' := owner_stable s s' h hr hi
  have onward : Onward s' (q.passGate t g MpmcLockState.owned.code (some t) s') :=
    onward_passGate (.inr h'.holder) h'.alive
  refine ⟨q.passGate t g MpmcLockState.owned.code (some t) s', rfl, ?_,
    guar_passGate (.inr h'.holder) h'.alive (.inr rfl), cont _ (Owner.congr (owner_passGate
      (.inr ⟨h'.single, h'.client, h'.alive⟩) rest h'.floor onward h'.clear) ?_)⟩
  · refine inv_passGate hi onward (fun hv => ?_) ?_ (fun _ => by decide) fun _ _ => ?_
    · exact absurd hv (by decide)
    · rintro rfl
      exact ⟨h'.working.trans rest, fun hx => nomatch hx⟩
    · refine ⟨.inr (.inr rfl), fun _ => ?_, fun _ => ⟨t, rfl, fun w => ?_⟩,
        h'.working.trans rest⟩
      · rw [h'.words (.gateEpoch g) (.inl rfl)]
        exact even
      · rw [h'.words (.gateOwner g w) (.inl rfl)]
        exact words w
  · intro l hl
    simp [h'.words l hl]

/-- A consumer's commit cannot fail: `ready` gives it the epoch it reserves. -/
theorem wp_commitClaimedGate {handle : MpmcQueueHandle} {next : Unit → QueueCode α}
    (hself : handle.self = q.self t) (h : q.Owner g t none c k f s)
    (claimed : f (.gateState g) = MpmcLockState.claiming.code) (rest : k.working = false)
    (steady : k.clear → Steady g f)
    (ready : g = false → f (.gateEpoch g) % 2 = 0 ∧
      f (.gateEpoch g) + 2 ≤ maxCommittedOwnerEpoch)
    (cont : ∀ s' f', q.Owner g t none c k f' s' → f' (.gateEpoch g) % 2 = 0 →
      f' (.gateEpoch g) = f (.gateEpoch g) + 2 →
      f' .enqueuePosition = f .enqueuePosition →
      f' .dequeuePosition = f .dequeuePosition → q.logic.wp t Q (next ()) s')
    (fails : q.MayFail t c Q) :
    q.logic.wp t Q (commitClaimedGate handle g >>= next) s := by
  unfold commitClaimedGate
  rw [Prog.bind_assoc]
  refine wp_beginOwnerCommit h (.inl rfl) quiet_gateEpoch (Nat.le_refl _)
    (fun room => proper_gateEpoch (by omega) (by omega) claimed) ?_ ?_
  · intro even room s₁ h₁
    simp only [ne_eq, not_true_eq_false, if_false, Prog.bind_assoc]
    refine wp_setOwner h₁ (fun _ => .inl rfl) quiet_gateOwner ?_ ?_ ?_
    · intro f' hf' w v
      have epoch := hf' (.gateEpoch g) (by simp)
      have state := hf' (.gateState g) (by simp)
      refine proper_gateOwner ?_ ?_
      · rw [epoch]
        simp
        omega
      · rw [state]
        simpa using claimed
    · exact fun w w' hw => (QueueLoc.gateOwner.inj hw).2
    intro s₂ f₂ hf words h₂
    have hepoch : f₂ (.gateEpoch g) = f (.gateEpoch g) + 1 := by
      rw [hf _ (by simp)]
      simp
    have hstate : f₂ (.gateState g) = MpmcLockState.claiming.code := by
      rw [hf _ (by simp)]
      simpa using claimed
    refine wp_store_owned h₂ (.inl rfl) quiet_gateEpoch
      (proper_gateEpoch (by omega) (by omega) hstate) ?_
    intro s₃ h₃
    refine wp_ownGate h₃ (by simp; omega) rest (fun w => ?_)
      fun s₄ h₄ => cont s₄ _ h₄ ?_ (by simp) ?_ ?_
    · simp [words, hself]
    · simp
      omega
    · simp [hf]
    · simp [hf]
  · intro hbad r s₁ hr why h₁
    simp only [ne_eq, hr, not_false_eq_true, if_true, Prog.bind_assoc]
    have hg : g = true := by
      cases g with
      | true => rfl
      | false => exact (hbad (ready rfl)).elim
    subst hg
    have corrupt : r ≠ .epochExhausted → ¬ k.clear :=
      fun ne clear => why.resolve_left ne (steady clear)
    unfold markGateProtocolFailure
    refine wp_leaveGate h₁ (by rintro ⟨⟩) (fun clear ne => ?_) ?_
    · exact (corrupt (fun he => ne (if_pos he)) clear).elim
    · intro s₂ h₂ onward exhausted
      refine h₂.throw (fun _ sound fresh => ?_) fails
      by_cases he : r = .epochExhausted
      · cases (exhausted (if_pos he)).symm.trans fresh
      · exact (corrupt he (h₁.clear sound (onward.fresh fresh))).elim

/-- The claim of a slot that is as its position promises cannot fail. -/
theorem wp_claimSlot {i expected desired : Nat} {next : Bool → QueueCode α}
    (h : q.Owner g t (some i) c k f s) (seen : f (.slotState i) = expected)
    (cont : ∀ s', q.Owner g t (some i) c { k with working := true }
      (f.set (.slotState i) desired) s' → q.logic.wp t Q (next true) s') :
    q.logic.wp t Q (sharedCas (.slotState i) expected desired >>= next) s := by
  have mine : Mine g (some i) (.slotState i) := .inr ⟨i, rfl, rfl⟩
  have quiet : Quiet g { k with working := true } (.slotState i) :=
    quiet_slot rfl (.inr ⟨rfl, rfl⟩)
  have proper : Proper g { k with working := true } f (.slotState i) desired :=
    proper_slot rfl rfl nofun
  refine Access.wp_cas (D := q.memory) rfl ?_ ?_
  · intro s₁ r₁ i₁ _
    have h₁ := owner_stable s s₁ h r₁ i₁
    have held : s₁.holder g ≠ none := by simp [h₁.holder]
    have taken := h₁.setWork (b := true)
    refine ⟨q.store t (.slotState i) desired (setWork g true s₁), rfl,
      inv_owned taken (inv_startWork i₁ held) mine quiet proper, ?_, cont _ (taken.store quiet)⟩
    intro u hne
    exact rely_trans (rely_setWork h₁.holder hne) (guar_store taken mine proper u hne)
  · intro s₁ r₁ i₁ hne
    have h₁ := owner_stable s s₁ h r₁ i₁
    exact (hne ((h₁.words _ mine).trans seen)).elim

/-- Moving a position is proper when it goes up. -/
theorem proper_enqueuePosition (grows : f .enqueuePosition ≤ v) :
    Proper g k f .enqueuePosition v := ⟨fun _ => grows, nofun, nofun, nofun⟩

theorem proper_dequeuePosition (grows : f .dequeuePosition ≤ v) :
    Proper g k f .dequeuePosition v := ⟨fun _ => grows, nofun, nofun, nofun⟩

end QueueSystem
end EdgeRuntime

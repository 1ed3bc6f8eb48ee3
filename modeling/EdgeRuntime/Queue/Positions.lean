import EdgeRuntime.Queue.Fifo

/-!
Position snapshots among any clients that move a position only by one and only while they
hold its gate. What else the clients do, and in what order, is left open. Whatever relation
of the two positions all moves keep, the positions of a snapshot are in it; for the queue
that is the ring.
-/
namespace EdgeRuntime
open Concurrent

/-- The word an instruction writes, and the value. -/
def Instr.written {L : Type} (read : L → Nat) : Instr L → Option (L × Nat)
  | .store l v => some (l, v)
  | .cas l expected desired => if read l = expected then some (l, desired) else none
  | .fetchAdd l n bits => some (l, (read l + n) % 2 ^ bits)
  | _ => none

inductive PositionCall
  | client (p : QueueCode Unit)
  | snapshot (operation : String)

/-- A finished snapshot: the positions at every instant of its call, the gates the caller
held when the call began, and the positions at its return. -/
structure PositionReport where
  enqueue : Nat
  dequeue : Nat
  instants : List (Nat × Nat)
  held : Bool → Bool
  last : Nat × Nat

structure PositionWorld (T : Type) where
  mem : QueueMem
  holder : Bool → Option T
  /-- The positions since the client's call began. -/
  instants : T → List (Nat × Nat)
  /-- The gates that the client held when its call began. -/
  held : T → Bool → Bool
  reports : List PositionReport

namespace PositionWorld
variable {T : Type} [DecidableEq T]

def positions (m : QueueMem) : Nat × Nat := (m .enqueuePosition, m .dequeuePosition)

/-- A gate belongs to the client that took it, until it is free again. -/
def holders (t : T) (l : QueueLoc) (v : Nat) (holder : Bool → Option T) : Bool → Option T :=
  match l with
  | .gateState g =>
      Function.update holder g (if v = MpmcLockState.free.code then none else some t)
  | _ => holder

def write (t : T) (l : QueueLoc) (v : Nat) (w : PositionWorld T) : PositionWorld T :=
  let m := w.mem.set l v
  { w with
    mem := m
    holder := holders t l v w.holder
    instants := fun u => w.instants u ++ [positions m] }

def memory : Memory T QueueLoc (PositionWorld T) where
  read := PositionWorld.mem
  write := write
  fill _ _ _ w := w
  answers _ _ _ _ := True
  lock _ _ := none
  unlock _ w := w
  futex _ := .fresh
  setFutex _ w := w

def machine : Machine T (Instr QueueLoc) Reply Error (Option (Nat × Nat)) PositionCall
    (PositionWorld T) where
  exec := memory.exec
  code _ a _ := match a with
    | .client p => p >>= fun _ => .ret none
    | .snapshot operation => snapshotQueuePositions operation >>= fun pair => .ret (some pair)
  allowed _ _ _ := True
  enter t _ w :=
    { w with
      instants := Function.update w.instants t [positions w.mem]
      held := Function.update w.held t fun g => decide (w.holder g = some t) }
  leave t _ x w := match x with
    | .ok (some pair) =>
        { w with
          reports := w.reports ++
            [⟨pair.1, pair.2, w.instants t, w.held t, positions w.mem⟩] }
    | _ => w
  crash _ w := w

instance (t : T) (a : PositionCall) (w : PositionWorld T) :
    Decidable (machine.allowed t a w) :=
  .isTrue trivial

/-- The positions of a queue with this capacity. -/
def InRing (capacity enqueue dequeue : Nat) : Prop :=
  dequeue ≤ enqueue ∧ enqueue ≤ dequeue + capacity

instance (capacity enqueue dequeue : Nat) : Decidable (InRing capacity enqueue dequeue) :=
  inferInstanceAs (Decidable (_ ∧ _))

/-- What a client may write: a position if it holds the gate, and then one further; a gate's
state unless another holds the gate. Moves keep the relation `ring`. -/
@[mk_iff]
structure Proper (ring : Nat → Nat → Prop) (t : T) (w : PositionWorld T) (l : QueueLoc)
    (v : Nat) : Prop where
  enqueue : l = .enqueuePosition → w.holder true = some t ∧
    v = w.mem .enqueuePosition + 1 ∧ ring v (w.mem .dequeuePosition)
  dequeue : l = .dequeuePosition → w.holder false = some t ∧
    v = w.mem .dequeuePosition + 1 ∧ ring (w.mem .enqueuePosition) v
  gate : ∀ g, l = .gateState g → w.holder g = none ∨ w.holder g = some t

/-- The step keeps to the rules. -/
def Orderly (ring : Nat → Nat → Prop) (w : PositionWorld T) :
    Event T (Instr QueueLoc) Reply Error (Option (Nat × Nat)) PositionCall → Prop
  | .op t i _ => ∀ x ∈ i.written w.mem, Proper ring t w x.1 x.2
  | _ => True

section
variable (ring : Nat → Nat → Prop) [∀ e d, Decidable (ring e d)]

instance (t : T) (w : PositionWorld T) (l : QueueLoc) (v : Nat) :
    Decidable (Proper ring t w l v) :=
  decidable_of_iff _ (proper_iff ring t w l v).symm

instance (w : PositionWorld T)
    (e : Event T (Instr QueueLoc) Reply Error (Option (Nat × Nat)) PositionCall) :
    Decidable (Orderly ring w e) :=
  match e with
  | .op _ i _ => inferInstanceAs (Decidable (∀ x ∈ i.written w.mem, _))
  | .call _ _ | .ret _ _ | .crash _ => .isTrue trivial

end

/-- A report that is true of one instant of its call; what the caller's own gate protects
is still true at the return. -/
structure Together (ring : Nat → Nat → Prop) (report : PositionReport) : Prop where
  instant : (report.enqueue, report.dequeue) ∈ report.instants
  related : ring report.enqueue report.dequeue
  enqueue : report.held true = true → report.last.1 = report.enqueue
  dequeue : report.held false = true → report.last.2 = report.dequeue

structure Inv (ring : Nat → Nat → Prop) (w : PositionWorld T) : Prop where
  related : ring (w.mem .enqueuePosition) (w.mem .dequeuePosition)
  current : ∀ t, positions w.mem ∈ w.instants t
  reports : ∀ report ∈ w.reports, Together ring report

/-- The position of a gate. -/
def position (g : Bool) : QueueLoc := if g then .enqueuePosition else .dequeuePosition

/-- What `t` may count on while others run. -/
structure Rely (t : T) (w w' : PositionWorld T) : Prop where
  mono : ∀ g, w.mem (position g) ≤ w'.mem (position g)
  mine : ∀ g, w.holder g = some t →
    w'.holder g = some t ∧ w'.mem (position g) = w.mem (position g)
  instants : w.instants t ⊆ w'.instants t
  held : w'.held t = w.held t

omit [DecidableEq T] in
theorem Rely.refl (t : T) (w : PositionWorld T) : Rely t w w :=
  ⟨fun _ => Nat.le_refl _, fun _ h => ⟨h, rfl⟩, List.Subset.refl _, rfl⟩

def logic (ring : Nat → Nat → Prop) :
    Logic T (Instr QueueLoc) Reply (PositionWorld T) (PositionWorld T) where
  exec t i w r w' := memory.exec t i w r w' ∧
    ∀ x ∈ i.written w.mem, Proper ring t w x.1 x.2
  world := id
  inv := Inv ring
  rely := Rely
  guar t w w' := ∀ u, u ≠ t → Rely u w w'
  rely_refl := Rely.refl
  rely_trans t w w' w'' h h' := by
    refine ⟨fun g => Nat.le_trans (h.mono g) (h'.mono g), ?_,
      List.Subset.trans h.instants h'.instants, h'.held.trans h.held⟩
    intro g mine
    obtain ⟨still, same⟩ := h.mine g mine
    obtain ⟨still', same'⟩ := h'.mine g still
    exact ⟨still', same'.trans same⟩
  guar_refl t w u _ := Rely.refl u w
  guar_rely _ _ _ _ ne h := h _ ne.symm

variable {ring : Nat → Nat → Prop} {t u : T} {w w' : PositionWorld T} {l : QueueLoc} {v : Nat}

/-- An instruction writes one word or nothing. -/
theorem exec_writes {i : Instr QueueLoc} {r : Reply i} (h : memory.exec t i w r w') :
    w' = w ∨ ∃ x, i.written w.mem = some x ∧ w' = write t x.1 x.2 w := by
  cases i with
  | load | probe | watch => exact .inl h.2
  | boottime | monotonic | copyOut | futexWake | futexRise | unlock => exact .inl h
  | store l v => exact .inr ⟨(l, v), rfl, h⟩
  | cas l expected desired =>
      obtain ⟨-, after⟩ := h
      split at after
      · rename_i same
        exact .inr ⟨(l, desired), if_pos same, after⟩
      · exact .inl after
  | fetchAdd l n bits => exact .inr ⟨_, rfl, h.2⟩
  | futexSleep l expected =>
      obtain ⟨-, after⟩ := h
      split at after
      · exact .inl after
      · exact .inl after
  | lock =>
      cases r with
      | ok _ => cases h
      | error _ => exact .inl h
  | block => exact h.elim

omit [DecidableEq T] in
/-- A proper write moves a position by at most one, and only the holder's. -/
theorem Proper.position (proper : Proper ring t w l v) (g : Bool) :
    w.mem.set l v (position g) = w.mem (position g) ∨
      w.holder g = some t ∧ w.mem.set l v (position g) = w.mem (position g) + 1 := by
  rw [Words.set_apply]
  split
  · rename_i same
    cases g with
    | true =>
        obtain ⟨holds, rfl, -⟩ := proper.enqueue same.symm
        exact .inr ⟨holds, rfl⟩
    | false =>
        obtain ⟨holds, rfl, -⟩ := proper.dequeue same.symm
        exact .inr ⟨holds, rfl⟩
  · exact .inl rfl

omit [DecidableEq T] in
theorem Proper.related (proper : Proper ring t w l v) (hi : Inv ring w) :
    ring (w.mem.set l v .enqueuePosition) (w.mem.set l v .dequeuePosition) := by
  simp only [Words.set_apply]
  split
  · rename_i same
    rw [if_neg (by rw [← same]; rintro ⟨⟩)]
    exact (proper.enqueue same.symm).2.2
  · split
    · rename_i same
      exact (proper.dequeue same.symm).2.2
    · exact hi.related

omit [DecidableEq T] in
theorem rely_write (proper : Proper ring t w l v) (hu : u ≠ t) :
    Rely u w (write t l v w) := by
  refine ⟨?_, ?_, List.subset_append_left _ _, rfl⟩
  · intro g
    rcases proper.position g with same | ⟨-, next⟩
    · exact Nat.le_of_eq same.symm
    · exact Nat.le_trans (Nat.le_succ _) (Nat.le_of_eq next.symm)
  · intro g mine
    have other : w.holder g ≠ some t := by
      rw [mine]
      exact fun same => hu (Option.some.inj same)
    constructor
    · change holders t l v w.holder g = some u
      unfold holders
      split
      · rename_i g'
        by_cases hg : g = g'
        · subst hg
          rcases proper.gate g rfl with free | holds
          · rw [free] at mine
            cases mine
          · exact absurd holds other
        · rw [Function.update_of_ne hg]
          exact mine
      · exact mine
    · exact (proper.position g).resolve_right fun moved => other moved.1

omit [DecidableEq T] in
theorem inv_write (proper : Proper ring t w l v) (hi : Inv ring w) :
    Inv ring (write t l v w) where
  related := proper.related hi
  current _ := List.mem_append_right _ List.mem_cons_self
  reports := hi.reports

/-- Whatever a client's program is, its steps by the rules are tolerated. -/
theorem wp_client (p : QueueCode Unit) : (logic ring).wp t (fun _ _ => True) p w := by
  induction p generalizing w with
  | ret _ | throw _ => exact fun _ _ _ => trivial
  | op i k ih =>
      intro w₁ _ hi r w₂ ⟨step, proper⟩
      rcases exec_writes step with same | ⟨x, written, rfl⟩
      · exact ⟨w₁, same.symm, hi, (logic ring).guar_refl t w₁, ih r⟩
      · exact ⟨write t x.1 x.2 w₁, rfl, inv_write (proper x written) hi,
          fun u hu => rely_write (proper x written) hu, ih r⟩

/-- What a snapshot saw together was true at an instant of the call, and what the gates of
the caller protect is true still. -/
theorem together_of_seen {e d : Nat}
    (seen : SeenTogether (logic ring) memory t w w' e d)
    (held : ∀ g, w.held t g = true → w.holder g = some t) :
    Together ring ⟨e, d, w'.instants t, w'.held t, positions w'.mem⟩ := by
  obtain ⟨w₁, before, inv, after, rfl, rfl⟩ := seen
  have guarded : ∀ g, w'.held t g = true → w'.mem (position g) = w₁.mem (position g) := by
    intro g mine
    rw [after.held, before.held] at mine
    exact (after.mine g (before.mine g (held g mine)).1).2
  exact ⟨after.instants (inv.current t), inv.related, guarded true, guarded false⟩

theorem wp_snapshot (operation : String)
    (held : ∀ g, w.held t g = true → w.holder g = some t) :
    (logic ring).wp t
      ((logic ring).Returns machine (fun _ _ => True) t (.snapshot operation))
      (snapshotQueuePositions operation >>= fun pair => .ret (some pair)) w := by
  have seen := obs_positionsLoop (L := logic ring) (D := memory) (t := t)
    (fun _ _ _ _ h => h.1) (fun _ _ h => h.mono true) operation ownerSnapshotRetries
    (Rely.refl t w)
  refine Logic.wp_map (Logic.obs_wp seen) ?_ ?_
  · intro pair w' hi seen
    have together := together_of_seen (seen pair.1 pair.2 rfl) held
    refine ⟨_, rfl, ⟨hi.related, hi.current, ?_⟩, ?_, trivial⟩
    · intro report mem
      rcases List.mem_append.1 mem with old | new
      · exact hi.reports report old
      · rw [List.mem_singleton.1 new]
        exact together
    · intro u _
      exact ⟨fun _ => Nat.le_refl _, fun _ h => ⟨h, rfl⟩, List.Subset.refl _, rfl⟩
  · intro e w' hi _
    exact ⟨w', rfl, hi, (logic ring).guar_refl t w', trivial⟩

/-- A call begins. -/
theorem call_enters {a : PositionCall} (hi : Inv ring w) :
    Inv ring (machine.enter t a w) ∧ ∀ u, u ≠ t → Rely u w (machine.enter t a w) := by
  constructor
  · refine ⟨hi.related, ?_, hi.reports⟩
    intro u
    change _ ∈ Function.update w.instants t [positions w.mem] u
    by_cases hu : u = t
    · rw [hu, Function.update_self]
      exact List.mem_cons_self
    · rw [Function.update_of_ne hu]
      exact hi.current u
  · intro u hu
    refine ⟨fun _ => Nat.le_refl _, fun _ h => ⟨h, rfl⟩, ?_, Function.update_of_ne hu _ _⟩
    change _ ⊆ Function.update w.instants t [positions w.mem] u
    rw [Function.update_of_ne hu]
    exact List.Subset.refl _

def outline (ring : Nat → Nat → Prop) :
    Outline (machine (T := T)) (Orderly ring) (logic ring) where
  idle _ _ := True
  idle_stable _ := fun _ _ _ _ _ => trivial
  exec_sound _ _ _ _ _ h proper := ⟨h, proper⟩
  call_sound t a w hi _ _ _ := by
    obtain ⟨inv, guar⟩ := call_enters (t := t) (a := a) hi
    refine ⟨machine.enter t a w, rfl, inv, guar, ?_⟩
    cases a with
    | client p =>
        refine Logic.wp_map (wp_client p) ?_ ?_
        · exact fun _ w' hi' _ => ⟨w', rfl, hi', (logic ring).guar_refl t w', trivial⟩
        · exact fun _ w' hi' _ => ⟨w', rfl, hi', (logic ring).guar_refl t w', trivial⟩
    | snapshot operation =>
        apply wp_snapshot operation
        intro g held
        have held : Function.update w.held t (fun g => decide (w.holder g = some t)) t g =
            true := held
        rw [Function.update_self] at held
        exact of_decide_eq_true held
  crash_sound t w hi _ := ⟨w, rfl, hi, (logic ring).guar_refl t w⟩

/-- The words before any client has begun. -/
def init (mem : QueueMem) : PositionWorld T where
  mem := mem
  holder _ := none
  instants _ := [positions mem]
  held _ _ := false
  reports := []

theorem together_of_reach {mem : QueueMem}
    (related : ring (mem .enqueuePosition) (mem .dequeuePosition))
    {c : Config T (Instr QueueLoc) Reply Error (Option (Nat × Nat)) PositionCall
      (PositionWorld T)}
    (run : machine.Reach (Orderly ring) (machine.start (init mem)) c)
    {report : PositionReport} (finished : report ∈ c.world.reports) :
    Together ring report := by
  have start : Inv ring (init mem : PositionWorld T) :=
    ⟨related, fun _ => List.mem_cons_self, nofun⟩
  obtain ⟨w, world, inv⟩ := (outline ring).inv_of_reach rfl start (fun _ => trivial) run
  obtain rfl : w = c.world := world
  exact inv.reports report finished

/-- The pushes and pops of a queue keep its positions in the ring. -/
theorem inRing_of_reach {q : QueueSystem T} {out : T → Nat → Nat}
    {c : Config T (Instr QueueLoc) Reply Error Unit QueueCall (QueueWorld T)}
    (run : q.machine.Reach (fun _ _ => True) (q.machine.start (q.init out)) c) :
    InRing q.handle.capacity (c.world.mem .enqueuePosition) (c.world.mem .dequeuePosition) := by
  obtain ⟨s, hs, hi⟩ := QueueSystem.inv_reach run
  rw [← hs]
  exact ⟨hi.order, hi.room⟩

/-- Any clients run any programs that move a position by one and only while they hold its
gate. Every snapshot that succeeded reports positions that were current together at one
instant of its call, and the position whose gate the caller holds is current still. Where
the moves stay in the ring, the reported positions are in it; and those of a queue do, at
every instant of every run. -/
theorem positions_together (mem : QueueMem)
    {c : Config T (Instr QueueLoc) Reply Error (Option (Nat × Nat)) PositionCall
      (PositionWorld T)} :
    (machine.Reach (Orderly fun _ _ => True) (machine.start (init mem)) c →
      ∀ report ∈ c.world.reports,
        (report.enqueue, report.dequeue) ∈ report.instants ∧
        (report.held true = true → report.last.1 = report.enqueue) ∧
        (report.held false = true → report.last.2 = report.dequeue)) ∧
    (∀ capacity, InRing capacity (mem .enqueuePosition) (mem .dequeuePosition) →
      machine.Reach (Orderly (InRing capacity)) (machine.start (init mem)) c →
      ∀ report ∈ c.world.reports, report.dequeue ≤ report.enqueue ∧
        report.enqueue ≤ report.dequeue + capacity) ∧
    ∀ (q : QueueSystem T) (out : T → Nat → Nat)
      (c : Config T (Instr QueueLoc) Reply Error Unit QueueCall (QueueWorld T)),
      q.machine.Reach (fun _ _ => True) (q.machine.start (q.init out)) c →
      InRing q.handle.capacity (c.world.mem .enqueuePosition) (c.world.mem .dequeuePosition) := by
  refine ⟨?_, ?_, fun _ _ _ run => inRing_of_reach run⟩
  · intro run report finished
    have together := together_of_reach trivial run finished
    exact ⟨together.instant, together.enqueue, together.dequeue⟩
  · intro capacity start run report finished
    exact (together_of_reach start run finished).related

/-- Take the enqueue gate and move its position. -/
def pushOne : QueueCode Unit := do
  let taken ← sharedCas (.gateState true) MpmcLockState.free.code MpmcLockState.owned.code
  if taken then
    let enqueue ← sharedLoad .enqueuePosition
    sharedStore .enqueuePosition (enqueue + 1)
  else return ()

/-- A client moves the enqueue position and keeps the gate; while it takes a snapshot,
another client begins one too. -/
def gatedRun : Option (Config Bool (Instr QueueLoc) Reply Error (Option (Nat × Nat))
    PositionCall (PositionWorld Bool)) :=
  machine.play (Orderly (InRing 2)) (memory.answer (fun _ _ _ => .alive) fun _ => 0)
    (machine.start (init fun _ => 0))
    [.call false (.snapshot "other"), .run false 1, .call true (.client pushOne), .run true 3,
      .ret true, .call true (.snapshot "holder"), .run false 7, .ret false, .run true 4,
      .ret true]

theorem positions_together_gated :
    ∃ c, gatedRun = some c ∧
      c.world.reports.map (fun report => (report.enqueue, report.dequeue, report.held true)) =
        [(1, 0, false), (1, 0, true)] ∧
      ∀ report ∈ c.world.reports, report.dequeue ≤ report.enqueue ∧
        report.enqueue ≤ report.dequeue + 2 := by
  have ran : gatedRun.map (fun c => c.world.reports.map fun report =>
      (report.enqueue, report.dequeue, report.held true)) =
      some [(1, 0, false), (1, 0, true)] := by decide +kernel
  obtain ⟨c, ran, shown⟩ := Option.map_eq_some_iff.1 ran
  have run := Machine.reach_play (memory.answer_exec fun _ _ _ => trivial) ran
  exact ⟨c, ran, shown, (positions_together fun _ => 0).2.1 2 (by decide) run⟩

end PositionWorld
end EdgeRuntime

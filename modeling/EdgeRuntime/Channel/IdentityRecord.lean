import EdgeRuntime.Channel.Takeover
import EdgeRuntime.Concurrent.Schedule

/-!
One identity record, its writers and its readers. Writers exclude each other and may die
between any two stores; a reader retries until it sees one even epoch twice. The world
remembers which tuple each write was to store, and which writes were completed.
-/
namespace EdgeRuntime
open Concurrent

inductive IdentityCall
  | read
  | write (snap : ProcessIdentity)

inductive IdentityResult
  | seen (id : ProcessIdentityAbi)
  | written (roleEpoch : Nat)
  deriving DecidableEq, Repr

/-- The record that a write of `snap` at this epoch leaves. -/
def stamped (snap : ProcessIdentity) (roleEpoch : Nat) : ProcessIdentityAbi :=
  ⟨roleEpoch, snap.pid, snap.procStartTicks, snap.bootIdHashHi, snap.bootIdHashLo⟩

def blankIdentity : ProcessIdentityAbi := ⟨0, 0, 0, 0, 0⟩

/-- A finished call, whether it began after a write had been torn, and the writes that were
completed before it began and before it returned. -/
structure IdentityReport where
  call : IdentityCall
  result : Except Error IdentityResult
  late : Bool
  earlier : List ProcessIdentityAbi
  completed : List ProcessIdentityAbi

structure IdentityWorld (T : Type) where
  words : ChannelMem
  /-- The writer that the others are excluded by. -/
  writer : Option T
  /-- The writer between its first and its last store. -/
  midway : Option T
  /-- Some writer died midway. -/
  torn : Bool
  /-- The tuple that the call in flight is to store. -/
  snap : T → ProcessIdentity
  /-- The call in flight began after a write had been torn. -/
  late : T → Bool
  /-- The writes that were completed when the call in flight began. -/
  earlier : T → List ProcessIdentityAbi
  completed : List ProcessIdentityAbi
  finished : List IdentityReport

namespace IdentityWorld
variable {T : Type} [DecidableEq T] (producer : Bool)

def epoch (w : IdentityWorld T) : Nat := w.words (.identity producer .roleEpoch)

/-- An odd epoch opens a write, an even one completes it. -/
def write (t : T) (l : ChannelLoc) (v : Nat) (w : IdentityWorld T) : IdentityWorld T :=
  { w with
    words := w.words.set l v
    midway := if l = .identity producer .roleEpoch then (if v % 2 = 0 then none else some t)
      else w.midway
    completed := if l = .identity producer .roleEpoch ∧ v % 2 = 0 then
      w.completed ++ [stamped (w.snap t) v] else w.completed }

def memory : Memory T ChannelLoc (IdentityWorld T) where
  read w := w.words
  write := write producer
  fill _ _ _ w := w
  answers _ _ _ _ := True
  lock _ _ := none
  unlock _ w := w
  futex _ := .fresh
  setFutex _ w := w

def enter (t : T) (a : IdentityCall) (w : IdentityWorld T) : IdentityWorld T :=
  let w := { w with
    late := Function.update w.late t w.torn
    earlier := Function.update w.earlier t w.completed }
  match a with
  | .read => w
  | .write snap => { w with writer := some t, snap := Function.update w.snap t snap }

/-- The exclusion ends with the call of the writer. -/
def released (t : T) (w : IdentityWorld T) : Option T :=
  if w.writer = some t then none else w.writer

def leave (t : T) (a : IdentityCall) (x : Except Error IdentityResult) (w : IdentityWorld T) :
    IdentityWorld T :=
  { w with
    writer := w.released t
    finished := w.finished ++ [⟨a, x, w.late t, w.earlier t, w.completed⟩] }

/-- A writer that dies leaves the record as it is; the exclusion ends. -/
def crash (t : T) (w : IdentityWorld T) : IdentityWorld T :=
  { w with
    writer := w.released t
    midway := if w.midway = some t then none else w.midway
    torn := w.torn || decide (w.midway = some t) }

def machine : Machine T (Instr ChannelLoc) Reply Error IdentityResult IdentityCall
    (IdentityWorld T) where
  exec := (memory producer).exec
  code _ a _ := match a with
    | .read => do
        let id ← identitySnapshotRead producer
        return .seen id
    | .write snap => do
        let roleEpoch ← identitySnapshotWrite producer snap
        return .written roleEpoch
  allowed _ a w := match a with
    | .read => True
    | .write _ => w.writer = none
  enter := enter
  leave := leave
  crash := crash

instance (t : T) (a : IdentityCall) (w : IdentityWorld T) :
    Decidable ((machine producer).allowed t a w) :=
  match a with
  | .read => .isTrue trivial
  | .write _ => inferInstanceAs (Decidable (w.writer = none))

/-- The record before its first write. -/
def init : IdentityWorld T where
  words _ := 0
  writer := none
  midway := none
  torn := false
  snap _ := default
  late _ := false
  earlier _ := []
  completed := []
  finished := []

/-- The record that a read may return: the blank one as long as no write was completed, or
that of a write which was not yet followed by another one when the read began. -/
def Shows (earlier completed : List ProcessIdentityAbi) (id : ProcessIdentityAbi) : Prop :=
  (id = blankIdentity ∧ earlier = []) ∨
    ∃ i : Nat, completed[i]? = some id ∧ earlier.length ≤ i + 1

/-- What a finished call may have reported. -/
structure Sound (report : IdentityReport) : Prop where
  whole : ∀ id, report.result = .ok (.seen id) → Shows report.earlier report.completed id
  written : ∀ snap roleEpoch, report.call = .write snap →
    report.result = .ok (.written roleEpoch) → stamped snap roleEpoch ∈ report.completed
  late : report.call = .read → report.late = true → ∃ e, report.result = .error e

structure Inv (w : IdentityWorld T) : Prop where
  current : w.epoch producer % 2 = 0 →
    identityAt producer w.words = w.completed.getLast?.getD blankIdentity
  ordered : w.completed.Pairwise fun id id' => id.roleEpoch < id'.roleEpoch
  epochs : ∀ id ∈ w.completed, id.roleEpoch % 2 = 0 ∧ id.roleEpoch ≤ w.epoch producer
  bounded : w.epoch producer ≤ uint64Max
  midway : ∀ t, w.midway = some t → w.writer = some t ∧ w.epoch producer % 2 = 1
  torn : w.torn = true → w.epoch producer % 2 = 1
  late : ∀ t, w.late t = true → w.torn = true
  earlier : ∀ t, w.earlier t <+: w.completed
  finished : ∀ report ∈ w.finished, Sound report ∧ report.completed <+: w.completed

/-- The epoch only grows, and while it stands at an even value the record stays. -/
structure Onward (m m' : ChannelMem) : Prop where
  mono : m (.identity producer .roleEpoch) ≤ m' (.identity producer .roleEpoch)
  kept : m' (.identity producer .roleEpoch) = m (.identity producer .roleEpoch) →
    m (.identity producer .roleEpoch) % 2 = 0 →
    ∀ x, m' (.identity producer x) = m (.identity producer x)

variable {producer} {m m' m'' : ChannelMem}

theorem Onward.refl (m : ChannelMem) : Onward producer m m :=
  ⟨Nat.le_refl _, fun _ _ _ => rfl⟩

/-- A view between two of one even epoch is the same view. -/
theorem Onward.between (h : Onward producer m m') (h' : Onward producer m' m'')
    (same : m'' (.identity producer .roleEpoch) = m (.identity producer .roleEpoch))
    (even : m (.identity producer .roleEpoch) % 2 = 0) (x : IdentityWord) :
    m' (.identity producer x) = m (.identity producer x) := by
  have first := h.mono
  have second := h'.mono
  exact h.kept (by omega) even x

theorem Onward.trans (h : Onward producer m m') (h' : Onward producer m' m'') :
    Onward producer m m'' where
  mono := Nat.le_trans h.mono h'.mono
  kept same even x := by
    have here := h.between h' same even
    refine (h'.kept ?_ ?_ x).trans (here x)
    · rw [same, here]
    · rw [here]
      exact even

variable (producer)

/-- What `t` may count on while others run. -/
structure Rely (t : T) (w w' : IdentityWorld T) : Prop where
  onward : Onward producer w.words w'.words
  completed : w.completed <+: w'.completed
  writer : w'.writer = some t ↔ w.writer = some t
  mine : w.writer = some t → w'.words = w.words ∧ w'.torn = w.torn ∧ w'.midway = w.midway
  snap : w'.snap t = w.snap t
  late : w'.late t = w.late t
  earlier : w'.earlier t = w.earlier t

omit [DecidableEq T] in
theorem Rely.refl (t : T) (w : IdentityWorld T) : Rely producer t w w :=
  ⟨.refl _, List.prefix_refl _, Iff.rfl, fun _ => ⟨rfl, rfl, rfl⟩, rfl, rfl, rfl⟩

def logic : Logic T (Instr ChannelLoc) Reply (IdentityWorld T) (IdentityWorld T) where
  exec := (memory producer).exec
  world := id
  inv := Inv producer
  rely := Rely producer
  guar t w w' := ∀ u, u ≠ t → Rely producer u w w'
  rely_refl := Rely.refl producer
  rely_trans t w w' w'' h h' := by
    refine ⟨h.onward.trans h'.onward, h.completed.trans h'.completed,
      h'.writer.trans h.writer, ?_, h'.snap.trans h.snap, h'.late.trans h.late,
      h'.earlier.trans h.earlier⟩
    intro mine
    obtain ⟨words, torn, midway⟩ := h.mine mine
    obtain ⟨words', torn', midway'⟩ := h'.mine (h.writer.2 mine)
    exact ⟨words'.trans words, torn'.trans torn, midway'.trans midway⟩
  guar_refl t w u _ := Rely.refl producer u w
  guar_rely _ _ _ _ ne h := h _ ne.symm

variable {producer} {α : Type} {t : T} {w : IdentityWorld T} {snap : ProcessIdentity}
  {Q : Except Error α → IdentityWorld T → Prop} {x : IdentityWord} {v : Nat}

/-- `t` is not writing. -/
def Outside (t : T) (w : IdentityWorld T) : Prop := w.writer ≠ some t

theorem outside_stable : (logic producer).Stable t (Outside (T := T) t) := by
  intro w w' h hr _ mine
  exact h (hr.writer.1 mine)

section Read

omit [DecidableEq T] in
/-- An even epoch shows the last completed write, or the blank record. -/
theorem Inv.whole (hi : Inv producer w) (even : w.epoch producer % 2 = 0) (t : T) :
    Shows (w.earlier t) w.completed (identityAt producer w.words) := by
  have begun := hi.earlier t
  rw [hi.current even]
  cases last : w.completed.getLast? with
  | none =>
      rw [List.getLast?_eq_none_iff.1 last] at begun
      exact .inl ⟨rfl, List.prefix_nil.1 begun⟩
  | some id =>
      rw [List.getLast?_eq_getElem?] at last
      have long := begun.length_le
      exact .inr ⟨_, last, by omega⟩

/-- More completed writes do not matter to what is shown. -/
theorem Shows.mono {earlier completed completed' : List ProcessIdentityAbi}
    {id : ProcessIdentityAbi} (shows : Shows earlier completed id)
    (more : completed <+: completed') : Shows earlier completed' id := by
  rcases shows with blank | ⟨i, here, fresh⟩
  · exact .inl blank
  · refine .inr ⟨i, ?_, fresh⟩
    obtain ⟨inside, rfl⟩ := List.getElem?_eq_some_iff.1 here
    exact List.prefix_iff_getElem?.1 more i inside

omit [DecidableEq T] in
/-- At an even epoch no write has been torn, so nobody is late. -/
theorem Inv.on_time (hi : Inv producer w) (even : w.epoch producer % 2 = 0) :
    w.late t = false := by
  by_contra late
  have odd := hi.torn (hi.late t (eq_true_of_ne_false late))
  omega

/-- What a read by `t` reports. -/
def Reports (t : T) (result : Except Error ProcessIdentityAbi) (w : IdentityWorld T) : Prop :=
  (∀ id, result = .ok id → Shows (w.earlier t) w.completed id) ∧
    (w.late t = true → ∃ e, result = .error e)

theorem wp_identitySnapshotReadLoop (attempts : Nat) (outside : Outside t w) :
    (logic producer).wp t (fun result w => Outside t w ∧ Reports t result w)
      (identitySnapshotReadLoop producer attempts) w := by
  induction attempts generalizing w with
  | zero =>
      refine Logic.wp_throw _ outside_stable outside ?_
      intro w' _ outside'
      exact ⟨outside', nofun, fun _ => ⟨_, rfl⟩⟩
  | succ attempts ih =>
      rw [identitySnapshotReadLoop]
      refine Access.wp_load (D := memory producer) rfl fun w₁ r₁ i₁ => ?_
      have outside₁ := outside_stable w w₁ outside r₁ i₁
      split
      · exact ih outside₁
      rename_i even
      have even : w₁.epoch producer % 2 = 0 := not_not.1 even
      refine Access.wp_load (D := memory producer) rfl fun w₂ r₂ _ => ?_
      refine Access.wp_load (D := memory producer) rfl fun w₃ r₃ _ => ?_
      refine Access.wp_load (D := memory producer) rfl fun w₄ r₄ _ => ?_
      refine Access.wp_load (D := memory producer) rfl fun w₅ r₅ _ => ?_
      refine Access.wp_load (D := memory producer) rfl fun w₆ r₆ i₆ => ?_
      have to₃ := (logic producer).rely_trans t _ _ _ r₂ r₃
      have to₄ := (logic producer).rely_trans t _ _ _ to₃ r₄
      have to₅ := (logic producer).rely_trans t _ _ _ to₄ r₅
      have to₆ := (logic producer).rely_trans t _ _ _ to₅ r₆
      split
      · exact ih (outside_stable w₁ w₆ outside₁ to₆ i₆)
      rename_i settled
      have same := not_not.1 (not_or.1 settled).2
      intro w₇ r₇ i₇
      have to₇ := (logic producer).rely_trans t _ _ _ to₆ r₇
      refine ⟨outside_stable w₁ w₇ outside₁ to₇ i₇, ?_, ?_⟩
      · intro id result
        -- every word was read between two sights of one even epoch
        have record : id = identityAt producer w₁.words := by
          cases result
          have from₄ := r₅.onward.trans r₆.onward
          have from₃ := r₄.onward.trans from₄
          have from₂ := r₃.onward.trans from₃
          simp only [identityAt, ProcessIdentityAbi.mk.injEq]
          exact ⟨same, r₂.onward.between from₂ same even .pid,
            to₃.onward.between from₃ same even .procStartTicks,
            to₄.onward.between from₄ same even .bootIdHashHi,
            to₅.onward.between r₆.onward same even .bootIdHashLo⟩
        rw [record, to₇.earlier]
        exact (i₁.whole even t).mono to₇.completed
      · intro late
        rw [to₇.late, i₁.on_time even] at late
        cases late

end Read

section Write

/-- `t` is writing, and these are the words of the record. -/
structure Custody (t : T) (snap : ProcessIdentity) (midway : Option T) (m : ChannelMem)
    (w : IdentityWorld T) : Prop where
  writer : w.writer = some t
  words : w.words = m
  snap : w.snap t = snap
  midway : w.midway = midway
  calm : w.torn = false

theorem custody_stable {midway : Option T} {m : ChannelMem} :
    (logic producer).Stable t (Custody t snap midway m) := by
  intro w w' h hr _
  obtain ⟨words, torn, middle⟩ := hr.mine h.writer
  exact ⟨hr.writer.2 h.writer, words.trans h.words, hr.snap.trans h.snap,
    middle.trans h.midway, torn.trans h.calm⟩

omit [DecidableEq T] in
/-- Nobody but the writer counts on the words. -/
theorem other_writer {u : T} (hu : u ≠ t) (writer : w.writer = some t) : w.writer ≠ some u := by
  rw [writer]
  exact fun same => hu (Option.some.inj same).symm

omit [DecidableEq T] in
theorem rely_write {u : T} {l : ChannelLoc} (hu : u ≠ t) (writer : w.writer = some t)
    (onward : Onward producer w.words (w.words.set l v)) :
    Rely producer u w (write producer t l v w) where
  onward := onward
  completed := by
    unfold write
    dsimp only
    split
    · exact List.prefix_append _ _
    · exact List.prefix_refl _
  writer := Iff.rfl
  mine h := (other_writer hu writer h).elim
  snap := rfl
  late := rfl
  earlier := rfl

omit [DecidableEq T] in
/-- While the epoch is odd, the record itself may be anything. -/
theorem inv_odd {l : ChannelLoc} (hi : Inv producer w) (writer : w.writer = some t)
    (mono : w.epoch producer ≤ (write producer t l v w).epoch producer)
    (odd : (write producer t l v w).epoch producer % 2 = 1)
    (bounded : (write producer t l v w).epoch producer ≤ uint64Max)
    (completed : (write producer t l v w).completed = w.completed)
    (midway : (write producer t l v w).midway = some t) :
    Inv producer (write producer t l v w) where
  current even := by omega
  ordered := by
    rw [completed]
    exact hi.ordered
  epochs id mem := by
    rw [completed] at mem
    obtain ⟨even, le⟩ := hi.epochs id mem
    exact ⟨even, Nat.le_trans le mono⟩
  bounded := bounded
  midway u middle := by
    rw [midway] at middle
    exact ⟨writer.trans middle, odd⟩
  torn _ := odd
  late := hi.late
  earlier u := by
    rw [completed]
    exact hi.earlier u
  finished report mem := by
    rw [completed]
    exact hi.finished report mem

variable {m : ChannelMem} {next : Unit → ChannelCode α}

/-- The store that opens a write. -/
theorem wp_store_open {cur : Nat} (h : Custody t snap none m w)
    (epoch : m (.identity producer .roleEpoch) = cur) (even : cur % 2 = 0)
    (room : cur + 2 ≤ uint64Max)
    (cont : ∀ w', Custody t snap (some t) (m.set (.identity producer .roleEpoch) (cur + 1)) w' →
      (logic producer).wp t Q (next ()) w') :
    (logic producer).wp t Q (sharedStore (.identity producer .roleEpoch) (cur + 1) >>= next)
      w := by
  refine Access.wp_store (D := memory producer) rfl fun w₁ r₁ i₁ => ?_
  obtain ⟨writer, rfl, rfl, -, calm⟩ := custody_stable w w₁ h r₁ i₁
  have odd : (cur + 1) % 2 = 1 := by omega
  have value : (write producer t (.identity producer .roleEpoch) (cur + 1) w₁).epoch producer =
      cur + 1 := by simp [write, IdentityWorld.epoch]
  have completed : (write producer t (.identity producer .roleEpoch) (cur + 1) w₁).completed =
      w₁.completed := by simp [write, odd]
  have midway : (write producer t (.identity producer .roleEpoch) (cur + 1) w₁).midway =
      some t := by simp [write, odd]
  refine ⟨write producer t _ _ w₁, rfl, inv_odd i₁ writer ?_ ?_ ?_ completed midway, ?_,
    cont _ ⟨writer, rfl, rfl, midway, calm⟩⟩
  · rw [value]
    exact Nat.le_trans (Nat.le_of_eq epoch) (Nat.le_succ cur)
  · rw [value]
    exact odd
  · rw [value]
    omega
  · intro u hu
    refine rely_write hu writer ⟨?_, ?_⟩
    · simp [epoch]
    · intro same
      simp [epoch] at same

/-- The stores of the words between the two epochs. -/
theorem wp_store_word (h : Custody t snap (some t) m w) (other : x ≠ .roleEpoch)
    (odd : m (.identity producer .roleEpoch) % 2 = 1)
    (cont : ∀ w', Custody t snap (some t) (m.set (.identity producer x) v) w' →
      (logic producer).wp t Q (next ()) w') :
    (logic producer).wp t Q (sharedStore (.identity producer x) v >>= next) w := by
  refine Access.wp_store (D := memory producer) rfl fun w₁ r₁ i₁ => ?_
  obtain ⟨writer, rfl, rfl, middle, calm⟩ := custody_stable w w₁ h r₁ i₁
  have value : (write producer t (.identity producer x) v w₁).epoch producer =
      w₁.epoch producer := by simp [write, IdentityWorld.epoch, other.symm]
  have completed : (write producer t (.identity producer x) v w₁).completed =
      w₁.completed := by simp [write, other]
  have midway : (write producer t (.identity producer x) v w₁).midway = some t := by
    simp [write, other, middle]
  refine ⟨write producer t _ _ w₁, rfl, inv_odd i₁ writer ?_ ?_ ?_ completed midway, ?_,
    cont _ ⟨writer, rfl, rfl, midway, calm⟩⟩
  · exact Nat.le_of_eq value.symm
  · rw [value]
    exact odd
  · rw [value]
    exact i₁.bounded
  · intro u hu
    refine rely_write hu writer ⟨Nat.le_of_eq value.symm, ?_⟩
    intro _ even
    omega

/-- The store that completes a write whose words are all there. -/
theorem wp_store_close {cur : Nat} (h : Custody t snap (some t) m w)
    (epoch : m (.identity producer .roleEpoch) = cur + 1) (even : cur % 2 = 0)
    (room : cur + 2 ≤ uint64Max)
    (record : identityAt producer (m.set (.identity producer .roleEpoch) (cur + 2)) =
      stamped snap (cur + 2))
    (cont : ∀ w', w'.writer = some t → w'.midway = none →
      stamped snap (cur + 2) ∈ w'.completed → (logic producer).wp t Q (next ()) w') :
    (logic producer).wp t Q (sharedStore (.identity producer .roleEpoch) (cur + 2) >>= next)
      w := by
  refine Access.wp_store (D := memory producer) rfl fun w₁ r₁ i₁ => ?_
  obtain ⟨writer, rfl, rfl, -, calm⟩ := custody_stable w w₁ h r₁ i₁
  have commits : (cur + 2) % 2 = 0 := by omega
  have value : (write producer t (.identity producer .roleEpoch) (cur + 2) w₁).epoch producer =
      cur + 2 := by simp [write, IdentityWorld.epoch]
  have completed : (write producer t (.identity producer .roleEpoch) (cur + 2) w₁).completed =
      w₁.completed ++ [stamped (w₁.snap t) (cur + 2)] := by simp [write, commits]
  have midway : (write producer t (.identity producer .roleEpoch) (cur + 2) w₁).midway =
      none := by simp [write, commits]
  have older : ∀ id ∈ w₁.completed, id.roleEpoch < cur + 2 := by
    intro id mem
    have below := (i₁.epochs id mem).2
    rw [IdentityWorld.epoch, epoch] at below
    omega
  refine ⟨write producer t _ _ w₁, rfl, ?_, ?_, cont _ writer midway ?_⟩
  · refine ⟨?_, ?_, ?_, ?_, ?_, ?_, i₁.late, ?_, ?_⟩
    · intro _
      rw [completed, List.getLast?_concat]
      exact record
    · rw [completed, List.pairwise_append]
      refine ⟨i₁.ordered, List.pairwise_singleton _ _, ?_⟩
      intro id mem id' last
      rw [List.mem_singleton.1 last]
      exact older id mem
    · intro id mem
      rw [value]
      rw [completed, List.mem_append, List.mem_singleton] at mem
      rcases mem with old | rfl
      · exact ⟨(i₁.epochs id old).1, Nat.le_of_lt (older id old)⟩
      · exact ⟨commits, Nat.le_refl _⟩
    · rw [value]
      exact room
    · intro u middle
      rw [midway] at middle
      cases middle
    · intro torn
      cases calm.symm.trans torn
    · intro u
      rw [completed]
      exact (i₁.earlier u).trans (List.prefix_append _ _)
    · intro report mem
      obtain ⟨sound, inside⟩ := i₁.finished report mem
      rw [completed]
      exact ⟨sound, inside.trans (List.prefix_append _ _)⟩
  · intro u hu
    refine rely_write hu writer ⟨?_, ?_⟩
    · simp [epoch]
    · intro same
      simp [epoch] at same
  · rw [completed]
    exact List.mem_append_right _ List.mem_cons_self

/-- `t` is writing, but not between its first store and its last. -/
def Settled (t : T) (w : IdentityWorld T) : Prop := w.writer = some t ∧ w.midway = none

theorem settled_stable : (logic producer).Stable t (Settled (T := T) t) := by
  intro w w' h hr _
  exact ⟨hr.writer.2 h.1, (hr.mine h.1).2.2.trans h.2⟩

theorem wp_identitySnapshotStores {Q : Except Error Nat → IdentityWorld T → Prop} {cur : Nat}
    (h : Custody t snap none m w) (epoch : m (.identity producer .roleEpoch) = cur)
    (even : cur % 2 = 0) (room : cur + 2 ≤ uint64Max)
    (done : ∀ w', Settled t w' → stamped snap (cur + 2) ∈ w'.completed → Q (.ok (cur + 2)) w') :
    (logic producer).wp t Q (identitySnapshotStores producer cur snap) w := by
  have odd : (cur + 1) % 2 = 1 := by omega
  rw [identitySnapshotStores]
  refine wp_store_open h epoch even room fun w₁ h₁ => ?_
  refine wp_store_word h₁ (by rintro ⟨⟩) (by simpa using odd) fun w₂ h₂ => ?_
  refine wp_store_word h₂ (by rintro ⟨⟩) (by simpa using odd) fun w₃ h₃ => ?_
  refine wp_store_word h₃ (by rintro ⟨⟩) (by simpa using odd) fun w₄ h₄ => ?_
  refine wp_store_word h₄ (by rintro ⟨⟩) (by simpa using odd) fun w₅ h₅ => ?_
  refine wp_store_close h₅ (by simp) even room (by simp [identityAt, stamped]) ?_
  intro w₆ writer midway mem w₇ r₇ i₇
  exact done w₇ (settled_stable w₆ w₇ ⟨writer, midway⟩ r₇ i₇) (r₇.completed.subset mem)

/-- A write that returns an epoch has completed the record of that epoch. -/
theorem wp_identitySnapshotWrite (settled : Settled t w) (mine : w.snap t = snap) :
    (logic producer).wp t
      (fun result w => Settled t w ∧
        ∀ roleEpoch, result = .ok roleEpoch → stamped snap roleEpoch ∈ w.completed)
      (identitySnapshotWrite producer snap) w := by
  rw [identitySnapshotWrite]
  refine Access.wp_load (D := memory producer) rfl fun w₁ r₁ i₁ => ?_
  have settled₁ := settled_stable w w₁ settled r₁ i₁
  split
  · exact Logic.wp_throw _ settled_stable settled₁ fun w₂ _ h => ⟨h, by rintro _ ⟨⟩⟩
  split
  · exact Logic.wp_throw _ settled_stable settled₁ fun w₂ _ h => ⟨h, by rintro _ ⟨⟩⟩
  rename_i even room
  have even : w₁.epoch producer % 2 = 0 := not_not.1 even
  have room : w₁.epoch producer + 2 ≤ uint64Max := by
    have room : ¬ w₁.epoch producer > uint64Max - 2 := room
    unfold uint64Max at room ⊢
    omega
  have calm : w₁.torn = false := by
    by_contra torn
    have := i₁.torn (eq_true_of_ne_false torn)
    omega
  refine wp_identitySnapshotStores
    ⟨settled₁.1, rfl, r₁.snap.trans mine, settled₁.2, calm⟩ rfl even room ?_
  intro w₂ settled₂ mem
  refine ⟨settled₂, ?_⟩
  intro roleEpoch result
  cases result
  exact mem

end Write

section Calls
variable {a : IdentityCall} {result : Except Error IdentityResult}

omit [DecidableEq T] in
theorem Inv.quiet (hi : Inv producer w) (free : w.writer = none) : w.midway = none := by
  cases middle : w.midway with
  | none => rfl
  | some u =>
      have writer := (hi.midway u middle).1
      rw [free] at writer
      cases writer

/-- A thread that enters a call waits until no other writes. -/
theorem call_enters (hi : Inv producer w) (allowed : (machine producer).allowed t a w) :
    Inv producer (enter t a w) ∧ ∀ u, u ≠ t → Rely producer u w (enter t a w) := by
  have late : ∀ u, Function.update w.late t w.torn u = true → w.torn = true := by
    intro u late
    by_cases hu : u = t
    · rw [hu, Function.update_self] at late
      exact late
    · rw [Function.update_of_ne hu] at late
      exact hi.late u late
  have earlier : ∀ u, Function.update w.earlier t w.completed u <+: w.completed := by
    intro u
    by_cases hu : u = t
    · simp [hu]
    · rw [Function.update_of_ne hu]
      exact hi.earlier u
  cases a with
  | read =>
      refine ⟨⟨hi.current, hi.ordered, hi.epochs, hi.bounded, hi.midway, hi.torn, late, earlier,
        hi.finished⟩, ?_⟩
      intro u hu
      exact ⟨.refl _, List.prefix_refl _, Iff.rfl, fun _ => ⟨rfl, rfl, rfl⟩, rfl,
        Function.update_of_ne hu _ _, Function.update_of_ne hu _ _⟩
  | write snap =>
      have free : w.writer = none := allowed
      refine ⟨⟨hi.current, hi.ordered, hi.epochs, hi.bounded, ?_, hi.torn, late, earlier,
        hi.finished⟩, ?_⟩
      · intro u (middle : w.midway = some u)
        rw [hi.quiet free] at middle
        cases middle
      · intro u hu
        refine ⟨.refl _, List.prefix_refl _, ?_, ?_, Function.update_of_ne hu _ _,
          Function.update_of_ne hu _ _, Function.update_of_ne hu _ _⟩
        · rw [free]
          exact ⟨fun same => (hu (Option.some.inj same).symm).elim, nofun⟩
        · rw [free]
          exact nofun

/-- Everyone else is as much a writer as before. -/
theorem released_iff {u : T} (hu : u ≠ t) :
    w.released t = some u ↔ w.writer = some u := by
  unfold released
  split
  · rename_i mine
    rw [mine]
    exact ⟨nofun, fun same => (hu (Option.some.inj same).symm).elim⟩
  · exact Iff.rfl

/-- A call returns; a writer returns when it is not midway. -/
theorem call_leaves (hi : Inv producer w) (quiet : w.midway ≠ some t)
    (sound : Sound ⟨a, result, w.late t, w.earlier t, w.completed⟩) :
    Inv producer (leave t a result w) ∧
      (∀ u, u ≠ t → Rely producer u w (leave t a result w)) ∧
      Outside t (leave t a result w) := by
  refine ⟨⟨hi.current, hi.ordered, hi.epochs, hi.bounded, ?_, hi.torn, hi.late, hi.earlier, ?_⟩,
    ?_, ?_⟩
  · intro u (middle : w.midway = some u)
    have hu : u ≠ t := by
      rintro rfl
      exact quiet middle
    exact ⟨(released_iff hu).2 (hi.midway u middle).1, (hi.midway u middle).2⟩
  · intro report mem
    rcases List.mem_append.1 mem with old | new
    · exact hi.finished report old
    · rw [List.mem_singleton.1 new]
      exact ⟨sound, List.prefix_refl _⟩
  · intro u hu
    exact ⟨.refl _, List.prefix_refl _, released_iff hu, fun _ => ⟨rfl, rfl, rfl⟩, rfl, rfl, rfl⟩
  · change w.released t ≠ some t
    unfold released
    split
    · exact nofun
    · assumption

/-- A death tears the write that it interrupts. -/
theorem crash_tears (hi : Inv producer w) :
    Inv producer (crash t w) ∧ ∀ u, u ≠ t → Rely producer u w (crash t w) := by
  have middle : ∀ u, u ≠ t → ((crash t w).midway = some u ↔ w.midway = some u) := by
    intro u hu
    change (if w.midway = some t then none else w.midway) = some u ↔ _
    split
    · rename_i mine
      rw [mine]
      exact ⟨nofun, fun same => (hu (Option.some.inj same).symm).elim⟩
    · exact Iff.rfl
  have self : (crash t w).midway ≠ some t := by
    change (if w.midway = some t then none else w.midway) ≠ some t
    split
    · exact nofun
    · assumption
  constructor
  · refine ⟨hi.current, hi.ordered, hi.epochs, hi.bounded, ?_, ?_, ?_, hi.earlier, hi.finished⟩
    · intro u still
      have hu : u ≠ t := by
        rintro rfl
        exact self still
      obtain ⟨writer, odd⟩ := hi.midway u ((middle u hu).1 still)
      exact ⟨(released_iff hu).2 writer, odd⟩
    · intro torn
      rcases Bool.or_eq_true_iff.1 torn with torn | mine
      · exact hi.torn torn
      · exact (hi.midway t (of_decide_eq_true mine)).2
    · intro u late
      exact Bool.or_eq_true_iff.2 (.inl (hi.late u late))
  · intro u hu
    refine ⟨.refl _, List.prefix_refl _, released_iff hu, ?_, rfl, rfl, rfl⟩
    intro writer
    have other : w.midway ≠ some t := by
      intro mine
      exact other_writer hu (hi.midway t mine).1 writer
    refine ⟨rfl, ?_, if_neg other⟩
    change (w.torn || decide (w.midway = some t)) = w.torn
    rw [decide_eq_false other, Bool.or_false]

theorem read_returns (hi : Inv producer w) (outside : Outside t w)
    {seen : Except Error ProcessIdentityAbi} (reports : Reports t seen w) :
    (logic producer).Returns (machine producer) Outside t .read (seen.map .seen) w := by
  have quiet : w.midway ≠ some t := fun mine => outside (hi.midway t mine).1
  have sound : Sound ⟨.read, seen.map .seen, w.late t, w.earlier t, w.completed⟩ := by
    refine ⟨?_, nofun, ?_⟩
    · intro id result
      cases seen with
      | error e => cases result
      | ok id' =>
          cases result
          exact reports.1 id rfl
    · intro _ late
      obtain ⟨e, failed⟩ := reports.2 late
      rw [failed]
      exact ⟨e, rfl⟩
  obtain ⟨inv, guar, idle⟩ := call_leaves hi quiet sound
  exact ⟨leave t .read (seen.map .seen) w, rfl, inv, guar, idle⟩

theorem write_returns (hi : Inv producer w) (settled : Settled t w)
    {written : Except Error Nat}
    (completed : ∀ roleEpoch, written = .ok roleEpoch → stamped snap roleEpoch ∈ w.completed) :
    (logic producer).Returns (machine producer) Outside t (.write snap)
      (written.map .written) w := by
  have quiet : w.midway ≠ some t := by
    rw [settled.2]
    exact nofun
  have sound : Sound ⟨.write snap, written.map .written, w.late t, w.earlier t, w.completed⟩ := by
    refine ⟨?_, ?_, nofun⟩
    · intro id result
      cases written with
      | error e => cases result
      | ok roleEpoch => cases result
    · intro snap' roleEpoch same result
      cases same
      cases written with
      | error e => cases result
      | ok own =>
          cases result
          exact completed roleEpoch rfl
  obtain ⟨inv, guar, idle⟩ := call_leaves hi quiet sound
  exact ⟨leave t (.write snap) (written.map .written) w, rfl, inv, guar, idle⟩

end Calls

variable (producer) in
def outline : Outline (machine (T := T) producer) (fun _ _ => True) (logic producer) where
  idle := Outside
  idle_stable _ := outside_stable
  exec_sound _ _ _ _ _ h _ := h
  call_sound t a w hi idle allowed _ := by
    obtain ⟨inv, guar⟩ := call_enters hi allowed
    refine ⟨enter t a w, rfl, inv, guar, ?_⟩
    cases a with
    | read =>
        have outside : Outside t (enter t .read w) := idle
        refine Logic.wp_map (wp_identitySnapshotReadLoop identitySnapshotRetries outside) ?_ ?_
        · intro id w' hi' h
          exact read_returns hi' h.1 h.2
        · intro e w' hi' h
          exact read_returns hi' h.1 h.2
    | write snap =>
        have settled : Settled t (enter t (.write snap) w) := ⟨rfl, hi.quiet allowed⟩
        have mine : (enter t (.write snap) w).snap t = snap := by simp [enter]
        refine Logic.wp_map (wp_identitySnapshotWrite settled mine) ?_ ?_
        · intro roleEpoch w' hi' h
          exact write_returns hi' h.1 h.2
        · intro e w' hi' h
          exact write_returns hi' h.1 h.2
  crash_sound t w hi _ := ⟨crash t w, rfl, crash_tears hi⟩

omit [DecidableEq T] in
theorem inv_init : Inv producer (init : IdentityWorld T) where
  current _ := rfl
  ordered := List.Pairwise.nil
  epochs := nofun
  bounded := Nat.zero_le _
  midway := nofun
  torn := nofun
  late := nofun
  earlier _ := List.prefix_refl _
  finished := nofun

/-- In a list with growing epochs every entry stands at one place. -/
theorem one_place {ids : List ProcessIdentityAbi}
    (ordered : ids.Pairwise fun id id' => id.roleEpoch < id'.roleEpoch)
    {id : ProcessIdentityAbi} {i : Nat} (here : ids[i]? = some id) (j : Nat) :
    ids[j]? = some id ↔ j = i := by
  have nodup : ids.Nodup := by
    refine ordered.imp ?_
    rintro id _ less rfl
    exact Nat.lt_irrefl _ less
  constructor
  · intro there
    obtain ⟨inside, -⟩ := List.getElem?_eq_some_iff.1 there
    exact (List.getElem?_inj inside nodup).1 (there.trans here.symm)
  · rintro rfl
    exact here

/-- Whatever the writers and readers of an identity record do, and wherever they die: a
read returns what exactly one completed write stored, with the epoch that write returned,
and no older one than the last that was completed when the read began, or the blank record
if none was completed then; the completed writes have growing even epochs; and once a write has
been torn, no read that begins succeeds. -/
theorem identity_reads_whole (producer : Bool)
    {c : Config T (Instr ChannelLoc) Reply Error IdentityResult IdentityCall (IdentityWorld T)}
    (run : (machine producer).Reach (fun _ _ => True) ((machine producer).start init) c) :
    (∀ report ∈ c.world.finished,
      (∀ id, report.result = .ok (.seen id) →
        (id = blankIdentity ∧ report.earlier = []) ∨
          ∃ i : Nat, (∀ j, report.completed[j]? = some id ↔ j = i) ∧
            report.earlier.length ≤ i + 1) ∧
      (∀ snap roleEpoch, report.call = .write snap →
        report.result = .ok (.written roleEpoch) → stamped snap roleEpoch ∈ report.completed) ∧
      (report.call = .read → report.late = true → ∃ e, report.result = .error e) ∧
      report.completed <+: c.world.completed) ∧
    c.world.completed.Pairwise (fun id id' => id.roleEpoch < id'.roleEpoch) ∧
    (∀ id ∈ c.world.completed, id.roleEpoch % 2 = 0 ∧ id.roleEpoch ≤ uint64Max) := by
  obtain ⟨w, world, inv⟩ := (outline producer).inv_of_reach rfl inv_init (fun _ => nofun) run
  obtain rfl : w = c.world := world
  refine ⟨?_, inv.ordered, ?_⟩
  · intro report finished
    obtain ⟨sound, inside⟩ := inv.finished report finished
    refine ⟨?_, sound.written, sound.late, inside⟩
    intro id result
    rcases sound.whole id result with blank | ⟨i, here, fresh⟩
    · exact .inl blank
    · exact .inr ⟨i, one_place (inv.ordered.sublist inside.sublist) here, fresh⟩
  · intro id mem
    obtain ⟨even, below⟩ := inv.epochs id mem
    exact ⟨even, Nat.le_trans below inv.bounded⟩

/-- The record is read, written, and read again; the next write dies after two stores, and
then a read fails. -/
def tornRun : Option (Config Bool (Instr ChannelLoc) Reply Error IdentityResult IdentityCall
    (IdentityWorld Bool)) :=
  (machine true).play (fun _ _ => True) ((memory true).answer (fun _ _ _ => .alive) fun _ => 0)
    ((machine true).start init)
    [.call false .read, .run false 6, .ret false,
      .call true (.write ⟨7, 8, 9, 10⟩), .run true 7, .ret true, .call false .read, .run false 6,
      .ret false, .call true (.write ⟨1, 2, 3, 4⟩), .run true 3, .crash true,
      .call false .read, .run false 8, .ret false]

theorem identity_reads_whole_torn :
    ∃ c, tornRun = some c ∧
      c.world.finished.map (fun r => (r.late, r.earlier.length, r.result.toOption)) =
        [(false, 0, some (.seen blankIdentity)), (false, 0, some (.written 2)),
          (false, 1, some (.seen ⟨2, 7, 8, 9, 10⟩)), (true, 1, none)] ∧
      ∀ report ∈ c.world.finished, ∀ id, report.result = .ok (.seen id) →
        (id = blankIdentity ∧ report.earlier = []) ∨
          ∃ i : Nat, (∀ j, report.completed[j]? = some id ↔ j = i) ∧
            report.earlier.length ≤ i + 1 := by
  have ran : tornRun.map (fun c =>
      c.world.finished.map fun r => (r.late, r.earlier.length, r.result.toOption)) =
      some [(false, 0, some (.seen blankIdentity)), (false, 0, some (.written 2)),
        (false, 1, some (.seen ⟨2, 7, 8, 9, 10⟩)), (true, 1, none)] := by decide +kernel
  obtain ⟨c, ran, shown⟩ := Option.map_eq_some_iff.1 ran
  have run := Machine.reach_play ((memory true).answer_exec fun _ _ _ => trivial) ran
  exact ⟨c, ran, shown, fun report mem => ((identity_reads_whole true run).1 report mem).1⟩

end IdentityWorld
end EdgeRuntime

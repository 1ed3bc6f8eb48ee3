import EdgeRuntime.Control.Transactions

/-!
Whole runs of the control plane, under any schedule, with system calls that fail and
processes that are killed anywhere. What is under the channel's name, what the journal says
of it and which generations are given out follow from the transactions.
-/
namespace EdgeRuntime
open Concurrent

/-- What the circumstances ask of an event. -/
def Regime.Meets {T : Type} (ρ : Regime) (w : ControlWorld T) : ControlEvent T → Prop
  | .call _ (.create options _ _) => ρ.posix → options.transport = .posixShm
  | .op _ i r => ρ.orderly → smooth i r = true
  | .crash t => ρ.orderly → w.lock ≠ some t
  | _ => True

/-- Nothing is asked. -/
def Regime.any : Regime := ⟨False, False, id⟩

/-- Every instance is a POSIX object; anything may fail. -/
def Regime.named : Regime := ⟨True, False, False.elim⟩

/-- Every instance is a POSIX object, and no transaction is cut short. -/
def Regime.undisturbed : Regime := ⟨True, True, id⟩

/-- The calls of a run in which every instance is a POSIX object. -/
def PosixOnly {T : Type} (_ : ControlWorld T) : ControlEvent T → Prop
  | .call _ (.create options _ _) => options.transport = .posixShm
  | _ => True

/-- Moreover nobody is killed in a transaction, and the calls that the journal and the
clean-up rest on succeed. -/
def Orderly {T : Type} (w : ControlWorld T) : ControlEvent T → Prop
  | .op _ i r => smooth i r = true
  | .crash t => w.lock ≠ some t
  | e => PosixOnly w e

theorem Regime.any_meets {T : Type} (w : ControlWorld T) (e : ControlEvent T) :
    Regime.any.Meets w e := by
  cases e with
  | call _ a =>
      cases a with
      | create _ _ _ => exact False.elim
      | shutdown _ | removeIfOwner _ => trivial
  | op _ _ _ | crash _ => exact False.elim
  | ret _ _ => trivial

theorem Regime.named_meets {T : Type} (w : ControlWorld T) (e : ControlEvent T)
    (h : PosixOnly w e) : Regime.named.Meets w e := by
  cases e with
  | call _ a =>
      cases a with
      | create _ _ _ => exact fun _ => h
      | shutdown _ | removeIfOwner _ => trivial
  | op _ _ _ | crash _ => exact False.elim
  | ret _ _ => trivial

theorem Regime.undisturbed_meets {T : Type} (w : ControlWorld T) (e : ControlEvent T)
    (h : Orderly w e) : Regime.undisturbed.Meets w e := by
  cases e with
  | call _ a =>
      cases a with
      | create _ _ _ => exact fun _ => h
      | shutdown _ | removeIfOwner _ => trivial
  | op _ _ _ | crash _ => exact fun _ => h
  | ret _ _ => trivial

namespace ControlSystem
variable {T : Type}

theorem genuine_empty (q : ControlSystem T) : q.Genuine .empty where
  hash := .inl (by decide)
  version _ := by decide
  transport := by decide
  state := .inl (by decide)
  creator busy := (busy (by decide)).elim

theorem inv_start (q : ControlSystem T) (ρ : Regime) : q.Inv ρ .start where
  holder _ h := by cases h
  made _ h := by cases h
  fits j file := by
    cases file
    exact fits_unnamed (fun _ => q.genuine_empty) rfl
  signed _ _ h := by cases h
  kept _ _ h := by cases h
  owned _ _ h := by cases h
  sorted _ := .nil
  settled _ _ := by
    refine ⟨.empty, rfl, by decide, by decide, ?_⟩
    rintro _ ⟨⟩

variable [DecidableEq T] {q : ControlSystem T} {ρ : Regime}

/-- A call that ends without a handle. -/
theorem returns_quietly {t : T} {a : ControlCall} {x : Except Error ControlResult}
    {w : ControlWorld T} (quiet : leave t x w = w) (inv : q.Inv ρ w) (free : Free t w) :
    (q.logic ρ).Returns q.machine Free t a x w :=
  ⟨w, quiet.symm, inv, Guar.refl t w, free⟩

theorem wp_onHandle {t : T} {a : ControlCall} {w : ControlWorld T} {fd : FileIdentity}
    {call : InstanceHandle → ControlCode Unit} (inv : q.Inv ρ w) (free : Free t w)
    (sound : ∀ handle, q.Owns ρ t handle w →
      (q.logic ρ).wp t (fun _ w => Free t w) (call handle) w) :
    (q.logic ρ).wp t ((q.logic ρ).Returns q.machine Free t a) (onHandle w t fd call) w := by
  unfold onHandle
  split
  · exact Logic.wp_ret _ stable_free free fun w inv free => returns_quietly rfl inv free
  · rename_i handle found
    have mem : handle ∈ w.handles t := List.mem_of_find?_eq_some found
    exact Logic.wp_map (sound handle (inv.owned t handle mem))
      (fun _ w inv free => returns_quietly rfl inv free)
      (fun _ w inv free => returns_quietly rfl inv free)

theorem wp_code {t : T} {a : ControlCall} {w : ControlWorld T} (inv : q.Inv ρ w)
    (free : Free t w) (allowed : q.Allowed a) (meets : ρ.Meets w (.call t a)) :
    (q.logic ρ).wp t ((q.logic ρ).Returns q.machine Free t a) (q.code t a w) w := by
  cases a with
  | create options schema payloadSize =>
      refine Logic.wp_map (wp_producerCreateImpl allowed meets free) ?_ ?_
      · rintro handle w₁ inv ⟨owns, free⟩
        refine ⟨leave t (.ok (.handle handle)) w₁, rfl, Inv.aside inv ?_, Guar.aside ?_,
          free.lock, free.alive⟩
        · intro u h mem
          by_cases same : u = t
          · subst same
            rw [Function.update_self] at mem
            rcases List.mem_append.1 mem with old | new
            · exact inv.owned u h old
            · obtain rfl := List.mem_singleton.1 new
              exact owns h rfl
          · rw [Function.update_of_ne same] at mem
            exact inv.owned u h mem
        · exact fun u other => Function.update_of_ne other _ _
      · exact fun _ w₁ inv h => returns_quietly rfl inv h.2
  | shutdown fd => exact wp_onHandle inv free fun _ owns => wp_retireProducer ⟨free, owns⟩
  | removeIfOwner fd =>
      exact wp_onHandle inv free fun _ owns => wp_producerRemoveIfOwnerImpl ⟨free, owns⟩

def outline (q : ControlSystem T) (ρ : Regime) :
    Outline q.machine ρ.Meets (q.logic ρ) where
  idle := Free
  idle_stable _ := stable_free
  exec_sound _ _ _ _ _ exec meets := ⟨exec, meets⟩
  call_sound t _ w inv free allowed meets :=
    ⟨w, rfl, inv, Guar.refl t w, wp_code inv free allowed meets⟩
  crash_sound t w inv meets := ⟨w.kill t, rfl, inv.kill meets, Guar.kill⟩

variable {c c' : ControlConfig T}

theorem covers_of_run (run : q.machine.Reach ρ.Meets (q.machine.start .start) c) :
    (q.outline ρ).Covers c := by
  refine (q.outline ρ).covers_reach run ⟨.start, rfl, q.inv_start ρ, fun t => ⟨?_, rfl⟩⟩
  rintro ⟨⟩

theorem inv_of_run (run : q.machine.Reach ρ.Meets (q.machine.start .start) c) :
    q.Inv ρ c.world := by
  obtain ⟨w, rfl, inv, _⟩ := covers_of_run run
  exact inv

theorem inv_of_anyRun (run : q.machine.Reach (fun _ _ => True) (q.machine.start .start) c) :
    q.Inv .any c.world :=
  inv_of_run (run.mono fun w e _ => Regime.any_meets w e)

/-! ### Replaying a run -/

/-- The replies when no call fails. The identity of the next object and what a probe finds
are given. -/
def answer (q : ControlSystem T) (fresh : ControlWorld T → FileIdentity)
    (probe : ControlWorld T → Nat → Nat → Liveness) (t : T) :
    (i : ControlInstr) → ControlWorld T → Option (ControlReply i × ControlWorld T)
  | .currentIdentity, w => some (.ok (q.self t), w)
  | .acquireLock, w => if w.lock = none then some (.ok (), { w with lock := some t }) else none
  | .releaseLock, w => some ((), { w with lock := if w.lock = some t then none else w.lock })
  | .preadJournal, w => w.journal.map fun j => (.ok j, w)
  | .pwrite (.journal record) _, w => some (.ok journalRecordSize, w.setJournal (some record))
  | .pwrite (.bootstrap fd boot) written, w => some (.ok bootstrapHeaderSize,
      w.setSegment fd ((w.segment fd).wrote boot
        (written + min (bootstrapHeaderSize + 1) (bootstrapHeaderSize - written))))
  | .fdatasync, w => some (.ok (), w)
  | .shmOpen, w => some (w.name.elim (.error ⟨enoent, ""⟩) .ok, w)
  | .shmCreate, w =>
      if w.name = none ∧ w.maker (fresh w) = none then
        some (.ok (fresh w), w.makeObject t (fresh w) true)
      else none
  | .shmUnlink, w => if w.name = none then none else some (.ok (), w.takeName t)
  | .fstat fd, w => some (.ok ⟨fd, true, true, expectedShmMode, (w.segment fd).size⟩, w)
  | .ftruncate fd size, w =>
      some (.ok (), w.setSegment fd ((w.segment fd).truncated size))
  | .mmap _ _, w => some (.ok (), w)
  | .readBootstrap fd, w => some ((w.segment fd).mapped, w)
  | .loadBootInitState fd, w => some ((w.segment fd).mapped.initState, w)
  | .readHeader fd, w => some ((w.segment fd).header, w)
  | .readProducer fd, w => some (seenProducer (w.segment fd).producer, w)
  | .loadProducerState fd, w => some ((w.segment fd).producerState, w)
  | .fillHeader fd header, w => some ((), w.setSegment fd ((w.segment fd).filled header))
  | .writeProducer fd snap, w =>
      if (nextRoleEpoch (w.segment fd).producer).isOk then
        some (nextRoleEpoch (w.segment fd).producer,
          w.setSegment fd ((w.segment fd).signed snap))
      else none
  | .storeInitState fd state, w => some ((), w.setSegment fd ((w.segment fd).withInit state))
  | .storeProducerState fd state, w =>
      some ((), w.setSegment fd ((w.segment fd).withProducer state))
  | .storeBootInitState fd state, w => some ((), w.commit fd state)
  | .probe pid ticks, w => some (probe w pid ticks, w)
  | .getrandom, w => some (.ok (w.born.length, 1), w)
  | _, _ => none

theorem answer_exec {fresh : ControlWorld T → FileIdentity}
    {probe : ControlWorld T → Nat → Nat → Liveness}
    (probed : ∀ w pid ticks, q.answers w pid ticks (probe w pid ticks)) (t : T)
    (i : ControlInstr) (w : ControlWorld T) (x : ControlReply i × ControlWorld T)
    (h : q.answer fresh probe t i w = some x) : q.exec t i w x.1 x.2 := by
  cases i with
  | currentIdentity =>
      cases h
      refine ⟨rfl, ?_⟩
      rintro _ ⟨⟩
      rfl
  | acquireLock =>
      simp only [answer] at h
      split at h
      · rename_i free
        cases h
        exact .inl ⟨rfl, free, rfl⟩
      · cases h
  | preadJournal =>
      obtain ⟨j, file, rfl⟩ := Option.map_eq_some_iff.1 h
      refine ⟨rfl, ?_⟩
      rintro _ ⟨⟩
      exact file
  | pwrite target written =>
      cases target with
      | journal record =>
          cases h
          exact .inl ⟨_, rfl, .inl rfl⟩
      | bootstrap fd boot =>
          cases h
          exact .inl ⟨_, rfl, rfl⟩
  | shmOpen =>
      cases h
      refine ⟨rfl, fun o found => ?_, fun f missing _ => ?_⟩
      · cases name : w.name with
        | none => rw [name] at found; cases found
        | some _ => rw [name] at found; cases found; rfl
      · cases name : w.name with
        | none => rfl
        | some _ => rw [name] at missing; cases missing
  | shmCreate =>
      simp only [answer] at h
      split at h
      · rename_i free
        cases h
        exact .inl ⟨_, rfl, free.1, free.2, rfl⟩
      · cases h
  | shmUnlink =>
      simp only [answer] at h
      split at h
      · cases h
      · rename_i there
        cases h
        exact .inl ⟨rfl, there, rfl⟩
  | fstat fd =>
      cases h
      refine ⟨rfl, ?_⟩
      rintro _ ⟨⟩
      exact ⟨rfl, rfl⟩
  | ftruncate _ _ =>
      cases h
      exact .inl ⟨rfl, rfl⟩
  | writeProducer fd snap =>
      simp only [answer] at h
      split at h
      · rename_i fine
        cases h
        refine ⟨rfl, .inl ?_⟩
        cases next : nextRoleEpoch (w.segment fd).producer with
        | ok epoch => exact ⟨epoch, rfl, rfl⟩
        | error e =>
            rw [next] at fine
            cases fine
      · cases h
  | probe pid ticks =>
      cases h
      exact ⟨rfl, probed w pid ticks⟩
  | readBootstrap _ | loadBootInitState _ | readHeader _ | readProducer _
  | loadProducerState _ =>
      cases h
      exact ⟨rfl, rfl⟩
  | releaseLock | fdatasync | mmap _ _ | fillHeader _ _ | storeInitState _ _
  | storeProducerState _ _ | storeBootInitState _ _ | getrandom =>
      cases h
      rfl
  | memfdCreate | statx _ | preadBootstrap _ | preadHeader _ | socket | bind _ | connect
  | unlinkPath | chmodPath | listen _ | startServer _ | stopServer _ | unlinkSocket _ => cases h

instance (w : ControlWorld T) (e : ControlEvent T) : Decidable (PosixOnly w e) :=
  match e with
  | .call _ (.create options _ _) => inferInstanceAs (Decidable (options.transport = .posixShm))
  | .call _ (.shutdown _) | .call _ (.removeIfOwner _) | .op _ _ _ | .ret _ _ | .crash _ =>
      inferInstanceAs (Decidable True)

instance (w : ControlWorld T) (e : ControlEvent T) : Decidable (Orderly w e) :=
  match e with
  | .op _ i r => inferInstanceAs (Decidable (smooth i r = true))
  | .crash t => inferInstanceAs (Decidable (w.lock ≠ some t))
  | .call t a => inferInstanceAs (Decidable (PosixOnly w (.call t a)))
  | .ret t x => inferInstanceAs (Decidable (PosixOnly w (.ret t x)))

/-- Two processes, told apart by their pids. -/
def tinySelf (t : Bool) : ProcessIdentity := ⟨cond t 2 1, 1, 1, 1⟩

def tiny : ControlSystem Bool where
  channelName := "a"
  uid := 0
  self := tinySelf
  valid := by decide
  answers w pid _ liveness := ∀ u, w.dead u = false → (tinySelf u).pid = pid → liveness = .alive
  accurate _ u _ alive told := .inl (told u alive rfl)

def tinyProbe (w : ControlWorld Bool) (pid _ : Nat) : Liveness :=
  if ∃ u, w.dead u = false ∧ (tinySelf u).pid = pid then .alive else .exited

theorem tinyProbe_answers (w : ControlWorld Bool) (pid ticks : Nat) :
    tiny.answers w pid ticks (tinyProbe w pid ticks) :=
  fun u alive same => if_pos ⟨u, alive, same⟩

def tinyAnswer : Bool → (i : ControlInstr) → ControlWorld Bool →
    Option (ControlReply i × ControlWorld Bool) :=
  tiny.answer (fun w => ⟨1, w.born.length + 1⟩) tinyProbe

def tinyCreate : ControlCall := .create ⟨"a", 100, 0, true, .posixShm, 0⟩ ⟨[1], 1⟩ 8

section
variable (ok : ControlWorld Bool → ControlEvent Bool → Prop) [∀ w e, Decidable (ok w e)]

def tinyRun (moves : List (Move Bool ControlCall)) : Option (ControlConfig Bool) :=
  tiny.machine.play ok tinyAnswer (tiny.machine.start .start) moves

variable {ok} in
theorem tinyRun_reach {moves : List (Move Bool ControlCall)} {c : ControlConfig Bool}
    (h : tinyRun ok moves = some c) : tiny.machine.Reach ok (tiny.machine.start .start) c :=
  Machine.reach_play (answer_exec tinyProbe_answers) h

end

/-- The first process makes an instance. -/
def tinyFirst : List (Move Bool ControlCall) :=
  [.call false tinyCreate, .run false 30, .ret false]

/-- The other one tries the same. -/
def tinySecond : List (Move Bool ControlCall) :=
  [.call true tinyCreate, .run true 40, .ret true]

/-! ### What is under the name -/

/-- Whatever the others do, and however it fails, the instance of a living producer that is
online stays under the name with its words unchanged. -/
theorem live_instance_undisturbed {o : FileIdentity} {m : T}
    (run : q.machine.Reach (fun _ _ => True) (q.machine.start .start) c)
    (here : c.world.name = some o) (made : c.world.maker o = some m)
    (alive : c.world.dead m = false)
    (active : activelyOwned (c.world.segment o).producerState = true)
    (others : q.machine.Reach (fun _ e => e.actor ≠ m) c c') :
    c'.world.name = some o ∧ c'.world.segment o = c.world.segment o := by
  have kept : c'.world.name = some o ∧ c'.world.segment o = c.world.segment o ∧
      c'.world.maker o = some m ∧ c'.world.dead m = false := by
    induction others with
    | refl => exact ⟨here, rfl, made, alive⟩
    | @step c₁ c₂ e before other next ih =>
        obtain ⟨here₁, same₁, made₁, alive₁⟩ := ih
        have reached : q.machine.Reach Regime.any.Meets (q.machine.start .start) c₁ :=
          (run.trans (before.mono fun _ _ _ => trivial)).mono fun w e _ => Regime.any_meets w e
        obtain ⟨_, _, rfl, rfl, _, _, guar⟩ := (q.outline _).guar_step (Regime.any_meets _ e) next
          (covers_of_run reached)
        refine ⟨?_, (guar.foreign o m made₁ (Ne.symm other)).trans same₁, guar.maker o m made₁,
          (guar.others m (Ne.symm other)).1.trans alive₁⟩
        by_contra gone
        rcases guar.unlinks o m here₁ gone made₁ with mine | dead | left
        · exact other mine.symm
        · cases alive₁.symm.trans dead
        · change activelyOwned (c₁.world.segment o).producerState = false at left
          rw [same₁, active] at left
          cases left
  exact ⟨kept.1, kept.2.1⟩

theorem live_instance_undisturbed_tiny :
    ∃ c c', tinyRun (fun _ _ => True) tinyFirst = some c ∧
      tiny.machine.play (fun _ e => e.actor ≠ false) tinyAnswer c tinySecond = some c' ∧
      c'.world.name = some ⟨1, 1⟩ ∧ c'.world.segment ⟨1, 1⟩ = c.world.segment ⟨1, 1⟩ := by
  have first : (tinyRun (fun _ _ => True) tinyFirst).map (fun c => (c.world.name,
      c.world.maker ⟨1, 1⟩, c.world.dead false,
      activelyOwned (c.world.segment ⟨1, 1⟩).producerState)) =
        some (some ⟨1, 1⟩, some false, false, true) := by decide +kernel
  have second : ((tinyRun (fun _ _ => True) tinyFirst).bind fun c =>
      tiny.machine.play (fun _ e => e.actor ≠ false) tinyAnswer c tinySecond).isSome = true := by
    decide +kernel
  obtain ⟨c', both⟩ := Option.isSome_iff_exists.1 second
  obtain ⟨c, hc, hc'⟩ := Option.bind_eq_some_iff.1 both
  rw [hc] at first
  obtain ⟨here, made, alive, active⟩ : c.world.name = some ⟨1, 1⟩ ∧
      c.world.maker ⟨1, 1⟩ = some false ∧ c.world.dead false = false ∧
      activelyOwned (c.world.segment ⟨1, 1⟩).producerState = true := by
    simpa using first
  exact ⟨c, c', hc, hc', live_instance_undisturbed (tinyRun_reach hc) here made alive active
    (Machine.reach_play (answer_exec tinyProbe_answers) hc')⟩

/-- An instance whose producer lives, is online and has not removed it. -/
structure Live (w : ControlWorld T) (o : FileIdentity) (m : T) : Prop where
  maker : w.maker o = some m
  named : w.named o = true
  alive : w.dead m = false
  active : activelyOwned (w.segment o).producerState = true
  kept : w.unlinker o ≠ some m

/-- There is one such instance at most, and it is the one under the name. -/
theorem live_instance_unique {o : FileIdentity} {m : T}
    (run : q.machine.Reach (fun _ _ => True) (q.machine.start .start) c)
    (live : Live c.world o m) :
    c.world.name = some o ∧ ∀ o' m', Live c.world o' m' → o' = o ∧ m' = m := by
  have inv := inv_of_anyRun run
  have under : ∀ o m, Live c.world o m → c.world.name = some o := by
    intro o m live
    rcases inv.kept o m live.maker live.named with here | own | dead | left
    · exact here
    · exact (live.kept own).elim
    · cases live.alive.symm.trans dead
    · cases live.active.symm.trans left
  refine ⟨under o m live, fun o' m' live' => ?_⟩
  obtain rfl := Option.some_inj.1 ((under o' m' live').symm.trans (under o m live))
  exact ⟨rfl, Option.some_inj.1 (live'.maker.symm.trans live.maker)⟩

/-- After the first process is killed, the other one takes its place. -/
theorem live_instance_unique_tiny :
    ∃ c, tinyRun (fun _ _ => True) (tinyFirst ++ [.crash false] ++ tinySecond) = some c ∧
      c.world.name = some ⟨1, 2⟩ ∧
      ∀ o m, Live c.world o m → o = ⟨1, 2⟩ ∧ m = true := by
  have found : (tinyRun (fun _ _ => True) (tinyFirst ++ [.crash false] ++ tinySecond)).map
      (fun c => (c.world.maker ⟨1, 2⟩, c.world.named ⟨1, 2⟩, c.world.dead true,
        activelyOwned (c.world.segment ⟨1, 2⟩).producerState, c.world.unlinker ⟨1, 2⟩)) =
          some (some true, true, false, true, none) := by decide +kernel
  obtain ⟨c, hc, facts⟩ := Option.map_eq_some_iff.1 found
  simp only [Prod.mk.injEq] at facts
  obtain ⟨made, named, alive, active, none⟩ := facts
  have kept : c.world.unlinker ⟨1, 2⟩ ≠ some true := by
    rw [none]
    rintro ⟨⟩
  exact ⟨c, hc, live_instance_unique (tinyRun_reach hc) ⟨made, named, alive, active, kept⟩⟩

/-- Whoever has a handle made the instance it is on, and that is and stays the complete
instance of the handle's generation and nonce. -/
theorem handle_on_own_instance {t : T} {h : InstanceHandle}
    (run : q.machine.Reach (fun _ _ => True) (q.machine.start .start) c)
    (mem : h ∈ c.world.handles t) :
    c.world.maker h.shm = some t ∧ h.self = q.self t ∧
      h.Names (c.world.segment h.shm).header ∧ q.Committed t (c.world.segment h.shm) := by
  have inv := inv_of_anyRun run
  have owns := inv.owned t h mem
  exact ⟨owns.maker, owns.self, owns.names, owns.committed⟩

theorem handle_on_own_instance_tiny :
    ∃ c h, tinyRun (fun _ _ => True) tinyFirst = some c ∧ h ∈ c.world.handles false ∧
      h.generation = 1 ∧ c.world.maker h.shm = some false ∧
      h.Names (c.world.segment h.shm).header ∧
      tiny.Committed false (c.world.segment h.shm) := by
  have found : (tinyRun (fun _ _ => True) tinyFirst).map
      (fun c => (c.world.handles false).map fun h => h.generation) = some [1] := by decide +kernel
  obtain ⟨c, hc, one⟩ := Option.map_eq_some_iff.1 found
  have mem : 1 ∈ (c.world.handles false).map fun h => h.generation := by
    rw [one]
    exact List.mem_singleton.2 rfl
  obtain ⟨h, mem, generation⟩ := List.mem_map.1 mem
  obtain ⟨made, _, names, committed⟩ := handle_on_own_instance (tinyRun_reach hc) mem
  exact ⟨c, h, hc, mem, generation, made, names, committed⟩

/-- Wherever processes are killed and calls fail, a whole journal record describes the object
under the name: a creation on record is the creation of its maker, and what the record says
of the object's state is true of its words. -/
theorem journal_describes_object {j : ControlJournalV1} {o : FileIdentity} {m : T}
    (run : q.machine.Reach PosixOnly (q.machine.start .start) c)
    (file : c.world.journal = some j) (here : c.world.name = some o)
    (made : c.world.maker o = some m) :
    (j.InCreation → journalCreator j = q.self m) ∧ q.Shape j o m (c.world.segment o) := by
  have inv : q.Inv .named c.world := inv_of_run (run.mono Regime.named_meets)
  have fits := inv.fits j file
  exact ⟨fun creation => fits.creator creation o m here made, fits.shape trivial o m here made⟩

/-- The first process is killed while it builds its instance. -/
theorem journal_describes_object_tiny :
    ∃ c j, tinyRun PosixOnly [.call false tinyCreate, .run false 15, .crash false] = some c ∧
      c.world.journal = some j ∧ j.state = JournalState.creatingObject.code ∧
      journalCreator j = tinySelf false := by
  have found : (tinyRun PosixOnly [.call false tinyCreate, .run false 15, .crash false]).map
      (fun c => (c.world.journal.map fun j => j.state, c.world.name, c.world.maker ⟨1, 1⟩)) =
        some (some JournalState.creatingObject.code, some ⟨1, 1⟩, some false) := by decide +kernel
  obtain ⟨c, hc, facts⟩ := Option.map_eq_some_iff.1 found
  simp only [Prod.mk.injEq] at facts
  obtain ⟨state, here, made⟩ := facts
  obtain ⟨j, file, state⟩ := Option.map_eq_some_iff.1 state
  have described := journal_describes_object (tinyRun_reach hc) file here made
  exact ⟨c, j, hc, file, state, described.1 (.inr (.inl state))⟩

/-- While no transaction is cut short, every committed instance has a generation of its own,
later than all before it. -/
theorem committed_generations_increase
    (run : q.machine.Reach Orderly (q.machine.start .start) c) :
    c.world.born.Pairwise (· < ·) ∧
      (c.world.lock = none → Settled c.world.journal c.world.born) := by
  have inv : q.Inv .undisturbed c.world := inv_of_run (run.mono Regime.undisturbed_meets)
  exact ⟨inv.sorted trivial, inv.settled trivial⟩

/-- The first process leaves and the other one follows it. -/
theorem committed_generations_increase_tiny :
    ∃ c, tinyRun Orderly (tinyFirst ++ [.call false (.shutdown ⟨1, 1⟩), .run false 5,
        .ret false] ++ tinySecond) = some c ∧
      c.world.born = [1, 2] ∧ c.world.born.Pairwise (· < ·) := by
  have found : (tinyRun Orderly (tinyFirst ++ [.call false (.shutdown ⟨1, 1⟩), .run false 5,
      .ret false] ++ tinySecond)).map (fun c => c.world.born) = some [1, 2] := by decide +kernel
  obtain ⟨c, hc, born⟩ := Option.map_eq_some_iff.1 found
  exact ⟨c, hc, born, (committed_generations_increase (tinyRun_reach hc)).1⟩

end ControlSystem
end EdgeRuntime

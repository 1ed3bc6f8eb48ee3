import EdgeRuntime.Supervisor.Restarts

/-!
A supervisor and the instances its children make. A child that becomes READY does so one
generation above the instance before it. The supervisor only knows the instances it has
accepted, so the two counts part when an instance comes and goes between two looks.
-/
namespace EdgeRuntime

/-- A supervisor with the READY instances of its channel. -/
structure Lineage where
  sup : SupervisorState
  /-- The generation of the last instance before the current child's. -/
  previous : Nat
  /-- The generation with which the current child is READY. -/
  current : Option Nat

inductive LineageMove
  /-- The current child becomes READY. -/
  | ready
  | tick (t : Tick)

namespace Lineage
variable {l : Lineage} {t : Tick}

/-- The iteration spawns a child. -/
def spawns (t : Tick) (s : SupervisorState) : Bool :=
  (s.checkStop t).phase = .spawn && t.spawn.isOk

/-- One iteration; a new child is not READY yet. -/
def advance (t : Tick) (l : Lineage) : Lineage :=
  if spawns t l.sup then ⟨l.sup.iterate t, l.current.getD l.previous, none⟩
  else ⟨l.sup.iterate t, l.previous, l.current⟩

/-- A READY header with the child's identity is that of the child's own instance. -/
def shows (t : Tick) (l : Lineage) : Bool :=
  match t.view with
  | some header => !l.sup.isOurs header || l.current = some header.generation
  | none => true

def move (l : Lineage) : LineageMove → Option Lineage
  | .ready =>
      if l.current = none ∧ l.sup.childPid > 0 ∧ l.sup.childReaped = false ∧
          l.previous < uint64Max then
        some { l with current := some (l.previous + 1) }
      else none
  | .tick t => if shows t l then some (advance t l) else none

/-- The lineage after a history of children, on a channel that had instances before. -/
def follow (options : SupervisorOptions) (generation : Nat) (moves : List LineageMove) :
    Option Lineage :=
  moves.foldlM move ⟨.start options, generation, none⟩

/-- The current instance is one above the previous one, and the supervisor's baseline is the
generation it accepted last. -/
structure Successive (options : SupervisorOptions) (l : Lineage) : Prop where
  next : ∀ g, l.current = some g → g = l.previous + 1 ∧ g ≤ uint64Max
  booked : SupervisorState.Booked options (· ≠ 0) l.sup

theorem successive_move {options : SupervisorOptions} {l' : Lineage} {m : LineageMove}
    (h : Successive options l) (moved : l.move m = some l') : Successive options l' := by
  cases m with
  | ready =>
      simp only [move] at moved
      split at moved
      · rename_i free
        cases moved
        refine ⟨?_, h.booked⟩
        rintro g ⟨⟩
        exact ⟨rfl, free.2.2.2⟩
      · cases moved
  | tick t =>
      simp only [move] at moved
      split at moved
      · rename_i own
        cases moved
        have shown : SupervisorState.Shows (· ≠ 0) t l.sup := by
          intro header look ours zero
          rw [shows, look] at own
          simp only [ours, Bool.not_true, Bool.false_or, decide_eq_true_eq] at own
          have above := (h.next _ own).1
          omega
        have booked := SupervisorState.booked_iterate h.booked shown
        unfold advance
        split
        · exact ⟨nofun, booked⟩
        · exact ⟨h.next, booked⟩
      · cases moved

theorem successive_follow {options : SupervisorOptions} {generation : Nat}
    {moves : List LineageMove} (run : follow options generation moves = some l) :
    Successive options l := by
  have start : Successive options ⟨.start options, generation, none⟩ :=
    ⟨nofun, SupervisorState.booked_start options _⟩
  unfold follow at run
  generalize (⟨.start options, generation, none⟩ : Lineage) = l₀ at start run
  induction moves generalizing l₀ with
  | nil =>
      cases run
      exact start
  | cons m rest ih =>
      rw [List.foldlM_cons] at run
      obtain ⟨l₁, moved, run⟩ := Option.bind_eq_some_iff.1 run
      exact ih l₁ (successive_move start moved) run

/-- The baseline is the generation that was accepted last, and 0 before the first one. -/
theorem Successive.baseline_iff {options : SupervisorOptions} (h : Successive options l) :
    l.sup.baselineGeneration = 0 ∨ l.sup.baselineGeneration = l.previous ↔
      l.sup.accepted = [] ∨ l.sup.accepted.getLast? = some l.previous := by
  have baseline : l.sup.baselineGeneration = l.sup.accepted.getLastD 0 :=
    h.booked.entries.baseline
  have nonzero : ∀ g ∈ l.sup.accepted, g ≠ 0 := h.booked.entries.accepted
  rw [baseline]
  rcases List.eq_nil_or_concat l.sup.accepted with none | ⟨earlier, last, some⟩
  · rw [none]
    simp
  · have last_ne : last ≠ 0 := nonzero last (by rw [some]; simp)
    rw [some]
    simp [last_ne]

end Lineage

namespace SupervisorState
variable {s : SupervisorState} {t : Tick}

theorem failAttempt_phase : (failAttempt t s).phase ≠ .monitor := by
  unfold failAttempt
  split
  · exact nofun
  · unfold enterBackoff
    dsimp only
    split <;> exact nofun

/-- A look that does not accept the child does not lead to its supervision. -/
theorem stillWaiting_phase (phase : s.phase = .awaitReady) :
    (stillWaiting t s).phase ≠ .monitor := by
  unfold stillWaiting
  split
  · exact failAttempt_phase
  · split
    · exact nofun
    · rw [phase]
      exact nofun

end SupervisorState

namespace Lineage
variable {l : Lineage} {t : Tick}

/-- The child is accepted: supervised from here on, with its generation as the baseline. -/
def Accepts (t : Tick) (l : Lineage) (generation : Nat) : Prop :=
  (l.sup.phaseStep t).phase = .monitor ∧ (l.sup.phaseStep t).baselineGeneration = generation

/-- A look at a READY child of the supervisor accepts it, exactly when nothing was
accepted before or the previous READY instance is the one that was accepted last. -/
theorem accepts_iff {options : SupervisorOptions} {generation g : Nat}
    {moves : List LineageMove} {header : ObservedHeader}
    (run : follow options generation moves = some l) (phase : l.sup.phase = .awaitReady)
    (ready : l.current = some g) (look : t.view = some header)
    (ours : l.sup.isOurs header = true) (shown : header.generation = g) :
    Accepts t l g ↔ l.sup.accepted = [] ∨ l.sup.accepted.getLast? = some l.previous := by
  have successive := successive_follow run
  obtain ⟨next, bound⟩ := successive.next g ready
  have fits : l.sup.generationFits g = true ↔
      l.sup.baselineGeneration = 0 ∨ l.sup.baselineGeneration = l.previous := by
    simp only [SupervisorState.generationFits, Bool.or_eq_true, Bool.and_eq_true,
      decide_eq_true_eq]
    omega
  have step : l.sup.phaseStep t = if l.sup.generationFits g then l.sup.accept g
      else l.sup.stillWaiting t := by
    simp only [SupervisorState.phaseStep, phase, SupervisorState.awaitReadyPhase, look, ours,
      shown, Bool.true_and]
  rw [← successive.baseline_iff, ← fits]
  unfold Accepts
  rw [step]
  split
  · rename_i fit
    refine iff_of_true ⟨rfl, ?_⟩ fit
    unfold SupervisorState.accept
    obtain ⟨events, same⟩ := SupervisorState.emit_eq
      ⟨.supervised, l.sup.childPid, g, 0, 0, 0⟩
      { l.sup with
        baselineGeneration := g
        haveView := true
        accepted := l.sup.accepted ++ [g] }
    exact congrArg SupervisorState.baselineGeneration same
  · rename_i unfit
    exact iff_of_false (fun accepted => SupervisorState.stillWaiting_phase phase accepted.1)
      unfit

open SupervisorState

/-- Restarts enough, over a transport whose segments go with their process. -/
def memfdOptions : SupervisorOptions :=
  { oneRestart with transport := .memfdFdPass, maxRestarts := 5 }

/-- The header of a READY child. -/
def readyHeader (pid generation : Nat) : ObservedHeader :=
  ⟨InitState.ready.code, .ok ⟨2, pid, 1, 1, 1⟩, generation⟩

/-- A child is spawned and becomes READY. -/
def birth (now : Nat) (pid : Int) : List LineageMove :=
  [.tick { idleAt now with spawn := .ok ⟨pid, false⟩ }, .ready]

/-- What is seen of the channel, if anything, before the child is found dead; then the
back-off. -/
def death (now : Nat) (view : Option ObservedHeader) : List LineageMove :=
  [.tick { idleAt now with view, waitEvent := .ok (some 256), events := .ok [.pidfd] },
    .tick (idleAt (now + 1)), .tick (idleAt (now + 2))]

/-- The second child follows one that was seen. -/
theorem accepts_iff_second :
    ∃ l, follow memfdOptions 0 (birth 1 10 ++ death 2 (some (readyHeader 10 1)) ++
        birth 5 11) = some l ∧
      Accepts { idleAt 6 with view := some (readyHeader 11 2) } l 2 := by
  have facts : (follow memfdOptions 0 (birth 1 10 ++ death 2 (some (readyHeader 10 1)) ++
      birth 5 11)).any (fun l => l.sup.phase = .awaitReady ∧ l.current = some 2 ∧
        l.sup.isOurs (readyHeader 11 2) = true ∧
        l.sup.accepted.getLast? = some l.previous) = true := by decide +kernel
  obtain ⟨l, run, facts⟩ := (Option.any_eq_true _ _).1 facts
  obtain ⟨phase, ready, ours, seen⟩ := of_decide_eq_true facts
  exact ⟨l, run, (accepts_iff run phase ready rfl ours rfl).2 (.inr seen)⟩

/-- The second child is READY and dies before the supervisor looks. The third is READY
with the next generation, and is not accepted. -/
theorem third_child_not_accepted :
    ∃ l, follow memfdOptions 0 (birth 1 10 ++ death 2 (some (readyHeader 10 1)) ++
        birth 5 11 ++ death 6 none ++ birth 9 12) = some l ∧
      l.sup.phase = .awaitReady ∧ l.current = some 3 ∧
      l.sup.isOurs (readyHeader 12 3) = true ∧
      ¬ Accepts { idleAt 10 with view := some (readyHeader 12 3) } l 3 := by
  have facts : (follow memfdOptions 0 (birth 1 10 ++ death 2 (some (readyHeader 10 1)) ++
      birth 5 11 ++ death 6 none ++ birth 9 12)).any (fun l => l.sup.phase = .awaitReady ∧
        l.current = some 3 ∧ l.sup.isOurs (readyHeader 12 3) = true ∧
        (l.sup.phaseStep { idleAt 10 with view := some (readyHeader 12 3) }).phase ≠
          .monitor) = true := by decide +kernel
  obtain ⟨l, run, facts⟩ := (Option.any_eq_true _ _).1 facts
  obtain ⟨phase, ready, ours, refused⟩ := of_decide_eq_true facts
  exact ⟨l, run, phase, ready, ours, fun accepted => refused accepted.1⟩

end Lineage
end EdgeRuntime

import EdgeRuntime.Concurrent.Pool

/-!
Executable schedules. A list of moves replays one interleaving of a pool; what it
reaches is reachable, so concrete runs are checked by evaluation.
-/
namespace EdgeRuntime.Concurrent

inductive Move (T Call : Type) : Type
  | call (t : T) (a : Call)
  /-- At most `n` instructions of one thread. -/
  | run (t : T) (n : Nat)
  | ret (t : T)
  | crash (t : T)

namespace Thread
variable {I : Type} {R : I → Type} {ε α Call : Type}

def isIdle : Thread I R ε α Call → Bool
  | .idle => true
  | _ => false

theorem eq_idle_of_isIdle {th : Thread I R ε α Call} (h : th.isIdle = true) :
    th = .idle := by
  cases th with
  | idle => rfl
  | busy _ _ | dead => cases h

end Thread

namespace Event
variable {T I : Type} {R : I → Type} {ε α Call : Type}

def isCrash : Event T I R ε α Call → Bool
  | .crash _ => true
  | _ => false

end Event

namespace Machine
variable {T I : Type} {R : I → Type} {ε α Call W : Type} [DecidableEq T]
  (M : Machine T I R ε α Call W)
  (ok : W → Event T I R ε α Call → Prop) [∀ w e, Decidable (ok w e)]
  (answer : T → (i : I) → W → Option (R i × W))

/-- Let one thread perform its next instructions, as long as they are enabled. -/
def runOps (t : T) : Nat → Config T I R ε α Call W → Option (Config T I R ε α Call W)
  | 0, c => some c
  | n + 1, c =>
      match c.thread t with
      | .busy a (.op i k) =>
          match answer t i c.world with
          | some (r, w) =>
              if ok c.world (.op t i r) then
                runOps t n ⟨w, Function.update c.thread t (.busy a (k r))⟩
              else none
          | none => some c
      | _ => some c

variable {M ok answer} in
theorem reach_runOps
    (sound : ∀ t i w x, answer t i w = some x → M.exec t i w x.1 x.2)
    {t : T} {n : Nat} {c c' : Config T I R ε α Call W}
    (h : runOps ok answer t n c = some c') : M.Reach ok c c' := by
  induction n generalizing c with
  | zero =>
      cases h
      exact .refl
  | succ n ih =>
      simp only [runOps] at h
      split at h
      · rename_i a i k busy
        split at h
        · rename_i r w replied
          split at h
          · rename_i meets
            exact .trans (.step .refl meets (.op busy (sound t i c.world _ replied))) (ih h)
          · cases h
        · cases h
          exact .refl
      · cases h
        exact .refl

variable [∀ t a w, Decidable (M.allowed t a w)]

def move (c : Config T I R ε α Call W) : Move T Call → Option (Config T I R ε α Call W)
  | .call t a =>
      match c.thread t with
      | .idle =>
          if M.allowed t a c.world ∧ ok c.world (.call t a) then
            some ⟨M.enter t a c.world,
              Function.update c.thread t (.busy a (M.code t a c.world))⟩
          else none
      | _ => none
  | .run t n => runOps ok answer t n c
  | .ret t =>
      match c.thread t with
      | .busy a (.ret v) =>
          if ok c.world (.ret t (.ok v)) then
            some ⟨M.leave t a (.ok v) c.world, Function.update c.thread t .idle⟩
          else none
      | .busy a (.throw e) =>
          if ok c.world (.ret t (.error e)) then
            some ⟨M.leave t a (.error e) c.world, Function.update c.thread t .idle⟩
          else none
      | _ => none
  | .crash t =>
      match c.thread t with
      | .dead => none
      | _ =>
          if ok c.world (.crash t) then
            some ⟨M.crash t c.world, Function.update c.thread t .dead⟩
          else none

def play (c : Config T I R ε α Call W) (moves : List (Move T Call)) :
    Option (Config T I R ε α Call W) :=
  moves.foldlM (M.move ok answer) c

variable {M ok answer} (sound : ∀ t i w x, answer t i w = some x → M.exec t i w x.1 x.2)
include sound

theorem reach_move {m : Move T Call} {c c' : Config T I R ε α Call W}
    (h : M.move ok answer c m = some c') : M.Reach ok c c' := by
  cases m with
  | call t a =>
      simp only [move] at h
      split at h
      · rename_i idle
        split at h
        · rename_i hok
          cases h
          exact .step .refl hok.2 (.call idle hok.1)
        · cases h
      · cases h
  | run t n => exact reach_runOps sound h
  | ret t =>
      simp only [move] at h
      split at h
      · rename_i busy
        split at h
        · rename_i meets
          cases h
          exact .step .refl meets (.ret busy)
        · cases h
      · rename_i busy
        split at h
        · rename_i meets
          cases h
          exact .step .refl meets (.throw busy)
        · cases h
      · cases h
  | crash t =>
      simp only [move] at h
      split at h
      · cases h
      · rename_i alive
        split at h
        · rename_i meets
          cases h
          exact .step .refl meets (.crash alive)
        · cases h

/-- Whatever a schedule reaches is reachable. -/
theorem reach_play {moves : List (Move T Call)} {c c' : Config T I R ε α Call W}
    (h : M.play ok answer c moves = some c') : M.Reach ok c c' := by
  induction moves generalizing c with
  | nil =>
      cases h
      exact .refl
  | cons m ms ih =>
      unfold play at h
      rw [List.foldlM_cons, Option.bind_eq_bind, Option.bind_eq_some_iff] at h
      obtain ⟨c₁, h₁, h₂⟩ := h
      exact .trans (reach_move sound h₁) (ih h₂)

end Machine
end EdgeRuntime.Concurrent

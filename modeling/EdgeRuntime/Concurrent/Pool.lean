import EdgeRuntime.Concurrent.Program

/-!
Thread pools under sequentially consistent interleaving. A machine gives the
instructions their meaning and says which program a call runs; a pool step lets
one thread start a call, perform one instruction, return, or die.

A thread that stops for ever is simply never scheduled again, so every prefix of
every schedule is covered. The explicit `crash` event exists for worlds that
observe a death (liveness probes, locks released by the kernel).
-/
namespace EdgeRuntime.Concurrent

structure Machine (T I : Type) (R : I → Type) (ε α Call W : Type) where
  /-- One instruction of a thread: the world before, the reply, the world after. -/
  exec : T → (i : I) → W → R i → W → Prop
  /-- The program a call runs, given the caller's private part of the world. -/
  code : T → Call → W → Prog I R ε α
  allowed : T → Call → W → Prop
  enter : T → Call → W → W
  leave : T → Call → Except ε α → W → W
  crash : T → W → W

inductive Thread (I : Type) (R : I → Type) (ε α Call : Type) : Type
  | idle
  | busy (a : Call) (p : Prog I R ε α)
  | dead

structure Config (T I : Type) (R : I → Type) (ε α Call W : Type) where
  world : W
  thread : T → Thread I R ε α Call

inductive Event (T I : Type) (R : I → Type) (ε α Call : Type) : Type
  | call (t : T) (a : Call)
  | op (t : T) (i : I) (r : R i)
  | ret (t : T) (x : Except ε α)
  | crash (t : T)

namespace Event
variable {T I : Type} {R : I → Type} {ε α Call : Type}

/-- The thread an event belongs to. -/
def actor : Event T I R ε α Call → T
  | .call t _ | .op t _ _ | .ret t _ | .crash t => t

end Event

variable {T I : Type} {R : I → Type} {ε α Call W : Type} [DecidableEq T]

namespace Machine

/-- All threads idle in the given world. -/
def start (_ : Machine T I R ε α Call W) (w : W) : Config T I R ε α Call W :=
  ⟨w, fun _ => .idle⟩

inductive Step (M : Machine T I R ε α Call W) :
    Config T I R ε α Call W → Event T I R ε α Call → Config T I R ε α Call W → Prop
  | call {c t a} (idle : c.thread t = .idle) (allowed : M.allowed t a c.world) :
      Step M c (.call t a)
        ⟨M.enter t a c.world,
          Function.update c.thread t (.busy a (M.code t a c.world))⟩
  | op {c t a i k r w} (busy : c.thread t = .busy a (.op i k))
      (exec : M.exec t i c.world r w) :
      Step M c (.op t i r) ⟨w, Function.update c.thread t (.busy a (k r))⟩
  | ret {c t a v} (busy : c.thread t = .busy a (.ret v)) :
      Step M c (.ret t (.ok v))
        ⟨M.leave t a (.ok v) c.world, Function.update c.thread t .idle⟩
  | throw {c t a e} (busy : c.thread t = .busy a (.throw e)) :
      Step M c (.ret t (.error e))
        ⟨M.leave t a (.error e) c.world, Function.update c.thread t .idle⟩
  | crash {c t} (alive : c.thread t ≠ .dead) :
      Step M c (.crash t) ⟨M.crash t c.world, Function.update c.thread t .dead⟩

/-- The dead take no steps. -/
theorem Step.actor_ne {M : Machine T I R ε α Call W} {c c' : Config T I R ε α Call W}
    {e : Event T I R ε α Call} (next : M.Step c e c') {u : T} (dead : c.thread u = .dead) :
    e.actor ≠ u := by
  rintro rfl
  cases next with
  | call idle allowed => cases idle.symm.trans dead
  | op busy exec => cases busy.symm.trans dead
  | ret busy | throw busy => cases busy.symm.trans dead
  | crash alive => exact alive dead

theorem Step.thread_other {M : Machine T I R ε α Call W} {c c' : Config T I R ε α Call W}
    {e : Event T I R ε α Call} (next : M.Step c e c') {u : T} (hu : u ≠ e.actor) :
    c'.thread u = c.thread u := by
  cases next with
  | call _ _ | op _ _ | ret _ | throw _ | crash _ => exact Function.update_of_ne hu _ _

/-- The configurations of the runs from `c₀` whose every step meets `ok` in the
world it starts from. -/
inductive Reach (M : Machine T I R ε α Call W)
    (ok : W → Event T I R ε α Call → Prop) (c₀ : Config T I R ε α Call W) :
    Config T I R ε α Call W → Prop
  | refl : Reach M ok c₀ c₀
  | step {c c' e} (run : Reach M ok c₀ c) (meets : ok c.world e)
      (next : M.Step c e c') : Reach M ok c₀ c'

theorem Reach.trans {M : Machine T I R ε α Call W}
    {ok : W → Event T I R ε α Call → Prop} {c₀ c₁ c₂ : Config T I R ε α Call W}
    (h₁ : M.Reach ok c₀ c₁) (h₂ : M.Reach ok c₁ c₂) : M.Reach ok c₀ c₂ := by
  induction h₂ with
  | refl => exact h₁
  | step _ meets next ih => exact ih.step meets next

theorem Reach.mono {M : Machine T I R ε α Call W}
    {ok ok' : W → Event T I R ε α Call → Prop} {c₀ c : Config T I R ε α Call W}
    (weaker : ∀ w e, ok w e → ok' w e) (h : M.Reach ok c₀ c) : M.Reach ok' c₀ c := by
  induction h with
  | refl => exact .refl
  | step _ meets next ih => exact ih.step (weaker _ _ meets) next

/-- A mark that only a crash sets is found on dead threads only. -/
theorem dead_of_marked {M : Machine T I R ε α Call W}
    {ok : W → Event T I R ε α Call → Prop} (mark : W → T → Bool)
    (enter : ∀ t a w, mark (M.enter t a w) = mark w)
    (exec : ∀ t i w r w', M.exec t i w r w' → mark w' = mark w)
    (leave : ∀ t a x w, mark (M.leave t a x w) = mark w)
    (crash : ∀ t w u, u ≠ t → mark (M.crash t w) u = mark w u)
    {w : W} (fresh : ∀ u, mark w u = false) {c : Config T I R ε α Call W}
    (run : M.Reach ok (M.start w) c) {u : T} (h : mark c.world u = true) :
    c.thread u = .dead := by
  induction run with
  | refl => cases (fresh u).symm.trans h
  | @step c₁ c₂ e _ _ next ih =>
      have before : u ≠ e.actor → mark c₁.world u = true → c₂.thread u = .dead :=
        fun other marked => (next.thread_other other).trans (ih marked)
      have living : mark c₁.world u = true → u ≠ e.actor :=
        fun marked => (next.actor_ne (ih marked)).symm
      cases next with
      | call =>
          rw [enter] at h
          exact before (living h) h
      | op busy step =>
          rw [exec _ _ _ _ _ step] at h
          exact before (living h) h
      | ret | throw =>
          rw [leave] at h
          exact before (living h) h
      | @crash t alive =>
          by_cases hu : u = t
          · subst hu
            exact Function.update_self _ _ _
          · rw [crash t _ u hu] at h
            exact before hu h

end Machine
end EdgeRuntime.Concurrent

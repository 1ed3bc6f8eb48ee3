import Mathlib.Logic.Function.Basic
import Mathlib.Algebra.Order.Ring.Nat
import Mathlib.Tactic.Common

/-!
Client programs over an instruction set. A program is the finite tree of the
instructions one call performs; every node is one atomic access, so a thread
pool may interleave programs at exactly these points.

Instructions carry no meaning here. The pool supplies it as a relation between
worlds, which keeps system calls, memory accesses and clock reads in one place.
-/
namespace EdgeRuntime.Concurrent

/-- One call: return a value, fail with an error, or perform an instruction and
continue with its reply. -/
inductive Prog (I : Type) (R : I → Type) (ε α : Type) : Type
  | ret (a : α)
  | throw (e : ε)
  | op (i : I) (k : R i → Prog I R ε α)

namespace Prog
variable {I : Type} {R : I → Type} {ε ε' α β γ : Type}

def bind : Prog I R ε α → (α → Prog I R ε β) → Prog I R ε β
  | .ret a, f => f a
  | .throw e, _ => .throw e
  | .op i k, f => .op i fun r => bind (k r) f

instance : Monad (Prog I R ε) where
  pure := .ret
  bind := bind

/-- Run to the result without propagating a failure, as code that inspects a
`Result` before deciding what to clean up. -/
def attempt : Prog I R ε α → Prog I R ε' (Except ε α)
  | .ret a => .ret (.ok a)
  | .throw e => .ret (.error e)
  | .op i k => .op i fun r => attempt (k r)

/-- Return a computed `Except` as the outcome of the program. -/
def lift : Except ε α → Prog I R ε α
  | .ok a => .ret a
  | .error e => .throw e

@[simp] theorem pure_eq (a : α) : (pure a : Prog I R ε α) = .ret a := rfl

@[simp] theorem ret_bind (a : α) (f : α → Prog I R ε β) :
    (Prog.ret a >>= f) = f a := rfl

@[simp] theorem throw_bind (e : ε) (f : α → Prog I R ε β) :
    ((Prog.throw e : Prog I R ε α) >>= f) = .throw e := rfl

@[simp] theorem op_bind (i : I) (k : R i → Prog I R ε α) (f : α → Prog I R ε β) :
    (Prog.op i k >>= f) = .op i fun r => k r >>= f := rfl

@[simp] theorem attempt_ret (a : α) :
    (attempt (.ret a : Prog I R ε α) : Prog I R ε' _) = .ret (.ok a) := rfl

@[simp] theorem attempt_throw (e : ε) :
    (attempt (.throw e : Prog I R ε α) : Prog I R ε' _) = .ret (.error e) := rfl

@[simp] theorem attempt_op (i : I) (k : R i → Prog I R ε α) :
    (attempt (.op i k) : Prog I R ε' _) = .op i fun r => attempt (k r) := rfl

theorem bind_assoc (p : Prog I R ε α) (f : α → Prog I R ε β)
    (g : β → Prog I R ε γ) : ((p >>= f) >>= g) = (p >>= fun a => f a >>= g) := by
  induction p with
  | ret _ | throw _ => rfl
  | op i k ih => exact congrArg (Prog.op i) (funext ih)

/-- Every instruction the program may perform satisfies `P`. -/
def All (P : I → Prop) : Prog I R ε α → Prop
  | .ret _ | .throw _ => True
  | .op i k => P i ∧ ∀ r, All P (k r)

theorem all_bind {P : I → Prop} {p : Prog I R ε α} {f : α → Prog I R ε β}
    (hp : All P p) (hf : ∀ a, All P (f a)) : All P (p >>= f) := by
  induction p with
  | ret a => exact hf a
  | throw _ => trivial
  | op i k ih => exact ⟨hp.1, fun r => ih r (hp.2 r)⟩

theorem all_attempt {P : I → Prop} {p : Prog I R ε α} (hp : All P p) :
    All P (attempt p : Prog I R ε' _) := by
  induction p with
  | ret _ | throw _ => trivial
  | op i k ih => exact ⟨hp.1, fun r => ih r (hp.2 r)⟩

theorem All.mono {P P' : I → Prop} {p : Prog I R ε α} (h : ∀ i, P i → P' i)
    (hp : All P p) : All P' p := by
  induction p with
  | ret _ | throw _ => trivial
  | op i k ih => exact ⟨h i hp.1, fun r => ih r (hp.2 r)⟩

theorem all_lift {P : I → Prop} (x : Except ε α) :
    All P (lift x : Prog I R ε α) := by
  cases x <;> trivial

/-- Every instruction satisfies `P` and no branch fails. -/
def Looks (P : I → Prop) : Prog I R ε α → Prop
  | .ret _ => True
  | .throw _ => False
  | .op i k => P i ∧ ∀ r, Looks P (k r)

theorem Looks.all {P : I → Prop} {p : Prog I R ε α} (hp : Looks P p) : All P p := by
  induction p with
  | ret _ | throw _ => trivial
  | op i k ih => exact ⟨hp.1, fun r => ih r (hp.2 r)⟩

theorem looks_bind {P : I → Prop} {p : Prog I R ε α} {f : α → Prog I R ε β}
    (hp : Looks P p) (hf : ∀ a, Looks P (f a)) : Looks P (p >>= f) := by
  induction p with
  | ret a => exact hf a
  | throw _ => exact hp.elim
  | op i k ih => exact ⟨hp.1, fun r => ih r (hp.2 r)⟩

theorem looks_attempt {P : I → Prop} {p : Prog I R ε α} (hp : All P p) :
    Looks P (attempt p : Prog I R ε' _) := by
  induction p with
  | ret _ | throw _ => trivial
  | op i k ih => exact ⟨hp.1, fun r => ih r (hp.2 r)⟩

/-- Every outcome the program may have, whatever the replies, satisfies `P`. -/
def Ends (P : Except ε α → Prop) : Prog I R ε α → Prop
  | .ret a => P (.ok a)
  | .throw e => P (.error e)
  | .op _ k => ∀ r, Ends P (k r)

/-- Code that cannot fail ends with a value. -/
theorem Looks.ends {P : I → Prop} {p : Prog I R ε α} (hp : Looks P p) :
    p.Ends fun x => ∃ a, x = .ok a := by
  induction p with
  | ret a => exact ⟨a, rfl⟩
  | throw _ => exact hp.elim
  | op i k ih => exact fun r => ih r (hp.2 r)

theorem ends_true (p : Prog I R ε α) : p.Ends fun _ => True := by
  induction p with
  | ret _ | throw _ => trivial
  | op i k ih => exact ih

theorem ends_attempt (p : Prog I R ε α) :
    (p.attempt : Prog I R ε' _).Ends fun x => ∃ y, x = .ok y := by
  induction p with
  | ret a => exact ⟨_, rfl⟩
  | throw e => exact ⟨_, rfl⟩
  | op i k ih => exact ih

/-- The outcome of an attempt is an outcome of the program. -/
theorem Ends.attempt {P : Except ε α → Prop} {p : Prog I R ε α} (hp : p.Ends P) :
    (p.attempt : Prog I R ε' _).Ends fun x => ∃ y, x = .ok y ∧ P y := by
  induction p with
  | ret a => exact ⟨_, rfl, hp⟩
  | throw e => exact ⟨_, rfl, hp⟩
  | op i k ih => exact fun r => ih r (hp r)

theorem ends_bind {P : Except ε α → Prop} {Q : Except ε β → Prop}
    {p : Prog I R ε α} {f : α → Prog I R ε β} (hp : Ends P p)
    (hf : ∀ a, P (.ok a) → Ends Q (f a)) (he : ∀ e, P (.error e) → Q (.error e)) :
    Ends Q (p >>= f) := by
  induction p with
  | ret a => exact hf a hp
  | throw e => exact he e hp
  | op i k ih => exact fun r => ih r (hp r)

/-- No execution performs more than the given number of instructions that satisfy `P`. -/
def AtMost (P : I → Prop) : Prog I R ε α → Nat → Prop
  | .ret _, _ | .throw _, _ => True
  | .op i k, n =>
      (¬ P i ∧ ∀ r, AtMost P (k r) n) ∨ ∃ m, n = m + 1 ∧ ∀ r, AtMost P (k r) m

theorem atMost_of_all {P : I → Prop} {p : Prog I R ε α} {n : Nat}
    (hp : All (fun i => ¬ P i) p) : AtMost P p n := by
  induction p with
  | ret _ | throw _ => trivial
  | op i k ih => exact .inl ⟨hp.1, fun r => ih r (hp.2 r)⟩

theorem AtMost.mono {P : I → Prop} {p : Prog I R ε α} {a b : Nat} (hp : AtMost P p a)
    (le : a ≤ b) : AtMost P p b := by
  induction p generalizing a b with
  | ret _ | throw _ => trivial
  | op i k ih =>
      obtain ⟨other, rest⟩ | ⟨m, rfl, rest⟩ := hp
      · exact .inl ⟨other, fun r => ih r (rest r) le⟩
      · refine .inr ⟨b - 1, by omega, fun r => ih r (rest r) (by omega)⟩

theorem atMost_bind {P : I → Prop} {p : Prog I R ε α} {f : α → Prog I R ε β} {a b : Nat}
    (hp : AtMost P p a) (hf : ∀ x, AtMost P (f x) b) : AtMost P (p >>= f) (a + b) := by
  induction p generalizing a with
  | ret x => exact (hf x).mono (Nat.le_add_left b a)
  | throw _ => trivial
  | op i k ih =>
      obtain ⟨other, rest⟩ | ⟨m, rfl, rest⟩ := hp
      · exact .inl ⟨other, fun r => ih r (rest r)⟩
      · refine .inr ⟨m + b, by omega, fun r => ih r (rest r)⟩

/-- Some replies make the program return the value. -/
def Returns : Prog I R ε α → α → Prop
  | .ret b, a => b = a
  | .throw _, _ => False
  | .op _ k, a => ∃ r, Returns (k r) a

theorem returns_bind {p : Prog I R ε α} {f : α → Prog I R ε β} {b : β}
    (h : (p >>= f).Returns b) : ∃ a, p.Returns a ∧ (f a).Returns b := by
  induction p with
  | ret a => exact ⟨a, rfl, h⟩
  | throw _ => exact h.elim
  | op i k ih =>
      obtain ⟨r, h⟩ := h
      obtain ⟨a, ha, hb⟩ := ih r h
      exact ⟨a, ⟨r, ha⟩, hb⟩

theorem returns_lift {x : Except ε α} {a : α} (h : (lift x : Prog I R ε α).Returns a) :
    x = .ok a := by
  cases x with
  | ok b => exact congrArg Except.ok h
  | error _ => exact h.elim

/-- Evaluate a program whose instructions are answered by a function, with no
other thread in between. -/
def solo {W : Type} (h : (i : I) → W → R i × W) :
    Prog I R ε α → W → Except ε α × W
  | .ret a, w => (.ok a, w)
  | .throw e, w => (.error e, w)
  | .op i k, w => solo h (k (h i w).1) (h i w).2

section Solo
variable {W : Type} (h : (i : I) → W → R i × W)

@[simp] theorem solo_ret (a : α) (w : W) :
    solo h (.ret a : Prog I R ε α) w = (.ok a, w) := rfl

@[simp] theorem solo_throw (e : ε) (w : W) :
    solo h (.throw e : Prog I R ε α) w = (.error e, w) := rfl

@[simp] theorem solo_op (i : I) (k : R i → Prog I R ε α) (w : W) :
    solo h (.op i k) w = solo h (k (h i w).1) (h i w).2 := rfl

theorem solo_bind (p : Prog I R ε α) (f : α → Prog I R ε β) (w : W) :
    solo h (p >>= f) w =
      match solo h p w with
      | (.ok a, w') => solo h (f a) w'
      | (.error e, w') => (.error e, w') := by
  induction p generalizing w with
  | ret _ | throw _ => rfl
  | op i k ih => exact ih (h i w).1 (h i w).2

theorem solo_bind_ok {p : Prog I R ε α} {f : α → Prog I R ε β} {w w' : W} {a : α}
    (hp : solo h p w = (.ok a, w')) : solo h (p >>= f) w = solo h (f a) w' := by
  rw [solo_bind, hp]

theorem solo_attempt (p : Prog I R ε α) (w : W) :
    solo h (attempt p : Prog I R ε' _) w =
      (.ok (solo h p w).1, (solo h p w).2) := by
  induction p generalizing w with
  | ret _ | throw _ => rfl
  | op i k ih => exact ih (h i w).1 (h i w).2

theorem returns_solo {p : Prog I R ε α} {w : W} {a : α} (hp : (solo h p w).1 = .ok a) :
    p.Returns a := by
  induction p generalizing w with
  | ret b =>
      cases hp
      exact rfl
  | throw _ => cases hp
  | op i k ih => exact ⟨_, ih _ hp⟩

end Solo
end Prog
end EdgeRuntime.Concurrent

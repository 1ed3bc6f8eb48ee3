import EdgeRuntime.Sync.OwnerSnapshot

/-!
A program that runs alone, its probes and clocks answered by functions, is followed
instruction by instruction to its only outcome. Where the answers are left open, the runs
of a program without interference form a relation.
-/
namespace EdgeRuntime
open Concurrent

namespace Memory
variable {T L W ε α β : Type} [DecidableEq T] (D : Memory T L W)
  (probe : W → Nat → Nat → Liveness) (now : W → Nat) (t : T)

/-- The outcome of a program that runs alone. -/
def alone (p : Code L ε α) (w : W) : Except ε α × W := p.solo (D.respond probe now t) w

/-- Running alone, the program ends as `Q` says. -/
def Alone (Q : Except ε α → W → Prop) (p : Code L ε α) (w : W) : Prop :=
  Q (D.alone probe now t p w).1 (D.alone probe now t p w).2

variable {D probe now t} {w : W} {l : L} {v : Nat} {Q : Except ε α → W → Prop}

theorem alone_ret {a : α} (h : Q (.ok a) w) : D.Alone probe now t Q (.ret a) w := h

theorem alone_load {k : Nat → Code L ε α} (h : D.Alone probe now t Q (k (D.read w l)) w) :
    D.Alone probe now t Q (sharedLoad l >>= k) w := h

theorem alone_store {k : Unit → Code L ε α}
    (h : D.Alone probe now t Q (k ()) (D.write t l v w)) :
    D.Alone probe now t Q (sharedStore l v >>= k) w := h

theorem alone_probe {pid ticks : Nat} {k : Liveness → Code L ε α}
    (h : D.Alone probe now t Q (k (probe w pid ticks)) w) :
    D.Alone probe now t Q (probeLiveness pid ticks >>= k) w := h

theorem alone_boottime {k : Nat → Code L ε α} (h : D.Alone probe now t Q (k (now w)) w) :
    D.Alone probe now t Q (boottimeNowNs >>= k) w := h

theorem alone_cas {k : Bool → Code L ε α} {expected : Nat} (hl : D.read w l = expected)
    (h : D.Alone probe now t Q (k true) (D.write t l v w)) :
    D.Alone probe now t Q (sharedCas l expected v >>= k) w := by
  have hr : D.respond probe now t (.cas l expected v) w =
      ((true : Bool), D.write t l v w) := if_pos hl
  unfold Alone alone
  change Q (Prog.solo _ (k (D.respond probe now t (.cas l expected v) w).1) _).1
    (Prog.solo _ (k (D.respond probe now t (.cas l expected v) w).1) _).2
  rw [hr]
  exact h

theorem alone_mono {Q' : Except ε α → W → Prop} {p : Code L ε α}
    (hq : ∀ x w, Q x w → Q' x w) (h : D.Alone probe now t Q p w) :
    D.Alone probe now t Q' p w := hq _ _ h

/-- Sequencing by the specification of the first part. -/
theorem alone_seq {B : Except ε β → W → Prop} {p : Code L ε β} {k : β → Code L ε α}
    (h : D.Alone probe now t B p w)
    (ok : ∀ b w', B (.ok b) w' → D.Alone probe now t Q (k b) w')
    (err : ∀ e w', B (.error e) w' → Q (.error e) w') :
    D.Alone probe now t Q (p >>= k) w := by
  unfold Alone alone at h ⊢
  rw [Prog.solo_bind]
  generalize Prog.solo (D.respond probe now t) p w = y at h
  obtain ⟨x, w'⟩ := y
  cases x with
  | ok b => exact ok b w' h
  | error e => exact err e w' h

theorem alone_bind {p : Code L ε β} {k : β → Code L ε α} {b : β} {w' : W}
    (run : D.alone probe now t p w = (.ok b, w')) (h : D.Alone probe now t Q (k b) w') :
    D.Alone probe now t Q (p >>= k) w := by
  have same : D.alone probe now t (p >>= k) w = D.alone probe now t (k b) w' :=
    Prog.solo_bind_ok _ run
  unfold Alone
  rw [same]
  exact h

theorem alone_attempt_seq {ε' : Type} {B : Except ε' β → W → Prop} {p : Code L ε' β}
    {k : Except ε' β → Code L ε α} (h : D.Alone probe now t B p w)
    (next : ∀ x w', B x w' → D.Alone probe now t Q (k x) w') :
    D.Alone probe now t Q ((p.attempt : Code L ε _) >>= k) w := by
  have hb : D.alone probe now t ((p.attempt : Code L ε _) >>= k) w =
      D.alone probe now t (k (D.alone probe now t p w).1) (D.alone probe now t p w).2 := by
    unfold alone
    rw [Prog.solo_bind, Prog.solo_attempt]
  unfold Alone at h ⊢
  rw [hb]
  exact next _ _ h

theorem alone_lift {x : Except ε β} {b : β} {k : β → Code L ε α} (hx : x = .ok b)
    (h : D.Alone probe now t Q (k b) w) : D.Alone probe now t Q (Prog.lift x >>= k) w := by
  subst hx
  exact h

/-- A result that is only wrapped. -/
theorem alone_map {p : Code L ε β} {f : β → α} :
    D.alone probe now t (p >>= fun b => .ret (f b)) w =
      ((D.alone probe now t p w).1.map f, (D.alone probe now t p w).2) := by
  unfold alone
  rw [Prog.solo_bind]
  generalize Prog.solo (D.respond probe now t) p w = y
  obtain ⟨x, w'⟩ := y
  cases x <;> rfl

theorem alone_ends {P : Except ε α → Prop} {p : Code L ε α} (ends : p.Ends P) :
    P (D.alone probe now t p w).1 := by
  induction p generalizing w with
  | ret _ | throw _ => exact ends
  | op i k ih => exact ih _ (ends _)

/-- Code that only looks leaves the world as it is. -/
theorem alone_world {P : Instr L → Prop} {p : Code L ε α} (all : p.All P)
    (still : ∀ i, P i → (D.respond probe now t i w).2 = w) :
    (D.alone probe now t p w).2 = w := by
  induction p with
  | ret _ | throw _ => rfl
  | op i k ih =>
      have rest := ih (D.respond probe now t i w).1 (all.2 _)
      unfold alone at rest ⊢
      rw [Prog.solo_op, still i all.1]
      exact rest

/-- The same for code that cannot fail. -/
theorem alone_looks {P : Instr L → Prop} {p : Code L ε β} {k : β → Code L ε α}
    (looks : p.Looks P) (still : ∀ i, P i → (D.respond probe now t i w).2 = w)
    (h : ∀ b, D.Alone probe now t Q (k b) w) : D.Alone probe now t Q (p >>= k) w := by
  have spec : D.Alone probe now t (fun x w' => (∃ b, x = .ok b) ∧ w' = w) p w :=
    ⟨alone_ends looks.ends, alone_world looks.all still⟩
  refine alone_seq spec ?_ ?_
  · rintro b _ ⟨_, rfl⟩
    exact h b
  · rintro e _ ⟨⟨_, never⟩, _⟩
    cases never

section
variable {epoch : L} {reserve : Nat}

theorem alone_ownerEpochCapacity {k : OwnerCommitResult → Code L ε α}
    (even : D.read w epoch % 2 = 0)
    (room : D.read w epoch + reserve ≤ maxCommittedOwnerEpoch)
    (h : D.Alone probe now t Q (k .ready) w) :
    D.Alone probe now t Q (ownerEpochCapacity epoch reserve >>= k) w := by
  unfold ownerEpochCapacity
  rw [Prog.bind_assoc]
  refine alone_load ?_
  rw [if_neg (by omega), if_pos (by omega)]
  exact h

theorem alone_beginOwnerCommit {k : OwnerCommitResult × Nat → Code L ε α}
    (two : 2 ≤ reserve) (even : D.read w epoch % 2 = 0)
    (room : D.read w epoch + reserve ≤ maxCommittedOwnerEpoch)
    (h : D.Alone probe now t Q (k (.ready, D.read w epoch + 2))
      (D.write t epoch (D.read w epoch + 1) w)) :
    D.Alone probe now t Q (beginOwnerCommit epoch reserve >>= k) w := by
  have sum : D.read w epoch + 2 ≤ uint64Max := by
    unfold maxCommittedOwnerEpoch at room
    omega
  unfold beginOwnerCommit
  rw [Prog.bind_assoc]
  refine alone_load ?_
  rw [if_neg (by omega), if_neg (by omega), addU64_eq (by omega), addU64_eq sum,
    Prog.bind_assoc]
  exact alone_cas rfl h

end

/-- The control lock is free: take it, run the body, give it back. -/
theorem alone_withControlLock {Q : Except Error α → W → Prop} {body : Code L Error α} {w' : W}
    (free : D.lock t w = some w')
    (h : D.Alone probe now t (fun x w => Q x (D.unlock t w)) body w') :
    D.Alone probe now t Q (withControlLock body) w := by
  have taken : D.respond probe now t .lock w =
      ((.ok () : Except Error Unit), w') := by
    simp only [respond, free]
    rfl
  unfold Alone alone
  change Q (Prog.solo _ (Prog.lift (D.respond probe now t .lock w).1 >>= _) _).1
    (Prog.solo _ (Prog.lift (D.respond probe now t .lock w).1 >>= _) _).2
  rw [taken]
  refine alone_attempt_seq h fun x w₁ post => ?_
  cases x with
  | ok a => exact post
  | error e => exact post

/-- The program runs to its end with no other thread in between; probes and clocks answer
what they may. -/
inductive Solo (D : Memory T L W) (t : T) : Code L ε α → W → Except ε α → W → Prop
  | ret (a : α) (w : W) : Solo D t (.ret a) w (.ok a) w
  | throw (e : ε) (w : W) : Solo D t (.throw e) w (.error e) w
  | op {i : Instr L} {k : Reply i → Code L ε α} {w w' w'' : W} {r : Reply i} {x : Except ε α}
      (step : D.exec t i w r w') (rest : Solo D t (k r) w' x w'') : Solo D t (.op i k) w x w''

/-- Run a program without interference, as long as its instructions get an answer. -/
def trace (answer : (i : Instr L) → W → Option (Reply i × W)) :
    Code L ε α → W → Option (Except ε α × W)
  | .ret a, w => some (.ok a, w)
  | .throw e, w => some (.error e, w)
  | .op i k, w => (answer i w).bind fun x => trace answer (k x.1) x.2

theorem solo_trace {answer : (i : Instr L) → W → Option (Reply i × W)}
    (sound : ∀ i w x, answer i w = some x → D.exec t i w x.1 x.2) {p : Code L ε α}
    {y : Except ε α × W} (h : trace answer p w = some y) : D.Solo t p w y.1 y.2 := by
  induction p generalizing w with
  | ret a =>
      cases h
      exact .ret a w
  | throw e =>
      cases h
      exact .throw e w
  | op i k ih =>
      obtain ⟨x, answered, rest⟩ := Option.bind_eq_some_iff.1 h
      exact .op (sound i w x answered) (ih x.1 rest)

/-- However it runs without interference, the program ends as `Q` says. -/
def Undisturbed (D : Memory T L W) (t : T) (Q : Except ε α → W → Prop) (p : Code L ε α)
    (w : W) : Prop :=
  ∀ x w', D.Solo t p w x w' → Q x w'

theorem undisturbed_ret {a : α} (h : Q (.ok a) w) : D.Undisturbed t Q (.ret a) w := by
  intro x w' run
  cases run
  exact h

theorem undisturbed_throw {e : ε} (h : Q (.error e) w) : D.Undisturbed t Q (.throw e) w := by
  intro x w' run
  cases run
  exact h

theorem undisturbed_op {i : Instr L} {k : Reply i → Code L ε α}
    (h : ∀ r w', D.exec t i w r w' → D.Undisturbed t Q (k r) w') :
    D.Undisturbed t Q (.op i k) w := by
  intro x w' run
  cases run with
  | op step rest => exact h _ _ step x w' rest

theorem undisturbed_load {k : Nat → Code L ε α}
    (h : D.Undisturbed t Q (k (D.read w l)) w) :
    D.Undisturbed t Q (sharedLoad l >>= k) w := by
  refine undisturbed_op fun r w' step => ?_
  obtain ⟨rfl, rfl⟩ := step
  exact h

theorem undisturbed_store {k : Unit → Code L ε α}
    (h : D.Undisturbed t Q (k ()) (D.write t l v w)) :
    D.Undisturbed t Q (sharedStore l v >>= k) w := by
  refine undisturbed_op fun r w' step => ?_
  cases step
  exact h

theorem undisturbed_cas {k : Bool → Code L ε α} {expected : Nat}
    (swaps : D.read w l = expected → D.Undisturbed t Q (k true) (D.write t l v w))
    (fails : D.read w l ≠ expected → D.Undisturbed t Q (k false) w) :
    D.Undisturbed t Q (sharedCas l expected v >>= k) w := by
  refine undisturbed_op fun r w' step => ?_
  obtain ⟨rfl, rfl⟩ := step
  change D.Undisturbed t Q (k (decide (D.read w l = expected))) _
  by_cases hl : D.read w l = expected
  · simpa only [hl, decide_true, if_true] using swaps hl
  · simpa only [hl, decide_false, if_false] using fails hl

/-- Sequencing by the specification of the first part. -/
theorem undisturbed_seq {B : Except ε β → W → Prop} {p : Code L ε β} {k : β → Code L ε α}
    (h : D.Undisturbed t B p w)
    (ok : ∀ b w', B (.ok b) w' → D.Undisturbed t Q (k b) w')
    (err : ∀ e w', B (.error e) w' → Q (.error e) w') :
    D.Undisturbed t Q (p >>= k) w := by
  induction p generalizing w with
  | ret b => exact ok b w (h _ _ (.ret b w))
  | throw e => exact undisturbed_throw (err e w (h _ _ (.throw e w)))
  | op i _ ih =>
      exact undisturbed_op fun r w' step => ih r fun x w'' rest => h x w'' (.op step rest)

theorem undisturbed_attempt_seq {ε' : Type} {B : Except ε' β → W → Prop} {p : Code L ε' β}
    {k : Except ε' β → Code L ε α} (h : D.Undisturbed t B p w)
    (next : ∀ x w', B x w' → D.Undisturbed t Q (k x) w') :
    D.Undisturbed t Q ((p.attempt : Code L ε _) >>= k) w := by
  induction p generalizing w with
  | ret b => exact next (.ok b) w (h _ _ (.ret b w))
  | throw e => exact next (.error e) w (h _ _ (.throw e w))
  | op i _ ih =>
      exact undisturbed_op fun r w' step => ih r fun x w'' rest => h x w'' (.op step rest)

/-- Code that only looks leaves the world as it is. -/
theorem solo_world {p : Code L ε α} {x : Except ε α} {w' : W} (all : p.All Reads)
    (run : D.Solo t p w x w') : w' = w := by
  induction run with
  | ret _ _ | throw _ _ => rfl
  | op step _ ih => exact (ih (all.2 _)).trans (D.exec_reads t _ all.1 _ _ _ step)

theorem solo_ends {P : Except ε α → Prop} {p : Code L ε α} {x : Except ε α} {w' : W}
    (ends : p.Ends P) (run : D.Solo t p w x w') : P x := by
  induction run with
  | ret _ _ | throw _ _ => exact ends
  | op _ _ ih => exact ih (ends _)

/-- Look first: the world is the same afterwards. -/
theorem undisturbed_look {p : Code L ε β} {k : β → Code L ε α} (all : p.All Reads)
    (ok : ∀ b, D.Solo t p w (.ok b) w → D.Undisturbed t Q (k b) w)
    (err : ∀ e, Q (.error e) w) : D.Undisturbed t Q (p >>= k) w := by
  have seen : D.Undisturbed t (fun x w' => D.Solo t p w x w' ∧ w' = w) p w :=
    fun x w' run => ⟨run, solo_world all run⟩
  refine undisturbed_seq seen ?_ ?_
  · rintro b _ ⟨run, rfl⟩
    exact ok b run
  · rintro e _ ⟨_, rfl⟩
    exact err e

/-- The same for code that cannot fail. -/
theorem undisturbed_looks {p : Code L ε β} {k : β → Code L ε α} (looks : p.Looks Reads)
    (ok : ∀ b, D.Undisturbed t Q (k b) w) : D.Undisturbed t Q (p >>= k) w := by
  have seen : D.Undisturbed t (fun x w' => (∃ b, x = .ok b) ∧ w' = w) p w :=
    fun x w' run => ⟨solo_ends looks.ends run, solo_world looks.all run⟩
  refine undisturbed_seq seen ?_ ?_
  · rintro b _ ⟨_, rfl⟩
    exact ok b
  · rintro e _ ⟨⟨_, never⟩, _⟩
    cases never

end Memory
end EdgeRuntime

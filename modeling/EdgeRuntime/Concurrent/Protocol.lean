import EdgeRuntime.Concurrent.Pool

/-!
Local protocols. A protocol is an automaton over the instructions of one thread: it says
what the thread may do next, and what it is to remember of what it did. Whether a
program follows its protocol is a matter of its text alone, for all replies.

A monitor attaches a protocol to every thread of a machine, together with an invariant
over the world and what the threads remember. The invariant is then proved once per
instruction and not once per program.
-/
namespace EdgeRuntime.Concurrent

structure Protocol (I : Type) (R : I → Type) (D : Type) where
  allow : D → I → Prop
  next : D → (i : I) → R i → D

variable {T I : Type} {R : I → Type} {ε ε' α β Call W D : Type}

/-- Two protocols side by side. -/
def Protocol.prod {D' : Type} (P : Protocol I R D) (P' : Protocol I R D') :
    Protocol I R (D × D') where
  allow d i := P.allow d.1 i ∧ P'.allow d.2 i
  next d i r := (P.next d.1 i r, P'.next d.2 i r)

namespace Prog

/-- Every instruction is allowed when its turn comes, and the end satisfies `Q`. -/
def Follows (P : Protocol I R D) (Q : Except ε α → D → Prop) : Prog I R ε α → D → Prop
  | .ret a, d => Q (.ok a) d
  | .throw e, d => Q (.error e) d
  | .op i k, d => P.allow d i ∧ ∀ r, Follows P Q (k r) (P.next d i r)

variable {P : Protocol I R D} {d : D}

theorem follows_mono {Q Q' : Except ε α → D → Prop} {p : Prog I R ε α}
    (hq : ∀ x d, Q x d → Q' x d) (h : p.Follows P Q d) : p.Follows P Q' d := by
  induction p generalizing d with
  | ret _ => exact hq _ _ h
  | throw _ => exact hq _ _ h
  | op i k ih => exact ⟨h.1, fun r => ih r (h.2 r)⟩

theorem follows_bind {Q : Except ε β → D → Prop} {p : Prog I R ε α}
    {f : α → Prog I R ε β}
    (h : p.Follows P (fun x d => match x with
      | .ok a => (f a).Follows P Q d
      | .error e => Q (.error e) d) d) : (p >>= f).Follows P Q d := by
  induction p generalizing d with
  | ret _ => exact h
  | throw _ => exact h
  | op i k ih => exact ⟨h.1, fun r => ih r (h.2 r)⟩

theorem follows_seq {Q : Except ε β → D → Prop} {B : Except ε α → D → Prop}
    {p : Prog I R ε α} {f : α → Prog I R ε β} (h : p.Follows P B d)
    (ok : ∀ a d, B (.ok a) d → (f a).Follows P Q d)
    (err : ∀ e d, B (.error e) d → Q (.error e) d) : (p >>= f).Follows P Q d := by
  apply follows_bind
  apply follows_mono _ h
  intro x d hb
  cases x with
  | ok a => exact ok a d hb
  | error e => exact err e d hb

theorem follows_attempt {Q : Except ε' (Except ε α) → D → Prop} {p : Prog I R ε α}
    (h : p.Follows P (fun x d => Q (.ok x) d) d) :
    (attempt p : Prog I R ε' _).Follows P Q d := by
  induction p generalizing d with
  | ret _ => exact h
  | throw _ => exact h
  | op i k ih => exact ⟨h.1, fun r => ih r (h.2 r)⟩

theorem follows_attempt_seq {Q : Except ε' β → D → Prop} {B : Except ε α → D → Prop}
    {p : Prog I R ε α} {f : Except ε α → Prog I R ε' β} (h : p.Follows P B d)
    (next : ∀ x d, B x d → (f x).Follows P Q d) :
    ((attempt p : Prog I R ε' _) >>= f).Follows P Q d := by
  apply follows_bind
  apply follows_attempt
  exact follows_mono next h

theorem follows_lift {Q : Except ε α → D → Prop} {x : Except ε α} (h : Q x d) :
    (lift x : Prog I R ε α).Follows P Q d := by
  cases x <;> exact h

/-- A program that follows two protocols follows them side by side. -/
theorem follows_prod {D' : Type} {P' : Protocol I R D'} {d' : D'}
    {Q : Except ε α → D → Prop} {Q' : Except ε α → D' → Prop} {p : Prog I R ε α}
    (h : p.Follows P Q d) (h' : p.Follows P' Q' d') :
    p.Follows (P.prod P') (fun x e => Q x e.1 ∧ Q' x e.2) (d, d') := by
  induction p generalizing d d' with
  | ret _ | throw _ => exact ⟨h, h'⟩
  | op i k ih => exact ⟨⟨h.1, h'.1⟩, fun r => ih r (h.2 r) (h'.2 r)⟩

/-- The program runs to its end while others act in between. -/
inductive Among (exec : (i : I) → W → R i → W → Prop) (others : W → W → Prop) :
    Prog I R ε α → W → Except ε α → W → Prop
  | ret (a : α) (w : W) : Among exec others (.ret a) w (.ok a) w
  | throw (e : ε) (w : W) : Among exec others (.throw e) w (.error e) w
  | op {i : I} {k : R i → Prog I R ε α} {w w' w'' : W} {r : R i} {x : Except ε α}
      (step : exec i w r w') (rest : Among exec others (k r) w' x w'') :
      Among exec others (.op i k) w x w''
  | between {p : Prog I R ε α} {w w' w'' : W} {x : Except ε α} (act : others w w')
      (rest : Among exec others p w' x w'') : Among exec others p w x w''

/-- What every allowed instruction and all the others keep, a run of the program keeps. -/
theorem follows_among {exec : (i : I) → W → R i → W → Prop} {others : W → W → Prop}
    {E : W → D → Prop}
    (step : ∀ w d i r w', E w d → P.allow d i → exec i w r w' → E w' (P.next d i r))
    (other : ∀ w d w', E w d → others w w' → E w' d)
    {Q : Except ε α → D → Prop} {p : Prog I R ε α} {w w' : W} {x : Except ε α}
    (run : p.Among exec others w x w') (pre : E w d) (h : p.Follows P Q d) :
    ∃ d', Q x d' ∧ E w' d' := by
  induction run generalizing d with
  | ret _ _ | throw _ _ => exact ⟨d, h, pre⟩
  | op act _ ih => exact ih (step _ _ _ _ _ pre h.1 act) (h.2 _)
  | between act _ ih => exact ih (other _ _ _ pre act) h

/-- A protocol that allows everything in a state it never leaves. -/
theorem follows_free {p : Prog I R ε α} (free : ∀ i, P.allow d i)
    (stays : ∀ i r, P.next d i r = d) : p.Follows P (fun _ d' => d' = d) d := by
  induction p with
  | ret _ | throw _ => exact rfl
  | op i k ih =>
      refine ⟨free i, fun r => ?_⟩
      rw [stays]
      exact ih r

/-- Instructions that are allowed in every state of a kind and lead to such a state. -/
theorem follows_all {pure : I → Prop} {E : D → Prop} {p : Prog I R ε α}
    (step : ∀ d i, E d → pure i → P.allow d i ∧ ∀ r, E (P.next d i r)) (all : p.All pure)
    (pre : E d) : p.Follows P (fun _ => E) d := by
  induction p generalizing d with
  | ret _ => exact pre
  | throw _ => exact pre
  | op i k ih =>
      obtain ⟨allowed, after⟩ := step d i pre all.1
      exact ⟨allowed, fun r => ih r (all.2 r) (after r)⟩

end Prog

/-- A machine whose threads follow protocols, with what that keeps true. -/
structure Monitor (M : Machine T I R ε α Call W)
    (ok : W → Event T I R ε α Call → Prop) [DecidableEq T] (D : Type) where
  protocol : T → Protocol I R D
  idle : T → D → Prop
  /-- What a thread remembers at the end of a call, by its outcome. -/
  ends : T → Call → Except ε α → D → Prop
  inv : W → (T → D) → Prop
  call_sound : ∀ {w d t a}, inv w d → idle t (d t) → M.allowed t a w → ok w (.call t a) →
    ∃ e, inv (M.enter t a w) (Function.update d t e) ∧
      (M.code t a w).Follows (protocol t) (ends t a) e
  op_sound : ∀ {w d t i r w'}, inv w d → (protocol t).allow (d t) i → M.exec t i w r w' →
    ok w (.op t i r) → inv w' (Function.update d t ((protocol t).next (d t) i r))
  ret_sound : ∀ {w d t a x}, inv w d → ends t a x (d t) →
    ∃ e, inv (M.leave t a x w) (Function.update d t e) ∧ idle t e
  crash_sound : ∀ {w d t}, inv w d → ok w (.crash t) → inv (M.crash t w) d

namespace Monitor
variable [DecidableEq T] {M : Machine T I R ε α Call W}
  {ok : W → Event T I R ε α Call → Prop}

def ThreadOk (O : Monitor M ok D) (t : T) (d : D) : Thread I R ε α Call → Prop
  | .idle => O.idle t d
  | .busy a p => p.Follows (O.protocol t) (O.ends t a) d
  | .dead => True

def Covers (O : Monitor M ok D) (c : Config T I R ε α Call W) : Prop :=
  ∃ d, O.inv c.world d ∧ ∀ t, O.ThreadOk t (d t) (c.thread t)

/-- One thread has moved; the others remember what they did. -/
theorem covers_update (O : Monitor M ok D) {c : Config T I R ε α Call W} {t : T}
    {d : T → D} {e : D} {th : Thread I R ε α Call} {w : W}
    (threads : ∀ u, O.ThreadOk u (d u) (c.thread u)) (inv : O.inv w (Function.update d t e))
    (self : O.ThreadOk t e th) : O.Covers ⟨w, Function.update c.thread t th⟩ := by
  refine ⟨_, inv, ?_⟩
  intro u
  by_cases hu : u = t
  · subst hu
    simpa using self
  · simpa [Function.update_of_ne hu] using threads u

theorem covers_step (O : Monitor M ok D) {c c' : Config T I R ε α Call W}
    {e : Event T I R ε α Call} (meets : ok c.world e) (next : M.Step c e c')
    (h : O.Covers c) : O.Covers c' := by
  obtain ⟨d, inv, threads⟩ := h
  have same : ∀ t, Function.update d t (d t) = d := fun t => Function.update_eq_self t d
  cases next with
  | @call t a idle allowed =>
      have self := threads t
      rw [idle] at self
      obtain ⟨e, inv', follows⟩ := O.call_sound inv self allowed meets
      exact O.covers_update threads inv' follows
  | @op t a i k r w busy exec =>
      have self := threads t
      rw [busy] at self
      exact O.covers_update threads (O.op_sound inv self.1 exec meets) (self.2 r)
  | @ret t a v busy | @throw t a v busy =>
      have self := threads t
      rw [busy] at self
      obtain ⟨e, inv', idle⟩ := O.ret_sound inv self
      exact O.covers_update threads inv' idle
  | @crash t alive =>
      refine O.covers_update (e := d t) threads ?_ trivial
      rw [same]
      exact O.crash_sound inv meets

theorem covers_reach (O : Monitor M ok D) {c c' : Config T I R ε α Call W}
    (run : M.Reach ok c c') (h : O.Covers c) : O.Covers c' := by
  induction run with
  | refl => exact h
  | step _ meets next ih => exact O.covers_step meets next ih

end Monitor
end EdgeRuntime.Concurrent

import EdgeRuntime.Concurrent.Protocol

/-!
Scripts: protocols that also say which replies can come. A thread that owns a word knows
what a load of it returns, so its program need only be followed for those replies. The
machine supplies the proof that no other reply ever comes.
-/
namespace EdgeRuntime.Concurrent

structure Script (I : Type) (R : I → Type) (D : Type) extends Protocol I R D where
  may : D → (i : I) → R i → Prop

variable {T I : Type} {R : I → Type} {ε ε' α β Call W D : Type}

namespace Prog

/-- Every instruction is allowed when its turn comes, as long as the replies are those
that can come, and the end satisfies `Q`. -/
def Obeys (P : Script I R D) (Q : Except ε α → D → Prop) : Prog I R ε α → D → Prop
  | .ret a, d => Q (.ok a) d
  | .throw e, d => Q (.error e) d
  | .op i k, d => P.allow d i ∧ ∀ r, P.may d i r → Obeys P Q (k r) (P.next d i r)

variable {P : Script I R D} {d : D}

theorem obeys_mono {Q Q' : Except ε α → D → Prop} {p : Prog I R ε α}
    (hq : ∀ x d, Q x d → Q' x d) (h : p.Obeys P Q d) : p.Obeys P Q' d := by
  induction p generalizing d with
  | ret _ => exact hq _ _ h
  | throw _ => exact hq _ _ h
  | op i k ih => exact ⟨h.1, fun r may => ih r (h.2 r may)⟩

theorem obeys_seq {Q : Except ε β → D → Prop} {B : Except ε α → D → Prop}
    {p : Prog I R ε α} {f : α → Prog I R ε β} (h : p.Obeys P B d)
    (ok : ∀ a d, B (.ok a) d → (f a).Obeys P Q d)
    (err : ∀ e d, B (.error e) d → Q (.error e) d) : (p >>= f).Obeys P Q d := by
  induction p generalizing d with
  | ret a => exact ok a d h
  | throw e => exact err e d h
  | op i k ih => exact ⟨h.1, fun r may => ih r (h.2 r may)⟩

theorem obeys_lift {Q : Except ε α → D → Prop} {x : Except ε α} (h : Q x d) :
    (lift x : Prog I R ε α).Obeys P Q d := by
  cases x <;> exact h

/-- Instructions that are allowed and leave the state of the script as it is. -/
theorem obeys_all {pure : I → Prop} {p : Prog I R ε α} (all : p.All pure)
    (allowed : ∀ i, pure i → P.allow d i)
    (stays : ∀ i, pure i → ∀ r, P.may d i r → P.next d i r = d)
    {E : Except ε α → Prop} (ends : p.Ends E) : p.Obeys P (fun x d' => E x ∧ d' = d) d := by
  induction p with
  | ret _ | throw _ => exact ⟨ends, rfl⟩
  | op i k ih =>
      refine ⟨allowed i all.1, fun r may => ?_⟩
      rw [stays i all.1 r may]
      exact ih r (all.2 r) (ends r)

end Prog

namespace Script

/-- The script as a protocol: a reply that cannot come ends all obligations. -/
noncomputable def protocol (P : Script I R D) : Protocol I R (Option D) where
  allow d i := ∀ e, d = some e → P.allow e i
  next d i r := d.bind fun e => open Classical in
    if P.may e i r then some (P.next e i r) else none

theorem follows_none (P : Script I R D) (Q : Except ε α → D → Prop) (p : Prog I R ε α) :
    p.Follows P.protocol (fun x d => ∀ e, d = some e → Q x e) none := by
  induction p with
  | ret _ | throw _ =>
      rintro _ ⟨⟩
  | op i k ih =>
      refine ⟨?_, ih⟩
      rintro _ ⟨⟩

theorem follows_of_obeys {P : Script I R D} {Q : Except ε α → D → Prop} {p : Prog I R ε α}
    {d : D} (h : p.Obeys P Q d) :
    p.Follows P.protocol (fun x d => ∀ e, d = some e → Q x e) (some d) := by
  induction p generalizing d with
  | ret _ | throw _ =>
      rintro _ ⟨⟩
      exact h
  | op i k ih =>
      refine ⟨?_, fun r => ?_⟩
      · rintro _ ⟨⟩
        exact h.1
      · by_cases may : P.may d i r
        · have next : P.protocol.next (some d) i r = some (P.next d i r) := if_pos may
          rw [next]
          exact ih r (h.2 r may)
        · have next : P.protocol.next (some d) i r = none := if_neg may
          rw [next]
          exact follows_none P Q (k r)

end Script

/-- A machine whose threads obey scripts, with what that keeps true. -/
structure Cast (M : Machine T I R ε α Call W) (ok : W → Event T I R ε α Call → Prop)
    [DecidableEq T] (D : Type) where
  script : T → Script I R D
  idle : T → D → Prop
  ends : T → Call → Except ε α → D → Prop
  inv : W → (T → D) → Prop
  call_sound : ∀ {w d t a}, inv w d → idle t (d t) → M.allowed t a w → ok w (.call t a) →
    ∃ e, inv (M.enter t a w) (Function.update d t e) ∧
      (M.code t a w).Obeys (script t) (ends t a) e
  op_sound : ∀ {w d t i r w'}, inv w d → (script t).allow (d t) i → M.exec t i w r w' →
    ok w (.op t i r) → (script t).may (d t) i r ∧
      inv w' (Function.update d t ((script t).next (d t) i r))
  ret_sound : ∀ {w d t a x}, inv w d → ends t a x (d t) →
    ∃ e, inv (M.leave t a x w) (Function.update d t e) ∧ idle t e
  crash_sound : ∀ {w d t}, inv w d → ok w (.crash t) → inv (M.crash t w) d

namespace Cast
variable [DecidableEq T] {M : Machine T I R ε α Call W}
  {ok : W → Event T I R ε α Call → Prop}

/-- Every thread still knows where it is in its script. -/
def Played (inv : W → (T → D) → Prop) (w : W) (d : T → Option D) : Prop :=
  ∃ e, d = (fun t => some (e t)) ∧ inv w e

theorem played_update {inv : W → (T → D) → Prop} {w : W} {e : T → D} {t : T} {x : D}
    (h : inv w (Function.update e t x)) :
    Played inv w (Function.update (fun t => some (e t)) t (some x)) := by
  refine ⟨_, ?_, h⟩
  funext u
  by_cases hu : u = t
  · subst hu
    simp
  · simp [Function.update_of_ne hu]

noncomputable def monitor (O : Cast M ok D) : Monitor M ok (Option D) where
  protocol t := (O.script t).protocol
  idle t d := ∀ e, d = some e → O.idle t e
  ends t a x d := ∀ e, d = some e → O.ends t a x e
  inv := Played O.inv
  call_sound := by
    rintro w _ t a ⟨d, rfl, inv⟩ idle allowed meets
    obtain ⟨e, inv', obeys⟩ := O.call_sound inv (idle _ rfl) allowed meets
    exact ⟨some e, played_update inv', Script.follows_of_obeys obeys⟩
  op_sound := by
    rintro w _ t i r w' ⟨d, rfl, inv⟩ allowed exec meets
    obtain ⟨may, inv'⟩ := O.op_sound inv (allowed _ rfl) exec meets
    have next : (O.script t).protocol.next (some (d t)) i r =
        some ((O.script t).next (d t) i r) := if_pos may
    rw [next]
    exact played_update inv'
  ret_sound := by
    rintro w _ t a x ⟨d, rfl, inv⟩ ended
    obtain ⟨e, inv', idle⟩ := O.ret_sound inv (ended _ rfl)
    refine ⟨some e, played_update inv', ?_⟩
    rintro _ ⟨⟩
    exact idle
  crash_sound := by
    rintro w _ t ⟨d, rfl, inv⟩ meets
    exact ⟨d, rfl, O.crash_sound inv meets⟩

/-- The configuration is one that the scripts lead to. -/
def Covers (O : Cast M ok D) (c : Config T I R ε α Call W) : Prop := O.monitor.Covers c

theorem covers_start (O : Cast M ok D) {w : W} {d : T → D} (inv : O.inv w d)
    (idle : ∀ t, O.idle t (d t)) : O.Covers (M.start w) := by
  refine ⟨fun t => some (d t), ⟨d, rfl, inv⟩, ?_⟩
  rintro t _ ⟨⟩
  exact idle t

theorem covers_reach (O : Cast M ok D) {c c' : Config T I R ε α Call W}
    (run : M.Reach ok c c') (h : O.Covers c) : O.Covers c' := O.monitor.covers_reach run h

theorem Covers.inv {O : Cast M ok D} {c : Config T I R ε α Call W} (h : O.Covers c) :
    ∃ d, O.inv c.world d ∧ ∀ t, c.thread t = .idle → O.idle t (d t) := by
  obtain ⟨_, ⟨d, rfl, inv⟩, threads⟩ := h
  refine ⟨d, inv, ?_⟩
  intro t idle
  have self := threads t
  rw [idle] at self
  exact self _ rfl

/-- The next instruction of a thread is one that its script allows. -/
theorem Covers.op {O : Cast M ok D} {c c' : Config T I R ε α Call W} {t : T} {i : I} {r : R i}
    (h : O.Covers c) (next : M.Step c (.op t i r) c') :
    ∃ d, O.inv c.world d ∧ (O.script t).allow (d t) i ∧ M.exec t i c.world r c'.world := by
  obtain ⟨_, ⟨d, rfl, inv⟩, threads⟩ := h
  cases next with
  | op busy exec =>
      have self := threads t
      rw [busy] at self
      exact ⟨d, inv, self.1 _ rfl, exec⟩

end Cast
end EdgeRuntime.Concurrent

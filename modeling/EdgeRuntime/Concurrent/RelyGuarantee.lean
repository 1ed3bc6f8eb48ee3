import EdgeRuntime.Concurrent.Pool

/-!
Rely-guarantee reasoning for thread pools. A logic fixes an invariant of the
world, what a thread may rely on the others to preserve, and what each of its own
steps guarantees. States may carry auxiliary fields beside the world: they exist
in the proof only, and every step chooses their new values.

Weakest preconditions are closed under interference by definition, so the rules
below ask for stable assertions only where a fact is carried across a step.
-/
namespace EdgeRuntime.Concurrent

structure Logic (T I : Type) (R : I → Type) (W S : Type) where
  exec : T → (i : I) → W → R i → W → Prop
  /-- The part of a proof state that the machine sees. -/
  world : S → W
  inv : S → Prop
  rely : T → S → S → Prop
  guar : T → S → S → Prop
  rely_refl : ∀ t s, rely t s s
  rely_trans : ∀ t s s' s'', rely t s s' → rely t s' s'' → rely t s s''
  guar_refl : ∀ t s, guar t s s
  guar_rely : ∀ t u s s', t ≠ u → guar t s s' → rely u s s'

namespace Logic
variable {T I : Type} {R : I → Type} {W S ε ε' α β : Type}

/-- Whatever the others do within the rely, every remaining instruction keeps the
invariant and the guarantee, and the outcome satisfies `Q`. -/
def wp (L : Logic T I R W S) (t : T) (Q : Except ε α → S → Prop) :
    Prog I R ε α → S → Prop
  | .ret a, s => ∀ s', L.rely t s s' → L.inv s' → Q (.ok a) s'
  | .throw e, s => ∀ s', L.rely t s s' → L.inv s' → Q (.error e) s'
  | .op i k, s => ∀ s', L.rely t s s' → L.inv s' →
      ∀ r w, L.exec t i (L.world s') r w →
        ∃ s'', L.world s'' = w ∧ L.inv s'' ∧ L.guar t s' s'' ∧ wp L t Q (k r) s''

/-- An assertion no other thread can falsify. -/
def Stable (L : Logic T I R W S) (t : T) (P : S → Prop) : Prop :=
  ∀ s s', P s → L.rely t s s' → L.inv s' → P s'

variable {L : Logic T I R W S} {t : T}

theorem wp_rely {Q : Except ε α → S → Prop} {p : Prog I R ε α} {s s' : S}
    (hr : L.rely t s s') (h : L.wp t Q p s) : L.wp t Q p s' := by
  cases p with
  | ret _ | throw _ | op _ _ =>
      intro s'' hs hi
      exact h s'' (L.rely_trans t s s' s'' hr hs) hi

/-- The invariant holds again whenever the thread is about to move. -/
theorem wp_intro {Q : Except ε α → S → Prop} {p : Prog I R ε α} {s : S}
    (h : ∀ s', L.rely t s s' → L.inv s' → L.wp t Q p s') : L.wp t Q p s := by
  cases p with
  | ret _ | throw _ | op _ _ =>
      intro s' hs hi
      exact h s' hs hi s' (L.rely_refl t s') hi

theorem wp_mono {Q Q' : Except ε α → S → Prop} {p : Prog I R ε α} {s : S}
    (hq : ∀ x s, L.inv s → Q x s → Q' x s) (h : L.wp t Q p s) : L.wp t Q' p s := by
  induction p generalizing s with
  | ret a => exact fun s' hs hi => hq _ s' hi (h s' hs hi)
  | throw e => exact fun s' hs hi => hq _ s' hi (h s' hs hi)
  | op i k ih =>
      intro s' hs hi r w hx
      obtain ⟨s'', hw, hi'', hg, hk⟩ := h s' hs hi r w hx
      exact ⟨s'', hw, hi'', hg, ih r hk⟩

/-- Sequencing: the first part establishes the precondition of the second. -/
theorem wp_bind {Q : Except ε β → S → Prop} {p : Prog I R ε α}
    {f : α → Prog I R ε β} {s : S}
    (h : L.wp t (fun x s => match x with
      | .ok a => L.wp t Q (f a) s
      | .error e => Q (.error e) s) p s) :
    L.wp t Q (p >>= f) s := by
  induction p generalizing s with
  | ret a => exact wp_intro fun s' hs hi => h s' hs hi
  | throw e => exact fun s' hs hi => h s' hs hi
  | op i k ih =>
      intro s' hs hi r w hx
      obtain ⟨s'', hw, hi'', hg, hk⟩ := h s' hs hi r w hx
      exact ⟨s'', hw, hi'', hg, ih r hk⟩

/-- Sequencing by the specification of the first part. -/
theorem wp_seq {P : Except ε α → S → Prop} {Q : Except ε β → S → Prop}
    {p : Prog I R ε α} {f : α → Prog I R ε β} {s : S} (h : L.wp t P p s)
    (ok : ∀ a s, L.inv s → P (.ok a) s → L.wp t Q (f a) s)
    (err : ∀ e s, L.inv s → P (.error e) s → Q (.error e) s) :
    L.wp t Q (p >>= f) s := by
  apply wp_bind
  apply wp_mono _ h
  intro x s hi hp
  cases x with
  | ok a => exact ok a s hi hp
  | error e => exact err e s hi hp

/-- What a program establishes, it establishes whatever the others do next. -/
theorem wp_closed {Q : Except ε α → S → Prop} {p : Prog I R ε α} {s : S}
    (h : L.wp t Q p s) :
    L.wp t (fun x s => ∀ s', L.rely t s s' → L.inv s' → Q x s') p s := by
  induction p generalizing s with
  | ret _ | throw _ =>
      intro s' hs _ s'' hs' hi
      exact h s'' (L.rely_trans t s s' s'' hs hs') hi
  | op i k ih =>
      intro s' hs hi r w hx
      obtain ⟨s'', hw, hi'', hg, hk⟩ := h s' hs hi r w hx
      exact ⟨s'', hw, hi'', hg, ih r hk⟩

/-- A program whose value is passed on in another form. -/
theorem wp_map {P : Except ε α → S → Prop} {Q : Except ε β → S → Prop}
    {p : Prog I R ε α} {g : α → β} {s : S} (h : L.wp t P p s)
    (ok : ∀ a s, L.inv s → P (.ok a) s → Q (.ok (g a)) s)
    (err : ∀ e s, L.inv s → P (.error e) s → Q (.error e) s) :
    L.wp t Q (p >>= fun a => .ret (g a)) s := by
  apply wp_seq (wp_closed h)
  · intro a s _ closed s' hs hi
    exact ok a s' hi (closed s' hs hi)
  · intro e s hi closed
    exact err e s hi (closed s (L.rely_refl t s) hi)

theorem wp_attempt {Q : Except ε' (Except ε α) → S → Prop} {p : Prog I R ε α} {s : S}
    (h : L.wp t (fun x s => Q (.ok x) s) p s) :
    L.wp t Q (Prog.attempt p) s := by
  induction p generalizing s with
  | ret a => exact h
  | throw e => exact h
  | op i k ih =>
      intro s' hs hi r w hx
      obtain ⟨s'', hw, hi'', hg, hk⟩ := h s' hs hi r w hx
      exact ⟨s'', hw, hi'', hg, ih r hk⟩

/-- Code that looks at the outcome of its first part. -/
theorem wp_attempt_seq {P : Except ε α → S → Prop} {Q : Except ε' β → S → Prop}
    {p : Prog I R ε α} {f : Except ε α → Prog I R ε' β} {s : S} (h : L.wp t P p s)
    (next : ∀ x s, L.inv s → P x s → L.wp t Q (f x) s) :
    L.wp t Q (Prog.attempt p >>= f) s := by
  apply wp_bind
  apply wp_attempt
  exact wp_mono next h

theorem wp_lift {Q : Except ε α → S → Prop} {x : Except ε α} {s : S}
    (h : ∀ s', L.rely t s s' → L.inv s' → Q x s') :
    L.wp t Q (Prog.lift x) s := by
  cases x <;> exact h

/-- One instruction under a stable assertion. -/
theorem wp_op {Q : Except ε α → S → Prop} {i : I} {k : R i → Prog I R ε α} {s : S}
    (P : S → Prop) (stable : L.Stable t P) (pre : P s)
    (step : ∀ s', L.inv s' → P s' → ∀ r w, L.exec t i (L.world s') r w →
      ∃ s'', L.world s'' = w ∧ L.inv s'' ∧ L.guar t s' s'' ∧ L.wp t Q (k r) s'') :
    L.wp t Q (.op i k) s :=
  fun s' hs hi => step s' hi (stable s s' pre hs hi)

theorem wp_ret {Q : Except ε α → S → Prop} {a : α} {s : S}
    (P : S → Prop) (stable : L.Stable t P) (pre : P s)
    (post : ∀ s', L.inv s' → P s' → Q (.ok a) s') : L.wp t Q (.ret a) s :=
  fun s' hs hi => post s' hi (stable s s' pre hs hi)

theorem wp_throw {Q : Except ε α → S → Prop} {e : ε} {s : S}
    (P : S → Prop) (stable : L.Stable t P) (pre : P s)
    (post : ∀ s', L.inv s' → P s' → Q (.error e) s') :
    L.wp t Q (.throw e : Prog I R ε α) s :=
  fun s' hs hi => post s' hi (stable s s' pre hs hi)

/-- A program whose every instruction keeps a stable assertion, whatever else it does. -/
theorem wp_frame {p : Prog I R ε α} {s : S} {pure : I → Prop} {E : Except ε α → Prop}
    (P : S → Prop) (stable : L.Stable t P)
    (step : ∀ i, pure i → ∀ s, L.inv s → P s → ∀ r w, L.exec t i (L.world s) r w →
      ∃ s', L.world s' = w ∧ L.inv s' ∧ L.guar t s s' ∧ P s')
    (all : p.All pure) (ends : p.Ends E) (pre : P s) :
    L.wp t (fun x s => E x ∧ P s) p s := by
  induction p generalizing s with
  | ret _ => exact fun s' hs hi => ⟨ends, stable s s' pre hs hi⟩
  | throw _ => exact fun s' hs hi => ⟨ends, stable s s' pre hs hi⟩
  | op i k ih =>
      intro s' hs hi r w hx
      obtain ⟨s'', hw, hi'', hg, hp⟩ := step i all.1 s' hi (stable s s' pre hs hi) r w hx
      exact ⟨s'', hw, hi'', hg, ih r (all.2 r) (ends r) hp⟩

/-- A program that only looks: no instruction changes the world, no auxiliary
field moves, and the outcome satisfies `Q`. Unlike `wp` this is conjunctive, so
what is learnt and what is kept are proved apart. -/
def obs (L : Logic T I R W S) (t : T) (Q : Except ε α → S → Prop) :
    Prog I R ε α → S → Prop
  | .ret a, s => ∀ s', L.rely t s s' → L.inv s' → Q (.ok a) s'
  | .throw e, s => ∀ s', L.rely t s s' → L.inv s' → Q (.error e) s'
  | .op i k, s => ∀ s', L.rely t s s' → L.inv s' →
      ∀ r w, L.exec t i (L.world s') r w → w = L.world s' ∧ obs L t Q (k r) s'

theorem obs_wp {Q : Except ε α → S → Prop} {p : Prog I R ε α} {s : S}
    (h : L.obs t Q p s) : L.wp t Q p s := by
  induction p generalizing s with
  | ret _ => exact h
  | throw _ => exact h
  | op i k ih =>
      intro s' hs hi r w hx
      obtain ⟨hw, hk⟩ := h s' hs hi r w hx
      exact ⟨s', hw.symm, hi, L.guar_refl t s', ih r hk⟩

theorem obs_intro {Q : Except ε α → S → Prop} {p : Prog I R ε α} {s : S}
    (h : ∀ s', L.rely t s s' → L.inv s' → L.obs t Q p s') : L.obs t Q p s := by
  cases p with
  | ret _ | throw _ | op _ _ =>
      intro s' hs hi
      exact h s' hs hi s' (L.rely_refl t s') hi

theorem obs_mono {Q Q' : Except ε α → S → Prop} {p : Prog I R ε α} {s : S}
    (hq : ∀ x s, L.inv s → Q x s → Q' x s) (h : L.obs t Q p s) : L.obs t Q' p s := by
  induction p generalizing s with
  | ret a => exact fun s' hs hi => hq _ s' hi (h s' hs hi)
  | throw e => exact fun s' hs hi => hq _ s' hi (h s' hs hi)
  | op i k ih =>
      intro s' hs hi r w hx
      obtain ⟨hw, hk⟩ := h s' hs hi r w hx
      exact ⟨hw, ih r hk⟩

theorem obs_and {Q Q' : Except ε α → S → Prop} {p : Prog I R ε α} {s : S}
    (h : L.obs t Q p s) (h' : L.obs t Q' p s) :
    L.obs t (fun x s => Q x s ∧ Q' x s) p s := by
  induction p generalizing s with
  | ret a => exact fun s' hs hi => ⟨h s' hs hi, h' s' hs hi⟩
  | throw e => exact fun s' hs hi => ⟨h s' hs hi, h' s' hs hi⟩
  | op i k ih =>
      intro s' hs hi r w hx
      obtain ⟨hw, hk⟩ := h s' hs hi r w hx
      exact ⟨hw, ih r hk (h' s' hs hi r w hx).2⟩

theorem obs_bind {Q : Except ε β → S → Prop} {p : Prog I R ε α}
    {f : α → Prog I R ε β} {s : S}
    (h : L.obs t (fun x s => match x with
      | .ok a => L.obs t Q (f a) s
      | .error e => Q (.error e) s) p s) :
    L.obs t Q (p >>= f) s := by
  induction p generalizing s with
  | ret a => exact obs_intro fun s' hs hi => h s' hs hi
  | throw e => exact fun s' hs hi => h s' hs hi
  | op i k ih =>
      intro s' hs hi r w hx
      obtain ⟨hw, hk⟩ := h s' hs hi r w hx
      exact ⟨hw, ih r hk⟩

theorem obs_attempt {Q : Except ε' (Except ε α) → S → Prop} {p : Prog I R ε α}
    {s : S} (h : L.obs t (fun x s => Q (.ok x) s) p s) :
    L.obs t Q (Prog.attempt p) s := by
  induction p generalizing s with
  | ret a => exact h
  | throw e => exact h
  | op i k ih =>
      intro s' hs hi r w hx
      obtain ⟨hw, hk⟩ := h s' hs hi r w hx
      exact ⟨hw, ih r hk⟩

theorem obs_lift {Q : Except ε α → S → Prop} {x : Except ε α} {s : S}
    (h : ∀ s', L.rely t s s' → L.inv s' → Q x s') :
    L.obs t Q (Prog.lift x) s := by
  cases x <;> exact h

/-- Looking keeps every stable assertion. -/
theorem obs_frame {p : Prog I R ε α} {s : S} {pure : I → Prop}
    (reads : ∀ i, pure i → ∀ w r w', L.exec t i w r w' → w' = w)
    (all : p.All pure) (P : S → Prop) (stable : L.Stable t P) (pre : P s) :
    L.obs t (fun _ => P) p s := by
  induction p generalizing s with
  | ret _ => exact fun s' hs hi => stable s s' pre hs hi
  | throw _ => exact fun s' hs hi => stable s s' pre hs hi
  | op i k ih =>
      intro s' hs hi r w hx
      exact ⟨reads i all.1 _ r w hx, ih r (all.2 r) (stable s s' pre hs hi)⟩

/-- What holds of every possible outcome holds of the one observed. -/
theorem obs_ends {p : Prog I R ε α} {s : S} {pure : I → Prop}
    (reads : ∀ i, pure i → ∀ w r w', L.exec t i w r w' → w' = w)
    (all : p.All pure) {P : Except ε α → Prop} (ends : p.Ends P) :
    L.obs t (fun x _ => P x) p s := by
  induction p generalizing s with
  | ret _ => exact fun _ _ _ => ends
  | throw _ => exact fun _ _ _ => ends
  | op i k ih =>
      intro s' hs hi r w hx
      exact ⟨reads i all.1 _ r w hx, ih r (all.2 r) (ends r)⟩

/-- The same logic for a world that records more: the record has no say in what may
happen, and nobody relies on it. -/
def overlay {V : Type} (L : Logic T I R W S) (part : V → W)
    (exec : T → (i : I) → V → R i → V → Prop) : Logic T I R V (S × V) where
  exec := exec
  world := Prod.snd
  inv s := L.inv s.1 ∧ L.world s.1 = part s.2
  rely t s s' := L.rely t s.1 s'.1
  guar t s s' := L.guar t s.1 s'.1
  rely_refl t s := L.rely_refl t s.1
  rely_trans t s s' s'' := L.rely_trans t s.1 s'.1 s''.1
  guar_refl t s := L.guar_refl t s.1
  guar_rely t u s s' := L.guar_rely t u s.1 s'.1

/-- What a program does to the part that the logic is about, it does under the record. -/
theorem wp_overlay {V : Type} {part : V → W} {exec : T → (i : I) → V → R i → V → Prop}
    (sound : ∀ t i v r v', exec t i v r v' → L.exec t i (part v) r (part v'))
    {Q : Except ε α → S → Prop} {p : Prog I R ε α} {s : S} (h : L.wp t Q p s) (v : V) :
    (L.overlay part exec).wp t (fun x s => Q x s.1) p (s, v) := by
  induction p generalizing s v with
  | ret a => exact fun s' hs hi => h s'.1 hs hi.1
  | throw e => exact fun s' hs hi => h s'.1 hs hi.1
  | op i k ih =>
      intro s' hs hi r v' hx
      have happens := sound t i s'.2 r v' hx
      rw [← hi.2] at happens
      obtain ⟨s'', hw, hi'', hg, hk⟩ := h s'.1 hs hi.1 r (part v') happens
      exact ⟨(s'', v'), rfl, ⟨hi'', hw⟩, hg, ih r hk v'⟩

end Logic
end EdgeRuntime.Concurrent

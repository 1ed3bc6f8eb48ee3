import EdgeRuntime.Sync.SharedAtomic

/-!
Proof rules for single accesses. Each rule hands the proof the world in which the
access happens, after any interference the rely allows, and asks for the state
that follows it.
-/
namespace EdgeRuntime
open Concurrent

variable {T Loc W S ε α : Type} [DecidableEq T] {L : Logic T (Instr Loc) Reply W S}
  {D : Memory T Loc W} {t : T} {Q : Except ε α → S → Prop} {s : S}

namespace Access

/-- A load in a logic that rules out some of what the memory can do. -/
theorem obs_load_of (hx : ∀ i w r w', L.exec t i w r w' → D.exec t i w r w') {l : Loc}
    {k : Nat → Code Loc ε α}
    (h : ∀ s', L.rely t s s' → L.inv s' → L.obs t Q (k (D.read (L.world s') l)) s') :
    L.obs t Q (sharedLoad l >>= k) s := by
  intro s' hs hi r w he
  obtain ⟨rfl, rfl⟩ := hx _ _ _ _ he
  exact ⟨rfl, h s' hs hi⟩

theorem obs_load (hx : L.exec = D.exec) {l : Loc} {k : Nat → Code Loc ε α}
    (h : ∀ s', L.rely t s s' → L.inv s' → L.obs t Q (k (D.read (L.world s') l)) s') :
    L.obs t Q (sharedLoad l >>= k) s :=
  obs_load_of (fun _ _ _ _ he => hx ▸ he) h

theorem wp_load (hx : L.exec = D.exec) {l : Loc} {k : Nat → Code Loc ε α}
    (h : ∀ s', L.rely t s s' → L.inv s' → L.wp t Q (k (D.read (L.world s') l)) s') :
    L.wp t Q (sharedLoad l >>= k) s := by
  intro s' hs hi r w he
  rw [hx] at he
  obtain ⟨rfl, rfl⟩ := he
  exact ⟨s', rfl, hi, L.guar_refl t s', h s' hs hi⟩

/-- A load at which the proof also moves its auxiliary fields. -/
theorem wp_load_ghost (hx : L.exec = D.exec) {l : Loc} {k : Nat → Code Loc ε α}
    (h : ∀ s', L.rely t s s' → L.inv s' → ∃ s'', L.world s'' = L.world s' ∧ L.inv s'' ∧
      L.guar t s' s'' ∧ L.wp t Q (k (D.read (L.world s') l)) s'') :
    L.wp t Q (sharedLoad l >>= k) s := by
  intro s' hs hi r w he
  rw [hx] at he
  obtain ⟨rfl, rfl⟩ := he
  exact h s' hs hi

theorem wp_store (hx : L.exec = D.exec) {l : Loc} {v : Nat} {k : Unit → Code Loc ε α}
    (h : ∀ s', L.rely t s s' → L.inv s' → ∃ s'',
      L.world s'' = D.write t l v (L.world s') ∧ L.inv s'' ∧ L.guar t s' s'' ∧
        L.wp t Q (k ()) s'') :
    L.wp t Q (sharedStore l v >>= k) s := by
  intro s' hs hi r w he
  rw [hx] at he
  obtain ⟨s'', hw, hi'', hg, hk⟩ := h s' hs hi
  exact ⟨s'', hw.trans (Eq.symm he), hi'', hg, hk⟩

theorem wp_cas (hx : L.exec = D.exec) {l : Loc} {expected desired : Nat}
    {k : Bool → Code Loc ε α}
    (swaps : ∀ s', L.rely t s s' → L.inv s' → D.read (L.world s') l = expected →
      ∃ s'', L.world s'' = D.write t l desired (L.world s') ∧ L.inv s'' ∧
        L.guar t s' s'' ∧ L.wp t Q (k true) s'')
    (fails : ∀ s', L.rely t s s' → L.inv s' → D.read (L.world s') l ≠ expected →
      L.wp t Q (k false) s') :
    L.wp t Q (sharedCas l expected desired >>= k) s := by
  intro s' hs hi r w he
  rw [hx] at he
  obtain ⟨rfl, hw⟩ := he
  by_cases hv : D.read (L.world s') l = expected
  · obtain ⟨s'', hw'', hi'', hg, hk⟩ := swaps s' hs hi hv
    rw [if_pos hv] at hw
    rw [decide_eq_true hv]
    exact ⟨s'', hw''.trans hw.symm, hi'', hg, hk⟩
  · rw [if_neg hv] at hw
    rw [decide_eq_false hv]
    exact ⟨s', hw.symm, hi, L.guar_refl t s', fails s' hs hi hv⟩

theorem wp_fetchAdd (hx : L.exec = D.exec) {l : Loc} {n bits : Nat}
    {k : Nat → Code Loc ε α}
    (h : ∀ s', L.rely t s s' → L.inv s' → ∃ s'',
      L.world s'' = D.write t l ((D.read (L.world s') l + n) % 2 ^ bits) (L.world s') ∧
        L.inv s'' ∧ L.guar t s' s'' ∧ L.wp t Q (k (D.read (L.world s') l)) s'') :
    L.wp t Q (sharedFetchAdd l n bits >>= k) s := by
  intro s' hs hi r w he
  rw [hx] at he
  obtain ⟨rfl, hw⟩ := he
  obtain ⟨s'', hw'', hi'', hg, hk⟩ := h s' hs hi
  exact ⟨s'', hw''.trans hw.symm, hi'', hg, hk⟩

theorem wp_copyOut (hx : L.exec = D.exec) {j v : Nat} {k : Unit → Code Loc ε α}
    (h : ∀ s', L.rely t s s' → L.inv s' → ∃ s'',
      L.world s'' = D.fill t j v (L.world s') ∧ L.inv s'' ∧ L.guar t s' s'' ∧
        L.wp t Q (k ()) s'') :
    L.wp t Q (copyOut j v >>= k) s := by
  intro s' hs hi r w he
  rw [hx] at he
  obtain ⟨s'', hw, hi'', hg, hk⟩ := h s' hs hi
  exact ⟨s'', hw.trans (Eq.symm he), hi'', hg, hk⟩

theorem wp_withControlLock (hx : L.exec = D.exec) {body : Code Loc Error α}
    {Q B : Except Error α → S → Prop}
    (taken : ∀ s', L.rely t s s' → L.inv s' → ∀ w, D.lock t (L.world s') = some w →
      ∃ s'', L.world s'' = w ∧ L.inv s'' ∧ L.guar t s' s'' ∧ L.wp t B body s'')
    (fails : ∀ e s', L.rely t s s' → L.inv s' → Q (.error e) s')
    (frees : ∀ x s', L.inv s' → B x s' → ∃ s'', L.world s'' = D.unlock t (L.world s') ∧
      L.inv s'' ∧ L.guar t s' s'' ∧ ∀ s₃, L.rely t s'' s₃ → L.inv s₃ → Q x s₃) :
    L.wp t Q (withControlLock body) s := by
  intro s' hs hi r w he
  rw [hx] at he
  cases r with
  | error e =>
      obtain rfl : w = L.world s' := he
      refine ⟨s', rfl, hi, L.guar_refl t s', ?_⟩
      intro s'' hs' hi'
      exact fails e s'' (L.rely_trans t s s' s'' hs hs') hi'
  | ok _ =>
      obtain ⟨s₁, hw, hi₁, hg, hb⟩ := taken s' hs hi w he
      refine ⟨s₁, hw, hi₁, hg, ?_⟩
      apply Logic.wp_attempt_seq (Logic.wp_closed hb)
      intro x s₂ _ closed s₃ hs₃ hi₃ r w he
      rw [hx] at he
      obtain rfl : w = D.unlock t (L.world s₃) := he
      obtain ⟨s₄, hw₄, hi₄, hg₄, hq⟩ := frees x s₃ hi₃ (closed s₃ hs₃ hi₃)
      exact ⟨s₄, hw₄, hi₄, hg₄, Logic.wp_lift hq⟩

/-- A program without stores keeps every stable assertion. -/
theorem obs_frame (hx : L.exec = D.exec) {p : Code Loc ε α} (all : p.All Memory.Reads)
    (P : S → Prop) (stable : L.Stable t P) (pre : P s) : L.obs t (fun _ => P) p s :=
  Logic.obs_frame (fun i h w r w' he => D.exec_reads t i h w r w' (hx ▸ he))
    all P stable pre

theorem obs_ends (hx : L.exec = D.exec) {p : Code Loc ε α} (all : p.All Memory.Reads)
    {P : Except ε α → Prop} (ends : p.Ends P) : L.obs t (fun x _ => P x) p s :=
  Logic.obs_ends (fun i h w r w' he => D.exec_reads t i h w r w' (hx ▸ he)) all ends

/-- Run read-only code first: what is known is kept, and the outcome is possible. -/
theorem wp_reads (hx : L.exec = D.exec) {β : Type} {p : Code Loc ε β}
    {k : β → Code Loc ε α} {E : Except ε β → Prop} (all : p.All Memory.Reads)
    (ends : p.Ends E) (P : S → Prop) (stable : L.Stable t P) (pre : P s)
    (ok : ∀ a s, L.inv s → E (.ok a) → P s → L.wp t Q (k a) s)
    (err : ∀ e s, L.inv s → E (.error e) → P s → Q (.error e) s) :
    L.wp t Q (p >>= k) s := by
  have seen := Logic.obs_and (obs_ends hx all ends) (obs_frame hx all P stable pre)
  apply Logic.wp_seq (Logic.obs_wp seen)
  · exact fun a s hi h => ok a s hi h.1 h.2
  · exact fun e s hi h => err e s hi h.1 h.2

/-- Read-only code that cannot fail: what it saw is known afterwards. -/
theorem wp_learn (hx : L.exec = D.exec) {β : Type} {p : Code Loc ε β}
    {k : β → Code Loc ε α} (looks : p.Looks Memory.Reads) (P : S → Prop)
    (stable : L.Stable t P) (pre : P s) {A : β → S → Prop}
    (info : L.obs t (fun x s' => ∀ b, x = .ok b → A b s') p s)
    (next : ∀ a s, L.inv s → P s → A a s → L.wp t Q (k a) s) : L.wp t Q (p >>= k) s := by
  have seen := Logic.obs_and info (Logic.obs_and (obs_ends hx looks.all looks.ends)
    (obs_frame hx looks.all P stable pre))
  apply Logic.wp_seq (Logic.obs_wp seen)
  · exact fun a s hi h => next a s hi h.2.2 (h.1 a rfl)
  · rintro e s _ ⟨_, ⟨a, ha⟩, _⟩
    cases ha

theorem wp_looks (hx : L.exec = D.exec) {β : Type} {p : Code Loc ε β}
    {k : β → Code Loc ε α} (looks : p.Looks Memory.Reads) (P : S → Prop)
    (stable : L.Stable t P) (pre : P s)
    (next : ∀ a s, L.inv s → P s → L.wp t Q (k a) s) : L.wp t Q (p >>= k) s :=
  wp_learn hx looks P stable pre
    (Logic.obs_mono (fun _ _ _ _ _ _ => trivial) (obs_ends hx looks.all looks.ends))
    fun a s hi hp _ => next a s hi hp

/-- The same for code that goes on looking. -/
theorem obs_look (hx : L.exec = D.exec) {β : Type} {p : Code Loc ε β}
    {k : β → Code Loc ε α} (looks : p.Looks Memory.Reads) {A : β → S → Prop}
    (info : L.obs t (fun x s' => ∀ b, x = .ok b → A b s') p s)
    (next : ∀ a s, A a s → L.obs t Q (k a) s) : L.obs t Q (p >>= k) s := by
  have seen := Logic.obs_and info (obs_ends hx looks.all looks.ends)
  refine Logic.obs_bind (Logic.obs_mono ?_ seen)
  rintro x s' _ ⟨saw, b, rfl⟩
  exact next b s' (saw b rfl)

/-- Run code first that changes nothing but who sleeps. -/
theorem wp_waits (hx : L.exec = D.exec) {β : Type} {p : Code Loc ε β}
    {k : β → Code Loc ε α} {E : Except ε β → Prop} (all : p.All Memory.Waits)
    (ends : p.Ends E) (P : S → Prop) (stable : L.Stable t P)
    (quiet : ∀ s, L.inv s → P s → ∀ log, ∃ s',
      L.world s' = D.setFutex log (L.world s) ∧ L.inv s' ∧ L.guar t s s' ∧ P s')
    (pre : P s) (ok : ∀ a s, L.inv s → E (.ok a) → P s → L.wp t Q (k a) s)
    (err : ∀ e s, L.inv s → E (.error e) → P s → Q (.error e) s) :
    L.wp t Q (p >>= k) s := by
  apply Logic.wp_seq (Logic.wp_frame P stable _ all ends pre)
  · exact fun a s hi h => ok a s hi h.1 h.2
  · exact fun e s hi h => err e s hi h.1 h.2
  · intro i waits s hi hp r w he
    rw [hx] at he
    rcases D.exec_waits t i waits _ r w he with rfl | ⟨log, rfl⟩
    · exact ⟨s, rfl, hi, L.guar_refl t s, hp⟩
    · exact quiet s hi hp log

end Access

theorem looks_load {l : Loc} {P : Instr Loc → Prop} (h : P (.load l)) :
    (sharedLoad l : Code Loc ε Nat).Looks P := ⟨h, fun _ => trivial⟩

theorem looks_sharedLoad (l : Loc) :
    (sharedLoad l : Code Loc ε Nat).Looks Memory.Reads := looks_load trivial

theorem ends_load {l : Loc} {k : Nat → Code Loc ε α} {P : Except ε α → Prop}
    (h : ∀ v, (k v).Ends P) : (sharedLoad l >>= k).Ends P := h

theorem reads_load {l : Loc} {k : Nat → Code Loc ε α} (h : ∀ v, (k v).All Memory.Reads) :
    (sharedLoad l >>= k).All Memory.Reads := ⟨trivial, h⟩

theorem looks_probeLiveness (pid ticks : Nat) :
    (probeLiveness pid ticks : Code Loc ε Liveness).Looks Memory.Reads :=
  ⟨trivial, fun _ => trivial⟩

theorem looks_boottimeNowNs : (boottimeNowNs : Code Loc ε Nat).Looks Memory.Reads :=
  ⟨trivial, fun _ => trivial⟩

theorem looks_monotonicNowNs : (monotonicNowNs : Code Loc ε Nat).Looks Memory.Reads :=
  ⟨trivial, fun _ => trivial⟩

theorem waits_of_reads {p : Code Loc ε α} (h : p.All Memory.Reads) :
    p.All Memory.Waits := h.mono fun _ => .inl

theorem waits_sharedWatch (l : Loc) :
    (sharedWatch l : Code Loc ε Nat).All Memory.Waits := ⟨.inr trivial, fun _ => trivial⟩

theorem waits_futexWait (l : Loc) (expected : Nat) :
    (futexWait l expected : Code Loc ε Int).All Memory.Waits := by
  refine ⟨.inr trivial, ?_⟩
  intro slept
  cases slept with
  | true => exact ⟨.inr trivial, fun _ => trivial⟩
  | false => trivial

end EdgeRuntime

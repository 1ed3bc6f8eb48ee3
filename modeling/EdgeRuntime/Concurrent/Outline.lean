import EdgeRuntime.Concurrent.RelyGuarantee

/-!
From proof outlines to runs. An outline verifies every call of a machine once,
against the rely; the theorems here conclude that the invariant holds in every
configuration a pool can reach, under any schedule.
-/
namespace EdgeRuntime.Concurrent

variable {T I : Type} {R : I → Type} {ε α Call W S : Type}

/-- What a thread owes when its call ends: recording the result keeps the
invariant and leaves the thread idle again. -/
def Logic.Returns (L : Logic T I R W S) (M : Machine T I R ε α Call W)
    (idle : T → S → Prop) (t : T) (a : Call) (x : Except ε α) (s : S) : Prop :=
  ∃ s', L.world s' = M.leave t a x (L.world s) ∧ L.inv s' ∧ L.guar t s s' ∧ idle t s'

structure Outline (M : Machine T I R ε α Call W)
    (ok : W → Event T I R ε α Call → Prop) (L : Logic T I R W S) where
  idle : T → S → Prop
  idle_stable : ∀ t, L.Stable t (idle t)
  exec_sound : ∀ t i w r w', M.exec t i w r w' → ok w (.op t i r) → L.exec t i w r w'
  call_sound : ∀ t a s, L.inv s → idle t s → M.allowed t a (L.world s) →
    ok (L.world s) (.call t a) →
    ∃ s', L.world s' = M.enter t a (L.world s) ∧ L.inv s' ∧ L.guar t s s' ∧
      L.wp t (L.Returns M idle t a) (M.code t a (L.world s)) s'
  crash_sound : ∀ t s, L.inv s → ok (L.world s) (.crash t) →
    ∃ s', L.world s' = M.crash t (L.world s) ∧ L.inv s' ∧ L.guar t s s'

namespace Outline
variable {M : Machine T I R ε α Call W} {ok : W → Event T I R ε α Call → Prop}
  {L : Logic T I R W S}

def ThreadOk (O : Outline M ok L) (t : T) (s : S) : Thread I R ε α Call → Prop
  | .idle => O.idle t s
  | .busy a p => L.wp t (L.Returns M O.idle t a) p s
  | .dead => True

/-- The configuration is covered by the outline. -/
def Covers (O : Outline M ok L) (c : Config T I R ε α Call W) : Prop :=
  ∃ s, L.world s = c.world ∧ L.inv s ∧ ∀ t, O.ThreadOk t s (c.thread t)

theorem threadOk_rely (O : Outline M ok L) {t : T} {s s' : S}
    {th : Thread I R ε α Call} (hr : L.rely t s s') (hi : L.inv s')
    (h : O.ThreadOk t s th) : O.ThreadOk t s' th := by
  cases th with
  | idle => exact O.idle_stable t s s' h hr hi
  | busy a p => exact Logic.wp_rely hr h
  | dead => trivial

variable [DecidableEq T]

/-- The other threads tolerate a guaranteed step of `t`. -/
theorem threads_update (O : Outline M ok L) {thread : T → Thread I R ε α Call} {t : T}
    {s s' : S} {th : Thread I R ε α Call} (threads : ∀ u, O.ThreadOk u s (thread u))
    (hi : L.inv s') (hg : L.guar t s s') (self : O.ThreadOk t s' th) (u : T) :
    O.ThreadOk u s' (Function.update thread t th u) := by
  by_cases hu : u = t
  · subst hu
    simpa using self
  · simp only [Function.update_of_ne hu]
    exact O.threadOk_rely (L.guar_rely t u s s' (Ne.symm hu) hg) hi (threads u)

/-- Every step leads to a covered configuration again, and its actor guarantees it. -/
theorem step_sound (O : Outline M ok L) {c c' : Config T I R ε α Call W}
    {e : Event T I R ε α Call} (meets : ok c.world e) (next : M.Step c e c') {s : S}
    (hw : L.world s = c.world) (hi : L.inv s) (threads : ∀ t, O.ThreadOk t s (c.thread t)) :
    ∃ s', L.world s' = c'.world ∧ L.inv s' ∧ L.guar e.actor s s' ∧
      ∀ t, O.ThreadOk t s' (c'.thread t) := by
  cases next with
  | @call t a idle allowed =>
      have self := threads t
      rw [idle] at self
      rw [← hw] at allowed meets
      obtain ⟨s', hw', hi', hg, hp⟩ := O.call_sound t a s hi self allowed meets
      rw [hw] at hw' hp
      exact ⟨s', hw', hi', hg, O.threads_update threads hi' hg hp⟩
  | @op t a i k r w busy exec =>
      have self := threads t
      rw [busy] at self
      have hx := O.exec_sound t i _ r w exec meets
      rw [← hw] at hx
      obtain ⟨s', hw', hi', hg, hp⟩ := self s (L.rely_refl t s) hi r w hx
      exact ⟨s', hw', hi', hg, O.threads_update threads hi' hg hp⟩
  | @ret t a v busy | @throw t a v busy =>
      have self := threads t
      rw [busy] at self
      obtain ⟨s', hw', hi', hg, hid⟩ := self s (L.rely_refl t s) hi
      rw [hw] at hw'
      exact ⟨s', hw', hi', hg, O.threads_update threads hi' hg hid⟩
  | @crash t alive =>
      rw [← hw] at meets
      obtain ⟨s', hw', hi', hg⟩ := O.crash_sound t s hi meets
      rw [hw] at hw'
      exact ⟨s', hw', hi', hg, O.threads_update threads hi' hg trivial⟩

theorem covers_step (O : Outline M ok L) {c c' : Config T I R ε α Call W}
    {e : Event T I R ε α Call} (meets : ok c.world e) (next : M.Step c e c')
    (h : O.Covers c) : O.Covers c' := by
  obtain ⟨s, hw, hi, threads⟩ := h
  obtain ⟨s', hw', hi', _, threads'⟩ := O.step_sound meets next hw hi threads
  exact ⟨s', hw', hi', threads'⟩

/-- A step from a covered configuration is one the actor guarantees. -/
theorem guar_step (O : Outline M ok L) {c c' : Config T I R ε α Call W}
    {e : Event T I R ε α Call} (meets : ok c.world e) (next : M.Step c e c')
    (h : O.Covers c) : ∃ s s', L.world s = c.world ∧ L.world s' = c'.world ∧
      L.inv s ∧ L.inv s' ∧ L.guar e.actor s s' := by
  obtain ⟨s, hw, hi, threads⟩ := h
  obtain ⟨s', hw', hi', hg, _⟩ := O.step_sound meets next hw hi threads
  exact ⟨s, s', hw, hw', hi, hi', hg⟩

/-- What is stable for a dead thread holds for ever. -/
theorem kept_by_dead (O : Outline M ok L) {u : T} {P : S → Prop} (stable : L.Stable u P)
    {c c' : Config T I R ε α Call W} (run : M.Reach ok c c') (dead : c.thread u = .dead)
    {s : S} (hw : L.world s = c.world) (hi : L.inv s)
    (threads : ∀ t, O.ThreadOk t s (c.thread t)) (pre : P s) :
    c'.thread u = .dead ∧ ∃ s', L.world s' = c'.world ∧ L.inv s' ∧
      (∀ t, O.ThreadOk t s' (c'.thread t)) ∧ P s' := by
  induction run with
  | refl => exact ⟨dead, s, hw, hi, threads, pre⟩
  | @step c₁ c₂ e _ meets next ih =>
      obtain ⟨dead₁, s₁, hw₁, hi₁, threads₁, h₁⟩ := ih
      obtain ⟨s₂, hw₂, hi₂, hg, threads₂⟩ := O.step_sound meets next hw₁ hi₁ threads₁
      have other : e.actor ≠ u := next.actor_ne dead₁
      refine ⟨(next.thread_other other.symm).trans dead₁, s₂, hw₂, hi₂, threads₂, ?_⟩
      exact stable s₁ s₂ h₁ (L.guar_rely _ _ _ _ other hg) hi₂

theorem covers_reach (O : Outline M ok L) {c c' : Config T I R ε α Call W}
    (run : M.Reach ok c c') (h : O.Covers c) : O.Covers c' := by
  induction run with
  | refl => exact h
  | step _ meets next ih => exact O.covers_step meets next ih

/-- A run meets whatever every guaranteed step from a state of the invariant meets. -/
theorem reach_and (O : Outline M ok L) {P : W → Event T I R ε α Call → Prop}
    (meets : ∀ {c e c' s s'}, M.Step c e c' → L.world s = c.world → L.world s' = c'.world →
      L.inv s → L.inv s' → L.guar e.actor s s' → P c.world e)
    {c c' : Config T I R ε α Call W} (run : M.Reach ok c c') (h : O.Covers c) :
    M.Reach (fun w e => ok w e ∧ P w e) c c' := by
  induction run with
  | refl => exact .refl
  | step run okay next ih =>
      obtain ⟨s, s', hw, hw', hi, hi', hg⟩ := O.guar_step okay next (O.covers_reach run h)
      exact ih.step ⟨okay, meets next hw hw' hi hi' hg⟩ next

/-- Every reachable configuration satisfies the invariant. -/
theorem inv_of_reach (O : Outline M ok L) {w : W} {c : Config T I R ε α Call W}
    {s : S} (hw : L.world s = w) (hi : L.inv s) (idle : ∀ t, O.idle t s)
    (run : M.Reach ok (M.start w) c) : ∃ s', L.world s' = c.world ∧ L.inv s' := by
  obtain ⟨s', hw', hi', _⟩ := O.covers_reach run ⟨s, hw, hi, idle⟩
  exact ⟨s', hw', hi'⟩

end Outline
end EdgeRuntime.Concurrent

import EdgeRuntime.Pool.Moves
import EdgeRuntime.Sync.OwnerReads

/-!
Proof rules for the accesses of a client, for the replies that can come. A holder reads back
what it knows, so the snapshot it takes of its own block is stable and its
compare-and-swaps succeed.
-/
namespace EdgeRuntime
open Concurrent
open SharedBufferBlockState (InHand Claiming)

/-- The instructions of code that only looks at a pool. -/
def PoolLook : Instr PoolLoc → Prop
  | .load l => l ≠ .unlinked
  | .probe _ _ => True
  | _ => False

namespace Hand
variable {d : Hand} {α β : Type} {l : PoolLoc} {b v : Nat}

/-- A client that knows the generation and the epoch of all it holds learns nothing by
looking. -/
def Aware (d : Hand) : Prop := ∀ b, d.holds b = true →
  d.known (.blockGeneration b) ≠ none ∧ d.known (.blockEpoch b) ≠ none

theorem next_look (aware : d.Aware) {i : Instr PoolLoc} (look : PoolLook i) {r : Reply i}
    (may : d.May i r) : d.next i r = d := by
  cases i with
  | load l =>
      cases l with
      | blockGeneration b =>
          simp only [next]
          split
          · rename_i holds
            obtain ⟨v, known⟩ := Option.ne_none_iff_exists'.1 (aware b holds).1
            rw [may.1 v known]
            exact learn_eq_self known
          · rfl
      | blockEpoch b =>
          simp only [next]
          split
          · rename_i holds
            obtain ⟨v, known⟩ := Option.ne_none_iff_exists'.1 (aware b holds).2
            rw [may.1 v known]
            exact learn_eq_self known
          · rfl
      | _ => rfl
  | probe => rfl
  | _ => exact look.elim

theorem allow_look {i : Instr PoolLoc} (look : PoolLook i) : d.Allow i := by
  cases i with
  | load l => exact look
  | probe => trivial
  | _ => exact look.elim

/-- Code that only looks, and what it may end with. -/
theorem obeys_look (aware : d.Aware) {p : PoolCode α} (all : p.All PoolLook)
    {E : Except Error α → Prop} (ends : p.Ends E) :
    p.Obeys script (fun x d' => E x ∧ d' = d) d :=
  Prog.obeys_all all (fun _ look => allow_look look)
    (fun _ look _ may => next_look aware look may) ends

theorem obeys_look_seq (aware : d.Aware) {p : PoolCode α} {k : α → PoolCode β}
    (all : p.All PoolLook) {E : Except Error α → Prop} (ends : p.Ends E)
    {Q : Except Error β → Hand → Prop} (ok : ∀ a, E (.ok a) → (k a).Obeys script Q d)
    (err : ∀ e, E (.error e) → Q (.error e) d) : (p >>= k).Obeys script Q d := by
  refine Prog.obeys_seq (obeys_look aware all ends) ?_ ?_
  · rintro a _ ⟨possible, rfl⟩
    exact ok a possible
  · rintro e _ ⟨possible, rfl⟩
    exact err e possible

/-- A load of a word that the client knows. -/
theorem obeys_known {k : Nat → PoolCode α} {Q : Except Error α → Hand → Prop}
    (inside : l.inBlock = some b) (known : d.known l = some v)
    (h : (k v).Obeys script Q d) : (sharedLoad l >>= k).Obeys script Q d := by
  have other : l ≠ .unlinked := by
    rintro rfl
    cases inside
  refine ⟨other, fun r may => ?_⟩
  have reply : r = v := by
    cases l with
    | initState | unlinked => cases inside
    | blockEpoch | blockGeneration => exact may.1 v known
    | blockState | blockOwner | blockPayload => exact may v known
  have stays : d.next (.load l) v = d := by
    cases l with
    | blockEpoch | blockGeneration =>
        simp only [next]
        split
        · exact learn_eq_self known
        · rfl
    | _ => rfl
  rw [show r = v from reply]
  change (k v).Obeys script Q (d.next (.load l) v)
  rw [stays]
  exact h

theorem looks_snapshotBlockOwner : (snapshotBlockOwner b).Looks PoolLook :=
  looks_snapshotOwnerSeqCst _ _ (by simp [PoolLook]) (by simp [PoolLook])
    (by simp [PoolLook])

/-- The snapshot that the holder of a block takes of it. -/
theorem obeys_snapshot_own {s e : Nat} {o : OwnerAbi}
    (state : d.known (.blockState b) = some s) (owned : classifyBlockState s = .owned)
    (epoch : d.known (.blockEpoch b) = some e) (even : e % 2 = 0)
    (owner : ∀ word, d.known (.blockOwner b word) = some (o.word word))
    (valid : ownerValid o = true) :
    (snapshotBlockOwner b).Obeys script
      (fun x d' => x = .ok ⟨.stable, s, o, e⟩ ∧ d' = d) d := by
  have attempt : (snapshotOwnerAttempt (.blockState b) (.blockEpoch b) (.blockOwner b)
      classifyBlockState ownerValid : PoolCode _).Obeys script
        (fun x d' => x = .ok (some ⟨.stable, s, o, e⟩) ∧ d' = d) d := by
    unfold snapshotOwnerAttempt
    refine obeys_known rfl state ?_
    rw [owned]
    dsimp only
    unfold snapshotOwnerOwned
    refine obeys_known rfl epoch ?_
    rw [if_neg (by omega)]
    refine obeys_known rfl (owner .pid) ?_
    refine obeys_known rfl (owner .procStartTicks) ?_
    refine obeys_known rfl (owner .bootIdHashHi) ?_
    refine obeys_known rfl (owner .bootIdHashLo) ?_
    refine obeys_known rfl epoch ?_
    refine obeys_known rfl state ?_
    refine obeys_known rfl epoch ?_
    rw [if_pos ⟨owned, rfl, rfl, even⟩]
    exact (if_pos valid).symm ▸ ⟨rfl, rfl⟩
  unfold snapshotBlockOwner snapshotOwnerSeqCst ownerSnapshotRetries snapshotOwnerLoop
  refine Prog.obeys_seq attempt ?_ ?_
  · rintro a _ ⟨seen, rfl⟩
    cases seen
    exact ⟨rfl, rfl⟩
  · rintro e _ ⟨never, _⟩
    cases never

theorem learn_apply (d : Hand) (l l' : PoolLoc) (v : Nat) :
    (d.learn l v).known l' = if l' = l then some v else d.known l' := by
  simp [learn, Function.update_apply]

/-- A client looks at the state of a block. -/
theorem obeys_state {k : Nat → PoolCode α} {Q : Except Error α → Hand → Prop}
    (h : ∀ s, (∀ v, d.known (.blockState b) = some v → s = v) → (k s).Obeys script Q d) :
    (sharedLoad (.blockState b) >>= k).Obeys script Q d :=
  ⟨by simp [script, Allow], fun s may => h s may⟩

/-- A created pool stays READY. -/
theorem obeys_ready {k : Nat → PoolCode α} {Q : Except Error α → Hand → Prop}
    (h : (k SharedBufferPoolInitState.ready.code).Obeys script Q d) :
    (sharedLoad .initState >>= k).Obeys script Q d := by
  refine ⟨by simp [script, Allow], fun s may => ?_⟩
  obtain rfl : s = SharedBufferPoolInitState.ready.code := may
  exact h

/-- A holder looks at the generation. -/
theorem obeys_generation {k : Nat → PoolCode α} {Q : Except Error α → Hand → Prop}
    (holds : d.holds b = true)
    (h : ∀ g, g ≤ uint64Max → (k g).Obeys script Q (d.learn (.blockGeneration b) g)) :
    (sharedLoad (.blockGeneration b) >>= k).Obeys script Q d := by
  refine ⟨by simp [script, Allow], fun g may => ?_⟩
  have next : script.next d (.load (.blockGeneration b)) g =
      d.learn (.blockGeneration b) g := if_pos holds
  rw [next]
  exact h g (may.2 holds)

/-- A holder looks at the epoch for the first time. -/
theorem obeys_epoch {k : Nat → PoolCode α} {Q : Except Error α → Hand → Prop} {s : Nat}
    (state : d.known (.blockState b) = some s) (unknown : d.known (.blockEpoch b) = none)
    (h : ∀ e, Settled s e → (k e).Obeys script Q (d.learn (.blockEpoch b) e)) :
    (sharedLoad (.blockEpoch b) >>= k).Obeys script Q d := by
  refine ⟨by simp [script, Allow], fun e may => ?_⟩
  have next : script.next d (.load (.blockEpoch b)) e = d.learn (.blockEpoch b) e :=
    if_pos (holds_iff.2 ⟨s, state⟩)
  rw [next]
  exact h e (may.2 s state unknown)

theorem obeys_claim {k : Bool → PoolCode α} {Q : Except Error α → Hand → Prop} {expected : Nat}
    (unheld : d.holds b = false)
    (move : expected = SharedBufferBlockState.free.code ∧
        v = SharedBufferBlockState.writingClaiming.code ∨
      expected = SharedBufferBlockState.published.code ∧
        v = SharedBufferBlockState.readingClaiming.code)
    (won : (k true).Obeys script Q (d.learn (.blockState b) v))
    (lost : (k false).Obeys script Q d) :
    (sharedCas (.blockState b) expected v >>= k).Obeys script Q d := by
  refine ⟨.inl ⟨unheld, move⟩, fun r _ => ?_⟩
  cases r with
  | false => exact lost
  | true =>
      have next : script.next d (.cas (.blockState b) expected v) true =
          d.learn (.blockState b) v := by
        refine if_pos (c := InHand v) ?_
        rcases move with ⟨_, rfl⟩ | ⟨_, rfl⟩ <;> decide
      rw [next]
      exact won

theorem obeys_turn {k : Unit → PoolCode α} {Q : Except Error α → Hand → Prop}
    (turns : d.Turns b v) (h : (k ()).Obeys script Q (d.turn b v)) :
    (sharedStore (.blockState b) v >>= k).Obeys script Q d := ⟨turns, fun _ _ => h⟩

/-- The holder puts the state back by a compare-and-swap, which cannot fail. -/
theorem obeys_turn_cas {k : Bool → PoolCode α} {Q : Except Error α → Hand → Prop}
    {expected : Nat} (state : d.known (.blockState b) = some expected) (turns : d.Turns b v)
    (h : (k true).Obeys script Q (d.turn b v)) :
    (sharedCas (.blockState b) expected v >>= k).Obeys script Q d := by
  refine ⟨.inr ⟨state, turns⟩, fun r may => ?_⟩
  obtain rfl : r = true := (may expected state).trans (decide_eq_true rfl)
  exact h

/-- The epoch is made odd: the holder knows it, so the compare-and-swap succeeds. -/
theorem obeys_begin {k : OwnerCommitResult × Nat → PoolCode α}
    {Q : Except Error α → Hand → Prop} {s e reserve : Nat}
    (state : d.known (.blockState b) = some s) (claiming : Claiming s)
    (epoch : d.known (.blockEpoch b) = some e) (even : e % 2 = 0)
    (some_room : 2 ≤ reserve) (room : e + reserve ≤ maxCommittedOwnerEpoch)
    (h : (k (.ready, e + 2)).Obeys script Q (d.learn (.blockEpoch b) (e + 1))) :
    (beginOwnerCommit (.blockEpoch b) reserve >>= k).Obeys script Q d := by
  have small : maxCommittedOwnerEpoch + 1 = uint64Max := rfl
  unfold beginOwnerCommit
  rw [Prog.bind_assoc]
  refine obeys_known rfl epoch ?_
  rw [if_neg (by omega), if_neg (by omega), addU64_eq (by omega), addU64_eq (by omega),
    Prog.bind_assoc]
  refine ⟨⟨⟨s, state, claiming⟩, epoch, rfl, by omega⟩, fun r may => ?_⟩
  obtain rfl : r = true := (may e epoch).trans (decide_eq_true rfl)
  exact h

/-- The holder knows that there is room for another owner. -/
theorem obeys_capacity {k : OwnerCommitResult → PoolCode α} {Q : Except Error α → Hand → Prop}
    {s reserve : Nat} (state : d.known (.blockState b) = some s)
    (unknown : d.known (.blockEpoch b) = none)
    (ready : ∀ e, Settled s e → e + reserve ≤ maxCommittedOwnerEpoch →
      (k .ready).Obeys script Q (d.learn (.blockEpoch b) e))
    (full : ∀ e, Settled s e → ¬ e + reserve ≤ maxCommittedOwnerEpoch →
      (k .epochExhausted).Obeys script Q (d.learn (.blockEpoch b) e)) :
    (ownerEpochCapacity (.blockEpoch b) reserve >>= k).Obeys script Q d := by
  unfold ownerEpochCapacity
  rw [Prog.bind_assoc]
  refine obeys_epoch state unknown fun e settled => ?_
  have even := settled.even
  have bound := settled.bound
  rw [if_neg (by omega)]
  by_cases room : e + reserve ≤ maxCommittedOwnerEpoch
  · rw [if_pos (by omega)]
    exact ready e settled room
  · rw [if_neg (by omega)]
    exact full e settled room

theorem raise_known (d : Hand) (b v : Nat) (l : PoolLoc) :
    (d.raise b v).known l = if l = .blockGeneration b then some v else d.known l :=
  learn_apply d (.blockGeneration b) l v

@[simp] theorem raise_raised : (d.raise b v).raised b = true := Function.update_self _ _ _

theorem obeys_raise {k : Unit → PoolCode α} {Q : Except Error α → Hand → Prop} {e g : Nat}
    (c : d.Committing b e)
    (state : d.known (.blockState b) = some SharedBufferBlockState.writingClaiming.code)
    (generation : d.known (.blockGeneration b) = some g) (small : g < uint64Max)
    (h : (k ()).Obeys script Q (d.raise b (g + 1))) :
    (sharedStore (.blockGeneration b) (g + 1) >>= k).Obeys script Q d :=
  ⟨⟨e, g, c, state, generation, small, rfl⟩, fun _ _ => h⟩

/-- The hand after the four stores of an owner record. -/
def sign (d : Hand) (b : Nat) (o : OwnerAbi) : Hand :=
  (((d.learn (.blockOwner b .pid) o.pid).learn (.blockOwner b .procStartTicks)
    o.procStartTicks).learn (.blockOwner b .bootIdHashHi) o.bootIdHashHi).learn
    (.blockOwner b .bootIdHashLo) o.bootIdHashLo

theorem sign_owner (o : OwnerAbi) (word : OwnerWord) :
    (d.sign b o).known (.blockOwner b word) = some (o.word word) := by
  cases word <;> simp [sign, learn_apply, OwnerAbi.word]

theorem sign_other (o : OwnerAbi) (h : ∀ word, l ≠ .blockOwner b word) :
    (d.sign b o).known l = d.known l := by
  simp [sign, learn_apply, h]

theorem Committing.learn {e : Nat} (c : d.Committing b e) {word : OwnerWord} :
    (d.learn (.blockOwner b word) v).Committing b e where
  state := by
    obtain ⟨s, state, claiming⟩ := c.state
    exact ⟨s, by simp [learn_apply, state], claiming⟩
  epoch := by simp [learn_apply, c.epoch]
  odd := c.odd

/-- The owner record is replaced and the epoch made even again. -/
theorem obeys_commit {k : Unit → PoolCode α} {Q : Except Error α → Hand → Prop} {e : Nat}
    {id : ProcessIdentity} (c : d.Committing b e) (small : e + 1 ≤ maxCommittedOwnerEpoch)
    (h : (k ()).Obeys script Q
      ((d.sign b (ownerFromProcess id)).learn (.blockEpoch b) (e + 1))) :
    (setOwner (.blockOwner b) id >>= fun _ =>
      sharedStore (.blockEpoch b) (e + 1) >>= k).Obeys script Q d := by
  refine ⟨⟨e, c⟩, fun _ _ => ⟨⟨e, c.learn⟩, fun _ _ => ?_⟩⟩
  refine ⟨⟨e, c.learn.learn⟩, fun _ _ => ⟨⟨e, c.learn.learn.learn⟩, fun _ _ => ?_⟩⟩
  exact ⟨⟨e, c.learn.learn.learn.learn, rfl, small⟩, fun _ _ => h⟩

end Hand
end EdgeRuntime

import EdgeRuntime.Pool.HandSteps

/-!
Every instruction that the rules allow keeps the invariant, and no reply comes but the ones
that the client can expect.
-/
namespace EdgeRuntime
open Concurrent
open SharedBufferBlockState (InHand Claiming)

theorem PoolLoc.ne_of_outside {l l' : PoolLoc} {b : Nat} (outside : l'.inBlock ≠ some b)
    (inside : l.inBlock = some b) : l' ≠ l := by
  rintro rfl
  exact outside inside

namespace PoolSystem
variable {T : Type} [DecidableEq T] {q : PoolSystem T} {w : PoolWorld T} {d : T → Hand}
  {t u : T} {l : PoolLoc} {b v : Nat}

@[simp] theorem write_mem : (write t l v w).mem = w.mem.set l v := by
  cases l with
  | _ => rfl

@[simp] theorem write_finished : (write t l v w).finished = w.finished := by
  cases l with
  | _ => rfl

theorem write_client_of_ne (h : u ≠ t) : (write t l v w).client u = w.client u := by
  cases l with
  | blockState b =>
      simp only [write]
      split
      · exact Function.update_of_ne h _ _
      · rfl
  | _ => rfl

theorem write_history_of_ne {b' : Nat} (inside : l.inBlock = some b) (h : b' ≠ b) :
    (write t l v w).history b' = w.history b' := by
  cases l with
  | blockState c =>
      cases inside
      exact Function.update_of_ne h _ _
  | _ => rfl

theorem write_claimant_self : (write t (.blockState b) v w).claimant b = some t :=
  Function.update_self _ _ _

theorem write_claimant_of_ne (h : l ≠ .blockState b) :
    (write t l v w).claimant b = w.claimant b := by
  cases l with
  | blockState c =>
      refine Function.update_of_ne ?_ _ _
      rintro rfl
      exact h rfl
  | _ => rfl

/-- A store to a word that is not a state word changes no more than the word. -/
theorem write_plain (h : ∀ b, l ≠ .blockState b) :
    write t l v w = { w with mem := w.mem.set l v } := by
  cases l with
  | blockState b => exact absurd rfl (h b)
  | _ => rfl

end PoolSystem

namespace PoolInv
variable {T : Type} [DecidableEq T] {q : PoolSystem T} {w : PoolWorld T} {d : T → Hand}
  {t : T} {l : PoolLoc} {b v : Nat}

omit [DecidableEq T] in
/-- The holder of a block whose word it knows. -/
theorem holder (inv : PoolInv q w d) (inside : l.inBlock = some b)
    (known : (d t).known l = some v) : HeldBy w.mem (w.history b) d b t :=
  (inv.block b).holder inside known

omit [DecidableEq T] in
theorem knows (inv : PoolInv q w d) (inside : l.inBlock = some b)
    (known : (d t).known l = some v) : w.mem l = v :=
  (inv.holder inside known).knows l v inside known

/-- A client that holds a block looks at a word that it may not know yet. -/
theorem learn (inv : PoolInv q w d) (inside : l.inBlock = some b)
    (plain : ∀ b o, l ≠ .blockPayload b o) (holds : (d t).holds b = true)
    (needed : ∀ buffer ∈ (d t).client.buffers, buffer.block = b → (d t).known l ≠ none)
    (fits : HeldBy w.mem (w.history b) d b t →
      BlockFits w.mem b (w.history b) (((d t).learn l (w.mem l)).known (.blockEpoch b))
        ((d t).raised b)) :
    PoolInv q w (Function.update d t ((d t).learn l (w.mem l))) := by
  obtain ⟨s, state⟩ := Hand.holds_iff.1 holds
  have held := inv.holder rfl state
  cases known : (d t).known l with
  | some v =>
      rw [inv.knows inside known, Hand.learn_eq_self known, Function.update_eq_self]
      exact inv
  | none =>
      have elsewhere : ∀ l', l'.inBlock ≠ some b →
          ((d t).learn l (w.mem l)).known l' = (d t).known l' :=
        fun l' outside => Hand.learn_known_of_ne (PoolLoc.ne_of_outside outside inside)
      refine inv.touch (fun _ _ => rfl) (fun _ _ => rfl) rfl (fun _ _ => rfl)
        (inv.client t) elsewhere (fun _ _ => rfl) ?_ ?_
      · refine held.stay (fits held) held.held (Hand.learn_holds holds) ?_
          (held.unknown_learn plain)
        intro l' v' inside' known'
        have after := held.knows_learn inside' known'
        rw [Words.set_apply] at after
        split at after
        · rename_i same
          subst same
          exact after
        · exact after
      · refine (inv.sound t).of_unleased rfl ?_ elsewhere
        intro buffer hb same
        exact needed buffer hb same known

theorem load (inv : PoolInv q w d) (other : l ≠ .unlinked) :
    (d t).May (.load l) (w.mem l) ∧
      PoolInv q w (Function.update d t ((d t).next (.load l) (w.mem l))) := by
  have same : PoolInv q w (Function.update d t (d t)) := by
    rw [Function.update_eq_self]
    exact inv
  have leased : ∀ {buffer}, buffer ∈ (d t).client.buffers →
      (d t).known (.blockGeneration buffer.block) ≠ none ∧
        (d t).known (.blockEpoch buffer.block) ≠ none := by
    intro buffer hb
    rcases PoolClient.mem_buffers.1 hb with hb | hb
    · have lease := (inv.sound t).writes buffer hb
      obtain ⟨e, epoch, _⟩ := lease.epoch
      rw [lease.generation, epoch]
      exact ⟨by simp, by simp⟩
    · have lease := (inv.sound t).reads buffer hb
      obtain ⟨e, epoch, _⟩ := lease.epoch
      rw [lease.generation, epoch]
      exact ⟨by simp, by simp⟩
  cases l with
  | initState => exact ⟨inv.ready, same⟩
  | unlinked => exact absurd rfl other
  | blockState b | blockOwner b word | blockPayload b offset =>
      exact ⟨fun v known => inv.knows rfl known, same⟩
  | blockGeneration b =>
      have bound : (d t).holds b = true → w.mem (.blockGeneration b) ≤ uint64Max := by
        intro holds
        obtain ⟨s, state⟩ := Hand.holds_iff.1 holds
        exact (inv.holder rfl state).fits.generation
      refine ⟨⟨fun v known => inv.knows rfl known, bound⟩, ?_⟩
      simp only [Hand.next]
      split
      · rename_i holds
        refine inv.learn rfl (by simp) holds ?_ ?_
        · rintro buffer hb rfl
          exact (leased hb).1
        · intro held
          rw [Hand.learn_known_of_ne (by simp)]
          exact held.fits
      · exact same
  | blockEpoch b =>
      refine ⟨⟨fun v known => inv.knows rfl known, ?_⟩, ?_⟩
      · intro s state unknown
        have held := inv.holder rfl state
        rw [← held.knows _ s rfl state]
        exact held.fits.settled fun _ => unknown
      · simp only [Hand.next]
        split
        · rename_i holds
          refine inv.learn rfl (by simp) holds ?_ ?_
          · rintro buffer hb rfl
            exact (leased hb).2
          · intro held
            rw [Hand.learn_known]
            exact BlockWords.learn_epoch held.fits _
        · exact same

/-- A store by the holder of a block it has only claimed, to any word but the state. -/
theorem store_claimed (inv : PoolInv q w d) {e : Hand} (inside : l.inBlock = some b)
    (plain : ∀ b, l ≠ .blockState b) (control : ∀ b o, l ≠ .blockPayload b o) {s : Nat}
    (state : (d t).known (.blockState b) = some s) (claiming : Claiming s)
    (known : e.known = ((d t).learn l v).known) (client : e.client = (d t).client)
    (raised : ∀ b', b' ≠ b → e.raised b' = (d t).raised b')
    (fits : HeldBy w.mem (w.history b) d b t →
      BlockFits (w.mem.set l v) b (w.history b) (e.known (.blockEpoch b)) (e.raised b)) :
    PoolInv q (PoolSystem.write t l v w) (Function.update d t e) := by
  have held := inv.holder rfl state
  have elsewhere : ∀ l' : PoolLoc, l'.inBlock ≠ some b → l' ≠ l :=
    fun l' outside => PoolLoc.ne_of_outside outside inside
  rw [PoolSystem.write_plain plain]
  refine inv.touch ?_ (fun _ _ => rfl) rfl (fun _ _ => rfl) (client.trans (inv.client t)) ?_
    raised ?_ ?_
  · exact fun l' outside => Function.update_of_ne (elsewhere l' outside) _ _
  · intro l' outside
    rw [known, Hand.learn_known_of_ne (elsewhere l' outside)]
  · refine held.stay (fits held) ?_ ?_ ?_ ?_
    · have kept : (w.mem.set l v) (.blockState b) = w.mem (.blockState b) :=
        Function.update_of_ne (plain b).symm _ _
      dsimp only
      rw [kept]
      exact held.held
    · have holds : ((d t).learn l v).holds b = true := Hand.learn_holds held.holds
      rw [Hand.holds] at holds ⊢
      rw [known]
      exact holds
    · intro l' v' inside' known'
      rw [known] at known'
      exact held.knows_learn inside' known'
    · rw [known]
      exact held.unknown_learn control
  · refine (inv.sound t).of_unleased (b := b) client ?_ ?_
    · intro buffer hb
      refine (inv.sound t).unleased (fun s' state' => ?_) hb
      cases state.symm.trans state'
      exact claiming
    · intro l' outside
      rw [known, Hand.learn_known_of_ne (elsewhere l' outside)]

theorem store_owner (inv : PoolInv q w d) {word : OwnerWord} {e : Nat}
    (committing : (d t).Committing b e) :
    PoolInv q (PoolSystem.write t (.blockOwner b word) v w)
      (Function.update d t ((d t).learn (.blockOwner b word) v)) := by
  obtain ⟨s, state, claiming⟩ := committing.state
  refine inv.store_claimed rfl (by simp) (by simp) state claiming rfl rfl (fun _ _ => rfl) ?_
  intro held
  rw [Hand.learn_known_of_ne (by simp)]
  simpa [BlockFits] using held.fits

theorem store_epoch (inv : PoolInv q w d) {s : Nat}
    (state : (d t).known (.blockState b) = some s) (claiming : Claiming s)
    (small : v ≤ maxCommittedOwnerEpoch) :
    PoolInv q (PoolSystem.write t (.blockEpoch b) v w)
      (Function.update d t ((d t).learn (.blockEpoch b) v)) := by
  refine inv.store_claimed rfl (by simp) (by simp) state claiming rfl rfl (fun _ _ => rfl) ?_
  intro held
  rw [← held.knows _ s rfl state] at claiming
  rw [Hand.learn_known]
  simpa [BlockFits] using held.fits.change_epoch claiming small v

theorem store_generation (inv : PoolInv q w d) {g : Nat}
    (state : (d t).known (.blockState b) =
      some SharedBufferBlockState.writingClaiming.code)
    (generation : (d t).known (.blockGeneration b) = some g) (lt : g < uint64Max) :
    PoolInv q (PoolSystem.write t (.blockGeneration b) (g + 1) w)
      (Function.update d t ((d t).raise b (g + 1))) := by
  refine inv.store_claimed rfl (by simp) (by simp) state (.inl rfl) rfl rfl
    (fun _ other => Function.update_of_ne other _ _) ?_
  intro held
  have fits := held.fits
  unfold BlockFits at fits
  rw [held.knows _ _ rfl state, held.knows _ _ rfl generation] at fits
  have raised := fits.raise lt
  rw [← held.knows _ _ rfl state] at raised
  simpa [BlockFits, Hand.raise, Hand.learn, Function.update_of_ne] using raised

theorem store_payload (inv : PoolInv q w d) {offset : Nat}
    (state : (d t).known (.blockState b) = some SharedBufferBlockState.writing.code) :
    PoolInv q (PoolSystem.write t (.blockPayload b offset) v w) (Function.update d t (d t)) := by
  have held := inv.holder rfl state
  rw [PoolSystem.write_plain (by simp)]
  refine inv.touch (b := b) ?_ (fun _ _ => rfl) rfl (fun _ _ => rfl) (inv.client t)
    (fun _ _ => rfl) (fun _ _ => rfl) ?_ (inv.sound t)
  · exact fun l' outside => Function.update_of_ne (PoolLoc.ne_of_outside outside rfl) _ _
  · refine held.stay ?_ ?_ held.holds ?_ held.unknown
    · have fits := held.fits
      unfold BlockFits at fits ⊢
      rw [held.knows _ _ rfl state] at fits
      have filled := fits.fill fun o => (w.mem.set (.blockPayload b offset) v) (.blockPayload b o)
      rw [← held.knows _ _ rfl state] at filled
      simpa using filled
    · simpa using held.held
    · intro l' v' inside' known'
      refine (Function.update_of_ne ?_ _ _).trans (held.knows l' v' inside' known')
      rintro rfl
      cases (held.unknown offset).symm.trans known'

theorem store_unlinked (inv : PoolInv q w d) :
    PoolInv q (PoolSystem.write t .unlinked v w) d where
  ready := inv.ready
  client := inv.client
  block b := by
    refine (inv.block b).congr ?_ (fun _ _ _ => rfl) fun _ => rfl
    intro l inside
    refine Function.update_of_ne ?_ _ _
    rintro rfl
    cases inside
  sound := inv.sound
  finished := inv.finished

omit [DecidableEq T] in
theorem fits_state {m : PoolMem} {h : BlockHistory} {known : Option Nat} {raised : Bool} :
    BlockFits (m.set (.blockState b) v) b h known raised ↔
      BlockWords v (m (.blockGeneration b)) (m (.blockEpoch b))
        (fun offset => m (.blockPayload b offset)) h known raised := by
  simp [BlockFits]

/-- The holder of a claimed block commits its claim. -/
theorem turn_keep (inv : PoolInv q w d) {s : Nat}
    (state : (d t).known (.blockState b) = some s) (claiming : Claiming s) (target : InHand v)
    (fits : HeldBy w.mem (w.history b) d b t →
      BlockFits (w.mem.set (.blockState b) v) b ((w.history b).record w.mem b v)
        ((d t).known (.blockEpoch b)) ((d t).raised b)) :
    PoolInv q (PoolSystem.write t (.blockState b) v w)
      (Function.update d t ((d t).turn b v)) := by
  have held := inv.holder rfl state
  have turn : (d t).turn b v = (d t).learn (.blockState b) v := if_pos target
  have stays : (PoolSystem.write t (.blockState b) v w).client = w.client := by
    refine if_neg ?_
    rintro (rfl | rfl)
    · exact absurd target (by decide)
    · exact absurd target (by decide)
  have elsewhere : ∀ l' : PoolLoc, l'.inBlock ≠ some b → l' ≠ .blockState b :=
    fun l' outside => PoolLoc.ne_of_outside outside rfl
  rw [turn]
  refine inv.touch (b := b) ?_ (fun _ => PoolSystem.write_history_of_ne rfl)
    PoolSystem.write_finished (fun _ => PoolSystem.write_client_of_ne) ?_ ?_ (fun _ _ => rfl)
    ?_ ?_
  · exact fun l' outside => Function.update_of_ne (elsewhere l' outside) _ _
  · rw [stays]
    exact inv.client t
  · exact fun l' outside => Hand.learn_known_of_ne (elsewhere l' outside)
  · have committed : BlockFits (w.mem.set (.blockState b) v) b
        ((w.history b).record w.mem b v)
        (((d t).learn (.blockState b) v).known (.blockEpoch b)) ((d t).raised b) := by
      rw [Hand.learn_known_of_ne (by simp)]
      exact fits held
    have record : (PoolSystem.write t (.blockState b) v w).history b =
        (w.history b).record w.mem b v := Function.update_self _ _ _
    rw [record, PoolSystem.write_mem]
    refine held.stay committed ?_ (Hand.learn_holds held.holds)
      (fun l' v' => held.knows_learn) (held.unknown_learn (by simp))
    rw [Words.set_apply, if_pos rfl]
    exact target
  · refine (inv.sound t).of_unleased rfl ?_
      fun l' outside => Hand.learn_known_of_ne (elsewhere l' outside)
    intro buffer hb
    refine (inv.sound t).unleased (fun s' state' => ?_) hb
    cases state.symm.trans state'
    exact claiming

/-- The holder of a block gives it back. -/
theorem turn_leave (inv : PoolInv q w d) {s : Nat}
    (state : (d t).known (.blockState b) = some s) (target : ¬ InHand v)
    (dropped : Claiming s ∨ v = SharedBufferBlockState.free.code ∨
      v = SharedBufferBlockState.published.code)
    (fits : HeldBy w.mem (w.history b) d b t →
      BlockFits (w.mem.set (.blockState b) v) b ((w.history b).record w.mem b v) none false) :
    PoolInv q (PoolSystem.write t (.blockState b) v w)
      (Function.update d t ((d t).turn b v)) := by
  have held := inv.holder rfl state
  have elsewhere : ∀ l' : PoolLoc, l'.inBlock ≠ some b → l' ≠ .blockState b :=
    fun l' outside => PoolLoc.ne_of_outside outside rfl
  have record : (PoolSystem.write t (.blockState b) v w).history b =
      (w.history b).record w.mem b v := Function.update_self _ _ _
  have block : ∀ e : Hand, e.Ignorant b →
      BlockInv (PoolSystem.write t (.blockState b) v w).mem
        ((PoolSystem.write t (.blockState b) v w).history b) (Function.update d t e) b := by
    intro e ignorant
    rw [record, PoolSystem.write_mem]
    refine held.leave (fits held) ?_ ignorant
    rw [Words.set_apply, if_pos rfl]
    exact target
  by_cases drops : v = SharedBufferBlockState.free.code ∨
      v = SharedBufferBlockState.published.code
  · have turn : (d t).turn b v = { (d t).forget b with client := (d t).client.drop b } := by
      rw [Hand.turn, if_neg target, if_pos drops]
    have own : (PoolSystem.write t (.blockState b) v w).client t = (w.client t).drop b := by
      have client : (PoolSystem.write t (.blockState b) v w).client =
          Function.update w.client t ((w.client t).drop b) := if_pos drops
      rw [client, Function.update_self]
    rw [turn]
    refine inv.touch (b := b) ?_ (fun _ => PoolSystem.write_history_of_ne rfl)
      PoolSystem.write_finished (fun _ => PoolSystem.write_client_of_ne) ?_ ?_ ?_
      (block _ ⟨Hand.forget_ignorant.known, Hand.forget_ignorant.raised⟩) ?_
    · exact fun l' outside => Function.update_of_ne (elsewhere l' outside) _ _
    · rw [own, inv.client t]
    · exact fun l' outside => Hand.forget_known_of_not outside
    · exact fun b' other => Function.update_of_ne other _ _
    · exact (inv.sound t).drop rfl fun l' outside => Hand.forget_known_of_not outside
  · have turn : (d t).turn b v = (d t).forget b := by
      rw [Hand.turn, if_neg target, if_neg drops]
    have stays : (PoolSystem.write t (.blockState b) v w).client = w.client := if_neg drops
    rw [turn]
    refine inv.touch (b := b) ?_ (fun _ => PoolSystem.write_history_of_ne rfl)
      PoolSystem.write_finished (fun _ => PoolSystem.write_client_of_ne) ?_ ?_ ?_
      (block _ Hand.forget_ignorant) ?_
    · exact fun l' outside => Function.update_of_ne (elsewhere l' outside) _ _
    · rw [stays]
      exact inv.client t
    · exact fun l' outside => Hand.forget_known_of_not outside
    · exact fun b' other => Function.update_of_ne other _ _
    · refine (inv.sound t).of_unleased rfl ?_ fun l' outside => Hand.forget_known_of_not outside
      intro buffer hb
      refine (inv.sound t).unleased (fun s' state' => ?_) hb
      cases state.symm.trans state'
      exact dropped.resolve_right drops

end PoolInv

namespace HeldBy
variable {T : Type} {m : PoolMem} {h : BlockHistory} {d : T → Hand} {t : T} {b s : Nat}

/-- The words of the block, the state being known. -/
theorem words (held : HeldBy m h d b t) (state : (d t).known (.blockState b) = some s) :
    BlockWords s (m (.blockGeneration b)) (m (.blockEpoch b))
      (fun offset => m (.blockPayload b offset)) h ((d t).known (.blockEpoch b))
      ((d t).raised b) := by
  rw [← held.knows _ s rfl state]
  exact held.fits

/-- The epoch of a claimed block, from what its holder knows of it or from its being
settled. -/
theorem epoch_of {P : Nat → Prop} (held : HeldBy m h d b t)
    (state : (d t).known (.blockState b) = some s)
    (known : ∀ e, (d t).known (.blockEpoch b) = some e → P e)
    (settled : ∀ e, Hand.Settled s e → P e) : P (m (.blockEpoch b)) := by
  cases epoch : (d t).known (.blockEpoch b) with
  | none => exact settled _ ((held.words state).settled fun _ => epoch)
  | some e =>
      rw [held.knows _ e rfl epoch]
      exact known e epoch

end HeldBy

namespace PoolInv
variable {T : Type} [DecidableEq T] {q : PoolSystem T} {w : PoolWorld T} {d : T → Hand}
  {t : T} {b v : Nat}

/-- Every turn of a state word that the rules allow. -/
theorem turn (inv : PoolInv q w d) (turns : (d t).Turns b v) :
    PoolInv q (PoolSystem.write t (.blockState b) v w)
      (Function.update d t ((d t).turn b v)) := by
  cases turns with
  | giveUp state epoch target =>
      refine inv.turn_leave state ?_ (.inl (.inl rfl)) ?_
      · rcases target with rfl | rfl
        · decide
        · decide
      · intro held
        have record : (w.history b).record w.mem b v = w.history b := by
          rcases target with rfl | rfl <;> simp [BlockHistory.record]
        have quiet : w.mem (.blockEpoch b) % 2 = 0 ∧
            w.mem (.blockEpoch b) ≤ maxCommittedOwnerEpoch :=
          held.epoch_of state epoch fun e settled => ⟨settled.even, settled.bound⟩
        rw [record, fits_state]
        exact (held.words state).give_back quiet.1 quiet.2 target
  | @write e state raised epoch even room =>
      refine inv.turn_keep state (.inl rfl) (by decide) ?_
      intro held
      have words := held.words state
      rw [raised, held.knows _ e rfl epoch] at words
      rw [fits_state, raised, held.knows _ e rfl epoch]
      exact words.write even room
  | publish state =>
      refine inv.turn_leave state (by decide) (.inr (.inr rfl)) ?_
      intro held
      have record : (w.history b).record w.mem b SharedBufferBlockState.published.code =
          { w.history b with
            published := (w.history b).published ++
              [⟨w.mem (.blockGeneration b), fun offset => w.mem (.blockPayload b offset)⟩] } := by
        simp [BlockHistory.record, held.knows _ _ rfl state]
      rw [record, fits_state]
      exact (held.words state).publish
  | abort state | release state =>
      refine inv.turn_leave state (by decide) (.inr (.inl rfl)) ?_
      intro held
      have settled := (held.words state).settled (by simp [Claiming])
      have record : (w.history b).record w.mem b SharedBufferBlockState.free.code =
          w.history b := by simp [BlockHistory.record]
      rw [record, fits_state]
      exact (held.words state).give_back settled.even settled.bound (.inl rfl)
  | restore state epoch =>
      refine inv.turn_leave state (by decide) (.inl (.inr rfl)) ?_
      intro held
      have record : (w.history b).record w.mem b SharedBufferBlockState.published.code =
          w.history b := by
        simp [BlockHistory.record, held.knows _ _ rfl state]
      have quiet : w.mem (.blockEpoch b) % 2 = 0 ∧
          w.mem (.blockEpoch b) + 2 ≤ maxCommittedOwnerEpoch :=
        held.epoch_of state epoch fun e settled =>
          ⟨settled.even, settled.room (.inr (.inr rfl))⟩
      rw [record, fits_state]
      exact (held.words state).restore quiet.1 quiet.2
  | @read e state epoch even room =>
      refine inv.turn_keep state (.inr rfl) (by decide) ?_
      intro held
      have words := held.words state
      rw [held.knows _ e rfl epoch] at words
      rw [fits_state, held.knows _ e rfl epoch]
      exact words.read even room

/-- A client claims a block that it saw FREE or PUBLISHED. -/
theorem claim (inv : PoolInv q w d) {expected : Nat}
    (move : expected = SharedBufferBlockState.free.code ∧
        v = SharedBufferBlockState.writingClaiming.code ∨
      expected = SharedBufferBlockState.published.code ∧
        v = SharedBufferBlockState.readingClaiming.code)
    (found : w.mem (.blockState b) = expected) :
    PoolInv q (PoolSystem.write t (.blockState b) v w)
      (Function.update d t ((d t).turn b v)) := by
  have target : InHand v := by
    rcases move with ⟨_, rfl⟩ | ⟨_, rfl⟩ <;> decide
  have unheld : ¬ InHand (w.mem (.blockState b)) := by
    rw [found]
    rcases move with ⟨rfl, _⟩ | ⟨rfl, _⟩ <;> decide
  have ignorant : (d t).Ignorant b := by
    cases inv.block b with
    | loose _ _ nobody => exact nobody t
    | held u holder => exact absurd holder.held unheld
  have record : (w.history b).record w.mem b v = w.history b := by
    rcases move with ⟨_, rfl⟩ | ⟨_, rfl⟩ <;> simp [BlockHistory.record]
  have stays : (PoolSystem.write t (.blockState b) v w).client = w.client := by
    refine if_neg ?_
    rcases move with ⟨_, rfl⟩ | ⟨_, rfl⟩ <;> decide
  have turn : (d t).turn b v = (d t).learn (.blockState b) v := if_pos target
  have elsewhere : ∀ l' : PoolLoc, l'.inBlock ≠ some b → l' ≠ .blockState b :=
    fun l' outside => PoolLoc.ne_of_outside outside rfl
  rw [turn]
  refine inv.touch (b := b) ?_ (fun _ => PoolSystem.write_history_of_ne rfl)
    PoolSystem.write_finished (fun _ => PoolSystem.write_client_of_ne) ?_ ?_ (fun _ _ => rfl)
    ?_ ?_
  · exact fun l' outside => Function.update_of_ne (elsewhere l' outside) _ _
  · rw [stays]
    exact inv.client t
  · exact fun l' outside => Hand.learn_known_of_ne (elsewhere l' outside)
  · have after : (PoolSystem.write t (.blockState b) v w).history b = w.history b :=
      (Function.update_self _ _ _).trans record
    rw [after, PoolSystem.write_mem]
    refine (inv.block b).claim unheld target ?_
    intro fits
    unfold BlockFits at fits
    rw [found] at fits
    rw [fits_state]
    rcases move with ⟨rfl, rfl⟩ | ⟨rfl, rfl⟩
    · exact fits.claim_write
    · exact fits.claim_read
  · refine (inv.sound t).of_unleased rfl ?_
      fun l' outside => Hand.learn_known_of_ne (elsewhere l' outside)
    intro buffer hb
    refine (inv.sound t).unleased (fun s state => ?_) hb
    cases (ignorant.known _ rfl).symm.trans state

/-- Every instruction of a client that keeps to the rules. -/
theorem op (inv : PoolInv q w d) {i : Instr PoolLoc} {r : Reply i} {w' : PoolWorld T}
    (allowed : (d t).Allow i) (exec : q.memory.exec t i w r w') :
    (d t).May i r ∧ PoolInv q w' (Function.update d t ((d t).next i r)) := by
  have same : PoolInv q w (Function.update d t (d t)) := by
    rw [Function.update_eq_self]
    exact inv
  cases i with
  | load l =>
      obtain ⟨rfl, rfl⟩ := exec
      exact inv.load allowed
  | probe pid ticks =>
      obtain ⟨_, rfl⟩ := exec
      exact ⟨trivial, same⟩
  | store l v =>
      obtain rfl : w' = PoolSystem.write t l v w := exec
      cases l with
      | initState => exact allowed.elim
      | unlinked =>
          refine ⟨trivial, ?_⟩
          simp only [Hand.next]
          rw [Function.update_eq_self]
          exact inv.store_unlinked
      | blockState b => exact ⟨trivial, inv.turn allowed⟩
      | blockGeneration b =>
          obtain ⟨e, g, _, state, generation, lt, rfl⟩ := allowed
          exact ⟨trivial, inv.store_generation state generation lt⟩
      | blockOwner b word =>
          obtain ⟨e, committing⟩ := allowed
          exact ⟨trivial, inv.store_owner committing⟩
      | blockEpoch b =>
          obtain ⟨e, committing, _, small⟩ := allowed
          obtain ⟨s, state, claiming⟩ := committing.state
          exact ⟨trivial, inv.store_epoch state claiming small⟩
      | blockPayload b offset => exact ⟨trivial, inv.store_payload allowed⟩
  | cas l expected v =>
      obtain ⟨rfl, hw⟩ := exec
      replace hw : w' = if w.mem l = expected then PoolSystem.write t l v w else w := hw
      change (d t).May (.cas l expected v) (decide (w.mem l = expected)) ∧ PoolInv q w'
        (Function.update d t
          ((d t).next (.cas l expected v) (decide (w.mem l = expected))))
      cases l with
      | blockState b =>
          rcases allowed with ⟨unheld, move⟩ | ⟨state, turns⟩
          · refine ⟨?_, ?_⟩
            · intro v known
              cases (Hand.not_holds_iff.1 unheld).symm.trans known
            · by_cases found : w.mem (.blockState b) = expected
              · rw [if_pos found] at hw
                subst hw
                simp only [Hand.next, decide_eq_true found, cond_true]
                exact inv.claim move found
              · rw [if_neg found] at hw
                subst hw
                simp only [Hand.next, decide_eq_false found, cond_false]
                exact same
          · have found : w.mem (.blockState b) = expected := inv.knows rfl state
            rw [if_pos found] at hw
            subst hw
            simp only [Hand.next, Hand.May, decide_eq_true found, cond_true]
            refine ⟨?_, inv.turn turns⟩
            intro v known
            cases state.symm.trans known
            exact (decide_eq_true rfl).symm
      | blockEpoch b =>
          obtain ⟨⟨s, state, claiming⟩, epoch, _, small⟩ := allowed
          have found : w.mem (.blockEpoch b) = expected := inv.knows rfl epoch
          rw [if_pos found] at hw
          subst hw
          simp only [Hand.next, Hand.May, decide_eq_true found, cond_true]
          refine ⟨?_, inv.store_epoch state claiming small⟩
          intro v known
          cases epoch.symm.trans known
          exact (decide_eq_true rfl).symm
      | initState | unlinked | blockGeneration | blockOwner | blockPayload =>
          exact allowed.elim
  | fetchAdd | copyOut | boottime | monotonic | watch | futexWake | futexSleep | futexRise
  | lock | unlock | block => exact allowed.elim

end PoolInv

namespace Hand

theorem Turns.holds {d : Hand} {b v : Nat} (turns : d.Turns b v) : d.holds b = true := by
  cases turns with
  | giveUp state | write state | publish state | abort state | restore state | read state
  | release state => exact holds_iff.2 ⟨_, state⟩

theorem Committing.holds {d : Hand} {b e : Nat} (c : d.Committing b e) : d.holds b = true := by
  obtain ⟨s, state, _⟩ := c.state
  exact holds_iff.2 ⟨s, state⟩

theorem learn_holds_of_ne {d : Hand} {l : PoolLoc} {b v : Nat} (h : l ≠ .blockState b) :
    (d.learn l v).holds b = d.holds b := by
  unfold holds
  rw [learn_known_of_ne h.symm]

theorem turn_holds_of_ne {d : Hand} {b c v : Nat} (h : c ≠ b) :
    (d.turn c v).holds b = d.holds b := by
  have outside : PoolLoc.inBlock (.blockState b) ≠ some c := fun same =>
    h (Option.some.inj same).symm
  unfold turn
  split
  · exact learn_holds_of_ne fun same => h (PoolLoc.blockState.inj same)
  · split <;> exact congrArg Option.isSome (forget_known_of_not (d := d) outside)

/-- Only by its state word does a block come into a client's hands or leave them. -/
theorem next_holds {d : Hand} {b : Nat} {i : Instr PoolLoc} (r : Reply i)
    (store : ∀ v, i ≠ .store (.blockState b) v)
    (cas : ∀ expected v, i ≠ .cas (.blockState b) expected v) :
    (d.next i r).holds b = d.holds b := by
  cases i with
  | load l =>
      cases l with
      | blockGeneration c | blockEpoch c =>
          simp only [next]
          split
          · exact learn_holds_of_ne nofun
          · rfl
      | _ => rfl
  | store l v =>
      cases l with
      | blockState c =>
          refine turn_holds_of_ne ?_
          rintro rfl
          exact store v rfl
      | blockGeneration c =>
          exact learn_holds_of_ne (d := d) (l := .blockGeneration c) (v := v) nofun
      | blockOwner c word | blockEpoch c => exact learn_holds_of_ne nofun
      | _ => rfl
  | cas l expected v =>
      cases l with
      | blockState c =>
          have other : c ≠ b := by
            rintro rfl
            exact cas expected v rfl
          cases r with
          | false => rfl
          | true => exact turn_holds_of_ne other
      | blockEpoch c =>
          cases r with
          | false => rfl
          | true => exact learn_holds_of_ne nofun
      | _ => rfl
  | _ => rfl

end Hand

/-- An instruction that the rules allow stores to a word of a block only if the client holds
the block or nobody does. -/
theorem PoolInv.effect {T : Type} [DecidableEq T] {q : PoolSystem T} {w w' : PoolWorld T}
    {d : T → Hand} {t : T} {i : Instr PoolLoc} {r : Reply i}
    (allowed : (d t).Allow i) (exec : q.memory.exec t i w r w') :
    w' = w ∨ ∃ loc v, w' = PoolSystem.write t loc v w ∧ ∀ b, loc.inBlock = some b →
      (d t).holds b = true ∨ ¬ InHand (w.mem (.blockState b)) := by
  cases i with
  | load | probe => exact .inl exec.2
  | store loc v =>
      refine .inr ⟨loc, v, exec, ?_⟩
      rintro b inside
      refine .inl ?_
      cases loc with
      | initState | unlinked => cases inside
      | blockState b =>
          cases inside
          exact allowed.holds
      | blockGeneration b =>
          cases inside
          obtain ⟨_, _, _, state, _⟩ := allowed
          exact Hand.holds_iff.2 ⟨_, state⟩
      | blockOwner b word =>
          cases inside
          obtain ⟨_, committing⟩ := allowed
          exact committing.holds
      | blockEpoch b =>
          cases inside
          obtain ⟨_, committing, _⟩ := allowed
          exact committing.holds
      | blockPayload b offset =>
          cases inside
          exact Hand.holds_iff.2 ⟨_, allowed⟩
  | cas loc expected v =>
      obtain ⟨_, hw⟩ := exec
      replace hw : w' = if w.mem loc = expected then PoolSystem.write t loc v w else w := hw
      by_cases found : w.mem loc = expected
      · rw [if_pos found] at hw
        refine .inr ⟨loc, v, hw, ?_⟩
        rintro b inside
        cases loc with
        | blockState b =>
            cases inside
            rcases allowed with ⟨_, move⟩ | ⟨state, _⟩
            · refine .inr ?_
              rw [found]
              rcases move with ⟨rfl, _⟩ | ⟨rfl, _⟩ <;> simp [InHand]
            · exact .inl (Hand.holds_iff.2 ⟨_, state⟩)
        | blockEpoch b =>
            cases inside
            obtain ⟨⟨s, state, _⟩, _⟩ := allowed
            exact .inl (Hand.holds_iff.2 ⟨s, state⟩)
        | initState | unlinked | blockGeneration | blockOwner | blockPayload =>
            exact allowed.elim
      · rw [if_neg found] at hw
        exact .inl hw
  | fetchAdd | copyOut | boottime | monotonic | watch | futexWake | futexSleep | futexRise
  | lock | unlock | block => exact allowed.elim

/-- The invariant, and that whoever holds a block was the last to change its state. -/
structure PoolSystem.Claimed {T : Type} (q : PoolSystem T) (w : PoolWorld T) (d : T → Hand) :
    Prop extends PoolInv q w d where
  claimant : ∀ b u, (d u).holds b = true → w.claimant b = some u

namespace PoolSystem.Claimed
variable {T : Type} [DecidableEq T] {q : PoolSystem T} {w w' : PoolWorld T} {d : T → Hand}
  {t : T} {i : Instr PoolLoc} {r : Reply i}

/-- The client's own blocks. -/
theorem claimant_own (inv : q.Claimed w d) (allowed : (d t).Allow i)
    (exec : q.memory.exec t i w r w') {b : Nat} (holds : ((d t).next i r).holds b = true) :
    w'.claimant b = some t := by
  by_cases store : ∃ v, i = .store (.blockState b) v
  · obtain ⟨v, rfl⟩ := store
    obtain rfl : w' = write t (.blockState b) v w := exec
    exact write_claimant_self
  by_cases cas : ∃ expected v, i = .cas (.blockState b) expected v
  · obtain ⟨expected, v, rfl⟩ := cas
    obtain ⟨reply, after⟩ := exec
    replace after : w' = if w.mem (.blockState b) = expected then write t (.blockState b) v w
      else w := after
    by_cases found : w.mem (.blockState b) = expected
    · rw [after, if_pos found]
      exact write_claimant_self
    · obtain rfl : r = false := reply.trans (decide_eq_false found)
      rw [after, if_neg found]
      exact inv.claimant b t holds
  rw [Hand.next_holds r (fun v same => store ⟨v, same⟩)
    fun expected v same => cas ⟨expected, v, same⟩] at holds
  rcases PoolInv.effect allowed exec with same | ⟨l, v, written, _⟩
  · rw [same]
    exact inv.claimant b t holds
  · rw [written]
    by_cases state : l = .blockState b
    · rw [state]
      exact write_claimant_self
    · rw [write_claimant_of_ne state]
      exact inv.claimant b t holds

/-- The blocks of others: their state is not for the client to change. -/
theorem claimant_other (inv : q.Claimed w d) (allowed : (d t).Allow i)
    (exec : q.memory.exec t i w r w') {b : Nat} {u : T} (other : u ≠ t)
    (holds : (d u).holds b = true) : w'.claimant b = some u := by
  have was := inv.claimant b u holds
  rcases PoolInv.effect allowed exec with same | ⟨l, v, written, mine⟩
  · rw [same]
    exact was
  · rw [written]
    by_cases state : l = .blockState b
    · subst state
      exfalso
      rcases mine b rfl with own | unheld
      · exact other (Option.some.inj (was.symm.trans (inv.claimant b t own)))
      · obtain ⟨s, known⟩ := Hand.holds_iff.1 holds
        exact unheld (inv.holder rfl known).held
    · rw [write_claimant_of_ne state]
      exact was

theorem op (inv : q.Claimed w d) (allowed : (d t).Allow i) (exec : q.memory.exec t i w r w') :
    (d t).May i r ∧ q.Claimed w' (Function.update d t ((d t).next i r)) := by
  obtain ⟨may, after⟩ := inv.toPoolInv.op allowed exec
  refine ⟨may, after, fun b u holds => ?_⟩
  by_cases same : u = t
  · subst same
    rw [Function.update_self] at holds
    exact inv.claimant_own allowed exec holds
  · rw [Function.update_of_ne same] at holds
    exact inv.claimant_other allowed exec same holds

end PoolSystem.Claimed
end EdgeRuntime

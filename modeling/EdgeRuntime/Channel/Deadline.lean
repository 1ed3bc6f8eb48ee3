import EdgeRuntime.Channel.Runs
import EdgeRuntime.Sync.Surroundings

/-!
The deadline of a wait. The wait loop looks at the clock only on the way to sleep; a round
that finds an unread ticket after its failed attempt starts over without looking. The
loop is followed here from one read attempt to the next, and an attempt from one word of
the segment to the next: whether it is made in vain is a matter of the words it finds.
-/
namespace EdgeRuntime
open Concurrent

section
variable {α : Type} (header : ChannelHeaderAbi) (n : Nat) (operation : String)
  (deadline : Nat) (body : ChannelCode α)

/-- One round of the wait loop; `none` asks for another one. -/
def waitRound : ChannelCode (Option α) := do
  let result ← body.attempt
  match result with
  | .ok a => return some a
  | .error e =>
      if e.code ≠ .noNewSample ∧ e.code ≠ .readContention then .throw e
      else
        waitForNotice header n operation deadline
        return none

theorem waitLoop_succ (rounds : Nat) :
    waitLoop header n operation deadline body (rounds + 1) =
      waitRound header n operation deadline body >>= fun x =>
        match x with
        | some a => return a
        | none => waitLoop header n operation deadline body rounds := by
  rw [waitLoop, waitRound, Prog.bind_assoc]
  congr 1
  funext result
  cases result with
  | ok a => rfl
  | error e =>
      dsimp only
      split
      · rfl
      · rw [Prog.bind_assoc]
        rfl

/-- The compare-and-swap of a claim try. -/
def ClaimsReadable (i : Instr ChannelLoc) : Prop :=
  ∃ slot, i = .cas (.slotState slot) SlotState.published.code SlotState.readingClaiming.code

/-- The errors after which the loop goes on. -/
def Retryable (e : Error) : Prop := e.code = .noNewSample ∨ e.code = .readContention

/-- An outcome that ends the wait. -/
def Final (x : Except Error α) : Prop := ∀ e, x = .error e → ¬ Retryable e

end

section
variable {α : Type} {n i : Nat} {handle : ConsumerHandle} {operation : String}

theorem final_ok {a : α} : Final (.ok a : Except Error α) := nofun

theorem final_error {e : Error} (h : ¬ Retryable e) : Final (.error e : Except Error α) := by
  rintro _ ⟨⟩
  exact h

theorem final_makeError {code : ErrorCode} (context : String)
    (other : code ≠ .noNewSample ∧ code ≠ .readContention) :
    Final (.error (makeError code operation context) : Except Error α) :=
  final_error fun again => again.elim other.1 other.2

theorem ends_fnv1a64From {j size hash : Nat} :
    (fnv1a64From (.slotPayload i) j size hash : ChannelCode Nat).Ends Final := by
  induction size generalizing j hash with
  | zero => exact final_ok
  | succ size ih => exact fun _ => ih

theorem ends_releaseAndThrow {e : Error} (h : Final (.error e : Except Error α)) :
    (releaseAndThrow i e : ChannelCode α).Ends Final := fun _ _ => h

/-- The checks of a claimed slot end the attempt. -/
theorem ends_checkClaimedSlot : (checkClaimedSlot n handle operation i).Ends Final := by
  intro size sequence stamp sum
  dsimp only [Prog.bind]
  split
  · exact ends_releaseAndThrow (final_makeError _ (by decide))
  · intro received
    dsimp only [Prog.bind]
    split
    · exact ends_releaseAndThrow (final_makeError _ (by decide))
    · refine Prog.ends_bind ends_fnv1a64From (fun actual _ => ?_) fun e final => ?_
      · split
        · exact ends_releaseAndThrow (final_makeError _ (by decide))
        · exact fun _ _ _ _ _ => final_ok
      · exact final_error (final e rfl)

theorem ends_copyFrom {j size : Nat} :
    (copyFrom (.slotPayload i) j size : ChannelCode Unit).Ends Final := by
  induction size generalizing j with
  | zero => exact final_ok
  | succ size ih => exact fun _ _ => ih

/-- Code that claims no slot for reading. -/
abbrev Unclaiming (p : ChannelCode α) : Prop := p.All fun i => ¬ ClaimsReadable i

theorem unclaiming_slotReleaseRead : Unclaiming (slotReleaseRead i) :=
  ⟨nofun, fun _ => ⟨nofun, fun _ => trivial⟩⟩

theorem unclaiming_releaseAndThrow {e : Error} :
    Unclaiming (releaseAndThrow i e : ChannelCode α) :=
  Prog.all_bind unclaiming_slotReleaseRead fun _ => trivial

theorem unclaiming_fnv1a64From {j size hash : Nat} :
    Unclaiming (fnv1a64From (.slotPayload i) j size hash : ChannelCode Nat) := by
  induction size generalizing j hash with
  | zero => trivial
  | succ size ih => exact ⟨nofun, fun _ => ih⟩

theorem unclaiming_checkClaimedSlot :
    Unclaiming (checkClaimedSlot n handle operation i) := by
  refine ⟨nofun, fun size => ⟨nofun, fun sequence => ⟨nofun, fun stamp => ⟨nofun, fun sum => ?_⟩⟩⟩⟩
  dsimp only [Prog.bind]
  split
  · exact unclaiming_releaseAndThrow
  · refine ⟨nofun, fun received => ?_⟩
    dsimp only [Prog.bind]
    split
    · exact unclaiming_releaseAndThrow
    · refine Prog.all_bind unclaiming_fnv1a64From fun actual => ?_
      split
      · exact unclaiming_releaseAndThrow
      · exact ⟨nofun, fun _ => ⟨nofun, fun _ => ⟨nofun, fun _ => ⟨nofun, fun _ =>
          ⟨nofun, fun _ => trivial⟩⟩⟩⟩⟩

theorem unclaiming_readClaimedSlot :
    Unclaiming (readClaimedSlot n handle operation i) := by
  refine ⟨nofun, fun _ => ⟨nofun, fun _ => ⟨nofun, fun _ => ⟨nofun, fun latest => ?_⟩⟩⟩⟩
  dsimp only [Prog.bind]
  split
  · exact Prog.all_bind unclaiming_slotReleaseRead fun _ => trivial
  · exact Prog.all_bind unclaiming_checkClaimedSlot fun _ => trivial

theorem atMost_claimAttempt {stride : Nat} :
    (claimAttempt n handle operation stride).AtMost ClaimsReadable 1 := by
  refine .inl ⟨nofun, fun ticket => .inl ⟨nofun, fun last => ?_⟩⟩
  dsimp only [Prog.bind]
  split
  · trivial
  · split
    · trivial
    · refine .inr ⟨0, rfl, fun claimed => ?_⟩
      dsimp only [Prog.bind]
      split
      · trivial
      · exact Prog.atMost_of_all unclaiming_readClaimedSlot

theorem atMost_claimLoop {stride attempts : Nat} :
    (claimLoop n handle operation stride attempts).AtMost ClaimsReadable attempts := by
  induction attempts with
  | zero => trivial
  | succ attempts ih =>
      rw [claimLoop, Nat.add_comm]
      refine Prog.atMost_bind atMost_claimAttempt fun claimed => ?_
      cases claimed with
      | some loan => trivial
      | none => exact ih

theorem atMost_claimLatestUnlocked :
    (claimLatestUnlocked n handle operation).AtMost ClaimsReadable maxReadRetries := by
  unfold claimLatestUnlocked
  split
  · trivial
  · exact atMost_claimLoop

theorem unclaiming_copyFrom {j size : Nat} :
    Unclaiming (copyFrom (.slotPayload i) j size : ChannelCode Unit) := by
  induction size generalizing j with
  | zero => trivial
  | succ size ih => exact ⟨nofun, fun _ => ⟨nofun, fun _ => ih⟩⟩

theorem atMost_tryReadLatestUnlocked {encodedCap : Nat} :
    (tryReadLatestUnlocked n handle encodedCap).AtMost ClaimsReadable maxReadRetries := by
  refine Prog.atMost_bind (b := 0) atMost_claimLatestUnlocked fun claimed => ?_
  apply Prog.atMost_of_all
  split
  · exact unclaiming_releaseAndThrow
  · refine Prog.all_bind unclaiming_copyFrom fun _ => ?_
    exact Prog.all_bind unclaiming_slotReleaseRead fun _ => trivial

end
namespace ChannelSystem
variable {q : ChannelSystem} {α : Type}

section
variable (env : Surroundings q.memory) (header : ChannelHeaderAbi) (n : Nat)
  (operation : String) (deadline : Nat) (body : ChannelCode α)

/-- The step at which the round that starts at `h` is followed by another one. -/
def nextRound (h : Nat) : Option Nat :=
  match env.run (waitRound header n operation deadline body) h with
  | (.ok none, m) => some m
  | _ => none

/-- The steps at which the loop begins its read attempts. -/
def attemptsFrom : Nat → Nat → List Nat
  | 0, _ => []
  | rounds + 1, h =>
      h :: match nextRound env header n operation deadline body h with
        | some m => attemptsFrom rounds m
        | none => []

/-- The monotonic clock is at or past the deadline. -/
def Late (h : Nat) : Prop := deadline ≤ env.time h

instance : DecidablePred (Late env deadline) := fun _ => inferInstanceAs (Decidable (_ ≤ _))

/-- A wait that keeps to its deadline: from then on it makes at most one more read
attempt, of no more than the tries allowed, and its outcome no longer depends on how many
rounds it may take. -/
structure Prompt (s : Nat) : Prop where
  tries : body.AtMost ClaimsReadable maxReadRetries
  once : ∀ rounds, ((attemptsFrom env header n operation deadline body rounds s).filter
    (Late env deadline ·)).length ≤ 1
  returns : ∀ rounds, (∃ h ∈ attemptsFrom env header n operation deadline body rounds s,
      Late env deadline h) → ∀ more,
    env.run (waitLoop header n operation deadline body (rounds + more)) s =
      env.run (waitLoop header n operation deadline body rounds) s

/-- The latest ticket at a step. -/
def ticketAt (h : Nat) : Nat := (env.world h).mem .latestTicket

/-- A look at the ticket and then at the last sequence, from step `h` on, shows a sample
that has not been read yet. -/
def UnreadAt (h : Nat) : Prop :=
  ticketAt env h ≠ 0 ∧
    ticketSequence (ticketAt env h) > (env.world (h + 1)).mem (consumerWord n .lastSequence)

/-- The slot of the ticket that a try found is PUBLISHED when the try comes to claim it. -/
def PublishedAt (h : Nat) : Prop :=
  (env.world (h + 2)).mem (.slotState (ticketSlot (ticketAt env h))) = SlotState.published.code

instance : DecidablePred (PublishedAt env) := fun _ => inferInstanceAs (Decidable (_ = _))

/-- Once claimed, the slot still holds the latest sample. -/
def LatestAt (h : Nat) : Prop :=
  ticketAt env (h + 6) =
    makeTicket ((env.world (h + 5)).mem (.slotSequence (ticketSlot (ticketAt env h))))
      (ticketSlot (ticketAt env h))

instance : DecidablePred (LatestAt env) := fun _ => inferInstanceAs (Decidable (_ = _))

/-- By the words that the tries of a read attempt find from step `h` on, the attempt is made
in vain and a sample is on show after it. A try finds nothing new, and then there is; or it
finds an unread sample, but not its slot PUBLISHED, or not the latest sample in the slot, and
the tries that are left fare no better. -/
def Foiled (stride : Nat) : (tries h : Nat) → Prop
  | 0, h => UnreadAt env n (h + 1)
  | tries + 1, h =>
      (¬ UnreadAt env n h ∧ UnreadAt env n (h + 3)) ∨
      (UnreadAt env n h ∧ (slotByteOffset (ticketSlot (ticketAt env h)) stride).isSome ∧
        (¬ PublishedAt env h ∧ Foiled stride tries (h + 3) ∨
          PublishedAt env h ∧ ¬ LatestAt env h ∧ Foiled stride tries (h + 9)))

/-- The whole attempt of a handle. -/
def FoiledAttempt (handle : ConsumerHandle) (h : Nat) : Prop :=
  ∃ stride, slotStride handle.payloadSize = some stride ∧ Foiled env n stride maxReadRetries h

/-- From step `s` on the latest sample is unread and cannot be read: its slot is never
PUBLISHED, or holds another sample. A peer that dies in the middle of a call leaves the
segment like this. -/
structure JammedFrom (handle : ConsumerHandle) (ticket s : Nat) : Prop where
  latest : ∀ h ≥ s, ticketAt env h = ticket
  nonzero : ticket ≠ 0
  unread : ∀ h ≥ s, ticketSequence ticket > (env.world h).mem (consumerWord n .lastSequence)
  range : ∃ stride, slotStride handle.payloadSize = some stride ∧
    (slotByteOffset (ticketSlot ticket) stride).isSome
  unreadable :
    (∀ h ≥ s, (env.world h).mem (.slotState (ticketSlot ticket)) ≠ SlotState.published.code) ∨
      ∀ h ≥ s, ticket ≠
        makeTicket ((env.world h).mem (.slotSequence (ticketSlot ticket))) (ticketSlot ticket)

end

section
variable {env : Surroundings q.memory} {header : ChannelHeaderAbi} {n : Nat}
  {operation : String} {deadline : Nat} {body : ChannelCode α} {h m s : Nat}

theorem Late.mono (le : h ≤ m) (late : Late env deadline h) : Late env deadline m :=
  Nat.le_trans late (env.monotone le)

theorem run_failWaitTimeout {a : α} {k : Nat} :
    env.run (failWaitTimeout header operation) m ≠ (.ok a, k) := by
  rw [failWaitTimeout, env.run_bind]
  split
  · exact nofun
  · exact nofun

theorem run_remainingTimeNs (late : Late env deadline m) :
    env.run (remainingTimeNs deadline) m = (.ok 0, m + 1) := by
  change env.run ((fun now : Nat => if now = 0 then .ret 0 else if now ≥ deadline then .ret 0
    else .ret (deadline - now) : Nat → ChannelCode Nat)
      (if env.clock m then env.time m else 0)) (m + 1) = _
  split
  · dsimp only
    rw [if_pos (show env.time m ≥ deadline from late), ite_self]
    rfl
  · rfl

/-- At or past the deadline only an unread ticket sends the loop into another round. -/
theorem run_waitForNotice (late : Late env deadline m) :
    (∃ k, env.run (waitForNotice header n operation deadline) m = (.ok (), k)) ↔
      UnreadAt env n (m + 1) := by
  change (∃ k, env.run (if ticketAt env (m + 1) ≠ 0 ∧ ticketSequence (ticketAt env (m + 1)) >
      (env.world (m + 2)).mem (consumerWord n .lastSequence) then (.ret () : ChannelCode Unit)
    else _) (m + 3) = (.ok (), k)) ↔ _
  split
  · rename_i unread
    exact iff_of_true ⟨_, rfl⟩ unread
  · rename_i quiet
    refine iff_of_false ?_ quiet
    rintro ⟨k, ok⟩
    have passed := run_remainingTimeNs (Late.mono (Nat.le_add_right m 3) late)
    rw [env.run_bind, passed] at ok
    exact run_failWaitTimeout ok

/-- A round goes on to the next one by way of a failed attempt and the notice. -/
theorem nextRound_eq_some {next : Nat} :
    nextRound env header n operation deadline body h = some next ↔
      ∃ e m, env.run body h = (.error e, m) ∧
        Retryable e ∧ env.run (waitForNotice header n operation deadline) m = (.ok (), next) := by
  unfold nextRound
  rw [waitRound, env.run_bind, env.run_attempt]
  generalize env.run body h = outcome
  obtain ⟨x, m⟩ := outcome
  cases x with
  | ok a => exact iff_of_false nofun (by rintro ⟨_, _, ⟨⟩, -⟩)
  | error e =>
      by_cases retry : Retryable e
      · dsimp only
        rw [if_neg (by rintro ⟨a, b⟩; exact retry.elim a b), env.run_bind]
        generalize notice : env.run (waitForNotice header n operation deadline) m = outcome
        obtain ⟨x, k⟩ := outcome
        cases x with
        | ok _ =>
            constructor
            · rintro ⟨⟩
              exact ⟨e, m, rfl, retry, notice⟩
            · rintro ⟨_, _, ⟨⟩, -, same⟩
              rw [notice] at same
              cases same
              rfl
        | error _ =>
            refine iff_of_false nofun ?_
            rintro ⟨_, _, ⟨⟩, -, same⟩
            rw [notice] at same
            cases same
      · dsimp only
        rw [if_pos (not_or.1 retry)]
        exact iff_of_false nofun (by rintro ⟨_, _, ⟨⟩, other, -⟩; exact retry other)

/-- The attempt fails in a way that may be tried again, and a sample is on show after it. -/
def InVain (env : Surroundings q.memory) (n : Nat) (body : ChannelCode α) (h : Nat) : Prop :=
  ∃ e m, env.run body h = (.error e, m) ∧ Retryable e ∧ UnreadAt env n (m + 1)

theorem nextRound_late (late : Late env deadline h) :
    nextRound env header n operation deadline body h = none ↔ ¬ InVain env n body h := by
  constructor
  · rintro last ⟨e, m, failed, retry, unread⟩
    have after := Late.mono (env.le_run body h) late
    rw [failed] at after
    obtain ⟨next, notice⟩ := (run_waitForNotice after).2 unread
    have more := nextRound_eq_some.2 ⟨e, m, failed, retry, notice⟩
    rw [last] at more
    cases more
  · intro calm
    cases more : nextRound env header n operation deadline body h with
    | none => rfl
    | some next =>
        obtain ⟨e, m, failed, retry, notice⟩ := nextRound_eq_some.1 more
        have after := Late.mono (env.le_run body h) late
        rw [failed] at after
        exact (calm ⟨e, m, failed, retry, (run_waitForNotice after).1 ⟨next, notice⟩⟩).elim

/-- Every late attempt is the last one. -/
def LateIsLast (env : Surroundings q.memory) (header : ChannelHeaderAbi) (n : Nat)
    (operation : String) (deadline : Nat) (body : ChannelCode α) (s : Nat) : Prop :=
  ∀ rounds, ∀ h ∈ attemptsFrom env header n operation deadline body rounds s,
    Late env deadline h → nextRound env header n operation deadline body h = none

theorem LateIsLast.next {next : Nat}
    (last : LateIsLast env header n operation deadline body s)
    (more : nextRound env header n operation deadline body s = some next) :
    LateIsLast env header n operation deadline body next := by
  intro rounds h mem
  apply last (rounds + 1)
  rw [attemptsFrom, more]
  exact List.mem_cons_of_mem s mem

theorem le_nextRound {next : Nat}
    (more : nextRound env header n operation deadline body h = some next) : h ≤ next := by
  obtain ⟨e, m, failed, -, notice⟩ := nextRound_eq_some.1 more
  have first := env.le_run body h
  have second := env.le_run (waitForNotice header n operation deadline) m
  rw [failed] at first
  rw [notice] at second
  exact Nat.le_trans first second

theorem le_of_mem_attemptsFrom {rounds : Nat}
    (mem : h ∈ attemptsFrom env header n operation deadline body rounds s) : s ≤ h := by
  induction rounds generalizing s with
  | zero => cases mem
  | succ rounds ih =>
      rw [attemptsFrom] at mem
      obtain rfl | mem := List.mem_cons.1 mem
      · exact Nat.le_refl _
      · cases more : nextRound env header n operation deadline body s with
        | none =>
            rw [more] at mem
            cases mem
        | some next =>
            rw [more] at mem
            exact Nat.le_trans (le_nextRound more) (ih mem)

/-- At most one attempt begins late exactly if a late one is never followed by another. -/
theorem once_iff :
    (∀ rounds, ((attemptsFrom env header n operation deadline body rounds s).filter
        (Late env deadline ·)).length ≤ 1) ↔
      LateIsLast env header n operation deadline body s := by
  constructor
  · intro once rounds
    induction rounds generalizing s with
    | zero => exact nofun
    | succ rounds ih =>
        intro h mem late
        cases more : nextRound env header n operation deadline body s with
        | none =>
            rw [attemptsFrom, more] at mem
            obtain rfl := List.mem_singleton.1 mem
            exact more
        | some next =>
            rw [attemptsFrom, more] at mem
            obtain rfl | mem := List.mem_cons.1 mem
            · -- the attempt at `h` and the one after it would both be late
              have two := once 2
              have later := Late.mono (le_nextRound more) late
              simp [attemptsFrom, more, late, later] at two
            · refine ih (fun rounds => ?_) h mem late
              refine Nat.le_trans ?_ (once (rounds + 1))
              rw [attemptsFrom, more]
              exact (List.Sublist.filter _ (List.sublist_cons_self _ _)).length_le
  · intro last rounds
    induction rounds generalizing s with
    | zero => exact Nat.zero_le 1
    | succ rounds ih =>
        rw [attemptsFrom]
        by_cases late : Late env deadline s
        · rw [last (rounds + 1) s List.mem_cons_self late]
          exact List.length_filter_le _ [s]
        · rw [List.filter_cons_of_neg (by simpa using late)]
          cases more : nextRound env header n operation deadline body s with
          | none => exact Nat.zero_le 1
          | some next => exact ih (last.next more)

theorem run_waitLoop (rounds : Nat) :
    env.run (waitLoop header n operation deadline body (rounds + 1)) s =
      match env.run (waitRound header n operation deadline body) s with
      | (.ok (some a), m) => (.ok a, m)
      | (.ok none, m) => env.run (waitLoop header n operation deadline body rounds) m
      | (.error e, m) => (.error e, m) := by
  rw [waitLoop_succ, env.run_bind]
  generalize env.run (waitRound header n operation deadline body) s = outcome
  obtain ⟨x, m⟩ := outcome
  rcases x with e | _ | a <;> rfl

/-- Once the late attempt has been made, more rounds would not be used. -/
theorem returns_of_last {rounds : Nat}
    (last : LateIsLast env header n operation deadline body s)
    (late : ∃ h ∈ attemptsFrom env header n operation deadline body rounds s,
      Late env deadline h) (more : Nat) :
    env.run (waitLoop header n operation deadline body (rounds + more)) s =
      env.run (waitLoop header n operation deadline body rounds) s := by
  induction rounds generalizing s with
  | zero =>
      obtain ⟨h, mem, -⟩ := late
      cases mem
  | succ rounds ih =>
      rw [Nat.add_right_comm, run_waitLoop, run_waitLoop]
      generalize outcome : env.run (waitRound header n operation deadline body) s = x
      obtain ⟨x, m⟩ := x
      rcases x with e | _ | a
      · rfl
      · have next : nextRound env header n operation deadline body s = some m := by
          rw [nextRound, outcome]
        refine ih (last.next next) ?_
        obtain ⟨h, mem, late⟩ := late
        refine ⟨h, ?_, late⟩
        have ends := last (rounds + 1) h mem late
        rw [attemptsFrom, next] at mem
        obtain rfl | mem := List.mem_cons.1 mem
        · rw [next] at ends
          cases ends
        · exact mem
      · rfl

theorem prompt_iff (tries : body.AtMost ClaimsReadable maxReadRetries) :
    Prompt env header n operation deadline body s ↔
      ∀ rounds, ∀ h ∈ attemptsFrom env header n operation deadline body rounds s,
        Late env deadline h → ¬ InVain env n body h := by
  have calm : (∀ rounds, ∀ h ∈ attemptsFrom env header n operation deadline body rounds s,
      Late env deadline h → ¬ InVain env n body h) ↔
      LateIsLast env header n operation deadline body s := by
    refine forall_congr' fun rounds => forall_congr' fun h => forall_congr' fun _ => ?_
    exact forall_congr' fun late => (nextRound_late late).symm
  rw [calm]
  constructor
  · exact fun prompt => once_iff.1 prompt.once
  · exact fun last => ⟨tries, once_iff.2 last, fun _ late more => returns_of_last last late more⟩

/-- The first attempt of a wait that begins late is the only one that matters. -/
theorem prompt_iff_of_late (tries : body.AtMost ClaimsReadable maxReadRetries)
    (late : Late env deadline s) :
    Prompt env header n operation deadline body s ↔ ¬ InVain env n body s := by
  rw [prompt_iff tries]
  constructor
  · exact fun calm => calm 1 s List.mem_cons_self late
  · intro calm rounds h mem _
    cases rounds with
    | zero => cases mem
    | succ rounds =>
        rw [attemptsFrom, (nextRound_late late).2 calm] at mem
        rw [List.mem_singleton.1 mem]
        exact calm

theorem not_inVain_of_ends {p : ChannelCode α} (ends : p.Ends Final) (k : Nat) :
    ¬ InVain env n p k := by
  rintro ⟨e, m, failed, retry, _⟩
  exact env.run_of_ends ends k e (congrArg Prod.fst failed) retry

section
variable {stride tries : Nat} {handle : ConsumerHandle}

/-- A try that finds no unread sample ends the attempt. -/
theorem run_claimAttempt_of_read (handle : ConsumerHandle) (operation : String) (stride : Nat)
    (read : ¬ UnreadAt env n h) :
    env.run (claimAttempt n handle operation stride) h =
      (.error (makeError .noNewSample operation "no new sample"), h + 2) := by
  change env.run (if ticketAt env h = 0 ∨ ticketSequence (ticketAt env h) ≤
      (env.world (h + 1)).mem (consumerWord n .lastSequence) then
    (.throw _ : ChannelCode (Option ReadLoan)) else _) (h + 2) = _
  rw [if_pos (by unfold UnreadAt at read; omega)]
  rfl

/-- What a try does about an unread ticket. -/
def claimTicket (n : Nat) (handle : ConsumerHandle) (operation : String) (stride ticket : Nat) :
    ChannelCode (Option ReadLoan) :=
  match slotByteOffset (ticketSlot ticket) stride with
  | none => .throw (makeError .corruptSlot operation "ticket slot out of range")
  | some _ => do
      let claimed ← slotClaimReadable (ticketSlot ticket)
      if !claimed then return none
      else readClaimedSlot n handle operation (ticketSlot ticket)

theorem run_claimAttempt_of_unread (handle : ConsumerHandle) (operation : String) (stride : Nat)
    (unread : UnreadAt env n h) :
    env.run (claimAttempt n handle operation stride) h =
      env.run (claimTicket n handle operation stride (ticketAt env h)) (h + 2) := by
  change env.run (if ticketAt env h = 0 ∨ ticketSequence (ticketAt env h) ≤
      (env.world (h + 1)).mem (consumerWord n .lastSequence) then
    (.throw _ : ChannelCode (Option ReadLoan)) else _) (h + 2) = _
  rw [if_neg (by unfold UnreadAt at unread; omega)]
  rfl

/-- It is lost if the slot is not PUBLISHED. -/
theorem run_claimTicket_of_not_published (other : ¬ PublishedAt env h)
    (range : (slotByteOffset (ticketSlot (ticketAt env h)) stride).isSome) :
    env.run (claimTicket n handle operation stride (ticketAt env h)) (h + 2) =
      (.ok none, h + 3) := by
  obtain ⟨offset, found⟩ := Option.isSome_iff_exists.1 range
  rw [claimTicket, found]
  change env.run (if !(decide (PublishedAt env h)) then _ else _ : ChannelCode (Option ReadLoan))
    (h + 3) = _
  rw [decide_eq_false other]
  rfl

theorem run_claimTicket_of_published (published : PublishedAt env h)
    (range : (slotByteOffset (ticketSlot (ticketAt env h)) stride).isSome) :
    env.run (claimTicket n handle operation stride (ticketAt env h)) (h + 2) =
      env.run (readClaimedSlot n handle operation (ticketSlot (ticketAt env h))) (h + 3) := by
  obtain ⟨offset, found⟩ := Option.isSome_iff_exists.1 range
  rw [claimTicket, found]
  change env.run (if !(decide (PublishedAt env h)) then _ else _ : ChannelCode (Option ReadLoan))
    (h + 3) = _
  rw [decide_eq_true published]
  rfl

/-- It is lost, too, if another sample is the latest by then. -/
theorem run_readClaimedSlot_of_not_latest (other : ¬ LatestAt env h) :
    env.run (readClaimedSlot n handle operation (ticketSlot (ticketAt env h))) (h + 3) =
      (.ok none, h + 9) := by
  change env.run (if ¬ LatestAt env h then _ else _ : ChannelCode (Option ReadLoan)) (h + 7) = _
  rw [if_pos other]
  rfl

theorem run_readClaimedSlot_of_latest (latest : LatestAt env h) :
    env.run (readClaimedSlot n handle operation (ticketSlot (ticketAt env h))) (h + 3) =
      env.run (checkClaimedSlot n handle operation (ticketSlot (ticketAt env h)) >>=
        fun loan => return some loan) (h + 7) := by
  change env.run (if ¬ LatestAt env h then _ else _ : ChannelCode (Option ReadLoan)) (h + 7) = _
  rw [if_neg (not_not_intro latest)]

/-- The outcome of a try that ends the attempt, and the wait with it. -/
def Ended (x : Except Error (Option ReadLoan)) : Prop := x ≠ .ok none ∧ Final x

theorem ended_readClaimedSlot (n : Nat) (handle : ConsumerHandle) (operation : String)
    (latest : LatestAt env h) :
    Ended (env.run
      (readClaimedSlot n handle operation (ticketSlot (ticketAt env h))) (h + 3)).1 := by
  rw [run_readClaimedSlot_of_latest latest, env.run_bind]
  have final : Final
      (env.run (checkClaimedSlot n handle operation (ticketSlot (ticketAt env h))) (h + 7)).1 :=
    env.run_of_ends ends_checkClaimedSlot (h + 7)
  generalize env.run (checkClaimedSlot n handle operation (ticketSlot (ticketAt env h))) (h + 7) =
    outcome at final ⊢
  obtain ⟨x, m⟩ := outcome
  cases x with
  | ok loan => exact ⟨nofun, final_ok⟩
  | error e => exact ⟨nofun, final_error (final e rfl)⟩

theorem run_claimLoop_succ :
    env.run (claimLoop n handle operation stride (tries + 1)) h =
      match env.run (claimAttempt n handle operation stride) h with
      | (.ok (some loan), m) => (.ok loan, m)
      | (.ok none, m) => env.run (claimLoop n handle operation stride tries) m
      | (.error e, m) => (.error e, m) := by
  rw [claimLoop, env.run_bind]
  generalize env.run (claimAttempt n handle operation stride) h = outcome
  obtain ⟨x, m⟩ := outcome
  rcases x with e | _ | loan <;> rfl

theorem inVain_claimLoop_of_lost
    (lost : env.run (claimAttempt n handle operation stride) h = (.ok none, m)) :
    InVain env n (claimLoop n handle operation stride (tries + 1)) h ↔
      InVain env n (claimLoop n handle operation stride tries) m := by
  unfold InVain
  rw [run_claimLoop_succ, lost]

theorem not_inVain_claimLoop
    (ended : Ended (env.run (claimAttempt n handle operation stride) h).1) :
    ¬ InVain env n (claimLoop n handle operation stride (tries + 1)) h := by
  rintro ⟨e, k, failed, retry, -⟩
  rw [run_claimLoop_succ] at failed
  generalize env.run (claimAttempt n handle operation stride) h = outcome at ended failed
  obtain ⟨x, m⟩ := outcome
  rcases x with e' | _ | loan
  · cases failed
    exact ended.2 e rfl retry
  · exact ended.1 rfl
  · cases failed

/-- Whether the tries are made in vain is a matter of the words they find. -/
theorem inVain_claimLoop_iff :
    InVain env n (claimLoop n handle operation stride tries) h ↔
      Foiled env n stride tries h := by
  induction tries generalizing h with
  | zero =>
      constructor
      · rintro ⟨e, m, ⟨⟩, -, unread⟩
        exact unread
      · exact fun unread => ⟨_, h, rfl, .inr rfl, unread⟩
  | succ tries ih =>
      rw [Foiled]
      by_cases unread : UnreadAt env n h
      · have enters := run_claimAttempt_of_unread handle operation stride unread
        by_cases range : (slotByteOffset (ticketSlot (ticketAt env h)) stride).isSome
        · by_cases published : PublishedAt env h
          · rw [run_claimTicket_of_published published range] at enters
            by_cases latest : LatestAt env h
            · have ended := ended_readClaimedSlot n handle operation latest
              rw [← enters] at ended
              simp [not_inVain_claimLoop ended, unread, range, published, latest]
            · rw [run_readClaimedSlot_of_not_latest latest] at enters
              rw [inVain_claimLoop_of_lost enters, ih]
              simp [unread, range, published, latest]
          · rw [run_claimTicket_of_not_published published range] at enters
            rw [inVain_claimLoop_of_lost enters, ih]
            simp [unread, range, published]
        · have ended : Ended (env.run (claimAttempt n handle operation stride) h).1 := by
            rw [enters, claimTicket, Option.not_isSome_iff_eq_none.1 range]
            exact ⟨nofun, final_makeError _ (by decide)⟩
          simp [not_inVain_claimLoop ended, unread, range]
      · have last := run_claimAttempt_of_read handle operation stride unread
        constructor
        · rintro ⟨e, m, failed, -, later⟩
          rw [run_claimLoop_succ, last] at failed
          cases failed
          exact .inl ⟨unread, later⟩
        · rintro (⟨-, later⟩ | ⟨now, -⟩)
          · exact ⟨_, h + 2, by rw [run_claimLoop_succ, last], .inl rfl, later⟩
          · exact (unread now).elim

theorem inVain_claimLatestUnlocked_iff (operation : String) :
    InVain env n (claimLatestUnlocked n handle operation) h ↔ FoiledAttempt env n handle h := by
  unfold claimLatestUnlocked FoiledAttempt
  cases slotStride handle.payloadSize with
  | none =>
      refine iff_of_false ?_ (by rintro ⟨_, ⟨⟩, -⟩)
      apply not_inVain_of_ends
      exact final_makeError _ (by decide)
  | some stride =>
      simp only [Option.some.injEq, exists_eq_left']
      exact inVain_claimLoop_iff

/-- What a read does with the sample it has claimed is not tried again. -/
theorem inVain_tryReadLatestUnlocked_iff {encodedCap : Nat} :
    InVain env n (tryReadLatestUnlocked n handle encodedCap) h ↔
      FoiledAttempt env n handle h := by
  rw [← inVain_claimLatestUnlocked_iff "Consumer::try_read_latest"]
  unfold tryReadLatestUnlocked InVain
  rw [env.run_bind]
  generalize env.run (claimLatestUnlocked n handle "Consumer::try_read_latest") h = outcome
  obtain ⟨x, m⟩ := outcome
  cases x with
  | error e =>
      constructor
      · rintro ⟨_, _, ⟨⟩, again⟩
        exact ⟨e, m, rfl, again⟩
      · rintro ⟨_, _, ⟨⟩, again⟩
        exact ⟨e, m, rfl, again⟩
  | ok loan =>
      refine iff_of_false ?_ (by rintro ⟨_, _, ⟨⟩, -⟩)
      apply not_inVain_of_ends
      split
      · exact ends_releaseAndThrow (final_makeError _ (by decide))
      · exact Prog.ends_bind ends_copyFrom (fun _ _ _ _ => final_ok)
          fun e final => final_error (final e rfl)

theorem not_foiledAttempt_of_readable (unread : UnreadAt env n h) (published : PublishedAt env h)
    (latest : LatestAt env h) : ¬ FoiledAttempt env n handle h := by
  rintro ⟨stride, -, ⟨read, -⟩ | ⟨-, -, ⟨other, -⟩ | ⟨-, other, -⟩⟩⟩
  · exact read unread
  · exact other published
  · exact other latest

section
variable {ticket : Nat}

theorem JammedFrom.unreadAt (jam : JammedFrom env n handle ticket s) (le : s ≤ h) :
    UnreadAt env n h := by
  unfold UnreadAt
  rw [jam.latest h le]
  exact ⟨jam.nonzero, jam.unread (h + 1) (by omega)⟩

/-- No number of tries is enough. -/
theorem JammedFrom.foiled (jam : JammedFrom env n handle ticket s)
    (range : (slotByteOffset (ticketSlot ticket) stride).isSome) (le : s ≤ h) :
    Foiled env n stride tries h := by
  induction tries generalizing h with
  | zero => exact jam.unreadAt (by omega)
  | succ tries ih =>
      have slot : ticketAt env h = ticket := jam.latest h le
      refine .inr ⟨jam.unreadAt le, by rw [slot]; exact range, ?_⟩
      by_cases published : PublishedAt env h
      · refine .inr ⟨published, fun latest => ?_, ih (by omega)⟩
        unfold LatestAt at latest
        unfold PublishedAt at published
        rw [slot] at latest published
        rw [jam.latest (h + 6) (by omega)] at latest
        obtain never | never := jam.unreadable
        · exact never (h + 2) (by omega) published
        · exact never (h + 5) (by omega) latest
      · exact .inl ⟨published, ih (by omega)⟩

theorem JammedFrom.foiledAttempt (jam : JammedFrom env n handle ticket s) (le : s ≤ h) :
    FoiledAttempt env n handle h := by
  obtain ⟨stride, fits, range⟩ := jam.range
  exact ⟨stride, fits, jam.foiled range le⟩

/-- The loop makes one late attempt after the other. -/
theorem JammedFrom.length_attemptsFrom (jam : JammedFrom env n handle ticket s)
    (inVain : ∀ h, InVain env n body h ↔ FoiledAttempt env n handle h)
    (late : Late env deadline s) (le : s ≤ h) (rounds : Nat) :
    (attemptsFrom env header n operation deadline body rounds h).length = rounds := by
  induction rounds generalizing h with
  | zero => rfl
  | succ rounds ih =>
      have again : nextRound env header n operation deadline body h ≠ none := by
        rw [Ne, nextRound_late (late.mono le), not_not, inVain]
        exact jam.foiledAttempt le
      obtain ⟨next, more⟩ := Option.ne_none_iff_exists'.1 again
      rw [attemptsFrom, more, List.length_cons]
      exact congrArg (· + 1) (ih (Nat.le_trans le (le_nextRound more)))

end

/-- What becomes of the deadline of a wait, by the words its attempts find. -/
structure Punctual (env : Surroundings q.memory) (header : ChannelHeaderAbi) (n : Nat)
    (handle : ConsumerHandle) (operation : String) (deadline : Nat) (body : ChannelCode α)
    (s : Nat) : Prop where
  /-- The wait keeps to it exactly if no attempt made at or past it is foiled; -/
  prompt : Prompt env header n operation deadline body s ↔
    ∀ rounds, ∀ h ∈ attemptsFrom env header n operation deadline body rounds s,
      Late env deadline h → ¬ FoiledAttempt env n handle h
  /-- it does if the segment is never such that an attempt at or past it would be foiled; -/
  calm : (∀ h ≥ s, Late env deadline h → ¬ FoiledAttempt env n handle h) →
    Prompt env header n operation deadline body s
  /-- a wait that begins at or past it does exactly if its first attempt is not foiled; -/
  late : Late env deadline s →
    (Prompt env header n operation deadline body s ↔ ¬ FoiledAttempt env n handle s)
  /-- and in a jammed segment there is no end to it. -/
  jammed : ∀ ticket, JammedFrom env n handle ticket s → Late env deadline s → ∀ rounds,
    (attemptsFrom env header n operation deadline body rounds s).length = rounds

theorem punctual_of_inVain (tries : body.AtMost ClaimsReadable maxReadRetries)
    (inVain : ∀ h, InVain env n body h ↔ FoiledAttempt env n handle h) :
    Punctual env header n handle operation deadline body s where
  prompt := by
    simp only [← inVain]
    exact prompt_iff tries
  calm calm := by
    simp only [← inVain] at calm
    exact (prompt_iff tries).2 fun _ h mem late => calm h (le_of_mem_attemptsFrom mem) late
  late late := by
    rw [← inVain]
    exact prompt_iff_of_late tries late
  jammed _ jam late := jam.length_attemptsFrom inVain late (Nat.le_refl s)

/-- The waits for a sample and for a loan keep to their deadline exactly if no attempt made
at or past it is foiled by the words it finds. -/
theorem wait_prompt_iff {encodedCap : Nat} :
    Punctual env header n handle "Consumer::wait_latest" deadline
      (tryReadLatestUnlocked n handle encodedCap) s ∧
    Punctual env header n handle "Consumer::wait_loan_latest" deadline
      (claimLatestUnlocked n handle "Consumer::wait_loan_latest") s := by
  constructor
  · exact punctual_of_inVain atMost_tryReadLatestUnlocked fun _ =>
      inVain_tryReadLatestUnlocked_iff
  · exact punctual_of_inVain atMost_claimLatestUnlocked fun _ =>
      inVain_claimLatestUnlocked_iff _

end

end

/-- A peer has died and left the slot of the latest sample claimed for writing. -/
def stuckWorld : ChannelWorld :=
  { tiny.init fun _ _ => 0 with
    mem := (tiny.initialMem.set .latestTicket (makeTicket 1 0)).set (.slotState 0)
      SlotState.writing.code }

/-- Nobody touches the segment any more, and the clock has reached the deadline. -/
def stuck : Surroundings tiny.memory where
  world _ := stuckWorld
  time _ := 5
  monotone _ _ _ := Nat.le_refl 5
  clock _ := true
  boottime _ := 5
  liveness _ := .alive
  risen _ := 0
  locked _ := .ok ()

def stuckHandle : ConsumerHandle :=
  ⟨"c", .posixShm, 1, 2, 1, 1, List.replicate 32 1, 1, 1, 1000⟩

/-- A published sample that nobody has read yet. -/
def servedWorld : ChannelWorld :=
  { stuckWorld with
    mem := (stuckWorld.mem.set (.slotState 0) SlotState.published.code).set (.slotSequence 0) 1 }

def served : Surroundings tiny.memory := { stuck with world := fun _ => servedWorld }

/-- A wait that begins at its deadline and finds a sample is prompt. -/
theorem wait_prompt_iff_served :
    Late served 5 1 ∧ ¬ FoiledAttempt served 0 stuckHandle 1 ∧
      Prompt served tiny.header 0 "Consumer::wait_latest" 5
        (tryReadLatestUnlocked 0 stuckHandle 1) 1 := by
  have late : Late served 5 1 := Nat.le_refl 5
  have fine : ¬ FoiledAttempt served 0 stuckHandle 1 :=
    not_foiledAttempt_of_readable ⟨by decide, by decide⟩ (by decide) (by decide)
  exact ⟨late, fine, (wait_prompt_iff.1.late late).2 fine⟩

theorem jammedFrom_stuck (s : Nat) : JammedFrom stuck 0 stuckHandle (makeTicket 1 0) s where
  latest _ _ := rfl
  nonzero := by decide
  unread _ _ := show ticketSequence (makeTicket 1 0) > stuckWorld.mem _ by decide
  range := ⟨_, rfl, by decide⟩
  unreadable := .inl fun _ _ => show stuckWorld.mem (.slotState 0) ≠ _ by decide

/-- A wait with a zero timeout that makes one attempt after the other, all of them past
its deadline, and never returns. -/
theorem wait_never_returns :
    stuck.run (monotonicDeadlineNs 0 : ChannelCode Nat) 0 = (.ok 5, 1) ∧
      (∀ rounds s, (attemptsFrom stuck tiny.header 0 "Consumer::wait_latest" 5
        (tryReadLatestUnlocked 0 stuckHandle 1) rounds s).length = rounds) ∧
      (∀ h, Late stuck 5 h) ∧
      ¬ Prompt stuck tiny.header 0 "Consumer::wait_latest" 5
        (tryReadLatestUnlocked 0 stuckHandle 1) 1 := by
  have late : ∀ h, Late stuck 5 h := fun _ => Nat.le_refl 5
  have length : ∀ rounds s, (attemptsFrom stuck tiny.header 0 "Consumer::wait_latest" 5
      (tryReadLatestUnlocked 0 stuckHandle 1) rounds s).length = rounds := fun rounds s =>
    (jammedFrom_stuck s).length_attemptsFrom (fun _ => inVain_tryReadLatestUnlocked_iff)
      (late s) (Nat.le_refl s) rounds
  refine ⟨rfl, length, late, fun prompt => ?_⟩
  have once := prompt.once 2
  rw [List.filter_eq_self.2 fun h _ => decide_eq_true (late h), length] at once
  exact absurd once (by decide)

end ChannelSystem
end EdgeRuntime

import EdgeRuntime.Channel.Runs
import EdgeRuntime.Concurrent.Protocol

/-!
Waiting loses no wake-up. The producer owes a move of the notify epoch from the moment
it stores a new ticket, and a wake-up from the moment it moves the epoch. A consumer
falls asleep only on an epoch it loaded before it saw that the ticket is not new to it.
Both are matters of the order of one endpoint's own instructions, so the argument runs
over local protocols and the log of the sleepers.
-/
namespace EdgeRuntime
open Concurrent

/-- What an endpoint still owes to those who sleep. -/
inductive Debt
  | none
  | move
  | wake
  deriving DecidableEq, Repr

/-- How far an endpoint has come on its way to sleep; `e` is the epoch it loaded. -/
inductive WaitPhase
  | away
  | looked (e : Nat)
  /-- The ticket was loaded after the epoch. -/
  | saw (e ticket : Nat)
  /-- That ticket was not new. -/
  | checked (e : Nat)
  | asleep (e : Nat)
  deriving DecidableEq, Repr

structure Notice where
  debt : Debt
  phase : WaitPhase
  deriving DecidableEq, Repr

namespace ChannelSystem
variable {q : ChannelSystem} {t u : Endpoint} {w w' : ChannelWorld} {d : Notice} {n k : Nat}
  {α : Type}

/-- The words an endpoint may write without a word to the sleepers; the bootstrap record
is nobody's to write once the instance is READY. -/
def plainWord (t : Endpoint) : ChannelLoc → Prop
  | .latestTicket | .notifyEpoch | .bootInitState => False
  | .handle u _ => u = t
  | _ => True

/-- The instructions that say nothing to the sleepers. -/
def PlainInstr (t : Endpoint) : Instr ChannelLoc → Prop
  | .store l _ | .cas l _ _ | .fetchAdd l _ _ => plainWord t l
  | .load _ | .copyOut _ _ | .probe _ _ | .boottime | .monotonic | .lock | .unlock | .block =>
      True
  | .watch _ | .futexWake _ _ | .futexSleep _ _ | .futexRise => False

/-- The order in which an endpoint makes changes, announces them and falls asleep. -/
def noticeAllow (t : Endpoint) (d : Notice) (i : Instr ChannelLoc) : Prop :=
  match i with
  | .futexRise => True
  | _ => (∀ e, d.phase ≠ .asleep e) ∧
    match i with
    | .store .latestTicket _ => t = .producer ∧ d.debt = .none
    | .fetchAdd .notifyEpoch count bits => t = .producer ∧ count = 1 ∧ bits = 32
    | .futexWake _ _ => d.debt ≠ .move
    | .watch l => l = .notifyEpoch
    | .futexSleep l expected =>
        (∃ n, t = .consumer n) ∧ l = .notifyEpoch ∧ d.phase = .checked expected
    | i => PlainInstr t i

def nextDebt (d : Debt) : Instr ChannelLoc → Debt
  | .store .latestTicket _ => .move
  | .fetchAdd .notifyEpoch _ _ => .wake
  | .futexWake _ _ => .none
  | _ => d

def afterTicket (p : WaitPhase) (ticket : Nat) : WaitPhase :=
  match p with
  | .looked e => .saw e ticket
  | _ => .away

def afterLast (p : WaitPhase) (own : Bool) (last : Nat) : WaitPhase :=
  match p with
  | .saw e ticket => if own ∧ ticketSequence ticket ≤ last then .checked e else .away
  | _ => .away

def afterSleep (expected : Nat) (slept : Bool) : WaitPhase :=
  if slept then .asleep expected else .away

def nextPhase (t : Endpoint) (p : WaitPhase) : (i : Instr ChannelLoc) → Reply i → WaitPhase
  | .watch _, r => .looked r
  | .load .latestTicket, r => afterTicket p r
  | .load (.handle u .lastSequence), r => afterLast p (u = t) r
  | .monotonic, _ => p
  | .futexSleep _ expected, slept => afterSleep expected slept
  | _, _ => .away

/-- The protocol of an endpoint. -/
def noticeProtocol (t : Endpoint) : Protocol (Instr ChannelLoc) Reply Notice where
  allow := noticeAllow t
  next d i r := ⟨nextDebt d.debt i, nextPhase t d.phase i r⟩

/-- Awake and without debts. -/
def Rested (d : Notice) : Prop := d.debt = .none ∧ ∀ e, d.phase ≠ .asleep e

/-- What a phase says about the world. -/
def PhaseOk (w : ChannelWorld) (n : Nat) : WaitPhase → Prop
  | .away => True
  | .looked e => e = w.futex.looked (.consumer n) % 2 ^ 32
  | .saw e ticket => e = w.futex.looked (.consumer n) % 2 ^ 32 ∧
      (w.mem .latestTicket = ticket ∨ w.futex.Announced (w.futex.looked (.consumer n)))
  | .checked e | .asleep e => e = w.futex.looked (.consumer n) % 2 ^ 32 ∧
      (ticketSequence (w.mem .latestTicket) ≤ w.mem (consumerWord n .lastSequence) ∨
        w.futex.Announced (w.futex.looked (.consumer n)))

structure WakeInv (w : ChannelWorld) (d : Endpoint → Notice) : Prop where
  ready : w.mem .bootInitState = InitState.ready.code
  epoch : w.mem .notifyEpoch = w.futex.moves % 2 ^ 32
  heeded : w.futex.Heeded
  owesMove : ∀ t, w.futex.owesMove t = true ↔ (d t).debt = .move
  owesWake : ∀ t, w.futex.owesWake t = true ↔ (d t).debt = .wake
  producer : ∀ t, (d t).debt ≠ .none → t = .producer
  looked : ∀ t, w.futex.looked t ≤ w.futex.moves
  phases : ∀ n, PhaseOk w n (d (.consumer n)).phase
  sleepers : ∀ t k, w.futex.asleep t = some k →
    ∃ n e, t = .consumer n ∧ (d t).phase = .asleep e ∧ k % 2 ^ 32 = e ∧
      w.futex.looked t ≤ k

/-- How the world may move on for a consumer that is on its way to sleep. -/
structure Later (n : Nat) (w w' : ChannelWorld) : Prop where
  looked : w'.futex.looked (.consumer n) = w.futex.looked (.consumer n)
  last : w'.mem (consumerWord n .lastSequence) = w.mem (consumerWord n .lastSequence)
  latest : w'.mem .latestTicket = w.mem .latestTicket ∨
    ∀ k, k ≤ w.futex.moves → w'.futex.Announced k
  announced : ∀ k, k ≤ w.futex.moves → w.futex.Announced k → w'.futex.Announced k

theorem PhaseOk.later {p : WaitPhase} (h : PhaseOk w n p) (later : Later n w w')
    (old : w.futex.looked (.consumer n) ≤ w.futex.moves) : PhaseOk w' n p := by
  have keeps : ∀ {P P' : Prop}, (w'.mem .latestTicket = w.mem .latestTicket → P → P') →
      P ∨ w.futex.Announced (w.futex.looked (.consumer n)) →
      P' ∨ w'.futex.Announced (w'.futex.looked (.consumer n)) := by
    intro P P' same h
    rw [later.looked]
    rcases later.latest with latest | all
    · exact h.imp (same latest) (later.announced _ old)
    · exact .inr (all _ old)
  cases p with
  | away => trivial
  | looked e =>
      simp only [PhaseOk, later.looked]
      exact h
  | saw e ticket =>
      refine ⟨h.1.trans (by rw [later.looked]), keeps ?_ h.2⟩
      intro latest seen
      rw [latest]
      exact seen
  | checked e | asleep e =>
      refine ⟨h.1.trans (by rw [later.looked]), keeps ?_ h.2⟩
      intro latest old
      rw [latest, later.last]
      exact old

/-- Only the words and the log of the sleepers matter. -/
theorem Later.of_same (mem : w'.mem = w.mem) (futex : w'.futex = w.futex) : Later n w w' := by
  refine ⟨by rw [futex], by rw [mem], .inl (by rw [mem]), ?_⟩
  rw [futex]
  exact fun _ _ h => h

section
variable {d : Endpoint → Notice} {p : WaitPhase}

/-- A step that leaves the log of the sleepers and the ticket alone. -/
theorem WakeInv.quiet (h : WakeInv w d) (futex : w'.futex = w.futex)
    (boot : w'.mem .bootInitState = w.mem .bootInitState)
    (notify : w'.mem .notifyEpoch = w.mem .notifyEpoch)
    (latest : w'.mem .latestTicket = w.mem .latestTicket)
    (last : ∀ n, .consumer n ≠ t →
      w'.mem (consumerWord n .lastSequence) = w.mem (consumerWord n .lastSequence))
    (awake : ∀ e, (d t).phase ≠ .asleep e) (phase : ∀ n, t = .consumer n → PhaseOk w' n p) :
    WakeInv w' (Function.update d t ⟨(d t).debt, p⟩) := by
  have debt : ∀ u, (Function.update d t ⟨(d t).debt, p⟩ u).debt = (d u).debt := by
    intro u
    rw [Function.update_apply]
    split
    · rename_i hu
      rw [hu]
    · rfl
  constructor
  case ready => exact boot.trans h.ready
  case epoch => rw [notify, futex]; exact h.epoch
  case heeded => rw [futex]; exact h.heeded
  case owesMove => intro u; rw [futex, debt]; exact h.owesMove u
  case owesWake => intro u; rw [futex, debt]; exact h.owesWake u
  case producer => intro u; rw [debt]; exact h.producer u
  case looked => rw [futex]; exact h.looked
  case phases =>
      intro n
      rw [Function.update_apply]
      split
      · rename_i hn
        exact phase n hn.symm
      · rename_i hn
        refine (h.phases n).later ⟨by rw [futex], last n hn, .inl latest, ?_⟩ (h.looked _)
        rw [futex]
        exact fun _ _ h => h
  case sleepers =>
      intro u k hs
      rw [futex] at hs ⊢
      obtain ⟨n, e, hu, hp, rest⟩ := h.sleepers u k hs
      have hne : u ≠ t := by
        rintro rfl
        exact awake e hp
      rw [Function.update_of_ne hne]
      exact ⟨n, e, hu, hp, rest⟩

/-- Steps that do not even write. -/
theorem WakeInv.look (h : WakeInv w d) (awake : ∀ e, (d t).phase ≠ .asleep e)
    (phase : ∀ n, t = .consumer n → PhaseOk w n p) :
    WakeInv w (Function.update d t ⟨(d t).debt, p⟩) :=
  h.quiet rfl rfl rfl rfl (fun _ _ => rfl) awake phase

/-- A step of one endpoint in the log of the sleepers, apart from the debts. -/
theorem WakeInv.setFutex {log : FutexLog Endpoint} (h : WakeInv w d)
    (heeded : log.Heeded) (moves : log.moves = w.futex.moves)
    (owesMove : log.owesMove = w.futex.owesMove) (owesWake : log.owesWake = w.futex.owesWake)
    (looked : ∀ u, u ≠ t → log.looked u = w.futex.looked u)
    (recent : log.looked t ≤ w.futex.moves)
    (others : ∀ u, u ≠ t → log.asleep u = w.futex.asleep u)
    (self : ∀ k, log.asleep t = some k → ∃ n e, t = .consumer n ∧ p = .asleep e ∧
      k % 2 ^ 32 = e ∧ log.looked t ≤ k)
    (phase : ∀ n, t = .consumer n → PhaseOk (ChannelSystem.setFutex log w) n p) :
    WakeInv (ChannelSystem.setFutex log w) (Function.update d t ⟨(d t).debt, p⟩) := by
  have debt : ∀ u, (Function.update d t ⟨(d t).debt, p⟩ u).debt = (d u).debt := by
    intro u
    rw [Function.update_apply]
    split
    · rename_i hu
      rw [hu]
    · rfl
  have announced : ∀ k, w.futex.Announced k → log.Announced k := by
    intro k ha
    simp only [FutexLog.Announced, moves, owesMove]
    exact ha
  constructor
  case ready => exact h.ready
  case epoch => exact h.epoch.trans (congrArg (· % 2 ^ 32) moves.symm)
  case heeded => exact heeded
  case owesMove => intro u; rw [debt, ← h.owesMove u, ← owesMove]; rfl
  case owesWake => intro u; rw [debt, ← h.owesWake u, ← owesWake]; rfl
  case producer => intro u; rw [debt]; exact h.producer u
  case looked =>
      intro u
      change log.looked u ≤ log.moves
      rw [moves]
      by_cases hu : u = t
      · rw [hu]
        exact recent
      · rw [looked u hu]
        exact h.looked u
  case phases =>
      intro n
      rw [Function.update_apply]
      split
      · rename_i hn
        exact phase n hn.symm
      · rename_i hn
        refine (h.phases n).later ⟨looked _ hn, rfl, .inl rfl, ?_⟩ (h.looked _)
        exact fun k _ ha => announced k ha
  case sleepers =>
      intro u k hs
      have hs : log.asleep u = some k := hs
      by_cases hu : u = t
      · subst hu
        rw [Function.update_self]
        exact self k hs
      · rw [Function.update_of_ne hu]
        rw [others u hu] at hs
        obtain ⟨n, e, hn, hp, he, hl⟩ := h.sleepers u k hs
        refine ⟨n, e, hn, hp, he, ?_⟩
        change log.looked u ≤ k
        rw [looked u hu]
        exact hl

theorem WakeInv.watch (h : WakeInv w d) (awake : ∀ e, (d t).phase ≠ .asleep e) :
    WakeInv (ChannelSystem.setFutex (w.futex.look t) w)
      (Function.update d t ⟨(d t).debt, .looked (w.mem .notifyEpoch)⟩) := by
  have own : (w.futex.look t).looked t = w.futex.moves := by simp [FutexLog.look]
  refine h.setFutex (FutexLog.heeded_look h.heeded) rfl rfl rfl ?_ (Nat.le_of_eq own)
    (fun _ _ => rfl) ?_ ?_
  · exact fun u hu => Function.update_of_ne hu _ _
  · intro k hs
    obtain ⟨n, e, _, hp, _⟩ := h.sleepers t k hs
    exact (awake e hp).elim
  · rintro n rfl
    change w.mem .notifyEpoch = (w.futex.look (.consumer n)).looked (.consumer n) % 2 ^ 32
    rw [own]
    exact h.epoch

theorem WakeInv.sleep (h : WakeInv w d) {expected : Nat} (consumer : ∃ n, t = .consumer n)
    (checked : (d t).phase = .checked expected) (still : w.mem .notifyEpoch = expected) :
    WakeInv (ChannelSystem.setFutex (w.futex.sleep t) w)
      (Function.update d t ⟨(d t).debt, .asleep expected⟩) := by
  obtain ⟨n, rfl⟩ := consumer
  have phase := h.phases n
  rw [checked] at phase
  refine h.setFutex (FutexLog.heeded_sleep h.heeded) rfl rfl rfl (fun _ _ => rfl)
    (h.looked _) (fun u hu => Function.update_of_ne hu _ _) ?_ ?_
  · intro k hs
    have moved : w.futex.moves = k := by
      simpa [FutexLog.sleep] using hs
    refine ⟨n, expected, rfl, rfl, ?_, ?_⟩
    · rw [← moved, ← still]
      exact h.epoch.symm
    · rw [← moved]
      exact h.looked _
  · intro m hm
    cases hm
    exact phase

theorem WakeInv.rise (h : WakeInv w d) : WakeInv (ChannelSystem.setFutex (w.futex.rise t) w)
    (Function.update d t ⟨(d t).debt, .away⟩) := by
  refine h.setFutex (FutexLog.heeded_rise h.heeded) rfl rfl rfl (fun _ _ => rfl)
    (h.looked _) (fun u hu => Function.update_of_ne hu _ _) ?_ (fun _ _ => trivial)
  intro k hs
  simp [FutexLog.rise] at hs

/-- The wake-up pays the last debt. -/
theorem WakeInv.wake (h : WakeInv w d) (paid : (d t).debt ≠ .move) :
    WakeInv (ChannelSystem.setFutex (w.futex.wake t) w)
      (Function.update d t ⟨.none, .away⟩) := by
  constructor
  case ready => exact h.ready
  case epoch => exact h.epoch
  case heeded => exact FutexLog.heeded_wake
  case owesMove =>
      intro u
      rw [Function.update_apply]
      change w.futex.owesMove u = true ↔ _
      rw [h.owesMove]
      split
      · rename_i hu
        simp [hu, paid]
      · exact Iff.rfl
  case owesWake =>
      intro u
      change Function.update w.futex.owesWake t false u = true ↔ _
      rw [Function.update_apply, Function.update_apply]
      split
      · simp
      · exact h.owesWake u
  case producer =>
      intro u
      rw [Function.update_apply]
      split
      · exact fun hne => (hne rfl).elim
      · exact h.producer u
  case looked => exact h.looked
  case phases =>
      intro n
      rw [Function.update_apply]
      split
      · trivial
      · exact (h.phases n).later ⟨rfl, rfl, .inl rfl, fun _ _ ha => ha⟩ (h.looked _)
  case sleepers => exact fun u k hs => (nomatch hs)

/-- A new ticket: from now on the producer owes a move of the epoch. -/
theorem WakeInv.ticket (h : WakeInv w d) {v : Nat} (clear : (d .producer).debt = .none) :
    WakeInv (write .producer .latestTicket v w)
      (Function.update d .producer ⟨.move, .away⟩) := by
  constructor
  case ready =>
      have same : (write .producer .latestTicket v w).mem .bootInitState =
          w.mem .bootInitState := by
        simp [write]
      exact same.trans h.ready
  case epoch =>
      have same : (write .producer .latestTicket v w).mem .notifyEpoch = w.mem .notifyEpoch := by
        simp [write]
      exact same.trans h.epoch
  case heeded => exact FutexLog.heeded_change h.heeded
  case owesMove =>
      intro u
      change Function.update w.futex.owesMove .producer true u = true ↔ _
      rw [Function.update_apply, Function.update_apply]
      split
      · simp
      · exact h.owesMove u
  case owesWake =>
      intro u
      change w.futex.owesWake u = true ↔ _
      rw [h.owesWake, Function.update_apply]
      split
      · rename_i hu
        simp [hu, clear]
      · exact Iff.rfl
  case producer =>
      intro u
      rw [Function.update_apply]
      split
      · exact fun _ => ‹_›
      · exact h.producer u
  case looked => exact h.looked
  case phases =>
      intro n
      rw [Function.update_of_ne (by simp)]
      refine (h.phases n).later ⟨rfl, ?_, .inr ?_, ?_⟩ (h.looked _)
      · simp [write, consumerWord]
      · exact fun k _ => FutexLog.announced_change
      · exact fun k _ _ => FutexLog.announced_change
  case sleepers =>
      intro u k hs
      obtain ⟨n, e, rfl, rest⟩ := h.sleepers u k hs
      rw [Function.update_of_ne (by simp)]
      exact ⟨n, e, rfl, rest⟩

/-- The move of the epoch: what was changed is announced. -/
theorem WakeInv.move (h : WakeInv w d) :
    WakeInv (write .producer .notifyEpoch ((w.mem .notifyEpoch + 1) % 2 ^ 32) w)
      (Function.update d .producer ⟨.wake, .away⟩) := by
  constructor
  case ready =>
      have same : (write .producer .notifyEpoch ((w.mem .notifyEpoch + 1) % 2 ^ 32) w).mem
          .bootInitState = w.mem .bootInitState := by
        simp [write]
      exact same.trans h.ready
  case epoch =>
      change (w.mem.set .notifyEpoch ((w.mem .notifyEpoch + 1) % 2 ^ 32)) .notifyEpoch =
        (w.futex.moves + 1) % 2 ^ 32
      rw [Words.set_apply, if_pos rfl, h.epoch, Nat.mod_add_mod]
  case heeded => exact FutexLog.heeded_move
  case owesMove =>
      intro u
      change Function.update w.futex.owesMove .producer false u = true ↔ _
      rw [Function.update_apply, Function.update_apply]
      split
      · simp
      · exact h.owesMove u
  case owesWake =>
      intro u
      change Function.update w.futex.owesWake .producer true u = true ↔ _
      rw [Function.update_apply, Function.update_apply]
      split
      · simp
      · exact h.owesWake u
  case producer =>
      intro u
      rw [Function.update_apply]
      split
      · exact fun _ => ‹_›
      · exact h.producer u
  case looked => exact fun u => Nat.le_succ_of_le (h.looked u)
  case phases =>
      intro n
      rw [Function.update_of_ne (by simp)]
      refine (h.phases n).later ⟨rfl, ?_, .inl ?_, ?_⟩ (h.looked _)
      · simp [write, consumerWord]
      · simp [write]
      · exact fun k old _ => FutexLog.announced_move old
  case sleepers =>
      intro u k hs
      obtain ⟨n, e, rfl, rest⟩ := h.sleepers u k hs
      rw [Function.update_of_ne (by simp)]
      exact ⟨n, e, rfl, rest⟩

/-- A word the sleepers do not wait for. -/
theorem WakeInv.write {l : ChannelLoc} {v : Nat} (h : WakeInv w d) (plain : plainWord t l)
    (awake : ∀ e, (d t).phase ≠ .asleep e) :
    WakeInv (ChannelSystem.write t l v w) (Function.update d t ⟨(d t).debt, .away⟩) := by
  have other : ∀ l', l' ≠ l → (ChannelSystem.write t l v w).mem l' = w.mem l' := by
    intro l' hne
    simp [ChannelSystem.write, hne]
  refine h.quiet ?_ (other _ ?_) (other _ ?_) (other _ ?_) ?_ awake (fun _ _ => trivial)
  · cases l with
    | latestTicket | notifyEpoch | bootInitState => exact plain.elim
    | _ => rfl
  · rintro rfl
    exact plain
  · rintro rfl
    exact plain
  · rintro rfl
    exact plain
  · intro n hne
    apply other
    rintro rfl
    exact hne plain

theorem nextDebt_of_plain {i : Instr ChannelLoc} (plain : PlainInstr t i) (debt : Debt) :
    nextDebt debt i = debt := by
  cases i with
  | store l v =>
      cases l with
      | latestTicket => exact plain.elim
      | _ => rfl
  | fetchAdd l count bits =>
      cases l with
      | notifyEpoch => exact plain.elim
      | _ => rfl
  | watch | futexWake | futexSleep | futexRise => exact plain.elim
  | _ => rfl

/-- What a load adds to what is known of the ticket. -/
theorem phaseOk_load {l : ChannelLoc} (h : PhaseOk w n p) :
    PhaseOk w n (nextPhase (.consumer n) p (.load l) (w.mem l)) := by
  cases l with
  | latestTicket =>
      cases p with
      | looked e => exact ⟨h, .inl rfl⟩
      | away | saw | checked | asleep => trivial
  | handle u word =>
      cases word with
      | lastSequence =>
          cases p with
          | saw e ticket =>
              simp only [nextPhase, afterLast]
              split
              · rename_i old
                obtain ⟨own, old⟩ := old
                refine ⟨h.1, h.2.imp_left ?_⟩
                intro latest
                have own : u = .consumer n := by simpa using own
                rw [latest, consumerWord, ← own]
                exact old
              · trivial
          | away | looked | checked | asleep => trivial
      | _ => trivial
  | _ => trivial

/-- Every instruction the protocol allows keeps the invariant. -/
theorem wake_op {i : Instr ChannelLoc} {r : Reply i} (h : WakeInv w d)
    (allowed : noticeAllow t (d t) i) (exec : q.memory.exec t i w r w') :
    WakeInv w' (Function.update d t ((noticeProtocol t).next (d t) i r)) := by
  cases i with
  | load l =>
      obtain ⟨rfl, rfl⟩ := exec
      refine h.look allowed.1 ?_
      rintro n rfl
      exact phaseOk_load (h.phases n)
  | store l v =>
      obtain rfl : w' = _ := exec
      cases l with
      | latestTicket =>
          obtain ⟨_, rfl, clear⟩ := allowed
          exact h.ticket clear
      | _ => exact h.write allowed.2 allowed.1
  | cas l expected desired =>
      obtain ⟨_, rfl⟩ := exec
      split
      · exact h.write allowed.2 allowed.1
      · exact h.look allowed.1 fun _ _ => trivial
  | fetchAdd l count bits =>
      obtain ⟨_, rfl⟩ := exec
      cases l with
      | notifyEpoch =>
          obtain ⟨_, rfl, rfl, rfl⟩ := allowed
          exact h.move
      | _ => exact h.write allowed.2 allowed.1
  | copyOut j v =>
      obtain rfl : w' = _ := exec
      exact h.quiet rfl rfl rfl rfl (fun _ _ => rfl) allowed.1 fun _ _ => trivial
  | probe pid ticks =>
      obtain ⟨_, rfl⟩ := exec
      exact h.look allowed.1 fun _ _ => trivial
  | boottime =>
      obtain rfl : w' = w := exec
      exact h.look allowed.1 fun _ _ => trivial
  | monotonic =>
      obtain rfl : w' = w := exec
      refine h.look allowed.1 ?_
      rintro n rfl
      exact h.phases n
  | watch l =>
      obtain ⟨rfl, rfl⟩ := exec
      obtain ⟨awake, rfl⟩ := allowed
      exact h.watch awake
  | futexWake l count =>
      obtain rfl : w' = _ := exec
      exact h.wake allowed.2
  | futexSleep l expected =>
      obtain ⟨awake, consumer, rfl, checked⟩ := allowed
      obtain ⟨rfl, rfl⟩ := exec
      split
      · rename_i still
        have slept : nextPhase t (d t).phase (.futexSleep .notifyEpoch expected)
            (decide (q.memory.read w .notifyEpoch = expected)) = .asleep expected := by
          simp only [nextPhase, decide_eq_true still]
          rfl
        simp only [noticeProtocol, slept]
        exact h.sleep consumer checked still
      · rename_i moved
        have missed : nextPhase t (d t).phase (.futexSleep .notifyEpoch expected)
            (decide (q.memory.read w .notifyEpoch = expected)) = .away := by
          simp only [nextPhase, decide_eq_false moved]
          rfl
        simp only [noticeProtocol, missed]
        exact h.look awake fun _ _ => trivial
  | futexRise =>
      obtain rfl : w' = _ := exec
      exact h.rise
  | lock =>
      have same : w'.mem = w.mem ∧ w'.futex = w.futex := by
        cases r with
        | error e =>
            obtain rfl : w' = w := exec
            exact ⟨rfl, rfl⟩
        | ok _ =>
            have taken : (if w.lock = none then some (setLock (some t) w) else none) =
              some w' := exec
            split at taken
            · cases taken
              exact ⟨rfl, rfl⟩
            · cases taken
      exact h.quiet same.2 (by rw [same.1]) (by rw [same.1]) (by rw [same.1])
        (fun _ _ => by rw [same.1])
        allowed.1 fun _ _ => trivial
  | unlock =>
      obtain rfl : w' = _ := exec
      exact h.quiet rfl rfl rfl rfl (fun _ _ => rfl) allowed.1 fun _ _ => trivial
  | block => exact exec.elim

end

end ChannelSystem
end EdgeRuntime

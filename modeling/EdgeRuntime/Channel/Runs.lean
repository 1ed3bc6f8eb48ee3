import EdgeRuntime.Channel.Opening
import EdgeRuntime.Channel.ProducerCalls
import EdgeRuntime.Concurrent.Schedule

/-!
Runs of a channel. The calls of the producer and of the consumers have been verified
against what the others may do; here they are put together, and the invariant holds in
every state a created channel can reach, wherever its processes die.
-/
namespace EdgeRuntime
open Concurrent

/-- A configuration of a channel and its endpoints. -/
abbrev ChannelConfig : Type :=
  Config Endpoint (Instr ChannelLoc) Reply Error ChannelResult ChannelCall ChannelWorld

abbrev ChannelEvent : Type :=
  Event Endpoint (Instr ChannelLoc) Reply Error ChannelResult ChannelCall

namespace ChannelSystem
variable {q : ChannelSystem} {s s' : ChannelState} {t : Endpoint} {n i : Nat}
  {c c' : ChannelConfig} {e : ChannelEvent} {out : Endpoint → Nat → Nat}

/-- What an endpoint knows between two calls. -/
def EndpointIdle : Endpoint → ChannelState → Prop
  | .producer => ProducerIdle
  | .consumer n => ConsumerIdle n

variable (q) in
/-- The proof outline of the channel. -/
def outline (ok : ChannelWorld → ChannelEvent → Prop) : Outline q.machine ok q.logic where
  idle := EndpointIdle
  idle_stable t := by
    cases t with
    | producer => exact producerIdle_stable
    | consumer n => exact consumerIdle_stable
  exec_sound _ _ _ _ _ h _ := h
  call_sound t a s hi idle allowed _ := by
    cases t with
    | producer => exact producer_call_sound (fun _ h => h) hi idle allowed
    | consumer n => exact consumer_call_sound (fun _ h => h) hi idle allowed
  crash_sound t s hi _ := ⟨_, rfl, inv_crash hi, guar_crash⟩

variable (q) in
/-- The proof state of a channel that was just created. -/
def freshState (out : Endpoint → Nat → Nat) : ChannelState := ⟨q.init out, none, none, none⟩

theorem inv_freshState (out : Endpoint → Nat → Nat) : q.Inv (q.freshState out) := by
  have unread : ∀ i, ¬ Readable (q.freshState out).mem i := by
    intro i hr
    rcases hr with hr | hr | hr <;> cases hr
  refine ⟨?_, ?_, ?_⟩
  · refine ⟨rfl, Nat.zero_le _, fun i _ => Nat.zero_le _, .inl ⟨rfl, rfl⟩, ?_, ?_, ?_⟩
    · exact fun i _ hr => (unread i hr).elim
    · exact fun i sample h => (nomatch h)
    · exact fun i _ hh => (unread i (.inr hh)).elim
  · exact ⟨fun _ => rfl, .inl rfl, (nomatch ·), fun _ => rfl, fun _ h => (nomatch h),
      fun _ h => (h rfl).elim, Nat.zero_le _, fun _ _ => .inl rfl, fun _ h => (nomatch h),
      fun _ _ h => (nomatch h)⟩
  · exact ⟨fun _ => List.mem_singleton.2 rfl, fun _ _ h => (nomatch h),
      fun _ => ⟨.nil, fun _ h => (nomatch h)⟩, fun _ h => (nomatch h)⟩

theorem idle_freshState (out : Endpoint → Nat → Nat) (t : Endpoint) :
    EndpointIdle t (q.freshState out) := by
  cases t with
  | producer =>
      refine ⟨_, [], none, (q.freshState out).mem, ⟨rfl, rfl, rfl, rfl, fun _ _ => rfl, ?_⟩,
        ⟨rfl, rfl⟩, rfl⟩
      exact fun i => ⟨fun h => (nomatch h), fun h => (nomatch h)⟩
  | consumer n => exact ⟨_, ⟨rfl, rfl⟩, rfl, rfl⟩

/-- Every configuration a run reaches is covered by the outline. -/
theorem covers_reach {ok : ChannelWorld → ChannelEvent → Prop}
    (run : q.machine.Reach ok (q.machine.start (q.init out)) c) : (q.outline ok).Covers c :=
  (q.outline ok).covers_reach run
    ⟨q.freshState out, rfl, inv_freshState out, idle_freshState out⟩

/-- What the actor of a step guarantees the others. -/
theorem guar_step (run : q.machine.Reach (fun _ _ => True) (q.machine.start (q.init out)) c)
    (next : q.machine.Step c e c') : ∃ s s' : ChannelState, s.world = c.world ∧
      s'.world = c'.world ∧ q.Inv s ∧ q.Inv s' ∧ q.logic.guar e.actor s s' :=
  (q.outline _).guar_step trivial next (covers_reach run)

/-- A channel for one byte, whose consumers all live in one process. -/
def tiny : ChannelSystem where
  options := ⟨"c", 100, 1000, true, .posixShm, 0⟩
  schema := ⟨List.replicate 32 1, 1⟩
  payloadSize := 1
  mapping := 832
  generation := 1
  nonceHi := 1
  nonceLo := 1
  self
    | .producer => ⟨1, 1, 1, 1⟩
    | .consumer _ => ⟨2, 1, 1, 1⟩
  self_valid e := by cases e <;> rfl
  valid := by decide +kernel
  mapping_eq := by decide +kernel

instance (t : Endpoint) (a : ChannelCall) (w : ChannelWorld) :
    Decidable (tiny.machine.allowed t a w) := inferInstanceAs (Decidable (_ = _))

/-- What the system answers an opener of that channel. -/
def tinyEnvironment : OpenEnvironment :=
  ⟨none, none, false, .ok (1, 1, 832), none, none, .ok 0, .ok (1, 1), ⟨0, 0, 0, 0⟩⟩

def tinyOpen : ChannelCall := .openConsumer tinyEnvironment tiny.options tiny.schema 1

/-- The configuration a schedule of the endpoints leads to. -/
def tinyRun (ok : ChannelWorld → ChannelEvent → Prop) [∀ w e, Decidable (ok w e)]
    (moves : List (Move Endpoint ChannelCall)) : Option ChannelConfig :=
  tiny.machine.play ok (tiny.memory.answer (fun _ _ _ => .alive) fun _ => 5)
    (tiny.machine.start (tiny.init fun _ _ => 0)) moves

theorem tinyRun_reach (ok : ChannelWorld → ChannelEvent → Prop) [∀ w e, Decidable (ok w e)]
    {moves : List (Move Endpoint ChannelCall)} (h : tinyRun ok moves = some c) :
    tiny.machine.Reach ok (tiny.machine.start (tiny.init fun _ _ => 0)) c := by
  refine Machine.reach_play (tiny.memory.answer_exec ?_) h
  intro w pid ticks dead
  rcases dead with dead | dead <;> cases dead

/-- One call from its start to its return. -/
def whole (t : Endpoint) (a : ChannelCall) : List (Move Endpoint ChannelCall) :=
  [.call t a, .run t 200, .ret t]

/-- A consumer borrows the first sample; another open and a second publish follow. -/
def tinyLoan : List (Move Endpoint ChannelCall) :=
  whole .producer (.publish [7]) ++ whole (.consumer 0) tinyOpen ++
    whole (.consumer 0) .tryLoan ++ whole (.consumer 1) tinyOpen ++
    whole .producer (.publish [8])

/-- The sample in the slot of a loan that is in use. -/
theorem LoanInv.sample {loan : ReadLoan} (hi : q.Inv s) (h : LoanInv s n loan) :
    ∃ sample ∈ s.world.committed, loan.snapshot.sampleSequence = sample.sequence ∧
      loan.snapshot.publishBootNs = sample.publishBootNs ∧
      loanBytes s.mem loan.slotIndex loan.snapshot.encodedSize = sample.payload := by
  obtain ⟨sample, holds, origin⟩ :=
    hi.slots.content loan.slotIndex h.slot (.inr (.inr h.state))
  have sequence := h.sequence.symm.trans holds.sequence
  have mem : sample ∈ s.world.committed := by
    rcases origin with mem | staged
    · exact mem
    · -- a staged sample is newer than everything committed
      have new := (hi.slots.staged _ sample staged).2
      have old := h.old
      omega
  refine ⟨sample, mem, sequence, h.bootNs.symm.trans holds.bootNs, ?_⟩
  rw [← h.size, holds.size]
  exact holds.payload

/-- The latest-value register: samples are numbered without gap, a finished call reports
one committed sample that was latest while it ran, the sequences a handle receives
increase, a borrowed slot shows its sample, and no step changes a sample being read. -/
theorem latest_value_register
    (run : q.machine.Reach (fun _ _ => True) (q.machine.start (q.init out)) c) :
    c.world.committed.map (·.sequence) = List.range' 1 c.world.committed.length ∧
    (∀ r ∈ c.world.finished, ReturnOk c.world.committed r) ∧
    (∀ n, (c.world.client (.consumer n)).delivered.Pairwise (· < ·)) ∧
    (∀ n loan, (c.world.client (.consumer n)).readLoan = some loan →
      c.world.crashed (.consumer n) = false →
      (c.world.client (.consumer n)).call ≠ some .release →
      ∃ sample ∈ c.world.committed, loan.snapshot.sampleSequence = sample.sequence ∧
        loan.snapshot.publishBootNs = sample.publishBootNs ∧
        loanBytes c.world.mem loan.slotIndex loan.snapshot.encodedSize = sample.payload) ∧
    ∀ e c', q.machine.Step c e c' → ∀ i l, HeldCode (c.world.mem (.slotState i)) →
      l.dataSlot? = some i → c'.world.mem l = c.world.mem l := by
  obtain ⟨s, hs, hi, _⟩ := covers_reach run
  have hs : s.world = c.world := hs
  refine ⟨?_, ?_, ?_, ?_, ?_⟩
  · rw [← hs]
    exact hi.slots.numbered
  · rw [← hs]
    exact hi.clients.finished
  · rw [← hs]
    exact fun n => (hi.clients.delivered n).1
  · rw [← hs]
    intro n loan hl ha hc
    exact (hi.clients.loans n loan hl ha hc).sample hi
  · intro e c' next i l held word
    obtain ⟨s₁, s₂, h₁, h₂, _, _, guar⟩ := guar_step run next
    rw [← h₁] at held ⊢
    rw [← h₂]
    exact guar.2 i l held word

theorem latest_value_register_tiny :
    ∃ c, tinyRun (fun _ _ => True) tinyLoan = some c ∧
      (c.world.client (.consumer 0)).delivered = [1] ∧
      c.world.committed.map (·.sequence) = List.range' 1 c.world.committed.length := by
  have delivered : (tinyRun (fun _ _ => True) tinyLoan).map
      (fun c => (c.world.client (.consumer 0)).delivered) = some [1] := by decide +kernel
  obtain ⟨c, hc, hd⟩ := Option.map_eq_some_iff.1 delivered
  exact ⟨c, hc, hd, (latest_value_register (tinyRun_reach _ hc)).1⟩

/-- The slot search of the producer never comes back empty: a call that fails has failed one
of its checks, and a loan that is in use has its slot. -/
theorem noWritableSlot_unreachable
    (run : q.machine.Reach (fun _ _ => True) (q.machine.start (q.init out)) c) :
    (∀ r ∈ c.world.finished, r.endpoint = .producer → ∀ e, r.result = .error e →
      e.code ≠ .noWritableSlot ∧ FailsCheck e) ∧
    (c.thread .producer = .idle → ∀ loan, (c.world.client .producer).writeLoan = some loan →
      c.world.mem (.slotState loan.slotIndex) = SlotState.writing.code) := by
  obtain ⟨s, hs, hi, threads⟩ := covers_reach run
  have hs : s.world = c.world := hs
  rw [← hs]
  constructor
  · intro r hr producer e failed
    have ok := hi.clients.finished r hr
    simp only [ReturnOk, failed] at ok
    have failed := ok.2 producer
    exact ⟨failed.code_ne, failed⟩
  · intro idle loan lent
    have rest := threads .producer
    rw [idle] at rest
    obtain ⟨client, h, claimed, f, writer, lends, -⟩ : ProducerIdle s := rest
    rw [← writer.client, lent] at lends
    exact (writer.claimed loan.slotIndex).2 lends.1

/-- While the loan of the consumer is out and another slot holds the latest sample, the
producer borrows the third. -/
theorem noWritableSlot_unreachable_tiny :
    ∃ c loan, tinyRun (fun _ _ => True) (tinyLoan ++ whole .producer .loan) = some c ∧
      (c.world.client .producer).writeLoan = some loan ∧ loan.slotIndex = 2 ∧
      (c.world.finished.map fun r => (r.endpoint, r.result.isOk)) =
        [(.producer, true), (.consumer 0, true), (.consumer 0, true), (.consumer 1, false),
          (.producer, true), (.producer, true)] ∧
      c.world.mem (.slotState 2) = SlotState.writing.code := by
  have ran : (tinyRun (fun _ _ => True) (tinyLoan ++ whole .producer .loan)).map (fun c =>
      ((c.thread .producer).isIdle, (c.world.client .producer).writeLoan,
        c.world.finished.map fun r => (r.endpoint, r.result.isOk))) =
      some (true, some ⟨2, 1, 3⟩, [(.producer, true), (.consumer 0, true), (.consumer 0, true),
        (.consumer 1, false), (.producer, true), (.producer, true)]) := by decide +kernel
  obtain ⟨c, hc, shown⟩ := Option.map_eq_some_iff.1 ran
  obtain ⟨idle, lent, results⟩ : (c.thread .producer).isIdle = true ∧
      (c.world.client .producer).writeLoan = some ⟨2, 1, 3⟩ ∧
      (c.world.finished.map fun r => (r.endpoint, r.result.isOk)) = _ := by simpa using shown
  have writing := (noWritableSlot_unreachable (tinyRun_reach _ hc)).2
    (Thread.eq_idle_of_isIdle idle) _ lent
  exact ⟨c, _, hc, lent, rfl, results, writing⟩

/-- A live consumer handle is registered with the instance. -/
structure Attached (w : ChannelWorld) (n : Nat) : Prop where
  alive : w.crashed (.consumer n) = false
  online : w.mem .consumerState = EndpointState.online.code
  handle : ∃ h, (w.client (.consumer n)).handle = some h ∧
    h.roleEpoch = w.mem (.identity false .roleEpoch)

/-- A read loan is in use: handed out, and its release not begun. -/
structure Lent (w : ChannelWorld) (n : Nat) (loan : ReadLoan) : Prop where
  alive : w.crashed (.consumer n) = false
  loan : (w.client (.consumer n)).readLoan = some loan
  unreleased : (w.client (.consumer n)).call ≠ some .release

theorem Attached.reader (h : Attached s.world n) (hi : q.Inv s) : s.reader = some n := by
  obtain ⟨handle, hs, epoch⟩ := h.handle
  exact (hi.registry.handles n handle hs).2 epoch h.online

/-- What no step of another endpoint changes while a consumer is the reader: who is
registered, and the slots being read. -/
structure ReaderKept (w w' : ChannelWorld) : Prop where
  state : w'.mem .consumerState = w.mem .consumerState
  identity : ∀ word, w'.mem (.identity false word) = w.mem (.identity false word)
  slots : ∀ i, HeldCode (w.mem (.slotState i)) →
    w'.mem (.slotState i) = w.mem (.slotState i) ∧
      ∀ l, l.dataSlot? = some i → w'.mem l = w.mem l

theorem readerKept_of_rely (reader : s.reader = some n)
    (alive : s.world.crashed (.consumer n) = false) (hr : Rely (.consumer n) s s') :
    ReaderKept s.world s'.world := by
  have keeper : s.Keeper (.consumer n) := .inl ⟨n, rfl, reader, alive⟩
  refine ⟨hr.words _ (.registry keeper rfl), fun _ => hr.words _ (.registry keeper rfl), ?_⟩
  intro i held
  exact ⟨hr.words _ (.heldState keeper held), fun l hl => hr.words l (.heldData keeper held hl)⟩

/-- Nobody else receives a handle while a consumer is the reader. -/
theorem handles_of_guar (reader : s.reader = some n)
    (alive : s.world.crashed (.consumer n) = false) (guar : q.logic.guar t s s') {m : Nat}
    (hne : m ≠ n) {h : ConsumerHandle}
    (hs : (s'.world.client (.consumer m)).handle = some h) :
    (s.world.client (.consumer m)).handle = some h := by
  by_cases ht : t = .consumer n
  · have same := (guar.1 (.consumer m) (by rw [ht]; simpa using hne)).client
    rw [← same]
    exact hs
  · have keeper : s.Keeper (.consumer n) := .inl ⟨n, rfl, reader, alive⟩
    exact ((guar.1 (.consumer n) (Ne.symm ht)).keeper keeper).handles m h hs

/-- A single live consumer: at most one live handle is registered, no step of another
endpoint takes its registration or its slots away, and while a loan is in use no other
open succeeds. -/
theorem single_live_consumer
    (run : q.machine.Reach (fun _ _ => True) (q.machine.start (q.init out)) c) :
    (∀ n m, Attached c.world n → Attached c.world m → n = m) ∧
    (∀ e c', q.machine.Step c e c' → ∀ n, Attached c.world n → e.actor ≠ .consumer n →
      Attached c'.world n ∧ ReaderKept c.world c'.world) ∧
    ∀ e c', q.machine.Step c e c' → ∀ n loan, Lent c.world n loan →
      (e.actor ≠ .consumer n → ReaderKept c.world c'.world) ∧
      ∀ m h, m ≠ n → (c'.world.client (.consumer m)).handle = some h →
        (c.world.client (.consumer m)).handle = some h := by
  refine ⟨?_, ?_, ?_⟩
  · obtain ⟨s, hs, hi, _⟩ := covers_reach run
    intro n m hn hm
    have hs : s.world = c.world := hs
    rw [← hs] at hn hm
    exact Option.some.inj ((hn.reader hi).symm.trans (hm.reader hi))
  · intro e c' next n attached other
    obtain ⟨s₁, s₂, h₁, h₂, hi, _, guar⟩ := guar_step run next
    rw [← h₁] at attached ⊢
    rw [← h₂]
    have rely := guar.1 (.consumer n) (Ne.symm other)
    have same := readerKept_of_rely (attached.reader hi) attached.alive rely
    obtain ⟨handle, hs, epoch⟩ := attached.handle
    refine ⟨⟨rely.crashed.trans attached.alive, same.state.trans attached.online, handle, ?_,
      ?_⟩, same⟩
    · rw [rely.client]
      exact hs
    · rw [same.identity]
      exact epoch
  · intro e c' next n loan lent
    obtain ⟨s₁, s₂, h₁, h₂, hi, _, guar⟩ := guar_step run next
    rw [← h₁] at lent ⊢
    rw [← h₂]
    have reader := (hi.clients.loans n loan lent.loan lent.alive lent.unreleased).reader
    constructor
    · exact fun other => readerKept_of_rely reader lent.alive (guar.1 _ (Ne.symm other))
    · exact fun m h hne hs => handles_of_guar reader lent.alive guar hne hs

theorem single_live_consumer_tiny :
    ∃ c, tinyRun (fun _ _ => True) tinyLoan = some c ∧
      (c.world.client (.consumer 0)).readLoan.isSome = true ∧
      ∀ n m, Attached c.world n → Attached c.world m → n = m := by
  have lent : (tinyRun (fun _ _ => True) tinyLoan).map
      (fun c => (c.world.client (.consumer 0)).readLoan.isSome) = some true := by
    decide +kernel
  obtain ⟨c, hc, hl⟩ := Option.map_eq_some_iff.1 lent
  exact ⟨c, hc, hl, (single_live_consumer (tinyRun_reach _ hc)).1⟩

end ChannelSystem
end EdgeRuntime

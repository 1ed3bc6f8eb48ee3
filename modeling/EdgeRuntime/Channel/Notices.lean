import EdgeRuntime.Channel.Wakeups

/-!
Every call follows the protocol of its endpoint: nearly all code says nothing to the
sleepers; a publish announces its ticket before it returns, and the waiting loops load
the epoch before they look at the ticket.
-/
namespace EdgeRuntime
open Concurrent

namespace ChannelSystem
variable {q : ChannelSystem} {t : Endpoint} {d : Notice} {n i : Nat} {α β : Type}
  {handle : ConsumerHandle} {operation : String} {l : ChannelLoc} {v : Nat}

/-- Code that says nothing to the sleepers. -/
abbrev Plain (t : Endpoint) (p : ChannelCode α) : Prop := p.All (PlainInstr t)

theorem plain_reads {p : ChannelCode α} (h : p.All Memory.Reads) : Plain t p := by
  refine h.mono ?_
  intro i hi
  cases i with
  | load | probe | boottime | monotonic | block => trivial
  | _ => exact hi.elim

theorem plain_load {k : Nat → ChannelCode α} (h : ∀ v, Plain t (k v)) :
    Plain t (sharedLoad l >>= k) := ⟨trivial, h⟩

theorem plain_boottime {k : Nat → ChannelCode α} (h : ∀ v, Plain t (k v)) :
    Plain t (boottimeNowNs >>= k) := ⟨trivial, h⟩

theorem plain_store {k : Unit → ChannelCode α} (word : plainWord t l) (h : Plain t (k ())) :
    Plain t (sharedStore l v >>= k) := ⟨word, fun _ => h⟩

theorem plain_cas {expected desired : Nat} {k : Bool → ChannelCode α} (word : plainWord t l)
    (h : ∀ swapped, Plain t (k swapped)) : Plain t (sharedCas l expected desired >>= k) :=
  ⟨word, h⟩

theorem plain_exchange {k : Bool → ChannelCode α} (word : plainWord t l)
    (h : ∀ busy, Plain t (k busy)) : Plain t (flagExchange l >>= k) :=
  ⟨word, fun swapped => h !swapped⟩

theorem plain_fetchAdd {count bits : Nat} {k : Nat → ChannelCode α} (word : plainWord t l)
    (h : ∀ v, Plain t (k v)) : Plain t (sharedFetchAdd l count bits >>= k) := ⟨word, h⟩

theorem plain_bind {p : ChannelCode α} {k : α → ChannelCode β} (hp : Plain t p)
    (h : ∀ a, Plain t (k a)) : Plain t (p >>= k) := Prog.all_bind hp h

theorem plain_attempt {p : ChannelCode α} {k : Except Error α → ChannelCode β}
    (hp : Plain t p) (h : ∀ x, Plain t (k x)) : Plain t ((p.attempt : ChannelCode _) >>= k) :=
  Prog.all_bind (Prog.all_attempt hp) h

theorem plain_lift {x : Except Error α} {k : α → ChannelCode β} (h : ∀ a, Plain t (k a)) :
    Plain t (Prog.lift x >>= k) := Prog.all_bind (Prog.all_lift x) h

theorem plain_withControlLock {body : ChannelCode α} (h : Plain t body) :
    Plain t (withControlLock body) := by
  refine ⟨trivial, fun acquired => plain_lift fun _ => plain_attempt h fun x => ?_⟩
  exact ⟨trivial, fun _ => Prog.all_lift x⟩

theorem plain_copyIn {dst : Nat → ChannelLoc} (word : ∀ j, plainWord t (dst j)) {j : Nat}
    {bytes : List Nat} : Plain t (copyIn dst j bytes) := by
  induction bytes generalizing j with
  | nil => trivial
  | cons b bs ih => exact plain_store (word j) ih

theorem plain_copyFrom {src : Nat → ChannelLoc} {j size : Nat} :
    Plain t (copyFrom src j size) := by
  induction size generalizing j with
  | zero => trivial
  | succ size ih => exact plain_load fun _ => ⟨trivial, fun _ => ih⟩

theorem plain_slotReleaseRead : Plain t (slotReleaseRead i) :=
  plain_store trivial ⟨trivial, fun _ => trivial⟩

theorem plain_fnv1a64From {src : Nat → ChannelLoc} {j size hash : Nat} :
    Plain t (fnv1a64From src j size hash : ChannelCode Nat) := by
  induction size generalizing j hash with
  | zero => trivial
  | succ size ih => exact plain_load fun _ => ih

section Consumer

theorem plain_markConsumerOffline : Plain t (markConsumerOffline handle) := by
  refine plain_attempt (plain_reads (reads_identitySnapshotRead false)) fun seen => ?_
  cases seen with
  | error e => trivial
  | ok id =>
      dsimp only
      split
      · trivial
      · exact ⟨trivial, fun _ => trivial⟩

theorem plain_serviceConsumerShutdown :
    Plain (.consumer n) (serviceConsumerShutdown n handle) := by
  refine plain_load fun pending => ?_
  split
  · trivial
  refine plain_cas rfl fun idle => ?_
  split
  · trivial
  refine plain_cas rfl fun first => plain_bind ?_ fun _ => ⟨rfl, fun _ => trivial⟩
  cases first with
  | true => exact plain_markConsumerOffline
  | false => trivial

theorem plain_releaseConsumerLoanOperation :
    Plain (.consumer n) (releaseConsumerLoanOperation n handle) :=
  plain_store rfl plain_serviceConsumerShutdown

theorem plain_acceptSample {size sequence publishNs receiveNs : Nat} :
    Plain (.consumer n) (acceptSample n handle i size sequence publishNs receiveNs) :=
  plain_load fun _ => plain_load fun _ => plain_store rfl <| plain_store rfl <|
    plain_fetchAdd trivial fun _ => trivial

theorem plain_releaseAndThrow {e : Error} :
    Plain t (releaseAndThrow i e : ChannelCode α) :=
  plain_bind plain_slotReleaseRead fun _ => trivial

theorem plain_checkClaimedSlot : Plain (.consumer n) (checkClaimedSlot n handle operation i) := by
  refine plain_load fun size => plain_load fun sequence => plain_load fun publishNs =>
    plain_load fun expected => ?_
  split
  · exact plain_releaseAndThrow
  refine plain_boottime fun receiveNs => ?_
  split
  · exact plain_releaseAndThrow
  refine plain_bind plain_fnv1a64From fun actual => ?_
  split
  · exact plain_releaseAndThrow
  · exact plain_acceptSample

theorem plain_claimAttempt {stride : Nat} :
    Plain (.consumer n) (claimAttempt n handle operation stride) := by
  refine plain_load fun ticket => plain_load fun last => ?_
  split
  · trivial
  cases slotByteOffset (ticketSlot ticket) stride with
  | none => trivial
  | some _ =>
      refine plain_cas trivial fun claimed => ?_
      split
      · trivial
      refine plain_store trivial <| plain_store trivial <| plain_load fun sequence =>
        plain_load fun latest => ?_
      split
      · exact plain_bind plain_slotReleaseRead fun _ => trivial
      · exact plain_bind plain_checkClaimedSlot fun _ => trivial

theorem plain_claimLatestUnlocked :
    Plain (.consumer n) (claimLatestUnlocked n handle operation) := by
  rw [claimLatestUnlocked]
  cases slotStride handle.payloadSize with
  | none => trivial
  | some stride =>
      change Plain _ (claimLoop n handle operation stride maxReadRetries)
      generalize maxReadRetries = attempts
      induction attempts with
      | zero => trivial
      | succ attempts ih =>
          refine plain_bind plain_claimAttempt fun claimed => ?_
          cases claimed with
          | none => exact ih
          | some loan => trivial

theorem plain_tryReadLatestUnlocked {encodedCap : Nat} :
    Plain (.consumer n) (tryReadLatestUnlocked n handle encodedCap) := by
  refine plain_bind plain_claimLatestUnlocked fun claimed => ?_
  split
  · exact plain_releaseAndThrow
  · exact plain_bind plain_copyFrom fun _ => plain_bind plain_slotReleaseRead fun _ => trivial

theorem plain_withConsumerUse {body : ChannelCode α} (h : Plain (.consumer n) body) :
    Plain (.consumer n) (withConsumerUse n operation body) := by
  refine plain_exchange rfl fun busy => ?_
  split
  · trivial
  · exact plain_attempt h fun x => plain_store rfl (Prog.all_lift x)

theorem plain_withConsumerLoan {body : ChannelCode ReadLoan} (h : Plain (.consumer n) body) :
    Plain (.consumer n) (withConsumerLoan n handle operation body) := by
  refine plain_exchange rfl fun busy => ?_
  split
  · trivial
  refine plain_attempt h fun x => ?_
  cases x with
  | ok loan => trivial
  | error e => exact plain_bind plain_releaseConsumerLoanOperation fun _ => trivial

theorem plain_consumerReleaseLoanImpl {loan : Option ReadLoan} :
    Plain (.consumer n) (consumerReleaseLoanImpl n handle loan) := by
  cases loan with
  | none => trivial
  | some loan => exact plain_bind plain_slotReleaseRead fun _ => plain_releaseConsumerLoanOperation

theorem plain_reclaimSlot {epoch : Nat} : Plain t (reclaimSlot epoch i) := by
  have release : ∀ (refuse : Nat → Prop) [DecidablePred refuse] (e : Error),
      Plain t (do
        let epoch ← sharedLoad (.slotReaderEpoch i)
        if refuse epoch then .throw e else slotReleaseRead i) := by
    intro refuse _ e
    refine plain_load fun v => ?_
    split
    · trivial
    · exact plain_slotReleaseRead
  refine plain_load fun state => ?_
  split
  · exact release (fun v => v ≠ 0 ∧ v ≠ epoch) _
  split
  · exact release (fun v => v ≠ epoch) _
  · trivial

theorem plain_reclaimDeadConsumerSlots {epoch payloadSize : Nat} :
    Plain t (reclaimDeadConsumerSlots payloadSize epoch) := by
  rw [reclaimDeadConsumerSlots]
  cases slotStride payloadSize with
  | none => trivial
  | some stride =>
      change Plain t (reclaimSlots epoch stride (List.range slotCount))
      generalize List.range slotCount = slots
      induction slots with
      | nil => trivial
      | cons i rest ih =>
          rw [reclaimSlots]
          cases slotByteOffset i stride with
          | none => trivial
          | some _ => exact plain_bind plain_reclaimSlot fun _ => ih

theorem plain_registerConsumer {self : ProcessIdentity} {payloadSize : Nat} :
    Plain t (registerConsumer self payloadSize) := by
  refine plain_attempt (plain_reads (reads_identitySnapshotRead false)) fun seen => ?_
  cases seen with
  | error e => trivial
  | ok old =>
      refine plain_load fun state => ?_
      split
      · trivial
      refine plain_bind ?_ fun _ => plain_bind ?_ fun _ => plain_store trivial trivial
      · rw [evictOldConsumer]
        split
        · trivial
        refine plain_load fun state => ?_
        split
        · trivial
        refine ⟨trivial, fun verdict => ?_⟩
        cases verdict with
        | alive | unverifiable => trivial
        | exited | pidReused => exact plain_reclaimDeadConsumerSlots
      · refine plain_load fun cur => ?_
        split
        · trivial
        split
        · trivial
        exact plain_store trivial <| plain_store trivial <| plain_store trivial <|
          plain_store trivial <| plain_store trivial <| plain_store trivial trivial

theorem plain_openWith {segment : ChannelSegment} {env : OpenEnvironment}
    {self : ProcessIdentity} {start : ChannelCode Unit} {options : ChannelOptions}
    {schema : SchemaDescriptor} {payloadSize : Nat} (h : Plain t start) :
    Plain t (openWith segment env self start options schema payloadSize) := by
  refine plain_lift fun _ => plain_lift fun _ => plain_lift fun object => ?_
  change Plain t (openMapped segment env self start options schema payloadSize _ _ _)
  rw [openMapped]
  split
  · trivial
  refine plain_lift fun _ => plain_load fun state => plain_lift fun _ => plain_load fun again => ?_
  split
  · trivial
  refine plain_lift fun _ => plain_withControlLock ?_
  exact plain_lift fun _ => plain_lift fun _ => plain_bind plain_registerConsumer fun _ =>
    plain_bind h fun _ => trivial

theorem plain_initConsumerHandle : Plain (.consumer n) (initConsumerHandle n) :=
  plain_store rfl <| plain_store rfl <| plain_store rfl <| plain_store rfl <|
    plain_store (k := .ret) rfl trivial

theorem plain_consumerReconnectImpl {segment : ChannelSegment} {self : ProcessIdentity}
    {target : ReconnectTarget} :
    Plain (.consumer n) (consumerReconnectImpl segment self n handle target) := by
  refine plain_withConsumerUse (plain_bind ?_ fun fresh =>
    plain_bind plain_markConsumerOffline fun _ => ?_)
  · cases target with
    | same env => exact plain_openWith trivial
    | other outcome => exact Prog.all_lift outcome
  · cases target with
    | same env => exact plain_store rfl <| plain_store rfl trivial
    | other outcome => trivial

end Consumer

section Producer
variable {handle : ProducerHandle} {header : ChannelHeaderAbi}

theorem plain_serviceProducerShutdown : Plain .producer (serviceProducerShutdown handle) := by
  refine plain_load fun pending => ?_
  split
  · trivial
  refine plain_cas rfl fun idle => ?_
  split
  · trivial
  refine plain_cas rfl fun first => plain_bind ?_ fun _ => ⟨rfl, fun _ => trivial⟩
  cases first with
  | false => trivial
  | true =>
      refine plain_attempt (plain_reads (reads_identitySnapshotRead true)) fun seen => ?_
      cases seen with
      | error e => trivial
      | ok id =>
          dsimp only
          split
          · trivial
          refine plain_store trivial ?_
          split
          · trivial
          · exact plain_attempt (plain_withControlLock trivial) fun _ => trivial

theorem plain_releaseProducerLoanOperation :
    Plain .producer (releaseProducerLoanOperation handle) :=
  plain_store rfl plain_serviceProducerShutdown

theorem plain_findWritableSlot {current : Nat} :
    Plain t (findWritableSlot handle operation current) := by
  rw [findWritableSlot]
  cases slotStride handle.payloadSize with
  | none => trivial
  | some stride =>
      refine plain_bind ?_ fun chosen => ?_
      · generalize (if current = 0 then invalidSlot else ticketSlot current) = currentSlot
        generalize List.range slotCount = slots
        induction slots with
        | nil => trivial
        | cons i rest ih =>
            rw [claimWritableSlot]
            split
            · exact ih
            cases slotByteOffset i stride with
            | none => exact ih
            | some _ =>
                refine plain_load fun observed => ?_
                split
                · exact ih
                refine plain_cas trivial fun claimed => ?_
                split
                · trivial
                · exact ih
      · cases chosen <;> trivial

theorem plain_verifyHandleOwnership :
    Plain t (verifyHandleOwnership header handle operation) :=
  plain_reads (reads_verifyHandleOwnership ..)

theorem plain_heartbeatUnlocked : Plain t (heartbeatUnlocked header handle) := by
  rw [heartbeatUnlocked]
  split
  · trivial
  refine plain_bind plain_verifyHandleOwnership fun _ => plain_boottime fun now => ?_
  split
  · trivial
  · exact ⟨trivial, fun _ => trivial⟩

theorem plain_loanUnlocked : Plain t (loanUnlocked header handle) := by
  refine plain_bind plain_verifyHandleOwnership fun _ => plain_load fun current => ?_
  cases checkedNextSequence current with
  | none => trivial
  | some sequence => exact plain_bind plain_findWritableSlot fun _ => trivial

theorem plain_producerLoanImpl : Plain .producer (producerLoanImpl header handle) := by
  refine plain_exchange rfl fun busy => ?_
  split
  · trivial
  refine plain_attempt plain_loanUnlocked fun x => ?_
  cases x with
  | ok loan => trivial
  | error e => exact plain_store rfl trivial

theorem plain_producerAbortLoanImpl {loan : Option WriteLoan} :
    Plain .producer (producerAbortLoanImpl handle loan) := by
  cases loan with
  | none => trivial
  | some loan => exact plain_store trivial plain_releaseProducerLoanOperation

end Producer

/-- Plain instructions are always in order, and leave no debt. -/
theorem rested_plain {i : Instr ChannelLoc} (rested : Rested d) (plain : PlainInstr t i) :
    (noticeProtocol t).allow d i ∧ ∀ r, Rested ((noticeProtocol t).next d i r) := by
  obtain ⟨clear, awake⟩ := rested
  have debt : nextDebt d.debt i = .none := by rw [nextDebt_of_plain plain, clear]
  cases i with
  | load l =>
      refine ⟨⟨awake, plain⟩, fun r => ⟨debt, ?_⟩⟩
      cases l with
      | latestTicket =>
          change ∀ e, afterTicket d.phase r ≠ .asleep e
          unfold afterTicket
          split <;> simp
      | handle u word =>
          cases word with
          | lastSequence =>
              change ∀ e, afterLast d.phase (u = t) r ≠ .asleep e
              unfold afterLast
              split
              · split <;> simp
              · simp
          | _ => simp [noticeProtocol, nextPhase]
      | _ => simp [noticeProtocol, nextPhase]
  | store l v =>
      cases l with
      | latestTicket => exact plain.elim
      | _ => exact ⟨⟨awake, plain⟩, fun _ => ⟨debt, by simp [noticeProtocol, nextPhase]⟩⟩
  | fetchAdd l count bits =>
      cases l with
      | notifyEpoch => exact plain.elim
      | _ => exact ⟨⟨awake, plain⟩, fun _ => ⟨debt, by simp [noticeProtocol, nextPhase]⟩⟩
  | monotonic => exact ⟨⟨awake, plain⟩, fun _ => ⟨debt, awake⟩⟩
  | watch | futexWake | futexSleep | futexRise => exact plain.elim
  | cas | copyOut | probe | boottime | lock | unlock | block =>
      exact ⟨⟨awake, plain⟩, fun _ => ⟨debt, by simp [noticeProtocol, nextPhase]⟩⟩

theorem follows_plain {p : ChannelCode α} (h : Plain t p) (rested : Rested d) :
    p.Follows (noticeProtocol t) (fun _ => Rested) d :=
  Prog.follows_all (fun _ _ rested plain => rested_plain rested plain) h rested

/-- Plain code first, then code that may speak. -/
theorem follows_plain_seq {p : ChannelCode α} {k : α → ChannelCode β} (h : Plain t p)
    (rested : Rested d)
    (next : ∀ a d, Rested d → (k a).Follows (noticeProtocol t) (fun _ => Rested) d) :
    (p >>= k).Follows (noticeProtocol t) (fun _ => Rested) d :=
  Prog.follows_seq (follows_plain h rested) (fun a d rested => next a d rested)
    fun _ _ rested => rested

/-- Code that may speak first, then plain code. -/
theorem follows_seq_plain {p : ChannelCode α} {k : α → ChannelCode β}
    (h : p.Follows (noticeProtocol t) (fun _ => Rested) d) (next : ∀ a, Plain t (k a)) :
    (p >>= k).Follows (noticeProtocol t) (fun _ => Rested) d :=
  Prog.follows_seq h (fun a _ rested => follows_plain (next a) rested) fun _ _ rested => rested

section Producer
variable {handle : ProducerHandle} {header : ChannelHeaderAbi}

/-- The ticket is announced and the sleepers are woken before the call goes on. -/
theorem follows_announceSample {sequence publishNs : Nat} (rested : Rested d) :
    (announceSample handle i sequence publishNs).Follows (noticeProtocol .producer)
      (fun _ => Rested) d := by
  obtain ⟨clear, awake⟩ := rested
  have away : ∀ e, WaitPhase.away ≠ .asleep e := by simp
  refine ⟨⟨awake, trivial⟩, fun _ => ⟨⟨away, rfl, clear⟩, fun _ => ?_⟩⟩
  refine ⟨⟨away, trivial⟩, fun _ => ⟨⟨away, trivial⟩, fun _ => ?_⟩⟩
  refine ⟨⟨away, rfl, rfl, rfl⟩, fun _ => ⟨⟨away, ?_⟩, fun _ => ⟨rfl, away⟩⟩⟩
  change Debt.wake ≠ .move
  simp

theorem follows_publishUnlocked {encoded : List Nat} (rested : Rested d) :
    (publishUnlocked header handle encoded).Follows (noticeProtocol .producer)
      (fun _ => Rested) d := by
  rw [publishUnlocked]
  split
  · exact rested
  refine follows_plain_seq plain_verifyHandleOwnership rested fun _ d rested => ?_
  refine follows_plain_seq (plain_load (k := .ret) fun _ => trivial) rested
    fun current d rested => ?_
  cases checkedNextSequence current with
  | none => exact rested
  | some sequence =>
      refine follows_plain_seq (plain_boottime (k := .ret) fun _ => trivial) rested
        fun publishNs d rested => ?_
      split
      · exact rested
      refine follows_plain_seq plain_findWritableSlot rested fun i d rested => ?_
      have word : ∀ j, plainWord .producer (.slotPayload i j) := fun _ => trivial
      have filled : Plain .producer (do
          sharedStore (.slotPayloadSize i) encoded.length
          sharedStore (.slotSequence i) sequence
          sharedStore (.slotPublishBootNs i) publishNs
          copyIn (.slotPayload i) 0 encoded
          sharedStore (.slotChecksum i) (fnv1a64 encoded)) :=
        plain_store trivial <| plain_store trivial <| plain_store trivial <|
          plain_bind (plain_copyIn word) fun _ =>
            ⟨trivial, fun _ => trivial⟩
      have split : publishInto handle i sequence publishNs encoded = (do
          sharedStore (.slotPayloadSize i) encoded.length
          sharedStore (.slotSequence i) sequence
          sharedStore (.slotPublishBootNs i) publishNs
          copyIn (.slotPayload i) 0 encoded
          sharedStore (.slotChecksum i) (fnv1a64 encoded)) >>= fun _ =>
            announceSample handle i sequence publishNs := by
        simp only [publishInto, Prog.bind_assoc]
      rw [split]
      exact follows_plain_seq filled rested fun _ d rested => follows_announceSample rested

theorem follows_producerPublishImpl {encoded : List Nat} (rested : Rested d) :
    (producerPublishImpl header handle encoded).Follows (noticeProtocol .producer)
      (fun _ => Rested) d := by
  refine follows_plain_seq (plain_exchange (k := .ret) rfl fun _ => trivial) rested
    fun busy d rested => ?_
  split
  · exact rested
  refine Prog.follows_attempt_seq (follows_publishUnlocked rested) fun x d rested => ?_
  exact follows_plain (plain_store rfl (Prog.all_lift x)) rested

theorem follows_commitUnlocked {loan : WriteLoan} (rested : Rested d) :
    (commitUnlocked header handle loan).Follows (noticeProtocol .producer)
      (fun _ => Rested) d := by
  refine follows_plain_seq plain_verifyHandleOwnership rested fun _ d rested => ?_
  refine follows_plain_seq (plain_boottime (k := .ret) fun _ => trivial) rested
    fun publishNs d rested => ?_
  split
  · exact rested
  refine follows_plain_seq plain_fnv1a64From rested fun checksum d rested => ?_
  refine follows_plain_seq (plain_store (k := .ret) trivial trivial) rested fun _ d rested => ?_
  refine follows_plain_seq (plain_store (k := .ret) trivial trivial) rested fun _ d rested => ?_
  refine follows_plain_seq (plain_store (k := .ret) trivial trivial) rested fun _ d rested => ?_
  refine follows_plain_seq (plain_store (k := .ret) trivial trivial) rested fun _ d rested => ?_
  exact follows_announceSample rested

theorem follows_producerCommitLoanImpl {loan : Option WriteLoan} (rested : Rested d) :
    (producerCommitLoanImpl header handle loan).Follows (noticeProtocol .producer)
      (fun _ => Rested) d := by
  cases loan with
  | none => exact rested
  | some loan =>
      refine Prog.follows_attempt_seq (follows_commitUnlocked rested) fun x d rested => ?_
      cases x with
      | ok info =>
          exact follows_plain (plain_bind plain_releaseProducerLoanOperation fun _ => trivial)
            rested
      | error e =>
          exact follows_plain (plain_store trivial <|
            plain_bind plain_releaseProducerLoanOperation fun _ => trivial) rested

end Producer

section Consumer
variable {header : ChannelHeaderAbi} {deadline : Nat}

/-- Looking at the clock changes nothing. -/
theorem follows_remainingTimeNs (awake : ∀ e, d.phase ≠ .asleep e) :
    (remainingTimeNs deadline).Follows (noticeProtocol t) (fun _ d' => d' = d) d := by
  refine ⟨⟨awake, trivial⟩, fun (now : Nat) => ?_⟩
  change Prog.Follows _ _ (if now = 0 then _ else _) d
  split
  · rfl
  split <;> rfl

/-- A consumer that has checked the ticket may fall asleep on the epoch it loaded. -/
theorem follows_futexWait {expected : Nat} {k : Int → ChannelCode α} (clear : d.debt = .none)
    (checked : d.phase = .checked expected)
    (next : ∀ errnoValue d, Rested d →
      (k errnoValue).Follows (noticeProtocol (.consumer n)) (fun _ => Rested) d) :
    (futexWait .notifyEpoch expected >>= k).Follows (noticeProtocol (.consumer n))
      (fun _ => Rested) d := by
  have awake : ∀ e, d.phase ≠ .asleep e := by simp [checked]
  refine ⟨⟨awake, ⟨n, rfl⟩, rfl, checked⟩, fun slept => ?_⟩
  cases slept with
  | true =>
      refine ⟨trivial, fun errnoValue => next errnoValue _ ⟨clear, ?_⟩⟩
      exact fun e he => nomatch he
  | false => exact next eagain _ ⟨clear, fun e he => nomatch he⟩

/-- The epoch is loaded first, then the ticket; only an old one leads to sleep. -/
theorem follows_waitForNotice (rested : Rested d) :
    (waitForNotice header n operation deadline).Follows (noticeProtocol (.consumer n))
      (fun _ => Rested) d := by
  obtain ⟨clear, awake⟩ := rested
  have fails : ∀ {d}, Rested d → (failWaitTimeout header operation : ChannelCode Unit).Follows
      (noticeProtocol (.consumer n)) (fun _ => Rested) d :=
    fun rested => follows_plain (plain_reads reads_failWaitTimeout) rested
  refine ⟨⟨awake, rfl⟩, fun (expected : Nat) => ?_⟩
  refine ⟨⟨fun e he => (nomatch he), trivial⟩, fun (ticket : Nat) => ?_⟩
  refine ⟨⟨fun e he => (nomatch he), trivial⟩, fun (last : Nat) => ?_⟩
  change Prog.Follows _ _ (if ticket ≠ 0 ∧ ticketSequence ticket > last then _ else _)
    (⟨d.debt, afterLast (.saw expected ticket) (Endpoint.consumer n = .consumer n) last⟩ :
      Notice)
  split
  · rename_i new
    refine ⟨clear, ?_⟩
    simp [afterLast, Nat.not_le_of_lt new.2]
  · rename_i old
    have old : ticketSequence ticket ≤ last := by
      by_cases absent : ticket = 0
      · rw [absent]
        exact Nat.zero_le last
      · exact Nat.le_of_not_lt fun new => old ⟨absent, new⟩
    have checked : afterLast (.saw expected ticket) (Endpoint.consumer n = .consumer n) last =
        .checked expected := by simp [afterLast, old]
    rw [checked]
    refine Prog.follows_seq (follows_remainingTimeNs (by simp)) ?_ ?_
    · rintro remaining _ rfl
      split
      · exact fails ⟨clear, by simp⟩
      · refine follows_futexWait clear rfl fun errnoValue d rested => ?_
        split
        · exact rested
        split
        · exact fails rested
        · exact rested
    · rintro e _ rfl
      exact ⟨clear, by simp⟩

theorem follows_waitLoop {body : ChannelCode α} {rounds : Nat} (h : Plain (.consumer n) body)
    (rested : Rested d) :
    (waitLoop header n operation deadline body rounds).Follows (noticeProtocol (.consumer n))
      (fun _ => Rested) d := by
  induction rounds generalizing d with
  | zero => exact ⟨⟨rested.2, trivial⟩, fun _ => ⟨rested.1, by simp [noticeProtocol, nextPhase]⟩⟩
  | succ rounds ih =>
      refine Prog.follows_attempt_seq (follows_plain h rested) fun x d rested => ?_
      cases x with
      | ok a => exact rested
      | error e =>
          dsimp only
          split
          · exact rested
          · exact Prog.follows_seq (follows_waitForNotice rested) (fun _ d rested => ih rested)
              fun _ _ rested => rested

theorem follows_waitUntil {body : ChannelCode α} {timeoutNs rounds : Nat}
    (h : Plain (.consumer n) body) (rested : Rested d) :
    (waitUntil header n operation timeoutNs rounds body).Follows (noticeProtocol (.consumer n))
      (fun _ => Rested) d := by
  refine follows_plain_seq (plain_reads (looks_monotonicDeadlineNs timeoutNs).all) rested
    fun deadline d rested => ?_
  split
  · exact rested
  · exact follows_waitLoop h rested

theorem follows_consumerWaitLatestImpl {encodedCap timeoutNs rounds : Nat}
    (rested : Rested d) :
    (consumerWaitLatestImpl header n handle encodedCap timeoutNs rounds).Follows
      (noticeProtocol (.consumer n)) (fun _ => Rested) d := by
  refine follows_plain_seq (plain_exchange (k := .ret) rfl fun _ => trivial) rested
    fun busy d rested => ?_
  split
  · exact rested
  refine Prog.follows_attempt_seq (follows_waitUntil plain_tryReadLatestUnlocked rested)
    fun x d rested => ?_
  exact follows_plain (plain_store rfl (Prog.all_lift x)) rested

theorem follows_consumerWaitLoanLatestImpl {timeoutNs rounds : Nat} (rested : Rested d) :
    (consumerWaitLoanLatestImpl header n handle timeoutNs rounds).Follows
      (noticeProtocol (.consumer n)) (fun _ => Rested) d := by
  refine follows_plain_seq (plain_exchange (k := .ret) rfl fun _ => trivial) rested
    fun busy d rested => ?_
  split
  · exact rested
  refine Prog.follows_attempt_seq (follows_waitUntil plain_claimLatestUnlocked rested)
    fun x d rested => ?_
  cases x with
  | ok loan => exact rested
  | error e =>
      exact follows_plain (plain_bind plain_releaseConsumerLoanOperation fun _ => trivial) rested

end Consumer

/-- The whole program of a call follows the protocol. -/
theorem follows_code {a : ChannelCall} {w : ChannelWorld} (allowed : allowed t a w = true)
    (rested : Rested d) :
    (q.code t a w).Follows (noticeProtocol t) (fun _ => Rested) d := by
  cases t with
  | producer =>
      cases a with
      | publish encoded =>
          exact follows_seq_plain (follows_producerPublishImpl rested) fun _ => trivial
      | loan => exact follows_plain (plain_bind plain_producerLoanImpl fun _ => trivial) rested
      | loanWrite offset byte =>
          simp only [code]
          split
          · exact follows_plain (plain_store trivial trivial) rested
          · exact rested
      | commit => exact follows_seq_plain (follows_producerCommitLoanImpl rested) fun _ => trivial
      | abort =>
          exact follows_plain (plain_bind plain_producerAbortLoanImpl fun _ => trivial) rested
      | heartbeat =>
          refine follows_plain (plain_bind ?_ fun _ => trivial) rested
          refine plain_exchange rfl fun busy => ?_
          split
          · trivial
          · exact plain_attempt plain_heartbeatUnlocked fun x => plain_store rfl (Prog.all_lift x)
      | shutdown =>
          exact follows_plain (plain_bind (plain_store rfl plain_serviceProducerShutdown)
            fun _ => trivial) rested
      | openConsumer | tryRead | waitRead | tryLoan | waitLoan | release | destroy | reconnect =>
          cases allowed
  | consumer n =>
      cases a with
      | openConsumer env options schema payloadSize =>
          exact follows_plain (plain_bind (plain_openWith plain_initConsumerHandle)
            fun _ => trivial) rested
      | tryRead encodedCap =>
          simp only [code]
          split
          · exact rested
          · exact follows_plain (plain_bind (plain_withConsumerUse plain_tryReadLatestUnlocked)
              fun _ => trivial) rested
      | waitRead encodedCap timeoutNs rounds =>
          simp only [code]
          split
          · exact rested
          · exact follows_seq_plain (follows_consumerWaitLatestImpl rested) fun _ => trivial
      | tryLoan =>
          simp only [code]
          split
          · exact rested
          · exact follows_plain (plain_bind (plain_withConsumerLoan plain_claimLatestUnlocked)
              fun _ => trivial) rested
      | waitLoan timeoutNs rounds =>
          simp only [code]
          split
          · exact rested
          · exact follows_seq_plain (follows_consumerWaitLoanLatestImpl rested) fun _ => trivial
      | release =>
          simp only [code]
          split
          · exact rested
          · exact follows_plain (plain_bind plain_consumerReleaseLoanImpl fun _ => trivial) rested
      | destroy =>
          simp only [code]
          split
          · exact rested
          · exact follows_plain (plain_bind (plain_store rfl plain_serviceConsumerShutdown)
              fun _ => trivial) rested
      | reconnect target =>
          simp only [code]
          split
          · exact rested
          · exact follows_plain (plain_bind plain_consumerReconnectImpl fun _ => trivial) rested
      | publish | loan | loanWrite | commit | abort | heartbeat | shutdown => cases allowed

/-- The log and the words survive what happens outside shared memory. -/
theorem WakeInv.same {d : Endpoint → Notice} {w w' : ChannelWorld} (h : WakeInv w d)
    (mem : w'.mem = w.mem) (futex : w'.futex = w.futex) : WakeInv w' d := by
  refine ⟨?_, ?_, ?_, ?_, ?_, h.producer, ?_, ?_, ?_⟩
  · rw [mem]; exact h.ready
  · rw [mem, futex]; exact h.epoch
  · rw [futex]; exact h.heeded
  · rw [futex]; exact h.owesMove
  · rw [futex]; exact h.owesWake
  · rw [futex]; exact h.looked
  · exact fun n => (h.phases n).later (.of_same mem futex) (h.looked _)
  · rw [futex]; exact h.sleepers

variable (q) in
/-- The channel with the protocols of its endpoints. -/
def wakeMonitor (ok : ChannelWorld → ChannelEvent → Prop) :
    Monitor q.machine ok Notice where
  protocol := noticeProtocol
  idle _ := Rested
  ends _ _ _ := Rested
  inv := WakeInv
  call_sound {w d t a} h idle allowed _ := by
    refine ⟨d t, ?_, follows_code allowed idle⟩
    rw [Function.update_eq_self]
    exact h.same rfl rfl
  op_sound h allowed exec _ := wake_op h allowed exec
  ret_sound {w d t a x} h rested := by
    refine ⟨d t, ?_, rested⟩
    rw [Function.update_eq_self]
    exact h.same rfl rfl
  crash_sound h _ := h.same rfl rfl

theorem wakeInv_init (out : Endpoint → Nat → Nat) :
    WakeInv (q.init out) fun _ => ⟨.none, .away⟩ :=
  ⟨rfl, rfl, FutexLog.heeded_fresh, fun _ => ⟨fun h => (nomatch h), fun h => (nomatch h)⟩,
    fun _ => ⟨fun h => (nomatch h), fun h => (nomatch h)⟩, fun _ h => (h rfl).elim,
    fun _ => Nat.le_refl _, fun _ => trivial, fun _ _ h => (nomatch h)⟩

/-- The protocols are followed throughout every run. -/
theorem wakes_reach {ok : ChannelWorld → ChannelEvent → Prop} {out : Endpoint → Nat → Nat}
    {c : ChannelConfig} (run : q.machine.Reach ok (q.machine.start (q.init out)) c) :
    (q.wakeMonitor ok).Covers c :=
  (q.wakeMonitor ok).covers_reach run
    ⟨_, wakeInv_init out, fun _ => ⟨rfl, fun _ he => (nomatch he)⟩⟩

/-- No wake-up is lost: while the producer is between two calls, a consumer that sleeps,
and fell asleep within one turn of the epoch, has no unread sample. -/
theorem no_unread_sample_while_asleep {out : Endpoint → Nat → Nat} {c : ChannelConfig}
    (run : q.machine.Reach (fun _ _ => True) (q.machine.start (q.init out)) c)
    (between : c.thread .producer = .idle) {n k : Nat}
    (asleep : c.world.futex.asleep (.consumer n) = some k)
    (recent : k < c.world.futex.looked (.consumer n) + 2 ^ 32) :
    ticketSequence (c.world.mem .latestTicket) ≤
      c.world.mem (consumerWord n .lastSequence) := by
  obtain ⟨d, h, threads⟩ := wakes_reach run
  have rested := threads .producer
  rw [between] at rested
  have paid : ∀ t, (d t).debt = .none := by
    intro t
    by_contra owes
    cases h.producer t owes
    exact owes rested.1
  have moved : k = c.world.futex.moves := by
    refine (h.heeded _ k asleep).resolve_right ?_
    rintro ⟨t, owes⟩
    have debt := (h.owesWake t).1 owes
    rw [paid] at debt
    cases debt
  obtain ⟨m, e, hm, phase, turn, older⟩ := h.sleepers _ k asleep
  cases hm
  have ok := h.phases n
  rw [phase] at ok
  obtain ⟨loaded, seen⟩ := ok
  -- the epoch came round to the value that was loaded, so it never left it
  have same : c.world.futex.looked (.consumer n) = k := by omega
  refine seen.resolve_right ?_
  rintro (later | ⟨t, owes⟩)
  · omega
  · have debt := (h.owesMove t).1 owes
    rw [paid] at debt
    cases debt

/-- A consumer has read the only sample and sleeps until the next one. -/
def tinyWait : List (Move Endpoint ChannelCall) :=
  whole .producer (.publish [7]) ++ whole (.consumer 0) tinyOpen ++
    whole (.consumer 0) (.tryRead 1) ++
    [.call (.consumer 0) (.waitRead 1 1000 2), .run (.consumer 0) 9]

theorem no_unread_sample_while_asleep_tiny :
    ∃ c, tinyRun (fun _ _ => True) tinyWait = some c ∧
      c.world.futex.asleep (.consumer 0) = some 1 ∧
      ticketSequence (c.world.mem .latestTicket) ≤
        c.world.mem (consumerWord 0 .lastSequence) := by
  have asleep : (tinyRun (fun _ _ => True) tinyWait).map
      (fun c => ((c.thread .producer).isIdle, c.world.futex.asleep (.consumer 0),
        c.world.futex.looked (.consumer 0))) = some (true, some 1, 1) := by decide +kernel
  obtain ⟨c, hc, facts⟩ := Option.map_eq_some_iff.1 asleep
  simp only [Prod.mk.injEq] at facts
  obtain ⟨idle, slept, looked⟩ := facts
  refine ⟨c, hc, slept, ?_⟩
  exact no_unread_sample_while_asleep (tinyRun_reach _ hc) (Thread.eq_idle_of_isIdle idle) slept
    (by rw [looked]; decide)

end ChannelSystem
end EdgeRuntime

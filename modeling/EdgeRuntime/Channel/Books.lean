import EdgeRuntime.Channel.Notices

/-!
The count of missed samples. A consumer handle keeps its books in two words of its own:
the sequence of the last sample it returned, and whether it has returned none yet. The
protocol below follows what one call does to them; between two calls they say exactly
what the handle has returned so far.
-/
namespace EdgeRuntime
open Concurrent

/-- What a call has read of the handle's books and written to them. -/
structure Books where
  last : Nat
  first : Nat
  /-- The two words as they were before the call wrote one of them. -/
  before : Option (Nat × Nat)
  /-- The consumer has an open handle. -/
  ready : Bool
  /-- The call is one that opens the handle. -/
  opening : Bool
  deriving DecidableEq, Repr

namespace Books

/-- The two words as the call found them. -/
def found (b : Books) : Nat × Nat := b.before.getD (b.last, b.first)

/-- The part that no instruction changes. -/
def status (b : Books) : Bool × Bool := (b.ready, b.opening)

def setLast (b : Books) (v : Nat) : Books := { b with last := v, before := some b.found }
def setFirst (b : Books) (v : Nat) : Books := { b with first := v, before := some b.found }

end Books

namespace ChannelSystem
variable {q : ChannelSystem} {n i : Nat} {b : Books} {α β : Type} {handle : ConsumerHandle}
  {operation : String}

/-- One of the two words of the books, of any consumer. -/
def bookWord : ChannelLoc → Bool
  | .handle (.consumer _) .lastSequence
  | .handle (.consumer _) .firstSampleInGeneration => true
  | _ => false

/-- The instruction does not write the books. -/
def SparesBooks : Instr ChannelLoc → Prop
  | .store l _ | .cas l _ _ | .fetchAdd l _ _ => bookWord l = false
  | _ => True

def booksAllow : Instr ChannelLoc → Prop
  | .cas l _ _ | .fetchAdd l _ _ => bookWord l = false
  | _ => True

/-- A load of an own word shows its value; a store replaces it. -/
def booksNext (n : Nat) (b : Books) : (i : Instr ChannelLoc) → Reply i → Books
  | .load (.handle (.consumer m) .lastSequence), v =>
      if m = n then { b with last := v } else b
  | .load (.handle (.consumer m) .firstSampleInGeneration), v =>
      if m = n then { b with first := v } else b
  | .store (.handle (.consumer m) .lastSequence) v, _ => if m = n then b.setLast v else b
  | .store (.handle (.consumer m) .firstSampleInGeneration) v, _ =>
      if m = n then b.setFirst v else b
  | _, _ => b

/-- The protocol of a consumer's books. -/
def booksProtocol (n : Nat) : Protocol (Instr ChannelLoc) Reply Books where
  allow _ := booksAllow
  next := booksNext n

/-- A call that has returned a sample: the words name it, and its count is taken from
what they named before. -/
def Took (s : ReadSnapshot) (b : Books) : Prop :=
  b.last = s.sampleSequence ∧ b.first = 0 ∧ ∃ last first, b.before = some (last, first) ∧
    s.missedSamples = if first ≠ 0 then 0 else saturatedGap last s.sampleSequence

/-- Nothing was written. -/
def Clean (b : Books) : Prop := b.before = none

/-- How the search for the latest sample leaves the books. -/
def ClaimTakes (handle : ConsumerHandle) (x : Except Error ReadLoan) (b : Books) : Prop :=
  match x with
  | .ok loan => Took loan.snapshot b ∧ loan.snapshot.encodedSize = handle.payloadSize
  | .error _ => Clean b

/-- How a read leaves the books. -/
def ReadTakes (x : Except Error ReadSnapshot) (b : Books) : Prop :=
  match x with
  | .ok snapshot => Took snapshot b
  | .error _ => Clean b

theorem clean_spares {i : Instr ChannelLoc} (clean : Clean b) (spares : SparesBooks i) :
    (booksProtocol n).allow b i ∧ ∀ r, Clean ((booksProtocol n).next b i r) := by
  refine ⟨?_, fun r => ?_⟩
  · cases i with
    | cas | fetchAdd => exact spares
    | _ => trivial
  · change Clean (booksNext n b i r)
    unfold booksNext
    split
    · split <;> exact clean
    · split <;> exact clean
    · cases spares
    · cases spares
    · exact clean

/-- Code that writes no book leaves them clean. -/
theorem follows_spares {p : ChannelCode α} (h : p.All SparesBooks)
    (clean : Clean b) : p.Follows (booksProtocol n) (fun _ => Clean) b :=
  Prog.follows_all (fun _ _ clean spares => clean_spares clean spares) h clean

theorem follows_spares_seq {Q : Except Error β → Books → Prop}
    {p : ChannelCode α} {k : α → ChannelCode β} (h : p.All SparesBooks) (clean : Clean b)
    (next : ∀ a b, Clean b → (k a).Follows (booksProtocol n) Q b)
    (fails : ∀ e b, Clean b → Q (.error e) b) : (p >>= k).Follows (booksProtocol n) Q b :=
  Prog.follows_seq (follows_spares h clean) next fails

/-- Code that is plain for an endpoint without books writes none. -/
theorem spares_of_plain {p : ChannelCode α} (h : Plain .producer p) : p.All SparesBooks := by
  refine h.mono fun i plain => ?_
  have spares : ∀ {l}, plainWord .producer l → bookWord l = false := by
    intro l plain
    cases l with
    | handle u word =>
        cases plain
        rfl
    | _ => rfl
  cases i with
  | store l v => exact spares plain
  | cas l expected desired => exact spares plain
  | fetchAdd l count bits => exact spares plain
  | _ => trivial

theorem spares_reads {p : ChannelCode α} (h : p.All Memory.Reads) : p.All SparesBooks :=
  spares_of_plain (plain_reads h)

theorem spares_load (l : ChannelLoc) : (sharedLoad l : ChannelCode Nat).All SparesBooks :=
  ⟨trivial, fun _ => trivial⟩

theorem spares_serviceConsumerShutdown :
    (serviceConsumerShutdown n handle).All SparesBooks := by
  refine ⟨trivial, fun pending => ?_⟩
  dsimp only [Prog.bind]
  split
  · trivial
  refine ⟨rfl, fun idle => ?_⟩
  dsimp only [Prog.bind]
  split
  · trivial
  refine ⟨rfl, fun first => ?_⟩
  refine Prog.all_bind (p := startConsumerShutdown handle first) ?_ fun _ =>
    ⟨rfl, fun _ => trivial⟩
  cases first with
  | true => exact spares_of_plain plain_markConsumerOffline
  | false => trivial

theorem spares_releaseConsumerLoanOperation :
    (releaseConsumerLoanOperation n handle).All SparesBooks :=
  ⟨rfl, fun _ => spares_serviceConsumerShutdown⟩

theorem follows_acceptSample {size sequence publishNs receiveNs : Nat} (clean : Clean b)
    (fit : size = handle.payloadSize) :
    (acceptSample n handle i size sequence publishNs receiveNs).Follows (booksProtocol n)
      (ClaimTakes handle) b := by
  refine ⟨trivial, fun (first : Nat) => ⟨trivial, fun (last : Nat) => ⟨trivial, fun _ =>
    ⟨trivial, fun _ => ⟨rfl, fun _ => ?_⟩⟩⟩⟩⟩
  simp only [booksProtocol, booksNext, consumerWord, if_pos]
  refine ⟨⟨rfl, rfl, last, first, ?_, rfl⟩, fit⟩
  have clean : b.before = none := clean
  simp [Books.setFirst, Books.setLast, Books.found, clean]

theorem follows_releaseAndThrow {e : Error} (clean : Clean b) :
    (releaseAndThrow i e : ChannelCode ReadLoan).Follows (booksProtocol n)
      (ClaimTakes handle) b :=
  ⟨trivial, fun _ => ⟨trivial, fun _ => clean⟩⟩

theorem follows_checkClaimedSlot (clean : Clean b) :
    (checkClaimedSlot n handle operation i).Follows (booksProtocol n) (ClaimTakes handle) b := by
  refine ⟨trivial, fun (size : Nat) => ⟨trivial, fun (sequence : Nat) =>
    ⟨trivial, fun (publishNs : Nat) => ⟨trivial, fun (expected : Nat) => ?_⟩⟩⟩⟩
  change Prog.Follows _ _ (if size ≠ handle.payloadSize then _ else _) b
  split
  · exact follows_releaseAndThrow clean
  rename_i fit
  refine ⟨trivial, fun (receiveNs : Nat) => ?_⟩
  change Prog.Follows _ _ (if receiveNs = 0 then _ else _) b
  split
  · exact follows_releaseAndThrow clean
  refine follows_spares_seq (spares_of_plain plain_fnv1a64From) clean (fun actual b clean => ?_)
    fun _ _ clean => clean
  split
  · exact follows_releaseAndThrow clean
  · exact follows_acceptSample clean (not_not.1 fit)

/-- How one attempt leaves the books. -/
def AttemptTakes (handle : ConsumerHandle) (x : Except Error (Option ReadLoan)) (b : Books) :
    Prop :=
  match x with
  | .ok (some loan) => ClaimTakes handle (.ok loan) b
  | _ => Clean b

theorem follows_readClaimedSlot (clean : Clean b) :
    (readClaimedSlot n handle operation i).Follows (booksProtocol n) (AttemptTakes handle) b := by
  refine ⟨trivial, fun _ => ⟨trivial, fun _ => ⟨trivial, fun (sequence : Nat) =>
    ⟨trivial, fun (latest : Nat) => ?_⟩⟩⟩⟩
  change Prog.Follows _ _ (if latest ≠ makeTicket sequence i then _ else _) b
  split
  · exact ⟨trivial, fun _ => ⟨trivial, fun _ => clean⟩⟩
  · exact Prog.follows_seq (follows_checkClaimedSlot clean) (fun _ _ taken => taken)
      fun _ _ clean => clean

theorem follows_claimAttempt {stride : Nat} (clean : Clean b) :
    (claimAttempt n handle operation stride).Follows (booksProtocol n) (AttemptTakes handle)
      b := by
  refine ⟨trivial, fun (ticket : Nat) => ⟨trivial, fun (last : Nat) => ?_⟩⟩
  have clean : Clean (booksNext n b (.load (consumerWord n .lastSequence)) last) := by
    simp only [consumerWord, booksNext, if_pos]
    exact clean
  change Prog.Follows _ _ (if ticket = 0 ∨ ticketSequence ticket ≤ last then _ else _) _
  split
  · exact clean
  cases slotByteOffset (ticketSlot ticket) stride with
  | none => exact clean
  | some _ =>
      refine ⟨rfl, fun claimed => ?_⟩
      cases claimed with
      | false => exact clean
      | true => exact follows_readClaimedSlot clean

theorem follows_claimLoop {stride attempts : Nat} (clean : Clean b) :
    (claimLoop n handle operation stride attempts).Follows (booksProtocol n)
      (ClaimTakes handle) b := by
  induction attempts generalizing b with
  | zero => exact clean
  | succ attempts ih =>
      refine Prog.follows_seq (follows_claimAttempt clean) ?_ fun _ _ clean => clean
      intro claimed b taken
      cases claimed with
      | some loan => exact taken
      | none => exact ih taken

theorem follows_claimLatestUnlocked (clean : Clean b) :
    (claimLatestUnlocked n handle operation).Follows (booksProtocol n) (ClaimTakes handle)
      b := by
  unfold claimLatestUnlocked
  split
  · exact clean
  · exact follows_claimLoop clean

/-- A copy out of a slot does not touch the books. -/
theorem follows_copyFrom {Q : Except Error α → Books → Prop} {j size : Nat}
    {k : Unit → ChannelCode α} (next : (k ()).Follows (booksProtocol n) Q b) :
    (copyFrom (.slotPayload i) j size >>= k).Follows (booksProtocol n) Q b := by
  induction size generalizing j with
  | zero => exact next
  | succ size ih => exact ⟨trivial, fun _ => ⟨trivial, fun _ => ih⟩⟩

/-- With room for the sample a read returns what it has entered in the books. -/
theorem follows_tryReadLatestUnlocked {encodedCap : Nat} (room : handle.payloadSize ≤ encodedCap)
    (clean : Clean b) :
    (tryReadLatestUnlocked n handle encodedCap).Follows (booksProtocol n) ReadTakes b := by
  refine Prog.follows_seq (follows_claimLatestUnlocked clean) ?_ fun _ _ clean => clean
  rintro loan b ⟨taken, fit⟩
  rw [if_neg (by omega)]
  exact follows_copyFrom ⟨trivial, fun _ => ⟨trivial, fun _ => taken⟩⟩

section Waits
variable {header : ChannelHeaderAbi} {deadline timeoutNs rounds : Nat} {body : ChannelCode α}
  {Q : Except Error α → Books → Prop}

theorem spares_waitForNotice :
    (waitForNotice header n operation deadline).All SparesBooks := by
  have fails : (failWaitTimeout header operation : ChannelCode Unit).All SparesBooks :=
    spares_reads reads_failWaitTimeout
  refine ⟨trivial, fun expected => ⟨trivial, fun ticket => ⟨trivial, fun last => ?_⟩⟩⟩
  dsimp only [Prog.bind]
  split
  · trivial
  refine Prog.all_bind (p := remainingTimeNs deadline) ?_ fun remaining => ?_
  · refine ⟨trivial, fun now => ?_⟩
    dsimp only [Prog.bind]
    split
    · trivial
    split <;> trivial
  split
  · exact fails
  refine Prog.all_bind (p := futexWait ChannelLoc.notifyEpoch expected) ?_ fun errnoValue => ?_
  · refine ⟨trivial, fun slept => ?_⟩
    cases slept with
    | true => exact ⟨trivial, fun _ => trivial⟩
    | false => trivial
  split
  · trivial
  split
  · exact fails
  · trivial

/-- A wait whose attempts fail cleanly fails cleanly. -/
theorem follows_waitUntil_books (err : ∀ e b, Q (.error e) b ↔ Clean b)
    (h : ∀ b, Clean b → body.Follows (booksProtocol n) Q b) (clean : Clean b) :
    (waitUntil header n operation timeoutNs rounds body).Follows (booksProtocol n) Q b := by
  have fails : ∀ e b, Clean b → Q (.error e) b := fun e b => (err e b).2
  have loop : ∀ {deadline b}, Clean b →
      (waitLoop header n operation deadline body rounds).Follows (booksProtocol n) Q b := by
    intro deadline
    induction rounds with
    | zero => exact fun clean => ⟨trivial, fun _ => fails _ _ clean⟩
    | succ rounds ih =>
        intro b clean
        refine Prog.follows_attempt_seq (h b clean) fun x b taken => ?_
        cases x with
        | ok a => exact taken
        | error e =>
            have clean := (err e b).1 taken
            dsimp only
            split
            · exact taken
            · exact follows_spares_seq spares_waitForNotice clean (fun _ b clean => ih clean) fails
  refine follows_spares_seq (spares_reads (looks_monotonicDeadlineNs timeoutNs).all) clean
    (fun deadline b clean => ?_) fails
  split
  · exact fails _ _ clean
  · exact loop clean

theorem follows_withConsumerUse (err : ∀ e b, Clean b → Q (.error e) b)
    (h : body.Follows (booksProtocol n) Q b) (clean : Clean b) :
    (withConsumerUse n operation body).Follows (booksProtocol n) Q b := by
  refine ⟨rfl, fun swapped => ?_⟩
  cases swapped with
  | false => exact err _ _ clean
  | true =>
      refine Prog.follows_attempt_seq h fun x b taken => ?_
      exact ⟨trivial, fun _ => Prog.follows_lift taken⟩

theorem follows_withConsumerLoan {body : ChannelCode ReadLoan}
    (h : body.Follows (booksProtocol n) (ClaimTakes handle) b) (clean : Clean b) :
    (withConsumerLoan n handle operation body).Follows (booksProtocol n) (ClaimTakes handle)
      b := by
  refine ⟨rfl, fun swapped => ?_⟩
  cases swapped with
  | false => exact clean
  | true =>
      refine Prog.follows_attempt_seq h fun x b taken => ?_
      cases x with
      | ok loan => exact taken
      | error e =>
          exact follows_spares_seq spares_releaseConsumerLoanOperation taken
            (fun _ _ clean => clean) fun _ _ clean => clean

end Waits

/-- The books of a handle that has just been opened. -/
def Opened (b : Books) : Prop := b.last = 0 ∧ b.first = 1

/-- How an open leaves the books of the new handle. -/
def OpenTakes (x : Except Error ConsumerHandle) (b : Books) : Prop :=
  ∀ h, x = .ok h → Opened b

theorem follows_openLocked {segment : ChannelSegment} {env : OpenEnvironment}
    {self : ProcessIdentity} {options : ChannelOptions} {schema : SchemaDescriptor}
    {payloadSize dev ino : Nat} (clean : Clean b) :
    (openLocked segment env self (initConsumerHandle n) options schema payloadSize dev
      ino).Follows (booksProtocol n) OpenTakes b := by
  have fails : ∀ e b, Clean b → OpenTakes (.error e) b := fun _ _ _ => nofun
  refine follows_spares_seq (Prog.all_lift _) clean (fun _ b clean => ?_) fails
  refine follows_spares_seq (Prog.all_lift _) clean (fun _ b clean => ?_) fails
  refine follows_spares_seq (spares_of_plain plain_registerConsumer) clean
    (fun epoch b clean => ?_) fails
  refine ⟨trivial, fun _ => ⟨trivial, fun _ => ⟨trivial, fun _ => ⟨trivial, fun _ =>
    ⟨trivial, fun _ => ?_⟩⟩⟩⟩⟩
  intro h _
  simp [booksProtocol, booksNext, consumerWord, Opened, Books.setFirst, Books.setLast]

theorem follows_consumerOpenImpl {segment : ChannelSegment} {env : OpenEnvironment}
    {self : ProcessIdentity} {options : ChannelOptions} {schema : SchemaDescriptor}
    {payloadSize : Nat} (clean : Clean b) :
    (consumerOpenImpl segment env self n options schema payloadSize).Follows (booksProtocol n)
      OpenTakes b := by
  have fails : ∀ e b, Clean b → OpenTakes (.error e) b := by
    rintro e b _ handle ⟨⟩
  refine follows_spares_seq (Prog.all_lift _) clean (fun _ b clean => ?_) fails
  refine follows_spares_seq (Prog.all_lift _) clean (fun _ b clean => ?_) fails
  refine follows_spares_seq (Prog.all_lift _) clean (fun object b clean => ?_) fails
  change (openMapped segment env self (initConsumerHandle n) options schema payloadSize
    _ _ _).Follows _ _ b
  rw [openMapped]
  split
  · exact fails _ b clean
  refine follows_spares_seq (Prog.all_lift _) clean (fun _ b clean => ?_) fails
  refine follows_spares_seq (spares_load _) clean (fun state b clean => ?_) fails
  refine follows_spares_seq (Prog.all_lift _) clean (fun _ b clean => ?_) fails
  refine follows_spares_seq (spares_load _) clean (fun again b clean => ?_) fails
  split
  · exact fails _ b clean
  refine follows_spares_seq (Prog.all_lift _) clean (fun _ b clean => ?_) fails
  rw [withControlLock]
  refine follows_spares_seq (p := (.op .lock .ret : ChannelCode _))
    ⟨trivial, fun _ => trivial⟩ clean (fun acquired b clean => ?_) fails
  refine follows_spares_seq (Prog.all_lift _) clean (fun _ b clean => ?_) fails
  refine Prog.follows_attempt_seq (follows_openLocked clean) fun x b taken => ?_
  exact ⟨trivial, fun _ => Prog.follows_lift taken⟩

/-- How a reconnect leaves the books. -/
def ReconnectTakes (x : Except Error (ReconnectInfo × Option ConsumerHandle)) (b : Books) :
    Prop :=
  match x with
  | .ok moved => moved.2.isSome → Opened b
  | .error _ => Clean b

theorem follows_consumerReconnectImpl {segment : ChannelSegment} {self : ProcessIdentity}
    {target : ReconnectTarget} (clean : Clean b) :
    (consumerReconnectImpl segment self n handle target).Follows (booksProtocol n)
      ReconnectTakes b := by
  refine follows_withConsumerUse (fun _ _ clean => clean) ?_ clean
  refine follows_spares_seq ?_ clean (fun fresh b clean => ?_) fun _ _ clean => clean
  · cases target with
    | same env => exact spares_of_plain (plain_openWith trivial)
    | other outcome => exact Prog.all_lift outcome
  refine follows_spares_seq (spares_of_plain plain_markConsumerOffline) clean
    (fun _ b clean => ?_) fun _ _ clean => clean
  cases target with
  | same env =>
      refine ⟨trivial, fun _ => ⟨trivial, fun _ => fun _ => ?_⟩⟩
      simp [booksProtocol, booksNext, consumerWord, Opened, Books.setFirst, Books.setLast]
  | other outcome =>
      intro opened
      cases opened

theorem booksNext_status {i : Instr ChannelLoc} {r : Reply i} :
    (booksNext n b i r).status = b.status := by
  unfold booksNext
  split
  · split <;> rfl
  · split <;> rfl
  · split <;> rfl
  · split <;> rfl
  · rfl

/-- No instruction opens or closes the handle. -/
theorem follows_status {Q : Except Error α → Books → Prop} {p : ChannelCode α}
    (h : p.Follows (booksProtocol n) Q b) :
    p.Follows (booksProtocol n) (fun x b' => Q x b' ∧ b'.status = b.status) b := by
  induction p generalizing b with
  | ret _ | throw _ => exact ⟨h, rfl⟩
  | op i k ih =>
      refine ⟨h.1, fun r => ?_⟩
      refine Prog.follows_mono ?_ (ih r (h.2 r))
      exact fun x b' ⟨taken, same⟩ => ⟨taken, same.trans booksNext_status⟩

theorem follows_ready {Q : Except Error α → Books → Prop} {p : ChannelCode α}
    (h : p.Follows (booksProtocol n) Q b) :
    p.Follows (booksProtocol n) (fun x b' => Q x b' ∧ b'.ready = b.ready) b :=
  Prog.follows_mono (fun _ _ ⟨taken, same⟩ => ⟨taken, congrArg Prod.fst same⟩)
    (follows_status h)

/-- How a call leaves the books, by its outcome. -/
def CallTakes : ChannelCall → Except Error ChannelResult → Books → Prop
  | .tryRead _, .ok (.read snapshot), b | .waitRead _ _ _, .ok (.read snapshot), b =>
      b.ready = true ∧ Took snapshot b
  | .tryLoan, .ok (.borrowed loan), b | .waitLoan _ _, .ok (.borrowed loan), b =>
      b.ready = true ∧ Took loan.snapshot b
  | .openConsumer _ _ _ _, .ok (.opened _), b => Opened b
  | .openConsumer _ _ _ _, _, b => b.ready = false
  | .reconnect _, .ok (.reconnected _ handle), b => handle.isSome → Opened b
  | _, _, b => Clean b

/-- The caller's buffer has room for a sample. -/
def hasRoom (c : ChannelClient) : ChannelCall → Bool
  | .tryRead encodedCap | .waitRead encodedCap _ _ =>
      c.handle.all (·.payloadSize ≤ encodedCap)
  | _ => true

/-- A read that is wrapped into a result of the machine. -/
theorem follows_reading {p : ChannelCode α} {wrap : α → ChannelResult} {a : ChannelCall}
    {Q : Except Error α → Books → Prop} (h : p.Follows (booksProtocol n) Q b)
    (ready : b.ready = true)
    (taken : ∀ x b, Q (.ok x) b → b.ready = true → CallTakes a (.ok (wrap x)) b)
    (clean : ∀ e b, Q (.error e) b → CallTakes a (.error e) b) :
    (p >>= fun x => (return wrap x : ChannelCode ChannelResult)).Follows (booksProtocol n)
      (CallTakes a) b := by
  refine Prog.follows_seq (follows_ready h) ?_ ?_
  · exact fun x b' ⟨hq, same⟩ => taken x b' hq (same.trans ready)
  · exact fun e b' ⟨hq, _⟩ => clean e b' hq

theorem follows_code_books {a : ChannelCall} {w : ChannelWorld}
    (allowed : allowed (.consumer n) a w = true) (room : hasRoom (w.client (.consumer n)) a = true)
    (clean : Clean b) (ready : b.ready = (w.client (.consumer n)).handle.isSome) :
    (q.code (.consumer n) a w).Follows (booksProtocol n) (CallTakes a) b := by
  cases a with
  | openConsumer env options schema payloadSize =>
      have closed : b.ready = false := by
        rw [ready]
        exact Option.isSome_eq_false_iff.2 allowed
      refine Prog.follows_seq (follows_ready (follows_consumerOpenImpl clean)) ?_ ?_
      · exact fun handle b ⟨opened, _⟩ => opened handle rfl
      · exact fun e b ⟨_, same⟩ => same.trans closed
  | tryRead encodedCap =>
      simp only [code]
      split
      · exact clean
      · rename_i handle some
        rw [some] at ready
        have room : handle.payloadSize ≤ encodedCap := by
          simpa only [hasRoom, some, Option.all_some, decide_eq_true_eq] using room
        refine follows_reading (Q := ReadTakes)
          (follows_withConsumerUse (fun _ _ clean => clean) ?_ clean) ready
          (fun _ _ taken ready => ⟨ready, taken⟩) fun _ _ clean => clean
        exact follows_tryReadLatestUnlocked room clean
  | waitRead encodedCap timeoutNs rounds =>
      simp only [code]
      split
      · exact clean
      · rename_i handle some
        rw [some] at ready
        have room : handle.payloadSize ≤ encodedCap := by
          simpa only [hasRoom, some, Option.all_some, decide_eq_true_eq] using room
        refine follows_reading (Q := ReadTakes)
          (follows_withConsumerUse (fun _ _ clean => clean) ?_ clean) ready
          (fun _ _ taken ready => ⟨ready, taken⟩) fun _ _ clean => clean
        exact follows_waitUntil_books (fun _ _ => .rfl)
          (fun b clean => follows_tryReadLatestUnlocked room clean) clean
  | tryLoan =>
      simp only [code]
      split
      · exact clean
      · rename_i handle some
        rw [some] at ready
        exact follows_reading (follows_withConsumerLoan (follows_claimLatestUnlocked clean) clean)
          ready (fun _ _ taken ready => ⟨ready, taken.1⟩) fun _ _ clean => clean
  | waitLoan timeoutNs rounds =>
      simp only [code]
      split
      · exact clean
      · rename_i handle some
        rw [some] at ready
        refine follows_reading (follows_withConsumerLoan ?_ clean) ready
          (fun _ _ taken ready => ⟨ready, taken.1⟩) fun _ _ clean => clean
        exact follows_waitUntil_books (fun _ _ => .rfl)
          (fun b clean => follows_claimLatestUnlocked clean) clean
  | release =>
      simp only [code]
      split
      · exact clean
      · refine follows_spares_seq ?_ clean (fun _ _ clean => clean) fun _ _ clean => clean
        cases (w.client (.consumer n)).readLoan with
        | none => trivial
        | some loan => exact ⟨rfl, fun _ => ⟨rfl, fun _ => spares_releaseConsumerLoanOperation⟩⟩
  | destroy =>
      simp only [code]
      split
      · exact clean
      · exact follows_spares_seq (p := consumerShutdownImpl n _)
          ⟨rfl, fun _ => spares_serviceConsumerShutdown⟩ clean (fun _ _ clean => clean)
          fun _ _ clean => clean
  | reconnect target =>
      simp only [code]
      split
      · exact clean
      · refine Prog.follows_seq (follows_consumerReconnectImpl clean) ?_ fun _ _ clean => clean
        exact fun moved b opened => opened
  | publish | loan | loanWrite | commit | abort | heartbeat | shutdown => cases allowed

end ChannelSystem
end EdgeRuntime

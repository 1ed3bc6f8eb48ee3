import EdgeRuntime.Channel.Open
import EdgeRuntime.Channel.Producer

/-!
A created channel with its producer handle and its successive consumers. The world
holds the shared words, the handles' private state, the control lock, and the history:
which samples were committed by a store of the ticket, which tickets a call could see,
and what each finished call returned.
-/
namespace EdgeRuntime
open Concurrent

inductive ChannelCall
  | publish (encoded : List Nat)
  | loan
  /-- The user stores one byte into the slot it was lent. -/
  | loanWrite (offset byte : Nat)
  | commit
  | abort
  | heartbeat
  | shutdown
  | openConsumer (env : OpenEnvironment) (options : ChannelOptions)
      (schema : SchemaDescriptor) (payloadSize : Nat)
  | tryRead (encodedCap : Nat)
  | waitRead (encodedCap timeoutNs rounds : Nat)
  | tryLoan
  | waitLoan (timeoutNs rounds : Nat)
  | release
  /-- The destructor of a consumer. -/
  | destroy
  | reconnect (target : ReconnectTarget)
  deriving DecidableEq, Repr

inductive ChannelResult
  | done
  | published (info : PublishInfo)
  | lent (loan : WriteLoan)
  | opened (handle : ConsumerHandle)
  | read (snapshot : ReadSnapshot)
  | borrowed (loan : ReadLoan)
  | reconnected (info : ReconnectInfo) (handle : Option ConsumerHandle)
  deriving DecidableEq, Repr

/-- What one publish stands for. -/
structure Sample where
  sequence : Nat
  publishBootNs : Nat
  payload : List Nat
  deriving DecidableEq, Repr

/-- The private state of an endpoint, with what its call in flight has done. -/
structure ChannelClient where
  call : Option ChannelCall
  out : Nat → Nat
  handle : Option ConsumerHandle
  /-- The consumer object is gone; at most its loan is still used. -/
  closed : Bool
  writeLoan : Option WriteLoan
  readLoan : Option ReadLoan
  /-- The bytes the call was given to publish. -/
  passed : List Nat
  storedSequence : Nat
  storedBootNs : Nat
  ticketStores : Nat
  /-- The sequences returned to the handle so far. -/
  delivered : List Nat

structure ChannelReturn where
  endpoint : Endpoint
  call : ChannelCall
  result : Except Error ChannelResult
  /-- The bytes the call was given to publish. -/
  passed : List Nat
  /-- The caller's buffer. -/
  out : Nat → Nat
  /-- The values of the ticket while the call ran. -/
  seen : List Nat
  ticketStores : Nat

structure ChannelWorld where
  mem : ChannelMem
  client : Endpoint → ChannelClient
  /-- The samples of the publishes that stored the ticket, in that order. -/
  committed : List Sample
  /-- The values of the ticket since the endpoint's last call began. -/
  seen : Endpoint → List Nat
  finished : List ChannelReturn
  lock : Option Endpoint
  crashed : Endpoint → Bool
  /-- The sleepers on the notify epoch. -/
  futex : FutexLog Endpoint

/-- One created instance and the processes of its endpoints. -/
structure ChannelSystem where
  options : ChannelOptions
  schema : SchemaDescriptor
  payloadSize : Nat
  mapping : Nat
  generation : Nat
  nonceHi : Nat
  nonceLo : Nat
  self : Endpoint → ProcessIdentity
  self_valid : ∀ e, processIdentityValid (self e) = true
  valid : payloadAndSchemaValid options schema payloadSize = true
  mapping_eq : mappingSizeForPayload payloadSize = some mapping

namespace ChannelSystem
variable (q : ChannelSystem)

def header : ChannelHeaderAbi :=
  createHeader q.options q.schema q.payloadSize q.mapping q.generation q.nonceHi q.nonceLo

def segment : ChannelSegment :=
  ⟨createBootstrap q.options q.mapping q.nonceHi q.nonceLo (q.self .producer), q.header⟩

/-- The handle of the creator; its identity is the first one written. -/
def producerHandle : ProducerHandle :=
  ⟨q.generation, 2, q.nonceHi, q.nonceLo, q.payloadSize, q.options.transport, false,
    heartbeatIntervalOf q.options⟩

def loanBytes (m : ChannelMem) (i size : Nat) : List Nat :=
  (List.range size).map fun j => m (.slotPayload i j)

/-- What a call is given to publish. -/
def passedBy (w : ChannelWorld) (t : Endpoint) : ChannelCall → List Nat
  | .publish encoded => encoded
  | .commit =>
      match (w.client t).writeLoan with
      | some loan => loanBytes w.mem loan.slotIndex loan.size
      | none => []
  | _ => []

def recordStore (l : ChannelLoc) (v : Nat) (c : ChannelClient) : ChannelClient :=
  match l with
  | .slotSequence _ => { c with storedSequence := v }
  | .slotPublishBootNs _ => { c with storedBootNs := v }
  | .latestTicket => { c with ticketStores := c.ticketStores + 1 }
  | _ => c

/-- A new ticket is announced by a move of the notify epoch. -/
def recordFutex (t : Endpoint) (l : ChannelLoc) (log : FutexLog Endpoint) :
    FutexLog Endpoint :=
  match l with
  | .latestTicket => log.change t
  | .notifyEpoch => log.move t
  | _ => log

def write (t : Endpoint) (l : ChannelLoc) (v : Nat) (w : ChannelWorld) : ChannelWorld :=
  let c := w.client t
  { w with
    mem := w.mem.set l v
    client := Function.update w.client t (recordStore l v c)
    committed := if l = .latestTicket then
      w.committed ++ [⟨c.storedSequence, c.storedBootNs, c.passed⟩] else w.committed
    seen := fun u => if l = .latestTicket then w.seen u ++ [v] else w.seen u
    futex := recordFutex t l w.futex }

def fill (t : Endpoint) (j v : Nat) (w : ChannelWorld) : ChannelWorld :=
  { w with
    client := Function.update w.client t
      { w.client t with out := Function.update (w.client t).out j v } }

/-- A probe never reports a running process as dead. -/
def Accurate (w : ChannelWorld) (pid ticks : Nat) (r : Liveness) : Prop :=
  r = .exited ∨ r = .pidReused →
    ∀ u, (q.self u).pid = pid → (q.self u).procStartTicks = ticks → w.crashed u = true

/-- The same world with another log of sleepers. -/
def setFutex (log : FutexLog Endpoint) (w : ChannelWorld) : ChannelWorld :=
  { w with futex := log }

def memory : Memory Endpoint ChannelLoc ChannelWorld where
  read := ChannelWorld.mem
  write := write
  fill := fill
  answers := q.Accurate
  lock t w := if w.lock = none then some { w with lock := some t } else none
  unlock _ w := { w with lock := none }
  futex := ChannelWorld.futex
  setFutex := setFutex

/-- The program behind a call; a call the endpoint does not have does nothing. -/
def code (t : Endpoint) (a : ChannelCall) (w : ChannelWorld) : ChannelCode ChannelResult :=
  let c := w.client t
  match t, a with
  | .producer, .publish encoded => do
      let info ← producerPublishImpl q.header q.producerHandle encoded
      return .published info
  | .producer, .loan => do
      let loan ← producerLoanImpl q.header q.producerHandle
      return .lent loan
  | .producer, .loanWrite offset byte =>
      match c.writeLoan with
      | some loan => do
          sharedStore (.slotPayload loan.slotIndex offset) byte
          return .done
      | none => .ret .done
  | .producer, .commit => do
      let info ← producerCommitLoanImpl q.header q.producerHandle c.writeLoan
      return .published info
  | .producer, .abort => do
      producerAbortLoanImpl q.producerHandle c.writeLoan
      return .done
  | .producer, .heartbeat => do
      producerHeartbeatImpl q.header q.producerHandle
      return .done
  | .producer, .shutdown => do
      producerShutdownImpl q.producerHandle
      return .done
  | .consumer n, .openConsumer env options schema payloadSize => do
      let handle ← consumerOpenImpl q.segment env (q.self t) n options schema payloadSize
      return .opened handle
  | .consumer n, a =>
      match c.handle with
      | none => .ret .done
      | some handle =>
          match a with
          | .tryRead encodedCap => do
              let snapshot ← consumerTryReadLatestImpl n handle encodedCap
              return .read snapshot
          | .waitRead encodedCap timeoutNs rounds => do
              let snapshot ← consumerWaitLatestImpl q.header n handle encodedCap timeoutNs
                rounds
              return .read snapshot
          | .tryLoan => do
              let loan ← consumerTryLoanLatestImpl n handle
              return .borrowed loan
          | .waitLoan timeoutNs rounds => do
              let loan ← consumerWaitLoanLatestImpl q.header n handle timeoutNs rounds
              return .borrowed loan
          | .release => do
              consumerReleaseLoanImpl n handle c.readLoan
              return .done
          | .destroy => do
              consumerShutdownImpl n handle
              return .done
          | .reconnect target => do
              let moved ← consumerReconnectImpl q.segment (q.self t) n handle target
              return .reconnected moved.1 moved.2
          | _ => .ret .done
  | .producer, _ => .ret .done

/-- Who may make a call when: a closed consumer only releases its loan. -/
def allowed (t : Endpoint) (a : ChannelCall) (w : ChannelWorld) : Bool :=
  let c := w.client t
  match t, a with
  | .producer, .loanWrite offset _ => c.writeLoan.any (offset < ·.size)
  | .producer, .publish _ | .producer, .loan | .producer, .commit | .producer, .abort
  | .producer, .heartbeat | .producer, .shutdown => true
  | .consumer _, .openConsumer _ _ _ _ => c.handle.isNone
  | .consumer _, .tryRead _ | .consumer _, .waitRead _ _ _ | .consumer _, .tryLoan
  | .consumer _, .waitLoan _ _ | .consumer _, .destroy | .consumer _, .reconnect _ =>
      c.handle.isSome && !c.closed
  | .consumer _, .release => c.readLoan.isSome
  | _, _ => false

def enterClient (t : Endpoint) (a : ChannelCall) (w : ChannelWorld) : ChannelClient :=
  { w.client t with
    call := some a
    passed := passedBy w t a
    storedSequence := 0
    storedBootNs := 0
    ticketStores := 0
    delivered := match a with
      | .openConsumer _ _ _ _ => []
      | _ => (w.client t).delivered }

/-- What the endpoint keeps of a result. -/
def keepResult (a : ChannelCall) (x : Except Error ChannelResult) (c : ChannelClient) :
    ChannelClient :=
  match a, x with
  | .loan, .ok (.lent loan) => { c with writeLoan := some loan }
  | .commit, _ | .abort, _ => { c with writeLoan := none }
  | .openConsumer _ _ _ _, .ok (.opened handle) =>
      { c with handle := some handle, closed := false }
  | .tryRead _, .ok (.read snapshot) | .waitRead _ _ _, .ok (.read snapshot) =>
      { c with delivered := c.delivered ++ [snapshot.sampleSequence] }
  | .tryLoan, .ok (.borrowed loan) | .waitLoan _ _, .ok (.borrowed loan) =>
      { c with
        readLoan := some loan
        delivered := c.delivered ++ [loan.snapshot.sampleSequence] }
  | .release, _ =>
      { c with readLoan := none, handle := if c.closed then none else c.handle }
  | .destroy, _ =>
      { c with closed := true, handle := if c.readLoan.isNone then none else c.handle }
  | .reconnect _, .ok (.reconnected _ handle) => { c with handle := handle }
  | _, _ => c

def leaveClient (a : ChannelCall) (x : Except Error ChannelResult) (c : ChannelClient) :
    ChannelClient :=
  { keepResult a x c with call := none }

def machine :
    Machine Endpoint (Instr ChannelLoc) Reply Error ChannelResult ChannelCall ChannelWorld where
  exec := q.memory.exec
  code := q.code
  allowed t a w := allowed t a w = true
  enter t a w :=
    { w with
      client := Function.update w.client t (enterClient t a w)
      seen := Function.update w.seen t [w.mem .latestTicket] }
  leave t a x w :=
    { w with
      client := Function.update w.client t (leaveClient a x (w.client t))
      finished := w.finished ++ [⟨t, a, x, (w.client t).passed, (w.client t).out, w.seen t,
        (w.client t).ticketStores⟩] }
  crash t w :=
    { w with
      lock := if w.lock = some t then none else w.lock
      crashed := Function.update w.crashed t true }

/-- The words of an instance when its creator makes it READY. -/
def initialMem : ChannelMem
  | .bootInitState | .initState => InitState.ready.code
  | .producerState => EndpointState.online.code
  | .identity true .roleEpoch => 2
  | .identity true .pid => (q.self .producer).pid
  | .identity true .procStartTicks => (q.self .producer).procStartTicks
  | .identity true .bootIdHashHi => (q.self .producer).bootIdHashHi
  | .identity true .bootIdHashLo => (q.self .producer).bootIdHashLo
  | _ => 0

/-- The world right after creation; output buffers hold anything. -/
def init (out : Endpoint → Nat → Nat) : ChannelWorld where
  mem := q.initialMem
  client t := ⟨none, out t, none, false, none, none, [], 0, 0, 0, []⟩
  committed := []
  seen _ := [0]
  finished := []
  lock := none
  crashed _ := false
  futex := .fresh

end ChannelSystem
end EdgeRuntime

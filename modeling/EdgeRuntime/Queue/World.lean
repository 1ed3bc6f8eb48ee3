import EdgeRuntime.Queue.Creation

/-!
A created queue and its clients. The world holds the shared words, every client's
output buffer and the history of position stores: which payloads were pushed and
popped, in the order of those stores, and what each finished call had stored.
-/
namespace EdgeRuntime
open Concurrent

inductive QueueCall
  | push (payload : List Nat)
  | pop (payloadSize : Nat)
  deriving DecidableEq, Repr

/-- What is known of one client: its call in flight, its output buffer and the
position stores the call has made. -/
structure QueueClient where
  call : Option QueueCall
  out : Nat → Nat
  enqueueStores : Nat
  dequeueStores : Nat

/-- A finished call with its result and the position stores it made. -/
structure QueueReturn where
  call : QueueCall
  result : Except Error Unit
  enqueueStores : Nat
  dequeueStores : Nat

structure QueueWorld (T : Type) where
  mem : QueueMem
  client : T → QueueClient
  /-- Payloads of the pushes that stored the enqueue position, in that order. -/
  pushed : List (List Nat)
  /-- Payloads copied out by the pops that stored the dequeue position. -/
  popped : List (List Nat)
  finished : List QueueReturn
  /-- A position or an owner epoch has been stored below its current value. -/
  wrapped : Bool
  /-- A gate or a slot has been marked as out of epochs. -/
  exhausted : Bool
  crashed : T → Bool
  /-- The sleepers on the notify epoch. -/
  futex : FutexLog T

/-- One created queue and the handles its clients opened on it. -/
structure QueueSystem (T : Type) where
  options : MpmcQueueOptions
  schema : SchemaDescriptor
  payloadSize : Nat
  creator : ProcessIdentity
  handle : MpmcQueueHandle
  initial : QueueMem
  created : mpmcCreateImpl options schema payloadSize (.ok creator) = .ok (handle, initial)
  self : T → ProcessIdentity
  removed : T → Bool
  /-- The replies a liveness probe may give. -/
  answers : QueueWorld T → Nat → Nat → Liveness → Prop

/-- The words that only ever count up. -/
def QueueLoc.isCounter : QueueLoc → Bool
  | .enqueuePosition | .dequeuePosition | .gateEpoch _ | .slotEpoch _ => true
  | _ => false

/-- The store marks a gate or a slot as out of epochs. -/
def QueueLoc.exhausts (l : QueueLoc) (v : Nat) : Bool :=
  match l with
  | .gateState _ => v = MpmcLockState.epochExhausted.code
  | .slotState _ => v = MpmcSlotState.epochExhausted.code
  | _ => false

/-- The program of a call. -/
def attemptImpl (handle : MpmcQueueHandle) : QueueCall → QueueCode Unit
  | .push payload => mpmcTryPushImpl handle payload
  | .pop payloadSize => mpmcTryPopImpl handle payloadSize

def QueueCall.payload : Option QueueCall → List Nat
  | some (.push payload) => payload
  | _ => []

namespace QueueSystem
variable {T : Type} [DecidableEq T] (q : QueueSystem T)

def handleOf (t : T) : MpmcQueueHandle :=
  { q.handle with self := q.self t, removed := q.removed t }

/-- What the client's buffer holds. -/
def received (c : QueueClient) : List Nat := (List.range q.payloadSize).map c.out

/-- A claimed gate and a moved position are announced by a move of the notify epoch. -/
def recordFutex (t : T) (l : QueueLoc) (v : Nat) (log : FutexLog T) : FutexLog T :=
  match l with
  | .enqueuePosition | .dequeuePosition => log.change t
  | .gateState _ => if v = MpmcLockState.claiming.code then log.change t else log
  | .notifyEpoch => log.move t
  | _ => log

def write (t : T) (l : QueueLoc) (v : Nat) (w : QueueWorld T) : QueueWorld T :=
  let c := w.client t
  { w with
    mem := w.mem.set l v
    client := Function.update w.client t
      { c with
        enqueueStores := c.enqueueStores + (if l = .enqueuePosition then 1 else 0)
        dequeueStores := c.dequeueStores + (if l = .dequeuePosition then 1 else 0) }
    pushed := if l = .enqueuePosition then w.pushed ++ [QueueCall.payload c.call]
      else w.pushed
    popped := if l = .dequeuePosition then w.popped ++ [q.received c] else w.popped
    wrapped := w.wrapped || (l.isCounter && v < w.mem l)
    exhausted := w.exhausted || l.exhausts v
    futex := recordFutex t l v w.futex }

def fill (t : T) (j v : Nat) (w : QueueWorld T) : QueueWorld T :=
  { w with
    client := Function.update w.client t
      { w.client t with out := Function.update (w.client t).out j v } }

/-- The same world with another log of sleepers. -/
def setFutex (log : FutexLog T) (w : QueueWorld T) : QueueWorld T := { w with futex := log }

def memory : Memory T QueueLoc (QueueWorld T) where
  read := QueueWorld.mem
  write := q.write
  fill := fill
  answers := q.answers
  -- a queue has no control lock after its creation
  lock _ _ := none
  unlock _ w := w
  futex := QueueWorld.futex
  setFutex := setFutex

def machine : Machine T (Instr QueueLoc) Reply Error Unit QueueCall (QueueWorld T) where
  exec := q.memory.exec
  code t a _ := attemptImpl (q.handleOf t) a
  allowed _ _ _ := True
  enter t a w :=
    { w with client := Function.update w.client t ⟨some a, (w.client t).out, 0, 0⟩ }
  leave t a x w :=
    { w with
      client := Function.update w.client t { w.client t with call := none }
      finished := w.finished ++
        [⟨a, x, (w.client t).enqueueStores, (w.client t).dequeueStores⟩] }
  crash t w := { w with crashed := Function.update w.crashed t true }

/-- The world right after creation; output buffers hold anything. -/
def init (out : T → Nat → Nat) : QueueWorld T where
  mem := q.initial
  client t := ⟨none, out t, 0, 0⟩
  pushed := []
  popped := []
  finished := []
  wrapped := false
  exhausted := false
  crashed _ := false
  futex := .fresh

end QueueSystem
end EdgeRuntime

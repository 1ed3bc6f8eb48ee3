import EdgeRuntime.Concurrent.Schedule
import EdgeRuntime.Pool.Status

/-!
A created buffer pool and its clients. The world holds the shared words, the buffers every
client has in its hands and, block by block, the history of the block: which generations
were handed to a writer, which were published and with what payload, which were handed to a
reader, and whose store it was that made the block's state what it is.
-/
namespace EdgeRuntime
open Concurrent

inductive PoolCall
  | tryAcquireWrite
  /-- The client fills a part of the payload of a buffer it writes. -/
  | fill (buffer : BufferLease) (offset : Nat) (bytes : List Nat)
  | publish (buffer : BufferLease)
  | abort (buffer : BufferLease)
  | acquireRead (descriptor : BufferHandle)
  | release (buffer : BufferLease)
  | status
  | removeIfCreator (calls : ShmUnlinking)

inductive PoolReply
  | written (buffer : BufferLease)
  | published (descriptor : BufferHandle)
  | read (buffer : BufferLease)
  | status (status : SharedBufferPoolStatus)
  | done
  deriving DecidableEq, Repr

/-- The buffers of one client, and whether its handle has removed the pool. -/
structure PoolClient where
  writes : List BufferLease
  reads : List BufferLease
  removed : Bool
  deriving DecidableEq, Repr

/-- A publication: its generation and the payload at that instant. -/
structure Publication where
  generation : Nat
  payload : Nat → Nat

/-- The generations of a block, in the order of the stores that decide. -/
structure BlockHistory where
  granted : List Nat
  published : List Publication
  taken : List Nat

structure PoolReturn where
  call : PoolCall
  result : Except Error PoolReply

structure PoolWorld (T : Type) where
  mem : PoolMem
  client : T → PoolClient
  history : Nat → BlockHistory
  /-- The client that was the last to change the state word of the block. -/
  claimant : Nat → Option T
  finished : List PoolReturn

/-- One created pool and the handles its clients opened on it. -/
structure PoolSystem (T : Type) where
  options : SharedBufferPoolOptions
  creator : ProcessIdentity
  nonceHi : Nat
  nonceLo : Nat
  handle : SharedBufferPoolHandle
  initial : PoolMem
  created : sharedBufferPoolCreateImpl options (.ok creator) nonceHi nonceLo =
    .ok (handle, initial)
  self : T → ProcessIdentity
  /-- A process reads its own identity with none of the four fields zero. -/
  valid : ∀ t, ownerValid (ownerFromProcess (self t))
  /-- The replies a liveness probe may give. -/
  answers : PoolWorld T → Nat → Nat → Liveness → Prop

namespace PoolClient

/-- No buffer of the block is in the client's hands any more. -/
def drop (c : PoolClient) (block : Nat) : PoolClient :=
  { c with
    writes := c.writes.filter (·.block ≠ block)
    reads := c.reads.filter (·.block ≠ block) }

/-- What the client holds after a call. A failed publish leaves its buffer active; an abort
and a release never do. -/
def leave (c : PoolClient) (a : PoolCall) (x : Except Error PoolReply) : PoolClient :=
  match a, x with
  | .tryAcquireWrite, .ok (.written buffer) => { c with writes := c.writes ++ [buffer] }
  | .acquireRead _, .ok (.read buffer) => { c with reads := c.reads ++ [buffer] }
  | .publish buffer, .ok _ => { c with writes := c.writes.filter (· ≠ buffer) }
  | .abort buffer, _ => { c with writes := c.writes.filter (· ≠ buffer) }
  | .release buffer, _ => { c with reads := c.reads.filter (· ≠ buffer) }
  | .removeIfCreator _, .ok _ => { c with removed := true }
  | _, _ => c

def buffers (c : PoolClient) : List BufferLease := c.writes ++ c.reads

end PoolClient

/-- What a store to the state word of a block says about the block's generation. -/
def BlockHistory.record (h : BlockHistory) (m : PoolMem) (block v : Nat) : BlockHistory :=
  if v = SharedBufferBlockState.writing.code then
    { h with granted := h.granted ++ [m (.blockGeneration block)] }
  else if v = SharedBufferBlockState.published.code ∧
      m (.blockState block) = SharedBufferBlockState.writing.code then
    { h with
      published := h.published ++
        [⟨m (.blockGeneration block), fun offset => m (.blockPayload block offset)⟩] }
  else if v = SharedBufferBlockState.reading.code then
    { h with taken := h.taken ++ [m (.blockGeneration block)] }
  else h

namespace PoolSystem
variable {T : Type} [DecidableEq T] (q : PoolSystem T)

def handleOf (t : T) (c : PoolClient) : SharedBufferPoolHandle :=
  { q.handle with self := q.self t, removed := c.removed }

/-- A buffer is out of its holder's hands with the store that frees or publishes the
block. -/
def write (t : T) (l : PoolLoc) (v : Nat) (w : PoolWorld T) : PoolWorld T :=
  match l with
  | .blockState block =>
      { w with
        mem := w.mem.set l v
        client := if v = SharedBufferBlockState.free.code ∨
            v = SharedBufferBlockState.published.code then
          Function.update w.client t ((w.client t).drop block)
        else w.client
        history := Function.update w.history block ((w.history block).record w.mem block v)
        claimant := Function.update w.claimant block (some t) }
  | _ => { w with mem := w.mem.set l v }

def memory : Memory T PoolLoc (PoolWorld T) where
  read := PoolWorld.mem
  write := write
  fill _ _ _ w := w
  answers := q.answers
  -- a pool has neither a control lock nor sleepers
  lock _ _ := none
  unlock _ w := w
  futex _ := .fresh
  setFutex _ w := w

def code (t : T) (c : PoolClient) : PoolCall → PoolCode PoolReply
  | .tryAcquireWrite =>
      sharedBufferPoolTryAcquireWriteImpl (q.handleOf t c) >>= fun b => .ret (.written b)
  | .fill buffer offset bytes =>
      copyIn (.blockPayload buffer.block) offset bytes >>= fun _ => .ret .done
  | .publish buffer =>
      sharedBufferPoolPublishWriteImpl (q.handleOf t c) buffer >>= fun d => .ret (.published d)
  | .abort buffer =>
      sharedBufferPoolAbortWriteImpl (q.handleOf t c) buffer >>= fun _ => .ret .done
  | .acquireRead descriptor =>
      sharedBufferPoolAcquireReadImpl (q.handleOf t c) descriptor >>= fun b => .ret (.read b)
  | .release buffer =>
      sharedBufferPoolReleaseReadImpl (q.handleOf t c) buffer >>= fun _ => .ret .done
  | .status => sharedBufferPoolStatusImpl (q.handleOf t c) >>= fun s => .ret (.status s)
  | .removeIfCreator calls =>
      sharedBufferPoolRemoveIfCreatorImpl (q.handleOf t c) calls >>= fun _ => .ret .done

/-- A client uses the buffers it has, or ones that are not active any more. It writes
through the pointer of an active buffer and inside its size. -/
def allowed (c : PoolClient) : PoolCall → Prop
  | .fill buffer offset bytes => buffer ∈ c.writes ∧ offset + bytes.length ≤ buffer.size
  | .publish buffer | .abort buffer => buffer ∈ c.writes ∨ buffer.active = false
  | .release buffer => buffer ∈ c.reads ∨ buffer.active = false
  | .tryAcquireWrite | .acquireRead _ | .status | .removeIfCreator _ => True

def machine : Machine T (Instr PoolLoc) Reply Error PoolReply PoolCall (PoolWorld T) where
  exec := q.memory.exec
  code t a w := q.code t (w.client t) a
  allowed t a w := allowed (w.client t) a
  enter _ _ w := w
  leave t a x w :=
    { w with
      client := Function.update w.client t ((w.client t).leave a x)
      finished := w.finished ++ [⟨a, x⟩] }
  crash _ w := w

/-- The world right after creation. -/
def init : PoolWorld T where
  mem := q.initial
  client _ := ⟨[], [], false⟩
  history _ := ⟨[], [], []⟩
  claimant _ := none
  finished := []

end PoolSystem

/-- The block loop stores zeros only. -/
theorem initBlocks_zero {options : SharedBufferPoolOptions} {ids : List Nat} {m m' : PoolMem}
    (zero : ∀ l, l ≠ .initState → m l = 0)
    (folded : ids.foldlM (sharedBufferPoolInitBlock options) m = .ok m') :
    ∀ l, l ≠ .initState → m' l = 0 := by
  induction ids generalizing m with
  | nil =>
      cases folded
      exact zero
  | cons id ids ih =>
      rw [List.foldlM_cons, except_bind_eq_ok] at folded
      obtain ⟨m₁, first, rest⟩ := folded
      refine ih ?_ rest
      unfold sharedBufferPoolInitBlock at first
      split at first
      · cases first
      · cases first
        intro l other
        simp only [Words.set_apply, SharedBufferBlockState.code, zero l other, ite_self]

/-- A created pool starts READY with every other word zero, and its handle fits the
mapping. -/
theorem sharedBufferPoolCreateImpl_ok {options : SharedBufferPoolOptions}
    {creator : ProcessIdentity} {nonceHi nonceLo : Nat} {handle : SharedBufferPoolHandle}
    {m : PoolMem}
    (h : sharedBufferPoolCreateImpl options (.ok creator) nonceHi nonceLo = .ok (handle, m)) :
    AcceptedPool handle.size handle ∧ m .initState = SharedBufferPoolInitState.ready.code ∧
      ∀ l, l ≠ .initState → m l = 0 := by
  simp only [sharedBufferPoolCreateImpl, except_bind_eq_ok] at h
  obtain ⟨_, _, self, hself, h⟩ := h
  cases hself
  split at h
  · cases h
  · rename_i mapping sized
    split at h
    · cases h
    · rw [except_bind_eq_ok] at h
      obtain ⟨m₁, folded, h⟩ := h
      cases h
      refine ⟨⟨rfl, sized⟩, by simp, ?_⟩
      intro l other
      rw [Words.set_apply, if_neg other]
      refine initBlocks_zero ?_ folded l other
      intro l other
      rw [Words.set_apply, if_neg other]

end EdgeRuntime

import EdgeRuntime.Concurrent.Script
import EdgeRuntime.Pool.World

/-!
What a client of a pool knows. While a client holds a block nobody else stores to the
block's words, so the client knows every word it has loaded or stored since it claimed the
block. The rules below say what it may do next on the strength of that; the invariant says
that what the clients know is true and that the history of every block is in order.
-/
namespace EdgeRuntime
open Concurrent

/-- The block that a word belongs to. -/
def PoolLoc.inBlock : PoolLoc → Option Nat
  | .blockState b | .blockGeneration b | .blockOwner b _ | .blockEpoch b
  | .blockPayload b _ => some b
  | .initState | .unlinked => none

namespace SharedBufferBlockState

/-- The code of a state in which somebody holds the block. -/
def InHand (v : Nat) : Prop :=
  v = writingClaiming.code ∨ v = writing.code ∨ v = readingClaiming.code ∨ v = reading.code

def Claiming (v : Nat) : Prop := v = writingClaiming.code ∨ v = readingClaiming.code

instance (v : Nat) : Decidable (InHand v) := inferInstanceAs (Decidable (_ ∨ _))

end SharedBufferBlockState

open SharedBufferBlockState (InHand Claiming)

/-- What a client has in its hands: its buffers, the words it knows, and the blocks whose
generation it has raised since it claimed them. -/
structure Hand where
  client : PoolClient
  known : PoolLoc → Option Nat
  raised : Nat → Bool

namespace Hand

def holds (d : Hand) (b : Nat) : Bool := (d.known (.blockState b)).isSome

def learn (d : Hand) (l : PoolLoc) (v : Nat) : Hand :=
  { d with known := Function.update d.known l (some v) }

/-- The client stores the next generation. -/
def raise (d : Hand) (b v : Nat) : Hand :=
  { d.learn (.blockGeneration b) v with raised := Function.update d.raised b true }

def forget (d : Hand) (b : Nat) : Hand :=
  { d with
    known := fun l => if l.inBlock = some b then none else d.known l
    raised := Function.update d.raised b false }

/-- The client stores to the state word of a block. -/
def turn (d : Hand) (b v : Nat) : Hand :=
  if InHand v then d.learn (.blockState b) v
  else if v = SharedBufferBlockState.free.code ∨
      v = SharedBufferBlockState.published.code then
    { d.forget b with client := d.client.drop b }
  else d.forget b

def next (d : Hand) : (i : Instr PoolLoc) → Reply i → Hand
  | .load (.blockGeneration b), r =>
      if d.holds b then d.learn (.blockGeneration b) r else d
  | .load (.blockEpoch b), r => if d.holds b then d.learn (.blockEpoch b) r else d
  | .store (.blockState b) v, _ => d.turn b v
  | .store (.blockGeneration b) v, _ => d.raise b v
  | .store (.blockOwner b word) v, _ => d.learn (.blockOwner b word) v
  | .store (.blockEpoch b) v, _ => d.learn (.blockEpoch b) v
  | .cas (.blockState b) _ v, r => cond r (d.turn b v) d
  | .cas (.blockEpoch b) _ v, r => cond r (d.learn (.blockEpoch b) v) d
  | _, _ => d

/-- Where a client may take the state word of a block that it holds. An epoch that was
touched is committed first; a writer leaves room for its reader. -/
inductive Turns (d : Hand) (b : Nat) : Nat → Prop
  | giveUp {v : Nat} (state : d.known (.blockState b) =
        some SharedBufferBlockState.writingClaiming.code)
      (epoch : ∀ e, d.known (.blockEpoch b) = some e →
        e % 2 = 0 ∧ e ≤ maxCommittedOwnerEpoch)
      (target : v = SharedBufferBlockState.free.code ∨
        v = SharedBufferBlockState.epochExhausted.code) : Turns d b v
  | write {e : Nat} (state : d.known (.blockState b) =
        some SharedBufferBlockState.writingClaiming.code)
      (raised : d.raised b = true)
      (epoch : d.known (.blockEpoch b) = some e) (even : e % 2 = 0)
      (room : e + 2 ≤ maxCommittedOwnerEpoch) :
      Turns d b SharedBufferBlockState.writing.code
  | publish (state : d.known (.blockState b) = some SharedBufferBlockState.writing.code) :
      Turns d b SharedBufferBlockState.published.code
  | abort (state : d.known (.blockState b) = some SharedBufferBlockState.writing.code) :
      Turns d b SharedBufferBlockState.free.code
  | restore (state : d.known (.blockState b) =
        some SharedBufferBlockState.readingClaiming.code)
      (epoch : ∀ e, d.known (.blockEpoch b) = some e →
        e % 2 = 0 ∧ e + 2 ≤ maxCommittedOwnerEpoch) :
      Turns d b SharedBufferBlockState.published.code
  | read {e : Nat} (state : d.known (.blockState b) =
        some SharedBufferBlockState.readingClaiming.code)
      (epoch : d.known (.blockEpoch b) = some e) (even : e % 2 = 0)
      (room : e ≤ maxCommittedOwnerEpoch) :
      Turns d b SharedBufferBlockState.reading.code
  | release (state : d.known (.blockState b) = some SharedBufferBlockState.reading.code) :
      Turns d b SharedBufferBlockState.free.code

/-- The client is between its claim and its commit, with the epoch odd. -/
structure Committing (d : Hand) (b e : Nat) : Prop where
  state : ∃ v, d.known (.blockState b) = some v ∧ Claiming v
  epoch : d.known (.blockEpoch b) = some e
  odd : e % 2 = 1

/-- What a client may do. -/
def Allow (d : Hand) : Instr PoolLoc → Prop
  | .load l => l ≠ .unlinked
  | .probe _ _ => True
  | .store (.blockState b) v => d.Turns b v
  | .store (.blockGeneration b) v => ∃ e g, d.Committing b e ∧
      d.known (.blockState b) = some SharedBufferBlockState.writingClaiming.code ∧
      d.known (.blockGeneration b) = some g ∧ g < uint64Max ∧ v = g + 1
  | .store (.blockOwner b _) _ => ∃ e, d.Committing b e
  | .store (.blockEpoch b) v => ∃ e, d.Committing b e ∧ v = e + 1 ∧ v ≤ maxCommittedOwnerEpoch
  | .store (.blockPayload b _) _ =>
      d.known (.blockState b) = some SharedBufferBlockState.writing.code
  | .store .unlinked _ => True
  | .cas (.blockState b) expected v =>
      d.holds b = false ∧ (expected = SharedBufferBlockState.free.code ∧
          v = SharedBufferBlockState.writingClaiming.code ∨
        expected = SharedBufferBlockState.published.code ∧
          v = SharedBufferBlockState.readingClaiming.code) ∨
      d.known (.blockState b) = some expected ∧ d.Turns b v
  | .cas (.blockEpoch b) expected v =>
      (∃ s, d.known (.blockState b) = some s ∧ Claiming s) ∧
        d.known (.blockEpoch b) = some expected ∧ v = expected + 1 ∧
        v ≤ maxCommittedOwnerEpoch
  | _ => False

/-- An epoch that nobody is about to change, under a state of the block. -/
structure Settled (state epoch : Nat) : Prop where
  even : epoch % 2 = 0
  bound : epoch ≤ maxCommittedOwnerEpoch
  room : state = SharedBufferBlockState.writing.code ∨
    state = SharedBufferBlockState.published.code ∨
    state = SharedBufferBlockState.readingClaiming.code →
      epoch + 2 ≤ maxCommittedOwnerEpoch

/-- The replies that can come: known words keep their values, and an epoch that the holder
of a block meets is settled. -/
def May (d : Hand) : (i : Instr PoolLoc) → Reply i → Prop
  | .load .initState, r => r = SharedBufferPoolInitState.ready.code
  | .load (.blockEpoch b), r =>
      (∀ v, d.known (.blockEpoch b) = some v → r = v) ∧
        ∀ s, d.known (.blockState b) = some s → d.known (.blockEpoch b) = none →
          Settled s r
  | .load (.blockGeneration b), r =>
      (∀ v, d.known (.blockGeneration b) = some v → r = v) ∧
        (d.holds b = true → Nat.le r uint64Max)
  | .load l, r => ∀ v, d.known l = some v → r = v
  | .cas l expected _, r => ∀ v, d.known l = some v → r = decide (v = expected)
  | _, _ => True

def script : Script (Instr PoolLoc) Reply Hand where
  allow := Allow
  next := next
  may := May

section
variable {d : Hand} {l l' : PoolLoc} {b b' v : Nat}

@[simp] theorem learn_raised : (d.learn l v).raised = d.raised := rfl

@[simp] theorem learn_known : (d.learn l v).known l = some v := Function.update_self _ _ _

theorem learn_known_of_ne (h : l' ≠ l) : (d.learn l v).known l' = d.known l' :=
  Function.update_of_ne h _ _

/-- A word that is known already. -/
theorem learn_eq_self (h : d.known l = some v) : d.learn l v = d := by
  unfold learn
  rw [← h, Function.update_eq_self]

theorem forget_known_of_not (h : l.inBlock ≠ some b) : (d.forget b).known l = d.known l :=
  if_neg h

theorem holds_iff : d.holds b = true ↔ ∃ s, d.known (.blockState b) = some s :=
  Option.isSome_iff_exists

theorem not_holds_iff : d.holds b = false ↔ d.known (.blockState b) = none := by
  unfold holds
  rw [Option.isSome_eq_false_iff, Option.isNone_iff_eq_none]

end
end Hand

/-- The generations of a block in order: nothing is handed out, published or taken twice,
only what was handed out is published, and only what was published is taken. -/
structure Chronicle (h : BlockHistory) : Prop where
  granted : h.granted.Pairwise (· < ·)
  published : h.published.Pairwise (·.generation < ·.generation)
  taken : h.taken.Pairwise (· < ·)
  positive : ∀ g ∈ h.granted, 0 < g
  published_granted : ∀ p ∈ h.published, p.generation ∈ h.granted
  taken_published : ∀ g ∈ h.taken, ∃ p ∈ h.published, p.generation = g

/-- The state, generation, epoch and payload of a block fit together and fit its history.
The holder's knowledge of the epoch counts, and whether it has raised the generation. -/
structure BlockWords (s g e : Nat) (payload : Nat → Nat) (h : BlockHistory)
    (known : Option Nat) (raised : Bool) : Prop where
  code : ∃ state, state ≠ SharedBufferBlockState.ownerProtocolFault ∧ s = state.code
  settled : (Claiming s → known = none) → Hand.Settled s e
  epoch : e ≤ maxCommittedOwnerEpoch
  generation : g ≤ uint64Max
  chronicle : Chronicle h
  bound : ∀ g' ∈ h.granted, g' ≤ g
  fresh : raised = true → s = SharedBufferBlockState.writingClaiming.code →
    0 < g ∧ ∀ g' ∈ h.granted, g' < g
  writing : s = SharedBufferBlockState.writing.code →
    g ∈ h.granted ∧ ∀ p ∈ h.published, p.generation < g
  offered : s = SharedBufferBlockState.published.code ∨
      s = SharedBufferBlockState.readingClaiming.code ∨
      s = SharedBufferBlockState.reading.code →
    ∃ p ∈ h.published, p.generation = g ∧ p.payload = payload
  untaken : s = SharedBufferBlockState.published.code ∨
      s = SharedBufferBlockState.readingClaiming.code → ∀ g' ∈ h.taken, g' < g

/-- The words of a block in memory. -/
def BlockFits (m : PoolMem) (b : Nat) (h : BlockHistory) (known : Option Nat)
    (raised : Bool) : Prop :=
  BlockWords (m (.blockState b)) (m (.blockGeneration b)) (m (.blockEpoch b))
    (fun offset => m (.blockPayload b offset)) h known raised

/-- The client has nothing to do with the block. -/
structure Hand.Ignorant (d : Hand) (b : Nat) : Prop where
  known : ∀ l, l.inBlock = some b → d.known l = none
  raised : d.raised b = false

/-- The client is the one that holds the block, and what it knows is true. -/
structure HeldBy {T : Type} (m : PoolMem) (h : BlockHistory) (d : T → Hand) (b : Nat) (t : T) :
    Prop where
  fits : BlockFits m b h ((d t).known (.blockEpoch b)) ((d t).raised b)
  held : InHand (m (.blockState b))
  holds : (d t).holds b = true
  knows : ∀ l v, l.inBlock = some b → (d t).known l = some v → m l = v
  /-- Of the payload a client keeps nothing in mind. -/
  unknown : ∀ offset, (d t).known (.blockPayload b offset) = none
  others : ∀ u, u ≠ t → (d u).Ignorant b

inductive BlockInv {T : Type} (m : PoolMem) (h : BlockHistory) (d : T → Hand) (b : Nat) :
    Prop
  | loose (fits : BlockFits m b h none false) (unheld : ¬ InHand (m (.blockState b)))
      (nobody : ∀ t, (d t).Ignorant b)
  | held (t : T) (holder : HeldBy m h d b t)

/-- A buffer that its client may use: the client knows all words of the block but the
payload, and the descriptor is the block's own. -/
structure Leased (header : SharedBufferPoolHeaderAbi) (me : OwnerAbi) (d : Hand)
    (s : SharedBufferBlockState) (buffer : BufferLease) : Prop where
  state : d.known (.blockState buffer.block) = some s.code
  generation : d.known (.blockGeneration buffer.block) =
    some buffer.descriptor.blockGeneration
  epoch : ∃ e, d.known (.blockEpoch buffer.block) = some e ∧ e % 2 = 0
  owner : ∀ word, d.known (.blockOwner buffer.block word) = some (me.word word)
  descriptor : buffer.descriptor =
    handleAt header buffer.block buffer.descriptor.blockGeneration
  size : buffer.size = header.blockSize
  below : buffer.block < header.blockCount
  active : buffer.active = true

namespace PoolSystem
variable {T : Type} (q : PoolSystem T)

def owner (t : T) : OwnerAbi := ownerFromProcess (q.self t)

/-- Every buffer of the client is leased, no two of them are of one block, and a client
that has removed the pool has none. -/
structure Sound (t : T) (d : Hand) : Prop where
  writes : ∀ l ∈ d.client.writes, Leased q.handle.header (q.owner t) d .writing l
  reads : ∀ l ∈ d.client.reads, Leased q.handle.header (q.owner t) d .reading l
  apart : (d.client.buffers.map (·.block)).Nodup
  removed : d.client.removed = true → d.client.buffers = []

/-- Between calls a client holds the blocks of its buffers and knows nothing of others. -/
structure Tidy (t : T) (d : Hand) : Prop extends Sound q t d where
  cover : ∀ b, d.holds b = true → ∃ l ∈ d.client.buffers, l.block = b
  ignorant : ∀ b, d.holds b = false → d.Ignorant b

end PoolSystem

/-- How the calls on a pool end: an active buffer is always published, and a reader is never
turned away for want of epochs. -/
def PoolReturn.Right (r : PoolReturn) : Prop :=
  match r.call, r.result with
  | .publish buffer, x => buffer.active = true → x = .ok (.published buffer.descriptor)
  | .acquireRead _, .error e => e.code ≠ .sequenceExhausted
  | _, _ => True

structure PoolInv {T : Type} (q : PoolSystem T) (w : PoolWorld T) (d : T → Hand) : Prop where
  ready : w.mem .initState = SharedBufferPoolInitState.ready.code
  client : ∀ t, (d t).client = w.client t
  block : ∀ b, BlockInv w.mem (w.history b) d b
  sound : ∀ t, q.Sound t (d t)
  finished : ∀ r ∈ w.finished, r.Right

end EdgeRuntime

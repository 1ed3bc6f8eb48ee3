import EdgeRuntime.Channel.World
import EdgeRuntime.Sync.AccessRules

/-!
The invariant of a channel and what its endpoints guarantee each other. Proof states
add to the world which consumer is registered, which slot it holds or may claim next,
and the sample that is published in its slot but not yet named by the ticket.

The producer owns every slot that is not readable. A slot being read belongs to the
keeper: the registered consumer while it lives, and afterwards whoever holds the
control lock.
-/
namespace EdgeRuntime
open Concurrent

/-- The words only the producer writes, apart from the slots. -/
def ChannelLoc.isProducerWord : ChannelLoc → Bool
  | .bootInitState | .initState | .producerState | .identity true _ | .latestTicket
  | .notifyEpoch | .publishCount | .lastPublishBootNs | .heartbeatBootNs
  | .handle .producer _ => true
  | _ => false

/-- The slot whose sample a word is part of. -/
def ChannelLoc.dataSlot? : ChannelLoc → Option Nat
  | .slotPayloadSize i | .slotSequence i | .slotPublishBootNs i | .slotChecksum i
  | .slotPayload i _ => some i
  | _ => none

/-- The words that say who is reading. -/
def ChannelLoc.isConsumerWord : ChannelLoc → Bool
  | .consumerState | .identity false _ | .slotReaderEpoch _ => true
  | _ => false

def HeldCode (v : Nat) : Prop :=
  v = SlotState.readingClaiming.code ∨ v = SlotState.reading.code

def ReadableCode (v : Nat) : Prop := v = SlotState.published.code ∨ HeldCode v

instance (v : Nat) : Decidable (HeldCode v) := inferInstanceAs (Decidable (_ ∨ _))
instance (v : Nat) : Decidable (ReadableCode v) := inferInstanceAs (Decidable (_ ∨ _))

/-- The slot is claimed for reading or being read. -/
def Held (m : ChannelMem) (i : Nat) : Prop := HeldCode (m (.slotState i))

/-- The slot carries a complete sample. -/
def Readable (m : ChannelMem) (i : Nat) : Prop := ReadableCode (m (.slotState i))

/-- The sample a slot carries. -/
structure Holds (m : ChannelMem) (i : Nat) (sample : Sample) : Prop where
  sequence : m (.slotSequence i) = sample.sequence
  bootNs : m (.slotPublishBootNs i) = sample.publishBootNs
  size : m (.slotPayloadSize i) = sample.payload.length
  payload : ChannelSystem.loanBytes m i sample.payload.length = sample.payload
  checksum : m (.slotChecksum i) = fnv1a64 sample.payload

structure ChannelState where
  world : ChannelWorld
  /-- The registered consumer. -/
  reader : Option Nat
  /-- The slot that consumer holds, or may claim with the ticket it has loaded. -/
  pending : Option Nat
  /-- A sample published in its slot before the ticket names it. -/
  staged : Option (Nat × Sample)

namespace ChannelState

def mem (s : ChannelState) : ChannelMem := s.world.mem

/-- The same state with another sample staged. -/
def stage (s : ChannelState) (staged : Option (Nat × Sample)) : ChannelState :=
  ⟨s.world, s.reader, s.pending, staged⟩

/-- The same state with another consumer registered, or another slot to claim. -/
def register (s : ChannelState) (reader pending : Option Nat) : ChannelState :=
  ⟨s.world, reader, pending, s.staged⟩

/-- The same auxiliary fields over another world. -/
def setWorld (s : ChannelState) (w : ChannelWorld) : ChannelState :=
  ⟨w, s.reader, s.pending, s.staged⟩

section
variable (s : ChannelState) (w : ChannelWorld) (reader pending : Option Nat)
  (staged : Option (Nat × Sample))

@[simp] theorem stage_world : (s.stage staged).world = s.world := rfl
@[simp] theorem stage_mem : (s.stage staged).mem = s.mem := rfl
@[simp] theorem register_world : (s.register reader pending).world = s.world := rfl
@[simp] theorem register_mem : (s.register reader pending).mem = s.mem := rfl
@[simp] theorem setWorld_world : (s.setWorld w).world = w := rfl
@[simp] theorem setWorld_mem : (s.setWorld w).mem = w.mem := rfl

end

/-- No living consumer is registered. -/
def Vacant (s : ChannelState) : Prop :=
  ∀ r, s.reader = some r → s.world.crashed (.consumer r) = true

/-- The one who may touch the slots being read. -/
def Keeper (t : Endpoint) (s : ChannelState) : Prop :=
  (∃ n, t = .consumer n ∧ s.reader = some n ∧ s.world.crashed t = false) ∨
    (s.world.lock = some t ∧ s.Vacant)

theorem keeper_unique {s : ChannelState} {t u : Endpoint} (h : s.Keeper t)
    (h' : s.Keeper u) : t = u := by
  rcases h with ⟨n, rfl, hr, ha⟩ | ⟨hl, hv⟩
  · rcases h' with ⟨n', rfl, hr', _⟩ | ⟨_, hv'⟩
    · cases hr.symm.trans hr'
      rfl
    · exact absurd (hv' n hr) (by simp [ha])
  · rcases h' with ⟨n', rfl, hr', ha'⟩ | ⟨hl', _⟩
    · exact absurd (hv n' hr') (by simp [ha'])
    · exact Option.some.inj (hl.symm.trans hl')

end ChannelState

/-- The registered identity is complete and is that of a consumer's process. -/
structure IdentityIs (m : ChannelMem) (id : ProcessIdentity) : Prop where
  pid : m (.identity false .pid) = id.pid
  ticks : m (.identity false .procStartTicks) = id.procStartTicks
  hi : m (.identity false .bootIdHashHi) = id.bootIdHashHi
  lo : m (.identity false .bootIdHashLo) = id.bootIdHashLo

/-- What the slots and the ticket say about the committed samples. -/
structure SlotsInv (m : ChannelMem) (committed : List Sample)
    (staged : Option (Nat × Sample)) (pending : Option Nat) : Prop where
  numbered : committed.map (·.sequence) = List.range' 1 committed.length
  bounded : committed.length ≤ maxSampleSequence
  states : ∀ i, i < slotCount → m (.slotState i) ≤ SlotState.reading.code
  latest : (m .latestTicket = 0 ∧ committed = []) ∨
    ∃ i, i < slotCount ∧ committed ≠ [] ∧ m .latestTicket = makeTicket committed.length i ∧
      Readable m i ∧ m (.slotSequence i) = committed.length
  content : ∀ i, i < slotCount → Readable m i →
    ∃ sample, Holds m i sample ∧ (sample ∈ committed ∨ staged = some (i, sample))
  staged : ∀ i sample, staged = some (i, sample) →
    Readable m i ∧ sample.sequence = committed.length + 1
  hold : ∀ i, i < slotCount → Held m i → pending = some i

namespace ChannelSystem
variable (q : ChannelSystem)

/-- Some caller's schema passes the opener's check of the header. -/
def Parses : Prop :=
  ∃ schema payloadSize, validateHeaderParse q.header schema payloadSize = .ok ()

/-- What is known about the registered consumer. -/
structure RegistryInv (s : ChannelState) : Prop where
  offline : s.mem .consumerState = EndpointState.offline.code → s.reader = none
  states : s.mem .consumerState = EndpointState.offline.code ∨
    s.mem .consumerState = EndpointState.online.code
  online : s.mem .consumerState = EndpointState.online.code →
    s.mem (.identity false .roleEpoch) ≠ 0 ∧ q.Parses
  unread : s.reader = none → s.pending = none
  registered : ∀ r, s.reader = some r → s.world.crashed (.consumer r) = false →
    IdentityIs s.mem (q.self (.consumer r)) ∧ s.mem (.identity false .roleEpoch) % 2 = 0
  identity : s.mem (.identity false .roleEpoch) % 2 = 0 →
    s.mem (.identity false .roleEpoch) ≠ 0 →
    ∃ r, IdentityIs s.mem (q.self (.consumer r))
  epoch : s.mem (.identity false .roleEpoch) ≤ uint64Max
  epochs : ∀ i, i < slotCount → s.mem (.slotReaderEpoch i) = 0 ∨
    (Held s.mem i ∧ s.mem (.slotReaderEpoch i) = s.mem (.identity false .roleEpoch))
  lock : ∀ t, s.world.lock = some t → s.world.crashed t = false
  /-- Epochs are never used again, and only the registered handle has the latest one. -/
  handles : ∀ n h, (s.world.client (.consumer n)).handle = some h →
    h.roleEpoch ≤ s.mem (.identity false .roleEpoch) ∧
      (h.roleEpoch = s.mem (.identity false .roleEpoch) →
        s.mem .consumerState = EndpointState.online.code → s.reader = some n)

/-- A loan in use: its slot is being read and still carries the borrowed sample. -/
structure LoanInv (s : ChannelState) (n : Nat) (loan : ReadLoan) : Prop where
  slot : loan.slotIndex < slotCount
  reader : s.reader = some n
  state : s.mem (.slotState loan.slotIndex) = SlotState.reading.code
  sequence : s.mem (.slotSequence loan.slotIndex) = loan.snapshot.sampleSequence
  bootNs : s.mem (.slotPublishBootNs loan.slotIndex) = loan.snapshot.publishBootNs
  size : s.mem (.slotPayloadSize loan.slotIndex) = loan.snapshot.encodedSize
  old : loan.snapshot.sampleSequence ≤ s.world.committed.length

/-- The sample a read returned: one committed publish, latest during the call. -/
def Delivers (committed : List Sample) (seen : List Nat) (snapshot : ReadSnapshot)
    (sample : Sample) : Prop :=
  sample ∈ committed ∧ snapshot.sampleSequence = sample.sequence ∧
    snapshot.publishBootNs = sample.publishBootNs ∧
    snapshot.encodedSize = sample.payload.length ∧
    ∃ ticket ∈ seen, ticketSequence ticket = sample.sequence

/-- What a finished call may report. -/
def ReturnOk (committed : List Sample) (r : ChannelReturn) : Prop :=
  match r.result with
  | .error e => r.ticketStores = 0 ∧ (r.endpoint = .producer → FailsCheck e)
  | .ok (.published info) => r.ticketStores = 1 ∧
      ⟨info.sequence, info.publishBootNs, r.passed⟩ ∈ committed
  | .ok (.read snapshot) => r.ticketStores = 0 ∧
      ∃ sample, Delivers committed r.seen snapshot sample ∧
        (List.range snapshot.encodedSize).map r.out = sample.payload
  | .ok (.borrowed loan) => r.ticketStores = 0 ∧
      ∃ sample, Delivers committed r.seen loan.snapshot sample
  | .ok _ => r.ticketStores = 0

structure ClientsInv (s : ChannelState) : Prop where
  seen : ∀ t, s.mem .latestTicket ∈ s.world.seen t
  loans : ∀ n loan, (s.world.client (.consumer n)).readLoan = some loan →
    s.world.crashed (.consumer n) = false →
    (s.world.client (.consumer n)).call ≠ some .release → LoanInv s n loan
  delivered : ∀ n, (s.world.client (.consumer n)).delivered.Pairwise (· < ·) ∧
    ∀ v ∈ (s.world.client (.consumer n)).delivered,
      v ≤ s.mem (.handle (.consumer n) .lastSequence)
  finished : ∀ r ∈ s.world.finished, ReturnOk s.world.committed r

structure Inv (s : ChannelState) : Prop where
  slots : SlotsInv s.mem s.world.committed s.staged s.pending
  registry : q.RegistryInv s
  clients : ClientsInv s

/-- The words an endpoint can count on. -/
inductive Fixed (t : Endpoint) (s : ChannelState) : ChannelLoc → Prop
  | own {w} : Fixed t s (.handle t w)
  | writer {l} (role : t = .producer) (word : l.isProducerWord = true) : Fixed t s l
  | data {l i} (role : t = .producer) (word : l.dataSlot? = some i) : Fixed t s l
  | unread {i} (role : t = .producer) (state : ¬ Readable s.mem i) : Fixed t s (.slotState i)
  | registry {l} (keeper : s.Keeper t) (word : l.isConsumerWord = true) : Fixed t s l
  | identity {w} (locked : s.world.lock = some t) : Fixed t s (.identity false w)
  | heldState {i} (keeper : s.Keeper t) (held : Held s.mem i) : Fixed t s (.slotState i)
  | heldData {l i} (keeper : s.Keeper t) (held : Held s.mem i)
      (word : l.dataSlot? = some i) : Fixed t s l

/-- How the slot a consumer may claim can move while the ticket stands: it is given
up, or becomes the latest one. -/
def Moves (s s' : ChannelState) : Prop :=
  s'.pending = s.pending ∨ s'.pending = none ∨
    (s.mem .latestTicket ≠ 0 ∧ s'.pending = some (ticketSlot (s.mem .latestTicket)))

structure KeeperRely (t : Endpoint) (s s' : ChannelState) : Prop where
  keeper : s'.Keeper t
  reader : s'.reader = s.reader
  pending : s'.pending = s.pending
  held : ∀ i, Held s'.mem i → Held s.mem i
  /-- Nobody else opens the channel meanwhile. -/
  handles : ∀ n h, (s'.world.client (.consumer n)).handle = some h →
    (s.world.client (.consumer n)).handle = some h

structure WriterRely (s s' : ChannelState) : Prop where
  staged : s'.staged = s.staged
  committed : s'.world.committed = s.world.committed
  readable : ∀ i, Readable s.mem i → Readable s'.mem i
  pending : Moves s s'

structure Rely (t : Endpoint) (s s' : ChannelState) : Prop where
  crashed : s'.world.crashed t = s.world.crashed t
  client : s'.world.client t = s.world.client t
  committed : s.world.committed <+: s'.world.committed
  seen : ∀ v ∈ s.world.seen t, v ∈ s'.world.seen t
  lock : s.world.lock = some t → s'.world.lock = some t
  words : ∀ l, Fixed t s l → s'.mem l = s.mem l
  keeper : s.Keeper t → KeeperRely t s s'
  writer : t = .producer → WriterRely s s'

variable {q} {t u : Endpoint} {s s' : ChannelState}

theorem fixed_rely {l : ChannelLoc} (h : Fixed t s l) (hr : Rely t s s') : Fixed t s' l := by
  cases h with
  | own => exact .own
  | writer role word => exact .writer role word
  | data role word => exact .data role word
  | @unread i role state =>
      refine .unread role ?_
      have same := hr.words _ (.unread role state)
      simp only [Readable, same]
      exact state
  | registry keeper word => exact .registry (hr.keeper keeper).keeper word
  | identity locked => exact .identity (hr.lock locked)
  | heldState keeper held =>
      refine .heldState (hr.keeper keeper).keeper ?_
      have same := hr.words _ (.heldState keeper held)
      simp only [Held, same]
      exact held
  | heldData keeper held word =>
      refine .heldData (hr.keeper keeper).keeper ?_ word
      have same := hr.words _ (.heldState keeper held)
      simp only [Held, same]
      exact held

theorem rely_refl (t : Endpoint) (s : ChannelState) : Rely t s s where
  crashed := rfl
  client := rfl
  committed := List.prefix_refl _
  seen _ h := h
  lock h := h
  words _ _ := rfl
  keeper h := ⟨h, rfl, rfl, fun _ h => h, fun _ _ h => h⟩
  writer _ := ⟨rfl, rfl, fun _ h => h, .inl rfl⟩

theorem moves_trans {s'' : ChannelState} (latest : s'.mem .latestTicket = s.mem .latestTicket)
    (h : Moves s s') (h' : Moves s' s'') : Moves s s'' := by
  simp only [Moves, latest] at *
  rcases h' with h' | h' | h'
  · rw [h']
    exact h
  · exact .inr (.inl h')
  · exact .inr (.inr h')

theorem rely_trans {s'' : ChannelState} (h : Rely t s s') (h' : Rely t s' s'') :
    Rely t s s'' where
  crashed := h'.crashed.trans h.crashed
  client := h'.client.trans h.client
  committed := h.committed.trans h'.committed
  seen v hv := h'.seen v (h.seen v hv)
  lock hl := h'.lock (h.lock hl)
  words l hl := (h'.words l (fixed_rely hl h)).trans (h.words l hl)
  keeper hk := by
    have k := h.keeper hk
    have k' := h'.keeper k.keeper
    exact ⟨k'.keeper, k'.reader.trans k.reader, k'.pending.trans k.pending,
      fun i hi => k.held i (k'.held i hi), fun n h hs => k.handles n h (k'.handles n h hs)⟩
  writer hw := by
    have r := h.writer hw
    have r' := h'.writer hw
    refine ⟨r'.staged.trans r.staged, r'.committed.trans r.committed,
      fun i hi => r'.readable i (r.readable i hi), ?_⟩
    exact moves_trans (h.words _ (.writer hw rfl)) r.pending r'.pending

/-- A step leaves the samples being read as they are. -/
def Keeps (s s' : ChannelState) : Prop :=
  ∀ i l, Held s.mem i → l.dataSlot? = some i → s'.mem l = s.mem l

variable (q) in
/-- The rely-guarantee logic of a channel. -/
def logic : Logic Endpoint (Instr ChannelLoc) Reply ChannelWorld ChannelState where
  exec := q.memory.exec
  world := ChannelState.world
  inv := q.Inv
  rely := Rely
  guar t s s' := (∀ u, u ≠ t → Rely u s s') ∧ Keeps s s'
  rely_refl := rely_refl
  rely_trans _ _ _ _ := rely_trans
  guar_refl _ s := ⟨fun _ _ => rely_refl _ s, fun _ _ _ _ => rfl⟩
  guar_rely _ u _ _ hne h := h.1 u hne.symm

end ChannelSystem
end EdgeRuntime

import EdgeRuntime.Channel.IdentityRecord
import EdgeRuntime.Concurrent.Schedule
import EdgeRuntime.Control.Program

/-!
The world the control plane acts on: the lock file with its journal, the channel's name
and the objects that were ever made for it, the broker's path, and the processes with
their handles. Any system call may fail, and any process may be killed between two calls,
which releases its lock.

A producer's identity record is written once, before its instance is READY, and a reader
of a record whose writer is done sees it whole; so here the record is one access.
-/
namespace EdgeRuntime
open Concurrent

/-- An object: its file size and the shared words the control plane looks at. -/
structure SegmentState where
  size : Nat
  /-- None until the record is written to its last byte. -/
  boot : Option BootstrapHeaderAbi
  header : ChannelHeaderAbi
  producer : ProcessIdentityAbi
  initState : Nat
  producerState : Nat

def blankBootstrap : BootstrapHeaderAbi :=
  ⟨[], 0, 0, 0, 0, 0, 0, ⟨0, 0, 0, 0⟩, 0, 0, 0, []⟩

def blankHeader : ChannelHeaderAbi := ⟨"", 0, 0, 0, 0, 0, 0, 0, 0, [], 0, 0, 0, 0⟩

namespace SegmentState

def blank : SegmentState := ⟨0, none, blankHeader, blankIdentity, 0, 0⟩

/-- The record as it is read through a mapping. -/
def mapped (σ : SegmentState) : BootstrapHeaderAbi := σ.boot.getD blankBootstrap

/-- The instance has been committed. -/
def Ready (σ : SegmentState) : Prop :=
  ∃ boot, σ.boot = some boot ∧ boot.initState = InitState.ready.code

/-- The first bytes of the bootstrap record have been written. -/
def wrote (σ : SegmentState) (boot : BootstrapHeaderAbi) (bytes : Nat) : SegmentState :=
  { σ with
    size := bytes
    boot := if bootstrapHeaderSize ≤ bytes then some boot else none }

def truncated (σ : SegmentState) (size : Nat) : SegmentState := { σ with size }

/-- The rest of the mapping is cleared before the header is filled in. -/
def filled (σ : SegmentState) (header : ChannelHeaderAbi) : SegmentState :=
  { σ with header, producer := blankIdentity, initState := 0, producerState := 0 }

def signed (σ : SegmentState) (snap : ProcessIdentity) : SegmentState :=
  { σ with producer := stamped snap (σ.producer.roleEpoch + 2) }

def withInit (σ : SegmentState) (state : InitState) : SegmentState :=
  { σ with initState := state.code }

def withProducer (σ : SegmentState) (state : EndpointState) : SegmentState :=
  { σ with producerState := state.code }

def withBoot (σ : SegmentState) (state : InitState) : SegmentState :=
  { σ with boot := σ.boot.map fun boot => { boot with initState := state.code } }

end SegmentState

structure ControlWorld (T : Type) where
  /-- The record in the lock file; none while it is torn and does not match its checksum. -/
  journal : Option ControlJournalV1
  lock : Option T
  /-- The object under the channel's name. -/
  name : Option FileIdentity
  segment : FileIdentity → SegmentState
  /-- Who made an object; none if there has been no such object. -/
  maker : FileIdentity → Option T
  /-- The objects that were made under the name. -/
  named : FileIdentity → Bool
  /-- Who took an object away from the name. -/
  unlinker : FileIdentity → Option T
  /-- The generations of the committed instances, the latest last. -/
  born : List Nat
  /-- The instance whose listener has the broker's path. -/
  path : Option FileIdentity
  serving : FileIdentity → Bool
  handles : T → List InstanceHandle
  dead : T → Bool

namespace ControlWorld
variable {T : Type} [DecidableEq T]

/-- No object, no journal, all processes alive. -/
def start : ControlWorld T :=
  ⟨some .empty, none, none, fun _ => .blank, fun _ => none, fun _ => false, fun _ => none, [],
    none, fun _ => false, fun _ => [], fun _ => false⟩

def setSegment (w : ControlWorld T) (o : FileIdentity) (σ : SegmentState) : ControlWorld T :=
  { w with segment := Function.update w.segment o σ }

def setJournal (w : ControlWorld T) (journal : Option ControlJournalV1) : ControlWorld T :=
  { w with journal }

/-- A new object, empty. -/
def makeObject (w : ControlWorld T) (t : T) (o : FileIdentity) (named : Bool) :
    ControlWorld T :=
  { w with
    name := if named then some o else w.name
    segment := Function.update w.segment o .blank
    maker := Function.update w.maker o (some t)
    named := Function.update w.named o named }

/-- The name is free again. -/
def takeName (w : ControlWorld T) (t : T) : ControlWorld T :=
  match w.name with
  | none => w
  | some o => { w with name := none, unlinker := Function.update w.unlinker o (some t) }

/-- The instance is READY from here on. -/
def commit (w : ControlWorld T) (o : FileIdentity) (state : InitState) : ControlWorld T :=
  { w.setSegment o ((w.segment o).withBoot state) with
    born := if state = .ready then w.born ++ [(w.segment o).header.generation] else w.born }

/-- The file after one more `pwrite`. A journal that is written in part is torn, unless the
bytes to come are the same in both records, or those written so far. -/
def AfterWrite (w : ControlWorld T) : WriteTarget → Nat → ControlWorld T → Prop
  | .journal record, bytes, w' =>
      w' = w.setJournal (some record) ∨
        bytes < journalRecordSize ∧ (w' = w.setJournal none ∨ w' = w)
  | .bootstrap fd boot, bytes, w' => w' = w.setSegment fd ((w.segment fd).wrote boot bytes)

/-- The handle remembers that its path is gone. -/
def noteUnlinked (w : ControlWorld T) (t : T) (o : FileIdentity) : ControlWorld T :=
  { w with
    handles := Function.update w.handles t ((w.handles t).map fun h =>
      if h.shm = o then { h with socketUnlinked := true } else h) }

/-- The listener of the path answers. -/
def Listens (w : ControlWorld T) : Prop :=
  ∃ o m, w.path = some o ∧ w.serving o = true ∧ w.maker o = some m ∧ w.dead m = false

/-- A process that dies gives up its lock. -/
def kill (w : ControlWorld T) (t : T) : ControlWorld T :=
  { w with
    lock := if w.lock = some t then none else w.lock
    dead := Function.update w.dead t true }

end ControlWorld

inductive ControlCall
  | create (options : ChannelOptions) (schema : SchemaDescriptor) (payloadSize : Nat)
  | shutdown (fd : FileIdentity)
  | removeIfOwner (fd : FileIdentity)

inductive ControlResult
  | handle (handle : InstanceHandle)
  | done
  deriving DecidableEq, Repr

/-- One channel name and the processes that make instances of it. -/
structure ControlSystem (T : Type) where
  channelName : String
  uid : Nat
  self : T → ProcessIdentity
  valid : ∀ t, processIdentityValid (self t) = true
  /-- The replies a liveness probe may give. -/
  answers : ControlWorld T → Nat → Nat → Liveness → Prop
  /-- A living process is never reported gone. -/
  accurate : ∀ w u liveness, w.dead u = false →
    answers w (self u).pid (self u).procStartTicks liveness →
    liveness = .alive ∨ liveness = .unverifiable

namespace ControlSystem
variable {T : Type} [DecidableEq T] (q : ControlSystem T)

def identityUnstable : Error :=
  makeError .recoveryBlocked "identity_snapshot_read" "identity epoch unstable"

def seenProducer (p : ProcessIdentityAbi) : Except Error ProcessIdentityAbi :=
  if p.roleEpoch % 2 = 0 then .ok p else .error identityUnstable

/-- The role epoch after a write, or why there is none. -/
def nextRoleEpoch (p : ProcessIdentityAbi) : Except Error Nat :=
  if p.roleEpoch % 2 ≠ 0 then
    .error (makeError .recoveryBlocked "identity_snapshot_write" "identity epoch busy")
  else if p.roleEpoch > uint64Max - 2 then
    .error (makeError .recoveryBlocked "identity_snapshot_write" "identity epoch exhausted")
  else .ok (p.roleEpoch + 2)

/-- One instruction: the world before, the reply, the world after. A call that fails
changes nothing. -/
def exec (t : T) : (i : ControlInstr) → ControlWorld T → ControlReply i → ControlWorld T → Prop
  | .currentIdentity, w, r, w' => w' = w ∧ ∀ id, r = .ok id → id = q.self t
  | .acquireLock, w, r, w' =>
      (r = .ok () ∧ w.lock = none ∧ w' = { w with lock := some t }) ∨
        ((∃ e, r = .error e) ∧ w' = w)
  | .releaseLock, w, _, w' => w' = { w with lock := if w.lock = some t then none else w.lock }
  | .preadJournal, w, r, w' => w' = w ∧ ∀ j, r = .ok j → w.journal = some j
  | .pwrite target written, w, r, w' =>
      (∃ more, r = .ok more ∧
        w.AfterWrite target (written + min (more + 1) (target.size - written)) w') ∨
        ((∃ f, r = .error f) ∧ w' = w)
  | .shmOpen, w, r, w' =>
      w' = w ∧ (∀ o, r = .ok o → w.name = some o) ∧
        ∀ f, r = .error f → f.errno = enoent → w.name = none
  | .shmCreate, w, r, w' =>
      (∃ o, r = .ok o ∧ w.name = none ∧ w.maker o = none ∧ w' = w.makeObject t o true) ∨
        (∃ f, r = .error f ∧ (f.errno = eexist → w.name ≠ none) ∧ w' = w)
  | .shmUnlink, w, r, w' =>
      (r = .ok () ∧ w.name ≠ none ∧ w' = w.takeName t) ∨
        (∃ f, r = .error f ∧ (f.errno = enoent → w.name = none) ∧ w' = w)
  | .memfdCreate, w, r, w' =>
      (∃ o, r = .ok o ∧ w.maker o = none ∧ w' = w.makeObject t o false) ∨
        ((∃ f, r = .error f) ∧ w' = w)
  | .fstat fd, w, r, w' =>
      w' = w ∧ ∀ s, r = .ok s → s.identity = fd ∧ s.size = (w.segment fd).size
  | .statx fd, w, r, w' => w' = w ∧ ∀ s, r = .ok s → s.1.identity = fd
  | .preadBootstrap fd, w, r, w' =>
      w' = w ∧ ∀ boot, r = .ok boot → (w.segment fd).boot = some boot
  | .preadHeader fd, w, r, w' => w' = w ∧ ∀ h, r = .ok h → h = (w.segment fd).header
  | .ftruncate fd size, w, r, w' =>
      (r = .ok () ∧ w' = w.setSegment fd ((w.segment fd).truncated size)) ∨
        ((∃ f, r = .error f) ∧ w' = w)
  | .readBootstrap fd, w, r, w' => w' = w ∧ r = (w.segment fd).mapped
  | .loadBootInitState fd, w, r, w' => w' = w ∧ r = (w.segment fd).mapped.initState
  | .readHeader fd, w, r, w' => w' = w ∧ r = (w.segment fd).header
  | .readProducer fd, w, r, w' => w' = w ∧ r = seenProducer (w.segment fd).producer
  | .loadProducerState fd, w, r, w' => w' = w ∧ r = (w.segment fd).producerState
  | .fillHeader fd header, w, _, w' => w' = w.setSegment fd ((w.segment fd).filled header)
  | .writeProducer fd snap, w, r, w' =>
      r = nextRoleEpoch (w.segment fd).producer ∧
        ((∃ epoch, r = .ok epoch ∧ w' = w.setSegment fd ((w.segment fd).signed snap)) ∨
          ((∃ e, r = .error e) ∧ w' = w))
  | .storeInitState fd state, w, _, w' => w' = w.setSegment fd ((w.segment fd).withInit state)
  | .storeProducerState fd state, w, _, w' =>
      w' = w.setSegment fd ((w.segment fd).withProducer state)
  | .storeBootInitState fd state, w, _, w' => w' = w.commit fd state
  | .probe pid ticks, w, r, w' => w' = w ∧ q.answers w pid ticks r
  | .bind fd, w, r, w' =>
      (r = .bound ∧ w.path = none ∧ w' = { w with path := some fd }) ∨
        (r = .addressInUse ∧ w.path ≠ none ∧ w' = w) ∨ ((∃ f, r = .failed f) ∧ w' = w)
  | .connect, w, r, w' => w' = w ∧ (r = false → ¬ w.Listens)
  | .unlinkPath, w, r, w' =>
      (r = .ok () ∧ w' = { w with path := none }) ∨ ((∃ f, r = .error f) ∧ w' = w)
  | .listen fd, w, r, w' =>
      (r = .ok () ∧ w' = { w with serving := Function.update w.serving fd true }) ∨
        ((∃ f, r = .error f) ∧ w' = w)
  | .stopServer fd, w, _, w' => w' = { w with serving := Function.update w.serving fd false }
  | .unlinkSocket fd, w, _, w' =>
      w' = w.noteUnlinked t fd ∨ w' = { w.noteUnlinked t fd with path := none }
  | .fdatasync, w, _, w' | .mmap _ _, w, _, w' | .getrandom, w, _, w' | .socket, w, _, w'
  | .chmodPath, w, _, w' | .startServer _, w, _, w' => w' = w

/-- The handle of the process on this object. -/
def handleOn (w : ControlWorld T) (t : T) (fd : FileIdentity) : Option InstanceHandle :=
  (w.handles t).find? (·.shm = fd)

def onHandle (w : ControlWorld T) (t : T) (fd : FileIdentity)
    (call : InstanceHandle → ControlCode Unit) : ControlCode ControlResult :=
  match handleOn w t fd with
  | none => .ret .done
  | some handle => call handle >>= fun _ => .ret .done

def code (t : T) (a : ControlCall) (w : ControlWorld T) : ControlCode ControlResult :=
  match a with
  | .create options schema payloadSize =>
      producerCreateImpl q.uid options schema payloadSize >>= fun h => .ret (.handle h)
  | .shutdown fd => onHandle w t fd retireProducer
  | .removeIfOwner fd => onHandle w t fd producerRemoveIfOwnerImpl

def leave (t : T) (x : Except Error ControlResult) (w : ControlWorld T) : ControlWorld T :=
  match x with
  | .ok (.handle h) => { w with handles := Function.update w.handles t (w.handles t ++ [h]) }
  | _ => w

/-- All calls are about this channel. -/
def Allowed : ControlCall → Prop
  | .create options _ _ => options.name = q.channelName
  | _ => True

def machine : Machine T ControlInstr ControlReply Error ControlResult ControlCall
    (ControlWorld T) where
  exec := q.exec
  code := q.code
  allowed _ a _ := q.Allowed a
  enter _ _ w := w
  leave t _ x w := leave t x w
  crash t w := w.kill t

instance (t : T) (a : ControlCall) (w : ControlWorld T) :
    Decidable (q.machine.allowed t a w) :=
  match a with
  | .create options _ _ => inferInstanceAs (Decidable (options.name = q.channelName))
  | .shutdown _ | .removeIfOwner _ => inferInstanceAs (Decidable True)

end ControlSystem

abbrev ControlEvent (T : Type) : Type :=
  Event T ControlInstr ControlReply Error ControlResult ControlCall

abbrev ControlConfig (T : Type) : Type :=
  Config T ControlInstr ControlReply Error ControlResult ControlCall (ControlWorld T)

end EdgeRuntime

import EdgeRuntime.Channel.Bounds
import EdgeRuntime.Channel.Journal
import EdgeRuntime.Channel.Runs
import EdgeRuntime.Integrity.Headers

/-!
A record of which one byte has changed is refused by whoever checks it: the control
journal, the bootstrap record, the headers of pools and queues, and a published sample.
-/
namespace EdgeRuntime
open Concurrent

namespace ChannelSystem
variable {q : ChannelSystem} {w : ChannelWorld} {n i stride now : Nat} {m : ChannelMem}
  {probe : ChannelWorld → Nat → Nat → Liveness} {handle : ConsumerHandle} {operation : String}

/-- The latest sample lies PUBLISHED in the slot and is new to the consumer. -/
structure Offered (w : ChannelWorld) (n i : Nat) : Prop where
  named : ticketSlot (w.mem .latestTicket) = i
  published : w.mem (.slotState i) = SlotState.published.code
  fresh : w.mem (consumerWord n .lastSequence) < ticketSequence (w.mem .latestTicket)

instance : Decidable (Offered w n i) :=
  decidable_of_iff (ticketSlot (w.mem .latestTicket) = i ∧
      w.mem (.slotState i) = SlotState.published.code ∧
      w.mem (consumerWord n .lastSequence) < ticketSequence (w.mem .latestTicket))
    ⟨fun h => ⟨h.1, h.2.1, h.2.2⟩, fun h => ⟨h.1, h.2, h.3⟩⟩

/-- The payload in a slot. -/
def payloadOf (m : ChannelMem) (i : Nat) : List Nat := loanBytes m i (m (.slotPayloadSize i))

/-- The two memories agree outside the payload and the checksum of the slot. -/
def SameOutside (i : Nat) (m m' : ChannelMem) : Prop :=
  ∀ l, (∀ j, l ≠ .slotPayload i j) → l ≠ .slotChecksum i → m' l = m l

/-- The ticket names the slot, and the payload there does not match its checksum. -/
structure Spoilt (m : ChannelMem) (i : Nat) : Prop where
  named : m .latestTicket = makeTicket (m (.slotSequence i)) i
  mismatch : fnv1a64 (payloadOf m i) ≠ m (.slotChecksum i)

/-- The words that a claim changes are not those of the sample. -/
theorem Spoilt.set {l : ChannelLoc} {v : Nat} (h : Spoilt m i)
    (claim : l = .slotState i ∨ l = .slotReaderEpoch i) : Spoilt (m.set l v) i := by
  have kept : ∀ l', l' ≠ .slotState i → l' ≠ .slotReaderEpoch i → (m.set l v) l' = m l' := by
    intro l' state epoch
    rw [Words.set_apply, if_neg]
    rintro rfl
    exact claim.elim state epoch
  have bytes : ∀ j, (m.set l v) (.slotPayload i j) = m (.slotPayload i j) :=
    fun j => kept _ (by rintro ⟨⟩) (by rintro ⟨⟩)
  constructor
  · rw [kept .latestTicket (by rintro ⟨⟩) (by rintro ⟨⟩),
      kept (.slotSequence i) (by rintro ⟨⟩) (by rintro ⟨⟩)]
    exact h.named
  · have size := kept (.slotPayloadSize i) (by rintro ⟨⟩) (by rintro ⟨⟩)
    rw [kept (.slotChecksum i) (by rintro ⟨⟩) (by rintro ⟨⟩)]
    simp only [payloadOf, loanBytes, size, bytes]
    exact h.mismatch

/-- The error of a sample that fails its checks. -/
def Corrupt {α : Type} (x : Except Error α) : Prop :=
  ∃ e, x = .error e ∧ e.code = .payloadCorrupt

theorem corrupt_error {α : Type} {e : Error} :
    Corrupt (.error e : Except Error α) ↔ e.code = .payloadCorrupt := by
  constructor
  · rintro ⟨_, same, code⟩
    cases same
    exact code
  · exact fun code => ⟨e, rfl, code⟩

theorem not_corrupt_ok {α : Type} {a : α} : ¬ Corrupt (.ok a : Except Error α) :=
  fun ⟨_, never, _⟩ => nomatch never

theorem alone_checkClaimedSlot (clock : now ≠ 0) (spoilt : Spoilt w.mem i) :
    q.memory.Alone probe (fun _ => now) (.consumer n) (fun x _ => Corrupt x)
      (checkClaimedSlot n handle operation i) w := by
  rw [checkClaimedSlot]
  apply Memory.alone_load
  apply Memory.alone_load
  apply Memory.alone_load
  apply Memory.alone_load
  split
  · exact ⟨_, rfl, rfl⟩
  · apply Memory.alone_boottime
    rw [if_neg clock]
    apply alone_fnv1a64Shared
    rw [if_pos]
    · exact ⟨_, rfl, rfl⟩
    · exact spoilt.mismatch

theorem alone_readClaimedSlot (clock : now ≠ 0) (spoilt : Spoilt w.mem i) :
    q.memory.Alone probe (fun _ => now) (.consumer n) (fun x _ => Corrupt x)
      (readClaimedSlot n handle operation i) w := by
  rw [readClaimedSlot, slotMarkReading, Prog.bind_assoc]
  apply Memory.alone_store
  apply Memory.alone_store
  have held := (spoilt.set (v := handle.roleEpoch) (.inr rfl)).set
    (v := SlotState.reading.code) (.inl rfl)
  apply Memory.alone_load
  apply Memory.alone_load
  rw [if_neg]
  · refine Memory.alone_seq (alone_checkClaimedSlot clock held) ?_ ?_
    · exact fun _ _ never => (not_corrupt_ok never).elim
    · exact fun _ _ failed => corrupt_error.2 (corrupt_error.1 failed)
  · exact fun other => other held.named

theorem alone_claimAttempt (clock : now ≠ 0) (slot : i < slotCount)
    (small : handle.payloadSize ≤ maxPayloadSize)
    (hs : slotStride handle.payloadSize = some stride) (offered : Offered w n i)
    (spoilt : Spoilt w.mem i) :
    q.memory.Alone probe (fun _ => now) (.consumer n) (fun x _ => Corrupt x)
      (claimAttempt n handle operation stride) w := by
  have fresh := offered.fresh
  have slotIs : ticketSlot (q.memory.read w .latestTicket) = i := offered.named
  rw [claimAttempt]
  apply Memory.alone_load
  apply Memory.alone_load
  rw [if_neg, slotIs, slotByteOffset_eq hs small slot]
  · apply Memory.alone_cas offered.published
    exact alone_readClaimedSlot clock (spoilt.set (.inl rfl))
  · rintro (zero | old)
    · have zero : w.mem .latestTicket = 0 := zero
      rw [zero] at fresh
      exact Nat.not_lt_zero _ fresh
    · exact Nat.not_lt.2 old fresh

/-- A sample that does not match its checksum is refused, and no attempt follows. -/
theorem alone_claimLatestUnlocked (clock : now ≠ 0) (slot : i < slotCount)
    (small : handle.payloadSize ≤ maxPayloadSize)
    (hs : slotStride handle.payloadSize = some stride) (offered : Offered w n i)
    (spoilt : Spoilt w.mem i) :
    q.memory.Alone probe (fun _ => now) (.consumer n) (fun x _ => Corrupt x)
      (claimLatestUnlocked n handle operation) w := by
  rw [claimLatestUnlocked, hs]
  refine Memory.alone_seq (alone_claimAttempt clock slot small hs offered spoilt) ?_ ?_
  · exact fun _ _ never => (not_corrupt_ok never).elim
  · exact fun _ _ failed => corrupt_error.2 (corrupt_error.1 failed)

/-- The slots of a created channel have a stride. -/
theorem slotStride_some (q : ChannelSystem) :
    ∃ stride, slotStride q.payloadSize = some stride ∧ q.payloadSize ≤ maxPayloadSize := by
  have mapping := q.mapping_eq
  have valid := q.valid
  simp only [payloadAndSchemaValid, Bool.and_eq_true, decide_eq_true_eq] at valid
  rw [mappingSizeForPayload, Option.bind_eq_bind, Option.bind_eq_some_iff] at mapping
  obtain ⟨stride, hs, _⟩ := mapping
  exact ⟨stride, hs, valid.1.2⟩

/-- In every state a channel can reach, the sample on offer matches its checksum. -/
theorem Offered.matches {out : Endpoint → Nat → Nat} {c : ChannelConfig}
    (run : q.machine.Reach (fun _ _ => True) (q.machine.start (q.init out)) c)
    (offered : Offered c.world n i) :
    i < slotCount ∧ c.world.mem .latestTicket = makeTicket (c.world.mem (.slotSequence i)) i ∧
      c.world.mem (.slotChecksum i) = fnv1a64 (payloadOf c.world.mem i) := by
  obtain ⟨s, hs, hi, _⟩ := covers_reach run
  have hs : s.world = c.world := hs
  have slots := hi.slots
  simp only [ChannelState.mem, hs] at slots
  have fresh := offered.fresh
  rcases slots.latest with ⟨zero, _⟩ | ⟨j, slot, _, ticket, readable, sequence⟩
  · rw [zero] at fresh
    exact (Nat.not_lt_zero _ fresh).elim
  · have here : j = i := by
      rw [← offered.named, ticket, ticketSlot_makeTicket slot]
    subst here
    obtain ⟨sample, holds, _⟩ := slots.content j slot readable
    refine ⟨slot, by rw [ticket, sequence], ?_⟩
    rw [payloadOf, holds.size, holds.payload, holds.checksum]

/-- Once payload and checksum no longer match, whatever they are now, the sample that was
on offer is refused. -/
theorem claimLatestUnlocked_changed {out : Endpoint → Nat → Nat} {c : ChannelConfig}
    (run : q.machine.Reach (fun _ _ => True) (q.machine.start (q.init out)) c)
    (size : handle.payloadSize = q.payloadSize) (clock : now ≠ 0)
    (offered : Offered c.world n i) (same : SameOutside i c.world.mem m)
    (mismatch : fnv1a64 (payloadOf m i) ≠ m (.slotChecksum i)) :
    Corrupt (q.memory.alone probe (fun _ => now) (.consumer n)
      (claimLatestUnlocked n handle operation) { c.world with mem := m }).1 := by
  obtain ⟨slot, ticket, _⟩ := offered.matches run
  have latest : m .latestTicket = c.world.mem .latestTicket := same _ nofun nofun
  have spoilt : Spoilt m i := by
    refine ⟨?_, mismatch⟩
    rw [latest, same (.slotSequence i) nofun nofun]
    exact ticket
  have offered' : Offered { c.world with mem := m } n i := by
    refine ⟨?_, ?_, ?_⟩
    · change ticketSlot (m .latestTicket) = i
      rw [latest]
      exact offered.named
    · exact (same (.slotState i) nofun nofun).trans offered.published
    · change m (consumerWord n .lastSequence) < ticketSequence (m .latestTicket)
      rw [latest, same (consumerWord n .lastSequence) nofun nofun]
      exact offered.fresh
  obtain ⟨stride, hstride, small⟩ := q.slotStride_some
  rw [← size] at hstride small
  exact alone_claimLatestUnlocked clock slot small hstride offered' spoilt

theorem payloadOf_set_payload {j v : Nat} :
    payloadOf (m.set (.slotPayload i j) v) i = (payloadOf m i).set j v := by
  have size : (m.set (.slotPayload i j) v) (.slotPayloadSize i) = m (.slotPayloadSize i) := by
    rw [Words.set_apply, if_neg nofun]
  apply List.ext_getElem
  · simp only [payloadOf, loanBytes, size, List.length_map, List.length_range, List.length_set]
  · intro k _ _
    simp only [payloadOf, loanBytes, size, List.getElem_map, List.getElem_range,
      List.getElem_set, Words.set_apply, ChannelLoc.slotPayload.injEq, true_and]
    simp only [eq_comm]

theorem payloadOf_set_checksum {v : Nat} :
    payloadOf (m.set (.slotChecksum i) v) i = payloadOf m i := by
  simp [payloadOf, loanBytes, Words.set_apply]

end ChannelSystem

open ChannelSystem in
/-- No change of a single byte goes unnoticed: the checksum of every string changes with
it, and so whoever checks a record that was written by the code refuses it. -/
theorem one_byte_refused :
    (∀ bytes i x, IsBytes bytes → i < bytes.length → x < 256 → bytes[i]? ≠ some x →
      fnv1a64 (bytes.set i x) ≠ fnv1a64 bytes) ∧
    (∀ answers sync journal file i x answers',
      (writeJournal answers sync journal file).1 = .ok () → i < journalRecordSize → x < 256 →
      (writeJournal answers sync journal file).2[i]? ≠ some x →
      (∀ errno text, .failed errno text ∉ answers') →
      ∃ e, readJournal answers' ((writeJournal answers sync journal file).2.set i x) =
        .error e ∧ e.code = .recoveryBlocked) ∧
    (∀ options mapping nonceHi nonceLo self state boot i x size,
      boot = { createBootstrap options mapping nonceHi nonceLo self with initState := state } →
      i < bootstrapHeaderSize → i < 72 ∨ 76 ≤ i → x < 256 → boot.bytes[i]? ≠ some x →
      ∃ e, validateBootstrapParse (.ofBytes (boot.bytes.set i x)) size = .error e) ∧
    (∀ options mapping nonceHi nonceLo self header i x size options',
      header = sharedBufferPoolCreateHeader options mapping nonceHi nonceLo self →
      options.schema.Shaped → i < sharedBufferPoolHeaderSize → i < 100 ∨ 104 ≤ i → x < 256 →
      header.bytes[i]? ≠ some x →
      ∃ e, sharedBufferPoolValidateHeader (.ofBytes (header.bytes.set i x)) size options' =
        .error e) ∧
    (∀ options schema payloadSize mapping nonceHi nonceLo self header i x state options' schema'
        payloadSize' object,
      header = mpmcCreateHeader options schema payloadSize mapping nonceHi nonceLo self →
      schema.Shaped → i < mpmcImmutableSize + 8 → x < 256 → header.sealedBytes[i]? ≠ some x →
      object.header = .ofBytes state (header.sealedBytes.set i x) →
      ∃ e, mpmcOpenImpl options' schema' payloadSize' object = .error e) ∧
    (∀ (q : ChannelSystem) out c n i handle operation probe now,
      q.machine.Reach (fun _ _ => True) (q.machine.start (q.init out)) c →
      handle.payloadSize = q.payloadSize → now ≠ 0 → Offered c.world n i →
      IsBytes (payloadOf c.world.mem i) →
      (∀ j x, j < c.world.mem (.slotPayloadSize i) → x < 256 →
        c.world.mem (.slotPayload i j) ≠ x →
        Corrupt (q.memory.alone probe (fun _ => now) (.consumer n)
          (claimLatestUnlocked n handle operation)
          { c.world with mem := c.world.mem.set (.slotPayload i j) x }).1) ∧
      ∀ x, c.world.mem (.slotChecksum i) ≠ x →
        Corrupt (q.memory.alone probe (fun _ => now) (.consumer n)
          (claimLatestUnlocked n handle operation)
          { c.world with mem := c.world.mem.set (.slotChecksum i) x }).1) := by
  refine ⟨?_, ?_, ?_, ?_, ?_, ?_⟩
  · intro bytes i x hb hi hx other
    exact (fnv1a64_ne (.set hi other) hb (hb.set hx)).symm
  · intro answers sync journal file i x answers' stored hi hx other smooth
    exact readJournal_changed stored smooth hi hx other
  · intro options mapping nonceHi nonceLo self state boot i x size created hi spared hx other
    have shaped : boot.Shaped := by
      rw [created]
      exact createBootstrap_shaped options mapping nonceHi nonceLo self state
    have sealed : bootstrapChecksumOf boot = boot.bootstrapChecksum := by
      rw [created]
      exact createBootstrap_checksum options mapping nonceHi nonceLo self state
    exact validateBootstrapParse_changed shaped sealed hi spared hx other
  · rintro options mapping nonceHi nonceLo self _ i x size options' rfl schema hi spared hx other
    exact sharedBufferPoolValidateHeader_changed
      (sharedBufferPoolCreateHeader_shaped _ _ _ _ schema)
      (sharedBufferPoolCreateHeader_checksum _ _ _ _ _) hi spared hx other
  · rintro options schema payloadSize mapping nonceHi nonceLo self _ i x state options' schema'
      payloadSize' object rfl shaped hi hx other found
    exact mpmcOpenImpl_changed (mpmcCreateHeader_shaped _ _ _ _ _ _ shaped)
      (mpmcCreateHeader_checksum _ _ _ _ _ _ _) hi hx other found
  · intro q out c n i handle operation probe now run size clock offered bytes
    obtain ⟨_, _, sealed⟩ := offered.matches run
    constructor
    · intro j x hj hx other
      apply claimLatestUnlocked_changed run size clock offered
      · intro l payload _
        rw [Words.set_apply, if_neg (payload j)]
      · have length : j < (payloadOf c.world.mem i).length := by
          simpa only [payloadOf, loanBytes, List.length_map, List.length_range] using hj
        have other' : (payloadOf c.world.mem i)[j]? ≠ some x := by
          simpa only [payloadOf, loanBytes, List.getElem?_map, List.getElem?_range hj,
            Option.map_some, ne_eq, Option.some.injEq] using other
        rw [payloadOf_set_payload, Words.set_apply, if_neg (by rintro ⟨⟩), sealed]
        exact (fnv1a64_ne (.set length other') bytes (bytes.set hx)).symm
    · intro x other
      apply claimLatestUnlocked_changed run size clock offered
      · intro l _ checksum
        rw [Words.set_apply, if_neg checksum]
      · rw [payloadOf_set_checksum, Words.set_apply, if_pos rfl, ← sealed]
        exact other

/-- A record of an idle channel, as it is stored in an empty file. -/
def idleJournal : Except Error Unit × List Nat :=
  writeJournal [] (.ok ()) (makeControlJournal "c" .idle 0 1 0 0 5 6 ⟨7, 1, 1, 1⟩) []

open ChannelSystem in
/-- A changed generation in a journal, a changed byte in each of the headers, and a changed
byte of a sample that was just published. -/
theorem one_byte_refused_small :
    fnv1a64 [1, 3] ≠ fnv1a64 [1, 2] ∧
    (∃ e, readJournal [.interrupted, .short 9] (idleJournal.2.set 48 9) = .error e ∧
      e.code = .recoveryBlocked) ∧
    (∃ e, validateBootstrapParse
      (.ofBytes ((createBootstrap tiny.options 832 5 6 ⟨7, 1, 1, 1⟩).bytes.set 90 1)) 832 =
      .error e) ∧
    (∃ e, sharedBufferPoolValidateHeader
      (.ofBytes ((sharedBufferPoolCreateHeader ⟨"p", 4096, 2, tiny.schema⟩ 8512 5 6
        ⟨7, 1, 1, 1⟩).bytes.set 150 1)) 8512 ⟨"p", 4096, 2, tiny.schema⟩ = .error e) ∧
    (∃ e, mpmcOpenImpl ⟨"q", 3⟩ tiny.schema 100 ⟨.ok ⟨7, 1, 1, 1⟩, .ok (), .ok (), .ok (), 896,
      .ofBytes MpmcInitState.ready.code ((mpmcCreateHeader ⟨"q", 3⟩ tiny.schema 100 896 5 6
        ⟨7, 1, 1, 1⟩).sealedBytes.set 90 1)⟩ = .error e) ∧
    ∃ c, tinyRun (fun _ _ => True) (whole .producer (.publish [7])) = some c ∧
      Corrupt (tiny.memory.alone (fun _ _ _ => .alive) (fun _ => 9) (.consumer 0)
        (claimLatestUnlocked 0 ⟨"c", .posixShm, 1, 2, 1, 1, [], 1, 1, 0⟩ "read")
        { c.world with mem := c.world.mem.set (.slotPayload 0 0) 8 }).1 := by
  have published : (tinyRun (fun _ _ => True) (whole .producer (.publish [7]))).map
      (fun c => decide (Offered c.world 0 0 ∧ payloadOf c.world.mem 0 = [7] ∧
        c.world.mem (.slotPayloadSize 0) = 1 ∧ c.world.mem (.slotPayload 0 0) = 7)) =
      some true := by decide +kernel
  obtain ⟨c, hc, facts⟩ := Option.map_eq_some_iff.1 published
  obtain ⟨offered, payload, size, byte⟩ := of_decide_eq_true facts
  obtain ⟨strings, journals, bootstraps, pools, queues, samples⟩ := one_byte_refused
  refine ⟨?_, ?_, ?_, ?_, ?_, c, hc, ?_⟩
  · exact strings [1, 2] 1 3 (by decide) (by decide) (by decide) (by decide)
  · exact journals [] (.ok ()) _ [] 48 9 [.interrupted, .short 9] (by decide +kernel)
      (by decide) (by decide) (by decide +kernel) (by simp)
  · exact bootstraps tiny.options 832 5 6 ⟨7, 1, 1, 1⟩ 1 _ 90 1 832 rfl (by decide) (by decide)
      (by decide) (by decide +kernel)
  · exact pools ⟨"p", 4096, 2, tiny.schema⟩ 8512 5 6 ⟨7, 1, 1, 1⟩ _ 150 1 8512 _ rfl
      (by decide) (by decide) (by decide) (by decide) (by decide +kernel)
  · exact queues ⟨"q", 3⟩ tiny.schema 100 896 5 6 ⟨7, 1, 1, 1⟩ _ 90 1 _ _ _ _ _ rfl
      (by decide) (by decide) (by decide) (by decide +kernel) rfl
  · refine (samples tiny _ c 0 0 ⟨"c", .posixShm, 1, 2, 1, 1, [], 1, 1, 0⟩ "read" _ 9
      (tinyRun_reach _ hc) rfl (by decide) offered ?_).1 0 8 ?_ (by decide) ?_
    · rw [payload]
      decide
    · rw [size]
      decide
    · rw [byte]
      decide

end EdgeRuntime

import EdgeRuntime.Channel.Layout
import EdgeRuntime.Common.Checksum
import EdgeRuntime.Common.Options
import EdgeRuntime.Process.Identity

/-!
The control journal: one record at the start of a channel's lock file that says which
transaction was begun and for which instance. It is written and read in pieces of the
size the system likes, and its checksum covers every byte of it.
-/
namespace EdgeRuntime

inductive JournalState
  | idle
  | creatingPreObject
  | creatingObject
  | replacing
  | removing
  deriving DecidableEq, Repr

def JournalState.code : JournalState → Nat
  | .idle => 0
  | .creatingPreObject => 1
  | .creatingObject => 2
  | .replacing => 3
  | .removing => 4

def journalMagic : List Nat := "EDGJRN1".toList.map Char.toNat
def journalVersion : Nat := 1
def journalRecordSize : Nat := 256

structure ControlJournalV1 where
  magic : FixedBytes 8
  version : Nat
  channelHash : Nat
  state : Nat
  reserved0 : Nat
  targetDev : Nat
  targetIno : Nat
  oldGeneration : Nat
  newGeneration : Nat
  oldNonceHi : Nat
  oldNonceLo : Nat
  newNonceHi : Nat
  newNonceLo : Nat
  /-- The bytes that align the creator. -/
  padding : FixedBytes 40
  creator : ProcessIdentityAbi
  creatorReserved : FixedBytes 24
  recordChecksum : Nat
  transport : Nat
  reserved : FixedBytes 52
  deriving DecidableEq, Repr

namespace ControlJournalV1

/-- The bytes before the checksum. -/
def front (journal : ControlJournalV1) : List Nat :=
  journal.magic.1 ++ littleEndian 4 journal.version ++ littleEndian 4 journal.channelHash ++
    littleEndian 4 journal.state ++ littleEndian 4 journal.reserved0 ++
    littleEndian 8 journal.targetDev ++ littleEndian 8 journal.targetIno ++
    littleEndian 8 journal.oldGeneration ++ littleEndian 8 journal.newGeneration ++
    littleEndian 8 journal.oldNonceHi ++ littleEndian 8 journal.oldNonceLo ++
    littleEndian 8 journal.newNonceHi ++ littleEndian 8 journal.newNonceLo ++
    journal.padding.1 ++ littleEndian 8 journal.creator.roleEpoch ++
    littleEndian 8 journal.creator.pid ++ littleEndian 8 journal.creator.procStartTicks ++
    littleEndian 8 journal.creator.bootIdHashHi ++
    littleEndian 8 journal.creator.bootIdHashLo ++ journal.creatorReserved.1

/-- The bytes behind the checksum. -/
def back (journal : ControlJournalV1) : List Nat :=
  littleEndian 4 journal.transport ++ journal.reserved.1

def bytes (journal : ControlJournalV1) : List Nat :=
  journal.front ++ littleEndian 8 journal.recordChecksum ++ journal.back

/-- The record that lies at the start of `b`. -/
def ofBytes (b : List Nat) : ControlJournalV1 where
  magic := .cut 0 8 b
  version := wordAt 8 4 b
  channelHash := wordAt 12 4 b
  state := wordAt 16 4 b
  reserved0 := wordAt 20 4 b
  targetDev := wordAt 24 8 b
  targetIno := wordAt 32 8 b
  oldGeneration := wordAt 40 8 b
  newGeneration := wordAt 48 8 b
  oldNonceHi := wordAt 56 8 b
  oldNonceLo := wordAt 64 8 b
  newNonceHi := wordAt 72 8 b
  newNonceLo := wordAt 80 8 b
  padding := .cut 88 40 b
  creator := ⟨wordAt 128 8 b, wordAt 136 8 b, wordAt 144 8 b, wordAt 152 8 b, wordAt 160 8 b⟩
  creatorReserved := .cut 168 24 b
  recordChecksum := wordAt 192 8 b
  transport := wordAt 200 4 b
  reserved := .cut 204 52 b

/-- The zeroed record. -/
def empty : ControlJournalV1 := ofBytes []

end ControlJournalV1

def journalChecksum (journal : ControlJournalV1) : Nat :=
  fnv1a64 { journal with recordChecksum := 0 }.bytes

def makeControlJournal (channelName : String) (state : JournalState)
    (oldGeneration newGeneration oldNonceHi oldNonceLo newNonceHi newNonceLo : Nat)
    (creator : ProcessIdentity) : ControlJournalV1 :=
  { ControlJournalV1.empty with
    magic := .cut 0 8 journalMagic
    version := journalVersion
    channelHash := channelNameHash channelName
    state := state.code
    oldGeneration := oldGeneration
    newGeneration := newGeneration
    oldNonceHi := oldNonceHi
    oldNonceLo := oldNonceLo
    newNonceHi := newNonceHi
    newNonceLo := newNonceLo
    creator := ⟨0, creator.pid, creator.procStartTicks, creator.bootIdHashHi,
      creator.bootIdHashLo⟩ }

/-- What one `pread` or `pwrite` does. -/
inductive TransferAnswer
  | interrupted
  | failed (errno : Int) (text : String)
  /-- At most `more + 1` bytes are moved. -/
  | short (more : Nat)
  deriving DecidableEq, Repr

/-- The read loop, by the answers that are not whole; `got` bytes have been read. -/
def preadLoop (file : List Nat) (want : Nat) : List TransferAnswer → Nat → Except Error Nat
  | [], got => .ok (max got (min want file.length))
  | answer :: rest, got =>
      if want ≤ got ∨ file.length ≤ got then .ok got
      else
        match answer with
        | .interrupted => preadLoop file want rest got
        | .failed errno text => .error (makeErrnoError errno "control_lock_read_journal" text)
        | .short more =>
            preadLoop file want rest (got + min (more + 1) (min (want - got) (file.length - got)))

def readJournal (answers : List TransferAnswer) (file : List Nat) :
    Except Error ControlJournalV1 := do
  let operation := "control_lock_read_journal"
  let got ← preadLoop file journalRecordSize answers 0
  let journal := ControlJournalV1.ofBytes (file.take got)
  if got = 0 then return .empty
  else if got ≠ journalRecordSize then
    .error (makeError .recoveryBlocked operation "partial journal record")
  else if (file.take got).all (· = 0) then return journal
  else if journal.magic.1.take 7 ≠ journalMagic then
    .error (makeError .recoveryBlocked operation "journal magic mismatch")
  else if journal.version ≠ journalVersion then
    .error (makeError .recoveryBlocked operation "journal version mismatch")
  else if journalChecksum journal ≠ journal.recordChecksum then
    .error (makeError .recoveryBlocked operation "journal checksum mismatch")
  else return journal

/-- The write loop; it also says how many bytes are in the file when it ends. -/
def pwriteLoop (record : List Nat) : List TransferAnswer → Nat → Except Error Unit × Nat
  | [], written => (.ok (), max written record.length)
  | answer :: rest, written =>
      if record.length ≤ written then (.ok (), written)
      else
        match answer with
        | .interrupted => pwriteLoop record rest written
        | .failed errno text =>
            (.error (makeErrnoError errno "control_lock_write_journal" text), written)
        | .short more =>
            pwriteLoop record rest (written + min (more + 1) (record.length - written))

/-- The record as it is stored. -/
def sealJournal (journal : ControlJournalV1) : ControlJournalV1 :=
  { journal with recordChecksum := journalChecksum journal }

/-- The result of a write and what the file holds afterwards. -/
def writeJournal (answers : List TransferAnswer) (sync : Except Int Unit)
    (journal : ControlJournalV1) (file : List Nat) : Except Error Unit × List Nat :=
  let operation := "control_lock_write_journal"
  if journal.state ≠ JournalState.idle.code ∧
      ¬ processIdentityValid ⟨journal.creator.pid, journal.creator.procStartTicks,
        journal.creator.bootIdHashHi, journal.creator.bootIdHashLo⟩ then
    (.error (makeError .recoveryBlocked operation "invalid creator"), file)
  else
    let record := (sealJournal journal).bytes
    let done := pwriteLoop record answers 0
    let file := record.take done.2 ++ file.drop done.2
    match done.1, sync with
    | .error e, _ => (.error e, file)
    | .ok (), .error errno => (.error (makeErrnoError errno operation "fdatasync"), file)
    | .ok (), .ok () => (.ok (), file)

namespace ControlJournalV1

theorem length_front (journal : ControlJournalV1) : journal.front.length = 192 := by
  have magic : journal.magic.1.length = 8 := journal.magic.2.1
  have padding : journal.padding.1.length = 40 := journal.padding.2.1
  have inner : journal.creatorReserved.1.length = 24 := journal.creatorReserved.2.1
  unfold front
  simp only [List.length_append, length_littleEndian, magic, padding, inner]

theorem length_back (journal : ControlJournalV1) : journal.back.length = 56 := by
  have outer : journal.reserved.1.length = 52 := journal.reserved.2.1
  unfold back
  simp only [List.length_append, length_littleEndian, outer]

theorem length_bytes (journal : ControlJournalV1) : journal.bytes.length = journalRecordSize := by
  rw [bytes, List.length_append, List.length_append, length_front, length_littleEndian,
    length_back]
  rfl

theorem isBytes_bytes (journal : ControlJournalV1) : IsBytes journal.bytes := by
  have magic : IsBytes journal.magic.1 := journal.magic.2.2
  have padding : IsBytes journal.padding.1 := journal.padding.2.2
  have inner : IsBytes journal.creatorReserved.1 := journal.creatorReserved.2.2
  have outer : IsBytes journal.reserved.1 := journal.reserved.2.2
  unfold bytes front back
  simp only [isBytes_append, isBytes_littleEndian, magic, padding, inner, outer, and_self]

/-- Every string of 256 bytes is a record. -/
theorem bytes_ofBytes {b : List Nat} (hb : IsBytes b) (length : b.length = journalRecordSize) :
    (ofBytes b).bytes = b := by
  have word : ∀ offset size, offset + size ≤ 256 →
      littleEndian size (wordAt offset size b) = slice offset size b :=
    fun _ _ h => littleEndian_wordAt hb (length ▸ h)
  have cut : ∀ offset size, offset + size ≤ 256 →
      (FixedBytes.cut offset size b).1 = slice offset size b :=
    fun _ _ h => FixedBytes.cut_val hb (length ▸ h)
  have first : slice 0 8 b = b.take 8 := rfl
  unfold bytes front back ofBytes
  simp (disch := decide) only [word, cut]
  simp only [first, ← List.append_assoc, take_append_slice, Nat.reduceAdd]
  exact List.take_of_length_le (Nat.le_of_eq length)

/-- What the checksum covers. -/
def masked (journal : ControlJournalV1) : List Nat :=
  journal.front ++ littleEndian 8 0 ++ journal.back

theorem isBytes_masked (journal : ControlJournalV1) : IsBytes journal.masked :=
  isBytes_bytes { journal with recordChecksum := 0 }

/-- A change of one byte is in what the checksum covers, or in the checksum. -/
theorem changed {journal journal' : ControlJournalV1}
    (change : OneChange journal.bytes journal'.bytes) :
    (OneChange journal.masked journal'.masked ∧
      littleEndian 8 journal.recordChecksum = littleEndian 8 journal'.recordChecksum) ∨
    (journal.masked = journal'.masked ∧
      OneChange (littleEndian 8 journal.recordChecksum)
        (littleEndian 8 journal'.recordChecksum)) := by
  have fronts : journal.front.length = journal'.front.length := by
    rw [length_front, length_front]
  have sums : (littleEndian 8 journal.recordChecksum).length =
      (littleEndian 8 journal'.recordChecksum).length := by
    rw [length_littleEndian, length_littleEndian]
  have parts := OneChange.masked (s := []) (b := []) [] (littleEndian 8 0) fronts rfl rfl sums
    (by simpa only [bytes, List.append_nil] using change)
  simpa only [masked, List.append_nil] using parts

end ControlJournalV1

theorem journalChecksum_eq (journal : ControlJournalV1) :
    journalChecksum journal = fnv1a64 journal.masked := by
  have same : { journal with recordChecksum := 0 }.bytes = journal.masked := rfl
  rw [journalChecksum, same]

theorem sealJournal_recordChecksum (journal : ControlJournalV1) :
    (sealJournal journal).recordChecksum = fnv1a64 (sealJournal journal).masked := by
  have same : ∀ sum, { journal with recordChecksum := sum }.masked = journal.masked :=
    fun _ => rfl
  rw [sealJournal, same, ← journalChecksum_eq]

/-- A stored record of which one byte has changed does not match its checksum. -/
theorem journalChecksum_changed {journal journal' : ControlJournalV1}
    (fits : journal'.recordChecksum < 2 ^ 64)
    (change : OneChange (sealJournal journal).bytes journal'.bytes) :
    journalChecksum journal' ≠ journal'.recordChecksum := by
  have parts := ControlJournalV1.changed change
  rw [sealJournal_recordChecksum] at parts
  rw [journalChecksum_eq]
  exact fnv1a64_ne_stored fits (ControlJournalV1.isBytes_masked _)
    (ControlJournalV1.isBytes_masked _) parts

/-- No single byte turns a stored record into the zeroes that stand for no record. -/
theorem not_zero_of_changed {journal : ControlJournalV1} {b : List Nat}
    (change : OneChange (sealJournal journal).bytes b) :
    b ≠ List.replicate journalRecordSize 0 := by
  rintro rfl
  have zero : ControlJournalV1.empty.bytes = List.replicate journalRecordSize 0 := by
    decide +kernel
  have masked : ControlJournalV1.empty.masked = List.replicate journalRecordSize 0 := by
    decide +kernel
  rw [← zero] at change
  have parts := ControlJournalV1.changed change
  have sum : ControlJournalV1.empty.recordChecksum = 0 := by decide +kernel
  rw [sealJournal_recordChecksum, masked, sum] at parts
  rcases parts with ⟨change, sum⟩ | ⟨same, change⟩
  · have large : ∀ i, i < journalRecordSize →
        256 ≤ (List.replicate i 0).foldl fnvStep fnvOffsetBasis := by decide +kernel
    have zero := littleEndian_fnv1a64_inj (Nat.two_pow_pos 64) sum
    exact foldl_fnvStep_ne_zero fnvOffsetBasis_lt large change
      (ControlJournalV1.isBytes_masked _) zero
  · have bytes : littleEndian 8 (fnv1a64 (List.replicate journalRecordSize 0)) =
        [37, 183, 107, 115, 88, 198, 10, 216] := by decide +kernel
    rw [same, bytes] at change
    cases change

section Loops
variable {answers : List TransferAnswer} {file record : List Nat} {want got written : Nat}

/-- Without a failure the loop reads all there is, in whatever pieces. -/
theorem preadLoop_eq (smooth : ∀ errno text, .failed errno text ∉ answers)
    (h : got ≤ min want file.length) :
    preadLoop file want answers got = .ok (min want file.length) := by
  induction answers generalizing got with
  | nil => rw [preadLoop, Nat.max_eq_right h]
  | cons answer rest ih =>
      have smooth' : ∀ errno text, .failed errno text ∉ rest :=
        fun errno text mem => smooth errno text (List.mem_cons_of_mem _ mem)
      simp only [preadLoop]
      split
      · rw [Except.ok.injEq]
        omega
      · cases answer with
        | interrupted => exact ih smooth' h
        | failed errno text => exact (smooth errno text List.mem_cons_self).elim
        | short more => exact ih smooth' (by omega)

/-- A write that succeeds has written the whole record. -/
theorem pwriteLoop_ok (h : written ≤ record.length)
    (done : (pwriteLoop record answers written).1 = .ok ()) :
    (pwriteLoop record answers written).2 = record.length := by
  induction answers generalizing written with
  | nil => exact Nat.max_eq_right h
  | cons answer rest ih =>
      simp only [pwriteLoop] at done ⊢
      split at done
      · rename_i full
        rw [if_pos full]
        exact Nat.le_antisymm h full
      · rename_i more
        rw [if_neg more]
        cases answer with
        | interrupted => exact ih h done
        | failed errno text => cases done
        | short more => exact ih (by omega) done

end Loops

theorem writeJournal_ok {answers : List TransferAnswer} {sync : Except Int Unit}
    {journal : ControlJournalV1} {file : List Nat}
    (stored : (writeJournal answers sync journal file).1 = .ok ()) :
    (writeJournal answers sync journal file).2.take journalRecordSize =
      (sealJournal journal).bytes := by
  unfold writeJournal at stored ⊢
  split at stored
  · cases stored
  · rename_i valid
    rw [if_neg valid]
    cases done : (pwriteLoop (sealJournal journal).bytes answers 0).1 with
    | error e =>
        simp only [done] at stored
        cases stored
    | ok u =>
        have whole := pwriteLoop_ok (Nat.zero_le _) done
        simp only [done] at stored ⊢
        cases sync with
        | error e => cases stored
        | ok u =>
            rw [whole, List.take_length, ← ControlJournalV1.length_bytes (sealJournal journal),
              List.take_left]

/-- A file whose record differs from a stored one in one byte is refused. -/
theorem readJournal_unsealed {answers : List TransferAnswer} {journal : ControlJournalV1}
    {file : List Nat} (smooth : ∀ errno text, .failed errno text ∉ answers)
    (hb : IsBytes (file.take journalRecordSize))
    (whole : min journalRecordSize file.length = journalRecordSize)
    (change : OneChange (sealJournal journal).bytes (file.take journalRecordSize)) :
    ∃ e, readJournal answers file = .error e ∧ e.code = .recoveryBlocked := by
  have length : (file.take journalRecordSize).length = journalRecordSize := by
    rwa [List.length_take]
  have record := ControlJournalV1.bytes_ofBytes hb length
  have written : ¬ (file.take journalRecordSize).all (· = 0) := by
    intro zero
    apply not_zero_of_changed change
    refine List.eq_replicate_iff.2 ⟨length, fun byte mem => ?_⟩
    simpa using List.all_eq_true.1 zero byte mem
  have fits : (ControlJournalV1.ofBytes (file.take journalRecordSize)).recordChecksum < 2 ^ 64 :=
    wordAt_lt hb (by rw [length]; decide)
  rw [← record] at change
  have mismatch := journalChecksum_changed fits change
  have read := preadLoop_eq smooth (Nat.zero_le (min journalRecordSize file.length))
  rw [whole] at read
  simp only [readJournal, read, bind, Except.bind]
  rw [if_neg (by decide), if_neg (fun h => h rfl), if_neg written, if_pos mismatch]
  split
  · exact ⟨_, rfl, rfl⟩
  · split
    · exact ⟨_, rfl, rfl⟩
    · exact ⟨_, rfl, rfl⟩

/-- A stored record of which one byte has changed is refused. -/
theorem readJournal_changed {answers answers' : List TransferAnswer} {sync : Except Int Unit}
    {journal : ControlJournalV1} {file : List Nat} {i x : Nat}
    (stored : (writeJournal answers sync journal file).1 = .ok ())
    (smooth : ∀ errno text, .failed errno text ∉ answers') (hi : i < journalRecordSize)
    (hx : x < 256) (other : (writeJournal answers sync journal file).2[i]? ≠ some x) :
    ∃ e, readJournal answers' ((writeJournal answers sync journal file).2.set i x) = .error e ∧
      e.code = .recoveryBlocked := by
  have record := writeJournal_ok stored
  generalize (writeJournal answers sync journal file).2 = written at record other
  have length : (written.take journalRecordSize).length = journalRecordSize := by
    rw [record, ControlJournalV1.length_bytes]
  have other' : (written.take journalRecordSize)[i]? ≠ some x := by
    rwa [List.getElem?_take_of_lt hi]
  have change := OneChange.set (length.symm ▸ hi) other'
  have hb : IsBytes ((written.take journalRecordSize).set i x) :=
    (record ▸ ControlJournalV1.isBytes_bytes _ : IsBytes (written.take journalRecordSize)).set hx
  rw [← List.take_set] at change hb
  rw [record] at change
  have whole : min journalRecordSize (written.set i x).length = journalRecordSize := by
    rwa [List.length_set, ← List.length_take]
  generalize written.set i x = file' at change hb whole
  exact readJournal_unsealed smooth hb whole change

end EdgeRuntime

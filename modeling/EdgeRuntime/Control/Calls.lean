import EdgeRuntime.Control.Steps

/-!
The parts of a control transaction, each with what it leaves behind on every way out. The
assertions carry what the holder of the lock knows; whatever the others may not change
stays true from call to call.
-/
namespace EdgeRuntime
open Concurrent

/-- The instruction only looks. -/
def ControlInstr.looks : ControlInstr → Bool
  | .currentIdentity | .preadJournal | .fdatasync | .shmOpen | .fstat _ | .statx _
  | .preadBootstrap _ | .preadHeader _ | .mmap _ _ | .readBootstrap _ | .loadBootInitState _
  | .readHeader _ | .readProducer _ | .loadProducerState _ | .probe _ _ | .getrandom
  | .socket | .connect | .chmodPath | .startServer _ => true
  | _ => false

namespace ControlSystem
variable {T : Type} [DecidableEq T] {q : ControlSystem T} {ρ : Regime} {w : ControlWorld T}
  {t : T} {α : Type} {Q : Except Error α → ControlWorld T → Prop}
  {P : ControlWorld T → Prop} {v : View} {o : FileIdentity}

theorem exec_looks {i : ControlInstr} (h : i.looks = true) {r : ControlReply i}
    {w w' : ControlWorld T} (exec : q.exec t i w r w') : w' = w := by
  cases i with
  | fdatasync | mmap _ _ | getrandom | socket | chmodPath | startServer _ => exact exec
  | currentIdentity | preadJournal | shmOpen | fstat _ | statx _ | preadBootstrap _
  | preadHeader _ | readBootstrap _ | loadBootInitState _ | readHeader _ | readProducer _
  | loadProducerState _ | probe _ _ | connect => exact exec.1
  | acquireLock | releaseLock | pwrite _ _ | shmCreate | shmUnlink | memfdCreate
  | ftruncate _ _ | fillHeader _ _ | writeProducer _ _ | storeInitState _ _
  | storeProducerState _ _ | storeBootInitState _ _ | bind _ | unlinkPath | listen _
  | stopServer _ | unlinkSocket _ => cases h

theorem wp_look {i : ControlInstr} {k : ControlReply i → ControlCode α}
    (looks : i.looks = true) (stable : (q.logic ρ).Stable t P) (pre : P w)
    (next : ∀ w r, q.Inv ρ w → P w → q.exec t i w r w → (ρ.orderly → smooth i r = true) →
      (q.logic ρ).wp t Q (k r) w) : (q.logic ρ).wp t Q (.op i k) w := by
  refine Logic.wp_op P stable pre fun w₁ inv p r w₂ exec => ?_
  obtain rfl := exec_looks looks exec.1
  exact ⟨w₂, rfl, inv, Guar.refl t w₂, next w₂ r inv p exec.1 exec.2⟩

theorem wp_act {i : ControlInstr} {k : ControlReply i → ControlCode α}
    (stable : (q.logic ρ).Stable t P) (pre : P w)
    (step : ∀ w r w', q.Inv ρ w → P w → q.exec t i w r w' → (ρ.orderly → smooth i r = true) →
      q.Inv ρ w' ∧ Guar t w w' ∧ (q.logic ρ).wp t Q (k r) w') :
    (q.logic ρ).wp t Q (.op i k) w := by
  refine Logic.wp_op P stable pre fun w₁ inv p r w₂ exec => ?_
  obtain ⟨inv', guar, rest⟩ := step w₁ r w₂ inv p exec.1 exec.2
  exact ⟨w₂, rfl, inv', guar, rest⟩

/-- The end of a program: what is known stays known. -/
theorem wp_done {a : α} {F : Except Error α → Prop} (stable : (q.logic ρ).Stable t P)
    (pre : P w) (fact : F (.ok a)) :
    (q.logic ρ).wp t (fun x w => F x ∧ P w) (.ret a) w :=
  Logic.wp_ret P stable pre fun _ _ p => ⟨fact, p⟩

theorem wp_fail {e : Error} {F : Except Error α → Prop} (stable : (q.logic ρ).Stable t P)
    (pre : P w) (fact : F (.error e)) :
    (q.logic ρ).wp t (fun x w => F x ∧ P w) (.throw e) w :=
  Logic.wp_throw P stable pre fun _ _ p => ⟨fact, p⟩

theorem wp_lifted {x : Except Error α} {F : Except Error α → Prop}
    (stable : (q.logic ρ).Stable t P) (pre : P w) (fact : F x) :
    (q.logic ρ).wp t (fun x w => F x ∧ P w) (Prog.lift x) w :=
  Logic.wp_lift fun w' rely inv => ⟨fact, stable w w' pre rely inv⟩

theorem wp_orErrno {operation : String} {r : SysResult α} {F : Except Error α → Prop}
    (stable : (q.logic ρ).Stable t P) (pre : P w) (ok : ∀ a, r = .ok a → F (.ok a))
    (err : ∀ f, r = .error f → F (.error (makeErrnoError f.errno operation f.text))) :
    (q.logic ρ).wp t (fun x w => F x ∧ P w) (orErrno operation r) w := by
  cases r with
  | ok a => exact wp_done stable pre (ok a rfl)
  | error f => exact wp_fail stable pre (err f rfl)

theorem stable_holds : (q.logic ρ).Stable t (Holds t v) := fun _ _ h rely _ => h.rely rely

/-- What a field of a segment tells, apart from the producer's state, while the lock is
held. -/
theorem stable_field {β : Type} {f : SegmentState → β} {b : β}
    (blind : ∀ σ state, f (σ.withProducer state) = f σ) (stable : (q.logic ρ).Stable t P)
    (holds : ∀ w, P w → Holds t v w) :
    (q.logic ρ).Stable t fun w => P w ∧ f (w.segment o) = b := by
  intro w w' h rely inv
  refine ⟨stable w w' h.1 rely inv, ?_⟩
  rcases (rely.held (holds w h.1).lock).segment o with same | left
  · rw [same]
    exact h.2
  · rw [left, blind]
    exact h.2

theorem makeErrnoError_notFound {errno : Int} {operation text : String} :
    (makeErrnoError errno operation text).code = .notFound ↔ errno = enoent := by
  unfold makeErrnoError classifyErrno
  dsimp only
  split
  · rename_i h
    exact ⟨fun _ => h, fun _ => rfl⟩
  · rename_i h
    refine ⟨fun code => ?_, fun same => (h same).elim⟩
    split at code
    · cases code
    · split at code <;> cases code

/-! ### The object under the name -/

section Name
variable (stable : (q.logic ρ).Stable t P) (holds : ∀ w, P w → Holds t v w)
include stable holds

/-- What an attempt to open the name tells about it. -/
def Opened (ρ : Regime) (v : View) : Except Error FileIdentity → Prop
  | .ok o => v.name = some o
  | .error e => (e.code = .notFound → v.name = none) ∧ (ρ.orderly → e.code = .notFound)

theorem wp_shmOpenExisting (pre : P w) :
    (q.logic ρ).wp t (fun x w => Opened ρ v x ∧ P w) shmOpenExisting w := by
  refine wp_look rfl stable pre fun w₁ r _ p exec fine => ?_
  obtain ⟨_, found, missing⟩ := exec
  have name := (holds w₁ p).name
  refine wp_orErrno stable p ?_ ?_
  · rintro o rfl
    exact name.symm.trans (found o rfl)
  · rintro f rfl
    refine ⟨fun code => ?_, fun orderly => ?_⟩
    · exact name.symm.trans (missing f rfl (makeErrnoError_notFound.1 code))
    · exact makeErrnoError_notFound.2 (of_decide_eq_true (fine orderly))

theorem wp_openIfPresent (pre : P w) :
    (q.logic ρ).wp t (fun x w => ((∀ found, x = .ok found → v.name = found) ∧
        ∀ e, x = .error e → ¬ ρ.orderly) ∧ P w) openIfPresent w := by
  refine Logic.wp_attempt_seq (wp_shmOpenExisting stable holds pre) ?_
  rintro x w₁ _ ⟨opened, p⟩
  cases x with
  | ok o =>
      refine wp_done stable p ⟨?_, ?_⟩
      · rintro _ ⟨⟩
        exact opened
      · rintro _ ⟨⟩
  | error e =>
      dsimp only
      split
      · rename_i code
        refine wp_fail stable p ⟨?_, ?_⟩
        · rintro _ ⟨⟩
        · rintro _ _ orderly
          exact code (opened.2 orderly)
      · rename_i code
        refine wp_done stable p ⟨?_, ?_⟩
        · rintro _ ⟨⟩
          exact opened.1 (Decidable.not_not.1 code)
        · rintro _ ⟨⟩

/-- What is learnt from `fstat`. -/
theorem wp_shmFstatAndCapture (pre : P w) :
    (q.logic ρ).wp t (fun x w => (∀ s, x = .ok s → s.identity = o ∧
        (w.segment o).size = s.size) ∧ (ρ.orderly → ∃ s, x = .ok s) ∧ P w)
      (shmFstatAndCapture o) w := by
  refine wp_look rfl stable pre fun w₁ r _ p exec fine => ?_
  obtain ⟨_, tells⟩ := exec
  cases r with
  | error f =>
      refine Logic.wp_throw P stable p fun w₂ _ p₂ => ⟨?_, fun orderly => ?_, p₂⟩
      · rintro _ ⟨⟩
      · cases fine orderly
  | ok s =>
      obtain ⟨identity, size⟩ := tells s rfl
      change (q.logic ρ).wp t _ (Prog.lift (checkShmStatus s)) w₁
      refine Logic.wp_lift fun w₂ rely inv => ?_
      have kept := stable_field (f := SegmentState.size) (o := o) (fun _ _ => rfl) stable holds
        w₁ w₂ ⟨p, size.symm⟩ rely inv
      refine ⟨?_, fun orderly => ?_, kept.1⟩
      · intro s' checked
        have same : s' = s := by
          simp only [checkShmStatus, ite_error_eq_ok] at checked
          exact (Except.ok.inj checked.2.2.2).symm
        subst same
        exact ⟨identity, kept.2⟩
      · have passed := fine orderly
        change (checkShmStatus s).isOk = true at passed
        cases checked : checkShmStatus s with
        | ok s' => exact ⟨s', rfl⟩
        | error e =>
            rw [checked] at passed
            cases passed

/-- Look at the object under the name, if there is one. -/
theorem wp_examinePresent {absent : α} {present : FileIdentity → FileStatus → ControlCode α}
    (none : ∀ w, q.Inv ρ w → P w → v.name = none → (q.logic ρ).wp t Q (.ret absent) w)
    (some : ∀ o s w, q.Inv ρ w → P w → v.name = some o → s.identity = o →
      (w.segment o).size = s.size → (q.logic ρ).wp t Q (present o s) w)
    (err : ∀ e w, q.Inv ρ w → P w → ¬ ρ.orderly → Q (.error e) w) (pre : P w) :
    (q.logic ρ).wp t Q (examinePresent absent present) w := by
  refine Logic.wp_seq (wp_openIfPresent stable holds pre) ?_ ?_
  · rintro found w₁ inv ⟨⟨name, _⟩, p⟩
    cases found with
    | none => exact none w₁ inv p (name _ rfl)
    | some o =>
        refine Logic.wp_seq (wp_shmFstatAndCapture stable holds (o := o) p) ?_ ?_
        · rintro s w₂ inv ⟨tells, _, p₂⟩
          obtain ⟨identity, size⟩ := tells s rfl
          exact some o s w₂ inv p₂ (name _ rfl) identity size
        · rintro e w₂ inv ⟨_, fine, p₂⟩
          refine err e w₂ inv p₂ fun orderly => ?_
          obtain ⟨_, ok⟩ := fine orderly
          cases ok
  · rintro e w₁ inv ⟨⟨_, disorder⟩, p⟩
    exact err e w₁ inv p (disorder e rfl)

end Name

section Identity
variable (stable : (q.logic ρ).Stable t P)
include stable

/-- By `statx`; its errors never read as a missing object. -/
theorem wp_shmCaptureCreatedIdentity (pre : P w) :
    (q.logic ρ).wp t (fun x w => ((∀ found, x = .ok found → found = o) ∧
        ∀ e, x = .error e → e.code ≠ .notFound) ∧ P w)
      (shmCaptureCreatedIdentity o) w := by
  refine wp_look rfl stable pre fun w₁ r _ p exec _ => ?_
  obtain ⟨_, identity⟩ := exec
  cases r with
  | error f =>
      refine wp_fail stable p ⟨?_, ?_⟩
      · rintro _ ⟨⟩
      · rintro _ ⟨⟩ ⟨⟩
  | ok s =>
      refine wp_lifted stable p ⟨?_, ?_⟩
      · intro found checked
        simp only [checkCreatedIdentity, ite_error_eq_ok] at checked
        cases checked.2
        exact identity s rfl
      · intro e checked
        obtain ⟨status, filled⟩ := s
        simp only [checkCreatedIdentity] at checked
        split at checked
        · cases checked
          rintro ⟨⟩
        · cases checked

theorem wp_memfdFstatAndCapture (pre : P w) :
    (q.logic ρ).wp t (fun x w => (∀ s, x = .ok s → s.identity = o) ∧ P w)
      (memfdFstatAndCapture o) w := by
  refine wp_look rfl stable pre fun w₁ r _ p exec _ => ?_
  obtain ⟨_, tells⟩ := exec
  cases r with
  | error f =>
      refine wp_fail stable p ?_
      rintro _ ⟨⟩
  | ok s =>
      change (q.logic ρ).wp t _ (Prog.lift (checkMemfdStatus s)) w₁
      refine wp_lifted stable p fun s' checked => ?_
      simp only [checkMemfdStatus, ite_error_eq_ok] at checked
      cases checked.2.2.2
      exact (tells s rfl).1

theorem wp_captureIdentity (holds : ∀ w, P w → Holds t v w) (pre : P w) :
    (q.logic ρ).wp t (fun x w => ((∀ found, x = .ok found → found = o) ∧
        (∀ e, x = .error e → e.code ≠ .notFound ∧ ¬ ρ.orderly)) ∧ P w)
      (captureIdentity o) w := by
  refine Logic.wp_attempt_seq (wp_shmFstatAndCapture stable holds (o := o) pre) ?_
  rintro x w₁ _ ⟨tells, fine, p⟩
  cases x with
  | ok s =>
      refine wp_done stable p ⟨?_, ?_⟩
      · rintro _ ⟨⟩
        exact (tells s rfl).1
      · rintro _ ⟨⟩
  | error e =>
      have disorder : ¬ ρ.orderly := by
        intro orderly
        obtain ⟨_, ok⟩ := fine orderly
        cases ok
      refine Logic.wp_mono ?_ (wp_shmCaptureCreatedIdentity stable p)
      rintro x w₂ _ ⟨⟨found, code⟩, p⟩
      exact ⟨⟨found, fun e failed => ⟨code e failed, disorder⟩⟩, p⟩

end Identity

/-! ### Taking the name away -/

/-- How a checked unlink ends. If it fails, the object may be gone all the same; not found
means that there was nothing under the name. -/
def Unlinked (ρ : Regime) (v : View) (o : FileIdentity) (P G : ControlWorld T → Prop) :
    Except Error Unit → ControlWorld T → Prop
  | .ok (), w => v.name = some o ∧ G w
  | .error e, w => (e.code ≠ .notFound ∧ ¬ ρ.orderly ∧ G w) ∨
      ((e.code = .notFound → v.name = none) ∧ (ρ.orderly → v.name ≠ some o) ∧ P w)

/-- How the look at the name ends. -/
def Recognised (ρ : Regime) (v : View) (o : FileIdentity) : Except Error Bool → Prop
  | .ok same => same = true ↔ v.name = some o
  | .error e => (e.code = .notFound → v.name = none) ∧ (ρ.orderly → v.name ≠ some o)

theorem wp_sameInode (stable : (q.logic ρ).Stable t P) (holds : ∀ w, P w → Holds t v w)
    (pre : P w) :
    (q.logic ρ).wp t (fun x w => Recognised ρ v o x ∧ P w) (sameInode o) w := by
  refine Logic.wp_seq (wp_shmOpenExisting stable holds pre) ?_ ?_
  · rintro fd w₁ _ ⟨opened, p₁⟩
    have opened : v.name = some fd := opened
    refine Logic.wp_seq (wp_captureIdentity stable holds (o := fd) p₁) ?_ ?_
    · rintro found w₂ _ ⟨⟨identity, _⟩, p₂⟩
      obtain rfl := identity found rfl
      refine Logic.wp_ret P stable p₂ fun _ _ p => ⟨?_, p⟩
      rw [Recognised, opened, decide_eq_true_eq, Option.some_inj]
    · rintro e w₂ _ ⟨⟨_, code⟩, p₂⟩
      obtain ⟨code, disorder⟩ := code e rfl
      exact ⟨⟨fun h => (code h).elim, fun orderly => (disorder orderly).elim⟩, p₂⟩
  · rintro e w₁ _ ⟨⟨missing, code⟩, p₁⟩
    refine ⟨⟨missing, fun orderly name => ?_⟩, p₁⟩
    rw [missing (code orderly)] at name
    cases name

theorem wp_shmUnlinkChecked {G : ControlWorld T → Prop} (stable : (q.logic ρ).Stable t P)
    (holds : ∀ w, P w → Holds t v w) (stable' : (q.logic ρ).Stable t G)
    (doomed : ∀ w, P w → v.name = some o → Doomed t o w)
    (after : ∀ w, P w → v.name = some o →
      G { w with name := none, unlinker := Function.update w.unlinker o (some t) })
    (holds' : ∀ w, G w → Holds t { v with name := none } w) (pre : P w) :
    (q.logic ρ).wp t (Unlinked ρ v o P G) (Control.shmUnlinkChecked o) w := by
  have refused : ∀ {e : Error} {w}, P w → (e.code = .notFound → v.name = none) →
      (ρ.orderly → v.name ≠ some o) →
      (q.logic ρ).wp t (Unlinked ρ v o P G) (.throw e : ControlCode Unit) w := by
    intro e w p missing other
    exact Logic.wp_throw P stable p fun _ _ p => .inr ⟨missing, other, p⟩
  refine Logic.wp_seq (wp_sameInode (o := o) stable holds pre) ?_ ?_
  · rintro same w₂ _ ⟨recognised, p₂⟩
    cases same with
    | false =>
        refine refused p₂ nofun fun _ name => ?_
        cases recognised.2 name
    | true =>
        have opened := recognised.1 rfl
        refine wp_act stable p₂ fun w₃ r w₄ inv p₃ exec fine => ?_
        have name := (holds w₃ p₃).name.trans opened
        rcases exec with ⟨rfl, _, rfl⟩ | ⟨f, rfl, missing, rfl⟩
        · have gone : w₃.takeName t = { w₃ with
              name := none, unlinker := Function.update w₃.unlinker o (some t) } := by
            unfold ControlWorld.takeName
            rw [name]
          rw [gone]
          have held := (holds w₃ p₃).lock
          have doom := doomed w₃ p₃ opened
          refine ⟨inv.takeName held name doom, Guar.takeName held name doom, ?_⟩
          refine wp_look rfl stable' (after w₃ p₃ opened) fun w₅ r _ p₅ exec fine => ?_
          obtain ⟨_, present, _⟩ := exec
          cases r with
          | ok other =>
              have free := (holds' w₅ p₅).name
              rw [present other rfl] at free
              cases free
          | error f =>
              change (q.logic ρ).wp t _
                (Prog.lift (checkNameGone (.error f : SysResult FileIdentity))) w₅
              by_cases errno : f.errno ≠ enoent
              · rw [checkNameGone, if_pos errno]
                refine Logic.wp_throw G stable' p₅ fun _ _ p => .inl ⟨?_, ?_, p⟩
                · intro code
                  exact errno (makeErrnoError_notFound.1 code)
                · intro orderly
                  exact errno (of_decide_eq_true (fine orderly))
              · rw [checkNameGone, if_neg errno]
                exact Logic.wp_ret G stable' p₅ fun _ _ p => ⟨opened, p⟩
        · refine ⟨inv, Guar.refl t _, refused p₃ ?_ ?_⟩
          · intro code
            have free := missing (makeErrnoError_notFound.1 code)
            rw [name] at free
            cases free
          · intro orderly
            cases fine orderly
  · rintro e w₁ _ ⟨⟨missing, other⟩, p₁⟩
    exact .inr ⟨missing, other, p₁⟩

/-! ### Writing the journal -/

/-- How a journal write ends, for assertions that follow the journal. -/
def Wrote (ρ : Regime) (j : ControlJournalV1)
    (P : Option ControlJournalV1 → ControlWorld T → Prop) (x : Except Error Unit)
    (w : ControlWorld T) : Prop :=
  (x = .ok () ∧ P (some (sealJournal j)) w) ∨
    ((∃ e, x = .error e) ∧ ¬ ρ.orderly ∧ ∃ torn, P torn w)

section Journal
variable {P : Option ControlJournalV1 → ControlWorld T → Prop} {j : ControlJournalV1}
  {x : Option ControlJournalV1}
  (stable : ∀ x, (q.logic ρ).Stable t (P x)) (held : ∀ x w, P x w → w.lock = some t)
  (closed : ∀ x y w, P x w → P y (w.setJournal y)) (fits : ∀ x w, P x w → q.Fits ρ j w)
include stable held closed fits

/-- The write loop: what is in the file is open until the last byte is written. -/
theorem wp_pwriteJournal {fuel written : Nat} (enough : journalRecordSize ≤ fuel + written)
    (whole : journalRecordSize ≤ written → x = some (sealJournal j)) (pre : P x w) :
    (q.logic ρ).wp t (Wrote ρ j P) (pwriteFull (.journal (sealJournal j)) fuel written) w := by
  induction fuel generalizing written x w with
  | zero =>
      obtain rfl := whole (by omega)
      exact Logic.wp_ret _ (stable _) pre fun _ _ p => .inl ⟨rfl, p⟩
  | succ fuel ih =>
      unfold pwriteFull
      split
      · rename_i done
        obtain rfl := whole done
        exact Logic.wp_ret _ (stable _) pre fun _ _ p => .inl ⟨rfl, p⟩
      · rename_i short
        change ¬ journalRecordSize ≤ written at short
        refine wp_act (stable x) pre fun w₁ r w₂ inv p exec fine => ?_
        rcases exec with ⟨more, rfl, new | ⟨torn, rfl | rfl⟩⟩ | ⟨⟨f, rfl⟩, rfl⟩
        · have lock := held x w₁ p
          subst new
          refine ⟨inv.setJournal lock ?_, Guar.setJournal lock _, ?_⟩
          · rintro _ ⟨⟩
            exact (fits x w₁ p).seal
          · change (q.logic ρ).wp t _ (pwriteFull _ fuel (written + min (more + 1)
              (journalRecordSize - written))) _
            exact ih (by omega) (fun _ => rfl) (closed x _ w₁ p)
        · have lock := held x w₁ p
          change _ + min (more + 1) (journalRecordSize - _) < _ at torn
          refine ⟨inv.setJournal lock nofun, Guar.setJournal lock _, ?_⟩
          exact ih (by change _ ≤ _ + (_ + min _ (journalRecordSize - _)); omega)
            (fun done => by change _ ≤ _ + min _ (journalRecordSize - _) at done; omega)
            (closed x none w₁ p)
        · change _ + min (more + 1) (journalRecordSize - _) < _ at torn
          refine ⟨inv, Guar.refl t _, ?_⟩
          exact ih (by change _ ≤ _ + (_ + min _ (journalRecordSize - _)); omega)
            (fun done => by change _ ≤ _ + min _ (journalRecordSize - _) at done; omega) p
        · refine ⟨inv, Guar.refl t _, ?_⟩
          refine Logic.wp_throw _ (stable x) p fun _ _ p => .inr ⟨⟨_, rfl⟩, ?_, x, p⟩
          intro orderly
          cases fine orderly

theorem wp_lockWriteJournal (valid : ρ.orderly → j.state ≠ JournalState.idle.code →
      processIdentityValid (journalCreator j) = true) (pre : P x w) :
    (q.logic ρ).wp t (Wrote ρ j P) (lockWriteJournal j) w := by
  unfold lockWriteJournal
  split
  · rename_i invalid
    refine Logic.wp_throw _ (stable x) pre fun _ _ p => .inr ⟨⟨_, rfl⟩, ?_, x, p⟩
    intro orderly
    rw [valid orderly invalid.1] at invalid
    cases invalid.2
  · refine Logic.wp_seq (wp_pwriteJournal stable held closed fits (x := x) (Nat.le_refl _)
      (fun none => by cases none) pre) ?_ ?_
    · rintro _ w₁ _ (⟨_, p⟩ | ⟨⟨_, never⟩, _⟩)
      · refine wp_look rfl (stable _) p fun w₂ r _ p₂ _ fine => ?_
        cases r with
        | ok _ => exact Logic.wp_ret _ (stable _) p₂ fun _ _ p => .inl ⟨rfl, p⟩
        | error f =>
            refine Logic.wp_throw _ (stable _) p₂ fun _ _ p => .inr ⟨⟨_, rfl⟩, ?_, _, p⟩
            intro orderly
            cases fine orderly
      · cases never
    · rintro e w₁ _ (⟨never, _⟩ | ⟨_, rest⟩)
      · cases never
      · exact .inr ⟨⟨e, rfl⟩, rest⟩

end Journal
end ControlSystem
end EdgeRuntime

import EdgeRuntime.Channel.Books
import Mathlib.Data.List.Chain

/-!
Missed samples over whole runs. The reads of a handle are collected from the calls that
have returned; the books tell what the last one was, and so the count that each read
reports is the number of publishes it has skipped.
-/
namespace EdgeRuntime
open Concurrent

namespace ChannelSystem
variable {q : ChannelSystem} {n : Nat} {b : Books} {w w' : ChannelWorld} {t : Endpoint}
  {a : ChannelCall} {x : Except Error ChannelResult} {c : ChannelClient}

/-- The sample a call has returned. -/
def newReads : ChannelCall → Except Error ChannelResult → List ReadSnapshot
  | .tryRead _, .ok (.read snapshot) | .waitRead _ _ _, .ok (.read snapshot) => [snapshot]
  | .tryLoan, .ok (.borrowed loan) | .waitLoan _ _, .ok (.borrowed loan) => [loan.snapshot]
  | _, _ => []

/-- The call attaches the handle anew, if it succeeds. -/
def attaches : ChannelCall → Except Error ChannelResult → Bool
  | .openConsumer _ _ _ _, _ | .reconnect _, .ok (.reconnected _ _) => true
  | _, _ => false

/-- The samples a consumer handle has returned since it was opened, in order. -/
def handleReads (n : Nat) (finished : List ChannelReturn) : List ReadSnapshot :=
  finished.foldl (fun reads r =>
    if r.endpoint = .consumer n then
      (if attaches r.call r.result then [] else reads) ++ newReads r.call r.result
    else reads) []

theorem handleReads_append (finished : List ChannelReturn) (r : ChannelReturn) :
    handleReads n (finished ++ [r]) =
      if r.endpoint = .consumer n then
        (if attaches r.call r.result then [] else handleReads n finished) ++
          newReads r.call r.result
      else handleReads n finished := by
  simp only [handleReads, List.foldl_append, List.foldl_cons, List.foldl_nil]

/-- The count of a read is taken from the read before it. -/
def Counts (r s : ReadSnapshot) : Prop :=
  s.missedSamples = saturatedGap r.sampleSequence s.sampleSequence

/-- The two words say what the handle has returned last. -/
def Entered (words : Nat × Nat) (reads : List ReadSnapshot) : Prop :=
  words = match reads.getLast? with
    | some s => (s.sampleSequence, 0)
    | none => (0, 1)

def isOpening : Option ChannelCall → Bool
  | some (.openConsumer _ _ _ _) => true
  | _ => false

/-- The books agree with the reads of the handle. -/
structure DeskOk (n : Nat) (w : ChannelWorld) (b : Books) : Prop where
  ready : b.ready = (w.client (.consumer n)).handle.isSome
  opening : b.opening = isOpening (w.client (.consumer n)).call
  entered : b.ready = true → Entered b.found (handleReads n w.finished)
  counted : (handleReads n w.finished).IsChain Counts
  delivered : isOpening (w.client (.consumer n)).call = false →
    (handleReads n w.finished).map (·.sampleSequence) <:+ (w.client (.consumer n)).delivered

structure BookOk (n : Nat) (w : ChannelWorld) (b : Books) : Prop where
  last : w.mem (consumerWord n .lastSequence) = b.last
  first : w.mem (consumerWord n .firstSampleInGeneration) = b.first
  desk : DeskOk n w b

/-- One more read is counted from what the words said. -/
theorem Took.counts {s : ReadSnapshot} {reads : List ReadSnapshot} (took : Took s b)
    (entered : Entered b.found reads) (counted : reads.IsChain Counts) :
    (reads ++ [s]).IsChain Counts := by
  obtain ⟨-, -, last, first, before, missed⟩ := took
  rw [List.isChain_append]
  refine ⟨counted, List.isChain_singleton s, ?_⟩
  intro r hr s' hs
  cases hs
  rw [Option.mem_def] at hr
  simp only [Entered, Books.found, before, Option.getD_some, hr, Prod.mk.injEq] at entered
  obtain ⟨rfl, rfl⟩ := entered
  exact missed

theorem Took.entered {s : ReadSnapshot} {reads : List ReadSnapshot} (took : Took s b) :
    Entered (b.last, b.first) (reads ++ [s]) := by
  obtain ⟨last, first, -⟩ := took
  simp [Entered, last, first]

theorem keepResult_delivered : (keepResult a x c).delivered =
    c.delivered ++ (newReads a x).map (·.sampleSequence) := by
  unfold keepResult newReads
  split <;> simp

theorem keepResult_handle (old : attaches a x = false)
    (some : (keepResult a x c).handle.isSome) : c.handle.isSome := by
  cases a with
  | openConsumer => cases old
  | reconnect target =>
      rcases x with e | r
      · exact some
      cases r with
      | reconnected => cases old
      | _ => exact some
  | release =>
      change (if c.closed then none else c.handle).isSome = true at some
      split at some
      · cases some
      · exact some
  | destroy =>
      change (if c.readLoan.isNone then none else c.handle).isSome = true at some
      split at some
      · cases some
      · exact some
  | tryRead | waitRead | tryLoan | waitLoan | loan =>
      rcases x with e | r
      · exact some
      cases r <;> exact some
  | publish | loanWrite | commit | abort | heartbeat | shutdown => exact some

/-- The three ways a call can end: nothing entered, one sample entered, or a handle that
starts over. -/
theorem callTakes_cases (taken : CallTakes a x b) :
    (newReads a x = [] ∧ attaches a x = false ∧ Clean b) ∨
    (∃ s, newReads a x = [s] ∧ attaches a x = false ∧ b.ready = true ∧ Took s b) ∨
    (newReads a x = [] ∧ attaches a x = true ∧ ∀ c, b.ready = c.handle.isSome →
      (keepResult a x c).handle.isSome → Opened b) := by
  cases a with
  | openConsumer =>
      have closed : b.ready = false → ∀ c : ChannelClient, b.ready = c.handle.isSome →
          c.handle.isSome → Opened b := by
        intro closed c same some
        rw [← same, closed] at some
        cases some
      rcases x with e | r
      · exact .inr (.inr ⟨rfl, rfl, closed taken⟩)
      cases r with
      | opened handle => exact .inr (.inr ⟨rfl, rfl, fun _ _ _ => taken⟩)
      | _ => exact .inr (.inr ⟨rfl, rfl, closed taken⟩)
  | reconnect target =>
      rcases x with e | r
      · exact .inl ⟨rfl, rfl, taken⟩
      cases r with
      | reconnected => exact .inr (.inr ⟨rfl, rfl, fun _ _ some => taken some⟩)
      | _ => exact .inl ⟨rfl, rfl, taken⟩
  | tryRead | waitRead =>
      rcases x with e | r
      · exact .inl ⟨rfl, rfl, taken⟩
      cases r with
      | read snapshot => exact .inr (.inl ⟨snapshot, rfl, rfl, taken⟩)
      | _ => exact .inl ⟨rfl, rfl, taken⟩
  | tryLoan | waitLoan =>
      rcases x with e | r
      · exact .inl ⟨rfl, rfl, taken⟩
      cases r with
      | borrowed loan => exact .inr (.inl ⟨loan.snapshot, rfl, rfl, taken⟩)
      | _ => exact .inl ⟨rfl, rfl, taken⟩
  | publish | loan | loanWrite | commit | abort | heartbeat | shutdown | release | destroy =>
      exact .inl ⟨rfl, rfl, taken⟩

/-- The books after a call that returned. -/
def settle (b : Books) (c : ChannelClient) : Books :=
  ⟨b.last, b.first, none, c.handle.isSome, false⟩

/-- The books agree with the reads again once a call has returned. -/
theorem DeskOk.leave (h : DeskOk n w b) (taken : CallTakes a x b)
    (call : b.opening = isOpening (some a)) :
    DeskOk n (q.machine.leave (.consumer n) a x w)
      (settle b (leaveClient a x (w.client (.consumer n)))) := by
  have client : (q.machine.leave (.consumer n) a x w).client (.consumer n) =
      leaveClient a x (w.client (.consumer n)) := Function.update_self ..
  have reads : handleReads n (q.machine.leave (.consumer n) a x w).finished =
      (if attaches a x then [] else handleReads n w.finished) ++ newReads a x := by
    change handleReads n (w.finished ++ [_]) = _
    rw [handleReads_append, if_pos rfl]
  have delivered : (leaveClient a x (w.client (.consumer n))).delivered =
      (w.client (.consumer n)).delivered ++ (newReads a x).map (·.sampleSequence) :=
    keepResult_delivered
  have unopened : attaches a x = false → isOpening (w.client (.consumer n)).call =
      false := by
    intro old
    rw [← h.opening, call]
    cases a with
    | openConsumer => cases old
    | _ => rfl
  refine ⟨by rw [client]; rfl, by rw [client]; rfl, ?_, ?_, ?_⟩
  · intro ready
    rw [reads]
    obtain ⟨none, old, clean⟩ | ⟨s, one, old, -, took⟩ | ⟨none, anew, opened⟩ :=
      callTakes_cases taken
    · have clean : b.before = .none := clean
      have entered := h.entered (h.ready.trans (keepResult_handle old ready))
      rw [none, old, List.append_nil]
      simpa [settle, Books.found, clean] using entered
    · rw [one, old]
      exact took.entered
    · rw [none, anew]
      obtain ⟨last, first⟩ := opened _ h.ready ready
      exact Prod.ext last first
  · rw [reads]
    obtain ⟨none, old, -⟩ | ⟨s, one, old, ready, took⟩ | ⟨none, anew, -⟩ :=
      callTakes_cases taken
    · rw [none, old, List.append_nil]
      exact h.counted
    · rw [one, old]
      exact took.counts (h.entered ready) h.counted
    · rw [none, anew]
      exact .nil
  · intro _
    rw [reads, client, delivered]
    obtain ⟨none, old, -⟩ | ⟨s, one, old, ready, -⟩ | ⟨none, anew, -⟩ := callTakes_cases taken
    · rw [none, old, List.append_nil, List.map_nil, List.append_nil]
      exact h.delivered (unopened old)
    · rw [one, old, List.map_append]
      exact (List.suffix_append_inj_of_length_eq rfl).2 ⟨h.delivered (unopened old), rfl⟩
    · rw [none, anew]
      exact List.nil_suffix

/-- What the desk of a consumer looks at. -/
structure SameDesk (n : Nat) (w w' : ChannelWorld) : Prop where
  handle : (w'.client (.consumer n)).handle = (w.client (.consumer n)).handle
  call : (w'.client (.consumer n)).call = (w.client (.consumer n)).call
  delivered : (w'.client (.consumer n)).delivered = (w.client (.consumer n)).delivered
  reads : handleReads n w'.finished = handleReads n w.finished

theorem DeskOk.same {b' : Books} (h : DeskOk n w b) (same : SameDesk n w w')
    (found : b'.found = b.found) (status : b'.status = b.status) : DeskOk n w' b' := by
  have ready : b'.ready = b.ready := congrArg Prod.fst status
  have opening : b'.opening = b.opening := congrArg Prod.snd status
  refine ⟨?_, ?_, ?_, ?_, ?_⟩
  · rw [ready, same.handle]
    exact h.ready
  · rw [opening, same.call]
    exact h.opening
  · rw [ready, found, same.reads]
    exact h.entered
  · rw [same.reads]
    exact h.counted
  · rw [same.call, same.reads, same.delivered]
    exact h.delivered

theorem sameDesk_write {l : ChannelLoc} {v : Nat} : SameDesk n w (write t l v w) := by
  have fields : ∀ c : ChannelClient, (recordStore l v c).handle = c.handle ∧
      (recordStore l v c).call = c.call ∧ (recordStore l v c).delivered = c.delivered := by
    intro c
    cases l <;> exact ⟨rfl, rfl, rfl⟩
  by_cases ht : t = .consumer n
  · subst ht
    have client : (write (.consumer n) l v w).client (.consumer n) =
        recordStore l v (w.client (.consumer n)) := Function.update_self ..
    obtain ⟨handle, call, delivered⟩ := fields (w.client (.consumer n))
    exact ⟨by rw [client, handle], by rw [client, call], by rw [client, delivered], rfl⟩
  · have client : (write t l v w).client (.consumer n) = w.client (.consumer n) :=
      Function.update_of_ne (Ne.symm ht) ..
    exact ⟨by rw [client], by rw [client], by rw [client], rfl⟩

theorem sameDesk_fill {j v : Nat} : SameDesk n w (fill t j v w) := by
  by_cases ht : t = .consumer n
  · subst ht
    have client : (fill (.consumer n) j v w).client (.consumer n) =
        { w.client (.consumer n) with
          out := Function.update (w.client (.consumer n)).out j v } := Function.update_self ..
    exact ⟨by rw [client], by rw [client], by rw [client], rfl⟩
  · have client : (fill t j v w).client (.consumer n) = w.client (.consumer n) :=
      Function.update_of_ne (Ne.symm ht) ..
    exact ⟨by rw [client], by rw [client], by rw [client], rfl⟩

theorem SameDesk.refl (n : Nat) (w : ChannelWorld) : SameDesk n w w := ⟨rfl, rfl, rfl, rfl⟩

/-- No instruction touches the desk. -/
theorem sameDesk_exec {i : Instr ChannelLoc} {r : Reply i} (exec : q.memory.exec t i w r w') :
    SameDesk n w w' := by
  cases i with
  | load l => rw [exec.2]; exact .refl n w
  | store l v => rw [exec]; exact sameDesk_write
  | cas l expected desired =>
      rw [exec.2]
      split
      · exact sameDesk_write
      · exact .refl n w
  | fetchAdd l count bits => rw [exec.2]; exact sameDesk_write
  | copyOut j v => rw [exec]; exact sameDesk_fill
  | probe pid ticks => rw [exec.2]; exact .refl n w
  | boottime | monotonic => rw [exec]; exact .refl n w
  | watch l => rw [exec.2]; exact ⟨rfl, rfl, rfl, rfl⟩
  | futexWake l count => rw [exec]; exact ⟨rfl, rfl, rfl, rfl⟩
  | futexSleep l expected =>
      rw [exec.2]
      split
      · exact ⟨rfl, rfl, rfl, rfl⟩
      · exact .refl n w
  | futexRise => rw [exec]; exact ⟨rfl, rfl, rfl, rfl⟩
  | lock =>
      cases r with
      | error e => rw [exec]; exact .refl n w
      | ok u =>
          change (if w.lock = none then some { w with lock := some t } else none) = some w' at exec
          split at exec
          · cases exec
            exact ⟨rfl, rfl, rfl, rfl⟩
          · cases exec
  | unlock => rw [exec]; exact ⟨rfl, rfl, rfl, rfl⟩
  | block => exact exec.elim

/-- The instruction may write the word. -/
def WritesWord (l : ChannelLoc) : Instr ChannelLoc → Prop
  | .store l' _ | .cas l' _ _ | .fetchAdd l' _ _ => l' = l
  | _ => False

theorem mem_exec {l : ChannelLoc} {i : Instr ChannelLoc} {r : Reply i}
    (exec : q.memory.exec t i w r w') (spares : ¬ WritesWord l i) : w'.mem l = w.mem l := by
  have write : ∀ {l' v}, ¬ l' = l → (write t l' v w).mem l = w.mem l := fun hne =>
    Function.update_of_ne (Ne.symm hne) ..
  cases i with
  | load l' => rw [exec.2]
  | store l' v => rw [exec]; exact write spares
  | cas l' expected desired =>
      rw [exec.2]
      split
      · exact write spares
      · rfl
  | fetchAdd l' count bits => rw [exec.2]; exact write spares
  | copyOut j v => rw [exec]; rfl
  | probe pid ticks => rw [exec.2]
  | boottime | monotonic => rw [exec]
  | watch l' => rw [exec.2]; rfl
  | futexWake l' count => rw [exec]; rfl
  | futexSleep l' expected =>
      rw [exec.2]
      split <;> rfl
  | futexRise => rw [exec]; rfl
  | lock =>
      cases r with
      | error e => rw [exec]
      | ok u =>
          change (if w.lock = none then some { w with lock := some t } else none) = some w' at exec
          split at exec
          · cases exec
            rfl
          · cases exec
  | unlock => rw [exec]; rfl
  | block => exact exec.elim

/-- An endpoint writes the words of no other handle. -/
theorem own_of_writes {u : Endpoint} {word : HandleWord} {d : Notice} {i : Instr ChannelLoc}
    (allow : noticeAllow t d i) (writes : WritesWord (.handle u word) i) : u = t := by
  cases i with
  | store l v =>
      cases writes
      exact allow.2
  | cas l expected desired =>
      cases writes
      exact allow.2
  | fetchAdd l count bits =>
      cases writes
      exact allow.2
  | _ => exact writes.elim

theorem BookOk.other {d : Notice} {i : Instr ChannelLoc} {r : Reply i} (h : BookOk n w b)
    (hne : t ≠ .consumer n) (allow : noticeAllow t d i) (exec : q.memory.exec t i w r w') :
    BookOk n w' b := by
  have spares : ∀ word, ¬ WritesWord (consumerWord n word) i :=
    fun word writes => hne (own_of_writes allow writes).symm
  refine ⟨?_, ?_, h.desk.same (sameDesk_exec exec) rfl rfl⟩
  · rw [mem_exec exec (spares _)]
    exact h.last
  · rw [mem_exec exec (spares _)]
    exact h.first

/-- An access to a word outside the handle's books changes nothing in them. -/
theorem booksNext_outside {l : ChannelLoc} (last : l ≠ consumerWord n .lastSequence)
    (first : l ≠ consumerWord n .firstSampleInGeneration) :
    (∀ v r, booksNext n b (.store l v) r = b) ∧ ∀ r, booksNext n b (.load l) r = b := by
  cases l with
  | handle u word =>
      cases u with
      | producer => cases word <;> exact ⟨fun _ _ => rfl, fun _ => rfl⟩
      | consumer m =>
          cases word with
          | lastSequence =>
              have other : m ≠ n := fun same => last (by rw [same]; rfl)
              exact ⟨fun _ _ => if_neg other, fun _ => if_neg other⟩
          | firstSampleInGeneration =>
              have other : m ≠ n := fun same => first (by rw [same]; rfl)
              exact ⟨fun _ _ => if_neg other, fun _ => if_neg other⟩
          | _ => exact ⟨fun _ _ => rfl, fun _ => rfl⟩
  | _ => exact ⟨fun _ _ => rfl, fun _ => rfl⟩

theorem BookOk.store {l : ChannelLoc} {v : Nat} {r : Reply (.store l v)} (h : BookOk n w b) :
    BookOk n (write (.consumer n) l v w) (booksNext n b (.store l v) r) := by
  have desk : ∀ {b' : Books}, b'.found = b.found → b'.status = b.status →
      DeskOk n (write (.consumer n) l v w) b' := h.desk.same sameDesk_write
  have keeps : ∀ {l'}, l' ≠ l → (write (.consumer n) l v w).mem l' = w.mem l' :=
    fun hne => Function.update_of_ne hne ..
  by_cases last : l = consumerWord n .lastSequence
  · subst last
    have next : booksNext n b (.store (consumerWord n .lastSequence) v) r = b.setLast v :=
      if_pos rfl
    rw [next]
    refine ⟨Function.update_self .., ?_, desk rfl rfl⟩
    rw [keeps (by simp [consumerWord])]
    exact h.first
  by_cases first : l = consumerWord n .firstSampleInGeneration
  · subst first
    have next : booksNext n b (.store (consumerWord n .firstSampleInGeneration) v) r =
        b.setFirst v := if_pos rfl
    rw [next]
    refine ⟨?_, Function.update_self .., desk rfl rfl⟩
    rw [keeps (by simp [consumerWord])]
    exact h.last
  · have same : booksNext n b (.store l v) r = b := (booksNext_outside last first).1 v r
    rw [same]
    refine ⟨?_, ?_, desk rfl rfl⟩
    · rw [keeps (Ne.symm last)]
      exact h.last
    · rw [keeps (Ne.symm first)]
      exact h.first

theorem booksNext_load {l : ChannelLoc} (h : BookOk n w b) :
    booksNext n b (.load l) (w.mem l) = b := by
  by_cases last : l = consumerWord n .lastSequence
  · subst last
    have next : booksNext n b (.load (consumerWord n .lastSequence))
        (w.mem (consumerWord n .lastSequence)) =
        { b with last := w.mem (consumerWord n .lastSequence) } := if_pos rfl
    rw [next, h.last]
  by_cases first : l = consumerWord n .firstSampleInGeneration
  · subst first
    have next : booksNext n b (.load (consumerWord n .firstSampleInGeneration))
        (w.mem (consumerWord n .firstSampleInGeneration)) =
        { b with first := w.mem (consumerWord n .firstSampleInGeneration) } := if_pos rfl
    rw [next, h.first]
  · exact (booksNext_outside last first).2 _

/-- The books follow what their consumer does. -/
theorem BookOk.own {i : Instr ChannelLoc} {r : Reply i} (h : BookOk n w b)
    (allow : booksAllow i) (exec : q.memory.exec (.consumer n) i w r w') :
    BookOk n w' (booksNext n b i r) := by
  have spared (last : ¬ WritesWord (consumerWord n .lastSequence) i)
      (first : ¬ WritesWord (consumerWord n .firstSampleInGeneration) i) : BookOk n w' b :=
    ⟨(mem_exec exec last).trans h.last, (mem_exec exec first).trans h.first,
      h.desk.same (sameDesk_exec exec) rfl rfl⟩
  cases i with
  | load l =>
      obtain ⟨rfl, rfl⟩ := exec
      have same : booksNext n b (.load l) (w'.mem l) = b := booksNext_load h
      exact same.symm ▸ h
  | store l v =>
      cases exec
      exact h.store
  | cas l expected desired | fetchAdd l count bits =>
      refine spared ?_ ?_
      · rintro rfl
        cases allow
      · rintro rfl
        cases allow
  | _ => exact spared nofun nofun

/-- What happens outside shared memory leaves the books of the others alone. -/
theorem BookOk.same (h : BookOk n w b) (mem : w'.mem = w.mem) (desk : SameDesk n w w') :
    BookOk n w' b :=
  ⟨by rw [mem]; exact h.last, by rw [mem]; exact h.first, h.desk.same desk rfl rfl⟩

/-- The books at the start of a call. -/
def startBooks (b : Books) (a : ChannelCall) : Books := { b with opening := isOpening (some a) }

theorem BookOk.enter (h : BookOk n w b) (shut : b.opening = false) :
    BookOk n (q.machine.enter (.consumer n) a w) (startBooks b a) := by
  have client : (q.machine.enter (.consumer n) a w).client (.consumer n) =
      enterClient (.consumer n) a w := Function.update_self ..
  refine ⟨h.last, h.first, ?_, ?_, h.desk.entered, h.desk.counted, ?_⟩
  · rw [client]
    exact h.desk.ready
  · rw [client]
    rfl
  · rw [client]
    intro other
    have old := h.desk.delivered (h.desk.opening.symm.trans shut)
    cases a with
    | openConsumer => cases other
    | _ => exact old

theorem sameDesk_enter (hne : t ≠ .consumer n) :
    SameDesk n w (q.machine.enter t a w) := by
  have client : (q.machine.enter t a w).client (.consumer n) = w.client (.consumer n) :=
    Function.update_of_ne (Ne.symm hne) ..
  exact ⟨by rw [client], by rw [client], by rw [client], rfl⟩

theorem sameDesk_leave (hne : t ≠ .consumer n) :
    SameDesk n w (q.machine.leave t a x w) := by
  have client : (q.machine.leave t a x w).client (.consumer n) = w.client (.consumer n) :=
    Function.update_of_ne (Ne.symm hne) ..
  refine ⟨by rw [client], by rw [client], by rw [client], ?_⟩
  change handleReads n (w.finished ++ [_]) = _
  rw [handleReads_append, if_neg hne]

/-- What an endpoint has to keep to so that the books stay right. -/
def booksOf : Endpoint → Protocol (Instr ChannelLoc) Reply Books
  | .producer => ⟨fun _ _ => True, fun b _ _ => b⟩
  | .consumer n => booksProtocol n

def booksIdle : Endpoint → Books → Prop
  | .producer, _ => True
  | .consumer _, b => Clean b ∧ b.opening = false

def booksEnds : Endpoint → ChannelCall → Except Error ChannelResult → Books → Prop
  | .producer, _, _, _ => True
  | .consumer _, a, x, b => CallTakes a x b ∧ b.opening = isOpening (some a)

/-- Every read is given a buffer with room for a sample. -/
def Roomy (w : ChannelWorld) : ChannelEvent → Prop
  | .call t a => hasRoom (w.client t) a = true
  | _ => True

instance (w : ChannelWorld) : (e : ChannelEvent) → Decidable (Roomy w e)
  | .call t a => inferInstanceAs (Decidable (hasRoom (w.client t) a = true))
  | .op _ _ _ | .ret _ _ | .crash _ => inferInstanceAs (Decidable True)

theorem follows_unbooked {α : Type} {p : ChannelCode α} :
    p.Follows (booksOf .producer) (fun _ _ => True) b := by
  induction p with
  | ret _ | throw _ => trivial
  | op i k ih => exact ⟨trivial, fun r => ih r⟩

variable (q) in
/-- The channel with the books of its consumers. An endpoint writes no word of another's
handle, which the protocol of the notices says already. -/
def booksMonitor : Monitor q.machine Roomy (Notice × Books) where
  protocol t := (noticeProtocol t).prod (booksOf t)
  idle t d := Rested d.1 ∧ booksIdle t d.2
  ends t a x d := Rested d.1 ∧ booksEnds t a x d.2
  inv w d := ∀ n, BookOk n w (d (.consumer n)).2
  call_sound {w d t a} h idle allowed room := by
    obtain ⟨rested, quiet⟩ := idle
    cases t with
    | producer =>
        refine ⟨d .producer, fun n => ?_, ?_⟩
        · rw [Function.update_eq_self]
          exact (h n).same rfl (sameDesk_enter nofun)
        · exact Prog.follows_prod (follows_code allowed rested) follows_unbooked
    | consumer n =>
        obtain ⟨clean, shut⟩ := quiet
        refine ⟨((d (.consumer n)).1, startBooks (d (.consumer n)).2 a), fun m => ?_, ?_⟩
        · by_cases hm : m = n
          · subst hm
            rw [Function.update_self]
            exact (h m).enter shut
          · rw [Function.update_of_ne (by simpa using hm)]
            exact (h m).same rfl (sameDesk_enter (by simpa using Ne.symm hm))
        · refine Prog.follows_prod (follows_code allowed rested) ?_
          refine Prog.follows_mono ?_
            (follows_status (follows_code_books allowed room clean (h n).desk.ready))
          exact fun x b' ⟨taken, status⟩ => ⟨taken, congrArg Prod.snd status⟩
  op_sound {w d t i r w'} h allow exec _ := by
    intro n
    by_cases ht : t = .consumer n
    · subst ht
      rw [Function.update_self]
      exact (h n).own allow.2 exec
    · rw [Function.update_of_ne (Ne.symm ht)]
      exact (h n).other ht allow.1 exec
  ret_sound {w d t a x} h ends := by
    obtain ⟨rested, ends⟩ := ends
    cases t with
    | producer =>
        refine ⟨d .producer, fun n => ?_, rested, trivial⟩
        rw [Function.update_eq_self]
        exact (h n).same rfl (sameDesk_leave nofun)
    | consumer n =>
        refine ⟨((d (.consumer n)).1,
          settle (d (.consumer n)).2 (leaveClient a x (w.client (.consumer n)))),
          fun m => ?_, rested, rfl, rfl⟩
        by_cases hm : m = n
        · subst hm
          rw [Function.update_self]
          exact ⟨(h m).last, (h m).first, (h m).desk.leave ends.1 ends.2⟩
        · rw [Function.update_of_ne (by simpa using hm)]
          exact (h m).same rfl (sameDesk_leave (by simpa using Ne.symm hm))
  crash_sound h _ n := (h n).same rfl ⟨rfl, rfl, rfl, rfl⟩

theorem bookOk_init (out : Endpoint → Nat → Nat) :
    BookOk n (q.init out) ⟨0, 0, none, false, false⟩ :=
  ⟨rfl, rfl, rfl, rfl, nofun, .nil, fun _ => List.nil_suffix⟩

/-- The books are right throughout every run. -/
theorem books_reach {out : Endpoint → Nat → Nat} {c : ChannelConfig}
    (run : q.machine.Reach Roomy (q.machine.start (q.init out)) c) : q.booksMonitor.Covers c := by
  refine q.booksMonitor.covers_reach run
    ⟨fun _ => (⟨.none, .away⟩, ⟨0, 0, none, false, false⟩), fun n => bookOk_init out, ?_⟩
  intro t
  refine ⟨⟨rfl, nofun⟩, ?_⟩
  cases t with
  | producer => trivial
  | consumer n => exact ⟨rfl, rfl⟩

/-- The samples the handle has returned; none while it is being opened. -/
def readsOf (n : Nat) (w : ChannelWorld) : List ReadSnapshot :=
  if isOpening (w.client (.consumer n)).call then [] else handleReads n w.finished

/-- `skipped` are the samples committed after the one and before the other. -/
def CommittedBetween (committed : List Sample) (older newer : Nat) (skipped : List Sample) :
    Prop :=
  ∃ before s s' after, committed = before ++ s :: skipped ++ s' :: after ∧
    s.sequence = older ∧ s'.sequence = newer

theorem sequence_getElem {committed : List Sample}
    (numbered : committed.map (·.sequence) = List.range' 1 committed.length) {i : Nat}
    (hi : i < committed.length) : committed[i].sequence = i + 1 := by
  have same := congrArg (·[i]?) numbered
  simp only [List.getElem?_map, List.getElem?_eq_getElem hi, List.getElem?_range' hi,
    Option.map_some, Option.some.injEq] at same
  omega

/-- Between two samples there are as many as the difference of their numbers says. -/
theorem committedBetween_exists {committed : List Sample} {older newer : Nat}
    (numbered : committed.map (·.sequence) = List.range' 1 committed.length)
    (positive : 0 < older) (lt : older < newer) (le : newer ≤ committed.length) :
    ∃ skipped, CommittedBetween committed older newer skipped ∧
      skipped.length = newer - older - 1 := by
  have first : older - 1 < committed.length := by omega
  have second : newer - 1 < committed.length := by omega
  refine ⟨(committed.drop older).take (newer - older - 1), ⟨committed.take (older - 1),
    committed[older - 1], committed[newer - 1], committed.drop newer, ?_, ?_, ?_⟩, ?_⟩
  · have tail : committed.drop older = (committed.drop older).take (newer - older - 1) ++
        committed[newer - 1] :: committed.drop newer := by
      conv_lhs => rw [← List.take_append_drop (newer - older - 1) (committed.drop older)]
      rw [List.drop_drop, show older + (newer - older - 1) = newer - 1 by omega,
        List.drop_eq_getElem_cons second, show newer - 1 + 1 = newer by omega]
    conv_lhs => rw [← List.take_append_drop (older - 1) committed,
      List.drop_eq_getElem_cons first, show older - 1 + 1 = older by omega, tail]
    simp
  · rw [sequence_getElem numbered first]
    omega
  · rw [sequence_getElem numbered second]
    omega
  · rw [List.length_take, List.length_drop]
    omega

/-- The reads of a handle come from calls that have returned. -/
theorem mem_handleReads {finished : List ChannelReturn} {s : ReadSnapshot}
    (h : s ∈ handleReads n finished) : ∃ r ∈ finished, s ∈ newReads r.call r.result := by
  induction finished using List.reverseRecOn with
  | nil => cases h
  | append_singleton finished r ih =>
      rw [handleReads_append] at h
      have earlier : s ∈ handleReads n finished →
          ∃ r' ∈ finished ++ [r], s ∈ newReads r'.call r'.result := by
        intro h
        obtain ⟨r', hr, hs⟩ := ih h
        exact ⟨r', List.mem_append_left _ hr, hs⟩
      split at h
      · rcases List.mem_append.1 h with h | h
        · split at h
          · cases h
          · exact earlier h
        · exact ⟨r, List.mem_append_right _ (List.mem_singleton.2 rfl), h⟩
      · exact earlier h

theorem result_of_newReads {s : ReadSnapshot} (new : s ∈ newReads a x) :
    x = .ok (.read s) ∨ ∃ loan, x = .ok (.borrowed loan) ∧ loan.snapshot = s := by
  rcases x with e | r
  · cases a <;> cases new
  cases a with
  | tryRead | waitRead =>
      cases r with
      | read snapshot => exact .inl (by rw [List.mem_singleton.1 new])
      | _ => cases new
  | tryLoan | waitLoan =>
      cases r with
      | borrowed loan => exact .inr ⟨loan, rfl, (List.mem_singleton.1 new).symm⟩
      | _ => cases new
  | _ => cases r <;> cases new

/-- A sample that was returned is one of the committed ones. -/
theorem ReturnOk.committed {committed : List Sample} {r : ChannelReturn} {s : ReadSnapshot}
    (ok : ReturnOk committed r) (new : s ∈ newReads r.call r.result) :
    ∃ sample ∈ committed, sample.sequence = s.sampleSequence := by
  unfold ReturnOk at ok
  obtain result | ⟨loan, result, rfl⟩ := result_of_newReads new
  · rw [result] at ok
    obtain ⟨-, sample, delivers, -⟩ := ok
    exact ⟨sample, delivers.1, delivers.2.1.symm⟩
  · rw [result] at ok
    obtain ⟨-, sample, delivers⟩ := ok
    exact ⟨sample, delivers.1, delivers.2.1.symm⟩

/-- The numbers of committed samples lie between one and their count. -/
theorem bounds_of_committed {committed : List Sample} {sample : Sample}
    (numbered : committed.map (·.sequence) = List.range' 1 committed.length)
    (mem : sample ∈ committed) :
    0 < sample.sequence ∧ sample.sequence ≤ committed.length := by
  have number := List.mem_map_of_mem (f := (·.sequence)) mem
  rw [numbered, List.mem_range'_1] at number
  omega

/-- Counts that bridge every gap add up to the distance. -/
theorem sum_counts {first : ReadSnapshot} {rest : List ReadSnapshot}
    (counted : (first :: rest).IsChain Counts)
    (increasing : ((first :: rest).map (·.sampleSequence)).Pairwise (· < ·)) :
    (rest.map (·.missedSamples + 1)).sum + first.sampleSequence =
      (rest.getLastD first).sampleSequence := by
  induction rest generalizing first with
  | nil => exact Nat.zero_add _
  | cons s rest ih =>
      have lt : first.sampleSequence < s.sampleSequence :=
        (List.pairwise_cons.1 increasing).1 _ (by simp)
      have count : s.missedSamples = saturatedGap first.sampleSequence s.sampleSequence :=
        counted.rel
      have next := ih (List.IsChain.tail counted) (List.pairwise_cons.1 increasing).2
      rw [saturatedGap, if_neg (Nat.not_le_of_lt lt)] at count
      rw [List.map_cons, List.sum_cons, List.getLastD_cons]
      omega

/-- Each count is the number of samples committed in between. -/
theorem exact_counts {committed : List Sample} {reads : List ReadSnapshot}
    (counted : reads.IsChain Counts)
    (increasing : (reads.map (·.sampleSequence)).Pairwise (· < ·))
    (numbered : committed.map (·.sequence) = List.range' 1 committed.length)
    (bounds : ∀ r ∈ reads, 0 < r.sampleSequence ∧ r.sampleSequence ≤ committed.length) :
    reads.IsChain fun r s => ∃ skipped,
      CommittedBetween committed r.sampleSequence s.sampleSequence skipped ∧
        s.missedSamples = skipped.length := by
  rw [List.isChain_iff_getElem] at counted ⊢
  rw [List.pairwise_map, List.pairwise_iff_getElem] at increasing
  intro i hi
  have lt := increasing i (i + 1) (Nat.lt_of_succ_lt hi) hi (Nat.lt_succ_self i)
  obtain ⟨skipped, between, length⟩ := committedBetween_exists numbered
    (bounds _ (List.getElem_mem (Nat.lt_of_succ_lt hi))).1 lt (bounds _ (List.getElem_mem hi)).2
  refine ⟨skipped, between, ?_⟩
  rw [length, counted i hi, saturatedGap, if_neg (Nat.not_le_of_lt lt)]

/-- An execution that has not written the books has left their words as they were. -/
theorem clean_of_next {i : Instr ChannelLoc} {r : Reply i} (allow : booksAllow i)
    (clean : Clean (booksNext n b i r)) : Clean b ∧
      ¬ WritesWord (consumerWord n .lastSequence) i ∧
      ¬ WritesWord (consumerWord n .firstSampleInGeneration) i := by
  have kept : (booksNext n b i r).before = b.before ∨ (booksNext n b i r).before ≠ none := by
    unfold booksNext
    split
    · split <;> exact .inl rfl
    · split <;> exact .inl rfl
    · split
      · exact .inr nofun
      · exact .inl rfl
    · split
      · exact .inr nofun
      · exact .inl rfl
    · exact .inl rfl
  have spares : ∀ word, word = .lastSequence ∨ word = .firstSampleInGeneration →
      ¬ WritesWord (consumerWord n word) i := by
    rintro word book writes
    cases i with
    | store l v =>
        cases writes
        have entered : (booksNext n b (.store (consumerWord n word) v) r).before =
            some b.found := by
          rcases book with rfl | rfl
          · exact congrArg Books.before (if_pos rfl)
          · exact congrArg Books.before (if_pos rfl)
        rw [Clean, entered] at clean
        cases clean
    | cas l expected desired | fetchAdd l count bits =>
        cases writes
        rcases book with rfl | rfl <;> cases allow
    | _ => exact writes.elim
  exact ⟨(kept.resolve_right (not_not.2 clean)).symm.trans clean, spares _ (.inl rfl),
    spares _ (.inr rfl)⟩

/-- The two words of a handle are the same in both worlds. -/
def SameWords (n : Nat) (w w' : ChannelWorld) : Prop :=
  w'.mem (consumerWord n .lastSequence) = w.mem (consumerWord n .lastSequence) ∧
    w'.mem (consumerWord n .firstSampleInGeneration) =
      w.mem (consumerWord n .firstSampleInGeneration)

/-- A search that fails leaves the two words of the handle alone, whatever the segment holds
and whatever others do to the rest of it in between. -/
theorem sameWords_of_failed_claim {handle : ConsumerHandle} {operation : String}
    {y : Except Error ReadLoan}
    (run : (claimLatestUnlocked n handle operation).Among (q.memory.exec (.consumer n))
      (SameWords n) w y w') {e : Error} (failed : y = .error e) : SameWords n w w' := by
  have follows : (claimLatestUnlocked n handle operation).Follows (booksProtocol n)
      (ClaimTakes handle) ⟨0, 0, none, true, false⟩ := follows_claimLatestUnlocked rfl
  -- as long as the books are clean, the words are those of the beginning
  have step : ∀ w₁ b i r w₂, (Clean b → SameWords n w w₁) → (booksProtocol n).allow b i →
      q.memory.exec (.consumer n) i w₁ r w₂ → Clean ((booksProtocol n).next b i r) →
      SameWords n w w₂ := by
    intro w₁ b i r w₂ kept allow exec clean
    obtain ⟨before, last, first⟩ := clean_of_next allow clean
    obtain ⟨old, old'⟩ := kept before
    exact ⟨(mem_exec exec last).trans old, (mem_exec exec first).trans old'⟩
  have others : ∀ w₁ (b : Books) w₂, (Clean b → SameWords n w w₁) → SameWords n w₁ w₂ →
      Clean b → SameWords n w w₂ := by
    intro w₁ b w₂ kept same clean
    obtain ⟨old, old'⟩ := kept clean
    exact ⟨same.1.trans old, same.2.trans old'⟩
  obtain ⟨b', taken, kept⟩ := Prog.follows_among (E := fun w' b => Clean b → SameWords n w w')
    step others run (fun _ => ⟨rfl, rfl⟩) follows
  rw [failed] at taken
  exact kept taken

theorem increasing_reads {s : ChannelState} (hi : q.Inv s) (h : BookOk n s.world b) :
    ((readsOf n s.world).map (·.sampleSequence)).Pairwise (· < ·) := by
  unfold readsOf
  split
  · exact .nil
  · rename_i shut
    have suffix := h.desk.delivered (Bool.eq_false_iff.2 shut)
    exact (hi.clients.delivered n).1.sublist suffix.sublist

theorem counted_reads (h : BookOk n w b) : (readsOf n w).IsChain Counts := by
  unfold readsOf
  split
  · exact .nil
  · exact h.desk.counted

theorem bounds_of_reads {s : ChannelState} {r : ReadSnapshot} (hi : q.Inv s)
    (mem : r ∈ readsOf n s.world) :
    0 < r.sampleSequence ∧ r.sampleSequence ≤ s.world.committed.length := by
  unfold readsOf at mem
  split at mem
  · cases mem
  · obtain ⟨call, finished, new⟩ := mem_handleReads mem
    obtain ⟨sample, committed, same⟩ := (hi.clients.finished call finished).committed new
    rw [← same]
    exact bounds_of_committed hi.slots.numbered committed

/-- Missed samples are counted exactly: each read reports the publishes committed between
the read before it and itself, so the counts add up to the distance; between two calls
the two words say what was returned last, and a search that fails does not change them,
whatever happens in between to all the other words. -/
theorem missed_samples_exact {out : Endpoint → Nat → Nat} {c : ChannelConfig}
    (run : q.machine.Reach Roomy (q.machine.start (q.init out)) c) (n : Nat) :
    (readsOf n c.world).IsChain (fun r s => ∃ skipped, CommittedBetween c.world.committed
      r.sampleSequence s.sampleSequence skipped ∧ s.missedSamples = skipped.length) ∧
    (∀ first rest, readsOf n c.world = first :: rest →
      (rest.map (·.missedSamples + 1)).sum =
        (rest.getLastD first).sampleSequence - first.sampleSequence) ∧
    (c.thread (.consumer n) = .idle → (c.world.client (.consumer n)).handle.isSome →
      Entered (c.world.mem (consumerWord n .lastSequence),
        c.world.mem (consumerWord n .firstSampleInGeneration)) (readsOf n c.world)) ∧
    (∀ e c', q.machine.Step c e c' → e.actor ≠ .consumer n → SameWords n c.world c'.world) ∧
    ∀ handle operation w x w',
      (claimLatestUnlocked n handle operation).Among (q.memory.exec (.consumer n))
        (SameWords n) w x w' →
      ∀ e, x = .error e → SameWords n w w' := by
  obtain ⟨d, books, threads⟩ := books_reach run
  obtain ⟨s, hs, hi, -⟩ := covers_reach run
  have hs : s.world = c.world := hs
  have book := books n
  have counted := counted_reads book
  have increasing : ((readsOf n c.world).map (·.sampleSequence)).Pairwise (· < ·) := by
    rw [← hs] at book ⊢
    exact increasing_reads hi book
  refine ⟨?_, ?_, ?_, ?_, ?_⟩
  · refine exact_counts counted increasing ?_ ?_
    · rw [← hs]
      exact hi.slots.numbered
    · rw [← hs]
      exact fun r mem => bounds_of_reads hi mem
  · intro first rest reads
    rw [reads] at counted increasing
    have sum := sum_counts counted increasing
    omega
  · intro idle some
    have rested := threads (.consumer n)
    rw [idle] at rested
    obtain ⟨-, clean, shut⟩ := rested
    have clean : (d (.consumer n)).2.before = none := clean
    have entered := book.desk.entered (book.desk.ready.trans some)
    rw [Books.found, clean] at entered
    rw [book.last, book.first, readsOf, if_neg (by rw [← book.desk.opening, shut]; simp)]
    exact entered
  · intro e c' next other
    obtain ⟨s₁, s₂, h₁, h₂, -, -, guar⟩ := guar_step (run.mono fun _ _ _ => trivial) next
    have rely := guar.1 (.consumer n) (Ne.symm other)
    rw [← h₁, ← h₂]
    exact ⟨rely.words _ .own, rely.words _ .own⟩
  · exact fun handle operation w x w' run e failed => sameWords_of_failed_claim run failed

/-- A consumer reads the first of three samples and then the last one. -/
def tinyGap : List (Move Endpoint ChannelCall) :=
  whole .producer (.publish [7]) ++ whole (.consumer 0) tinyOpen ++
    whole (.consumer 0) (.tryRead 1) ++ whole .producer (.publish [8]) ++
    whole .producer (.publish [9]) ++ whole (.consumer 0) (.tryRead 1)

theorem missed_samples_exact_tiny :
    ∃ c, tinyRun Roomy tinyGap = some c ∧
      (readsOf 0 c.world).map (·.missedSamples) = [0, 1] ∧
      ∀ first rest, readsOf 0 c.world = first :: rest →
        (rest.map (·.missedSamples + 1)).sum =
          (rest.getLastD first).sampleSequence - first.sampleSequence := by
  have missed : (tinyRun Roomy tinyGap).map
      (fun c => (readsOf 0 c.world).map (·.missedSamples)) = some [0, 1] := by decide +kernel
  obtain ⟨c, hc, counts⟩ := Option.map_eq_some_iff.1 missed
  exact ⟨c, hc, counts, (missed_samples_exact (tinyRun_reach _ hc) 0).2.1⟩

end ChannelSystem
end EdgeRuntime

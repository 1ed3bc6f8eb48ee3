import EdgeRuntime.Supervisor.Loop
import Mathlib.Data.List.DropRight

/-!
The captured output of a supervised child. The supervisor keeps the last bytes of what
the child wrote, chunk by chunk, without ever holding more than the limit.
-/
namespace EdgeRuntime.SupervisorState

/-- The bytes that `erase` takes off the front before a chunk is appended. A chunk that
fills the tail alone replaces it. -/
def eraseCount (tail data : List Nat) : Nat :=
  if data.length ≥ stdoutTailLimit then 0
  else if tail.length + data.length > stdoutTailLimit then
    tail.length + data.length - stdoutTailLimit
  else 0

/-- The bytes that a drain takes from the pipe. -/
def drained : List ReadOutcome → List Nat
  | [] => []
  | .data [] :: _ => []
  | .data bytes :: rest => bytes ++ drained rest
  | .errno e :: rest => if e = eagain then [] else if e = eintr then drained rest else []

section
variable {α : Type} {l m : List α} {n : Nat}

theorem length_rtake : (l.rtake n).length = min n l.length := by
  rw [List.rtake, List.length_drop]
  omega

/-- The end of a concatenation lies in its second part, or takes all of that part. -/
theorem rtake_append : (l ++ m).rtake n = l.rtake (n - m.length) ++ m.rtake n := by
  rw [List.rtake, List.rtake, List.rtake, List.length_append, List.drop_append]
  congr 1
  · by_cases le : m.length ≤ n
    · congr 1
      omega
    · rw [List.drop_eq_nil_of_le (by omega), List.drop_eq_nil_of_le (by omega)]
  · congr 1
    omega

theorem rtake_rtake {k : Nat} (le : k ≤ n) : (l.rtake n).rtake k = l.rtake k := by
  rw [List.rtake, List.rtake, List.rtake, List.drop_drop, List.length_drop]
  congr 1
  omega

theorem rtake_of_length_le (le : l.length ≤ n) : l.rtake n = l := by
  rw [List.rtake, Nat.sub_eq_zero_of_le le, List.drop_zero]

end

/-- Never more is erased than is there. -/
theorem eraseCount_le (tail data : List Nat) : eraseCount tail data ≤ tail.length := by
  unfold eraseCount
  split
  · exact Nat.zero_le _
  · split <;> omega

/-- Without the limit in its way, an append keeps the end of the concatenation. -/
theorem appendStdoutTail_eq (tail data : List Nat) :
    appendStdoutTail tail data = (tail ++ data).rtake stdoutTailLimit := by
  unfold appendStdoutTail
  rw [rtake_append]
  split
  · rename_i long
    have whole : stdoutTailLimit - data.length = 0 := by omega
    rw [whole, List.rtake_zero, List.nil_append]
    rfl
  · rename_i short
    rw [rtake_of_length_le (Nat.le_of_not_le short)]
    split
    · have cut : tail.length - (stdoutTailLimit - data.length) =
          tail.length + data.length - stdoutTailLimit := by omega
      rw [List.rtake, cut]
    · rw [rtake_of_length_le (by omega)]

/-- What is kept of the tail is what `erase` leaves. -/
theorem appendStdoutTail_erase {tail data : List Nat} (short : data.length < stdoutTailLimit) :
    appendStdoutTail tail data = tail.drop (eraseCount tail data) ++ data := by
  unfold appendStdoutTail eraseCount
  rw [if_neg (Nat.not_le.2 short), if_neg (Nat.not_le.2 short)]
  split
  · rfl
  · rw [List.drop_zero]

/-- One more chunk: the tail of the whole follows from the tail so far. -/
theorem appendStdoutTail_rtake (read data : List Nat) :
    appendStdoutTail (read.rtake stdoutTailLimit) data =
      (read ++ data).rtake stdoutTailLimit := by
  rw [appendStdoutTail_eq, rtake_append, rtake_append, rtake_rtake (Nat.sub_le _ _)]

theorem foldl_appendStdoutTail (chunks : List (List Nat)) (read : List Nat) :
    chunks.foldl appendStdoutTail (read.rtake stdoutTailLimit) =
      (read ++ chunks.flatten).rtake stdoutTailLimit := by
  induction chunks generalizing read with
  | nil => rw [List.foldl_nil, List.flatten_nil, List.append_nil]
  | cons data chunks ih =>
      rw [List.foldl_cons, appendStdoutTail_rtake, ih, List.flatten_cons, List.append_assoc]

/-- However the reads of a drain end, the tail stays that of everything read so far. -/
theorem drainChildStdout_tail (reads : List ReadOutcome) {s : SupervisorState} {read : List Nat}
    (tail : s.stdoutTail = read.rtake stdoutTailLimit) :
    (drainChildStdout reads s).stdoutTail = (read ++ drained reads).rtake stdoutTailLimit := by
  induction reads generalizing s read with
  | nil => rw [drainChildStdout, drained, List.append_nil, tail]
  | cons outcome rest ih =>
      cases outcome with
      | data bytes =>
          cases bytes with
          | nil =>
              rw [drainChildStdout, drained, List.append_nil]
              exact tail
          | cons b bytes =>
              rw [drainChildStdout, drained, ← List.append_assoc]
              · apply ih
                rw [tail]
                exact appendStdoutTail_rtake read (b :: bytes)
              · rintro ⟨⟩
              · rintro ⟨⟩
      | errno e =>
          rw [drainChildStdout, drained]
          split
          · rw [List.append_nil]
            exact tail
          · split
            · exact ih tail
            · rw [List.append_nil]
              exact tail

/-- Whatever chunks the child wrote, the captured tail is the end of their concatenation,
up to the limit, and no erase went beyond the tail that was there. -/
theorem captured_tail (chunks : List (List Nat)) :
    chunks.foldl appendStdoutTail [] = chunks.flatten.rtake stdoutTailLimit ∧
      (chunks.foldl appendStdoutTail []).length =
        min stdoutTailLimit (chunks.map List.length).sum ∧
      ∀ data, (data.length < stdoutTailLimit →
          appendStdoutTail (chunks.foldl appendStdoutTail []) data =
            (chunks.foldl appendStdoutTail []).drop
              (eraseCount (chunks.foldl appendStdoutTail []) data) ++ data) ∧
        eraseCount (chunks.foldl appendStdoutTail []) data ≤
          (chunks.foldl appendStdoutTail []).length := by
  have tail := foldl_appendStdoutTail chunks []
  rw [List.rtake_nil, List.nil_append] at tail
  refine ⟨tail, ?_, ?_⟩
  · rw [tail, length_rtake, List.length_flatten]
  · intro data
    exact ⟨appendStdoutTail_erase, eraseCount_le _ data⟩

end EdgeRuntime.SupervisorState

import EdgeRuntime.Common.CheckedMath
import EdgeRuntime.Common.Error
import EdgeRuntime.Common.Scan
import EdgeRuntime.Process.Identity
import Mathlib.Data.List.TakeWhile

/-!
The start time of a process, read from its stat line. The command name stands in
parentheses and may hold anything, parentheses and spaces included; the parser goes to
the last closing parenthesis and counts the fields from there.
-/
namespace EdgeRuntime

def nul : UInt8 := 0
def newline : UInt8 := 10
def space : UInt8 := 32
def openParen : UInt8 := 40
def closeParen : UInt8 := 41
def plusSign : UInt8 := 43
def minusSign : UInt8 := 45

def isDigit (b : UInt8) : Bool := 48 ≤ b && b ≤ 57
/-- The white space that `strtoull` skips. -/
def isSpace (b : UInt8) : Bool := b = space || (9 ≤ b && b ≤ 13)

def decimalValue (digits : List UInt8) : Nat :=
  digits.foldl (fun value b => value * 10 + (b.toNat - 48)) 0

/-- What a conversion returns: the value, the text behind it, and whether it overflowed. -/
structure Conversion where
  value : Nat
  rest : List UInt8
  outOfRange : Bool

/-- `strtoull` in base ten. Without digits nothing is consumed. -/
def strtoull (text : List UInt8) : Conversion :=
  let body := text.dropWhile isSpace
  let negative := body.head? = some minusSign
  let body := if negative ∨ body.head? = some plusSign then body.tail else body
  let digits := body.takeWhile isDigit
  let value := decimalValue digits
  if digits = [] then ⟨0, text, false⟩
  else if value > uint64Max then ⟨uint64Max, body.dropWhile isDigit, true⟩
  else ⟨if negative then (2 ^ 64 - value) % 2 ^ 64 else value, body.dropWhile isDigit, false⟩

def statError (context : String) : Error :=
  makeError .recoveryBlocked "proc_stat_starttime" context

/-- The conversion of the field that `text` begins with. -/
def parseStarttimeField (text : List UInt8) : Except Error Nat :=
  let converted := strtoull text
  if text.head?.all (fun b => ¬ isDigit b) ∨ converted.rest = text ∨ converted.outOfRange ∨
      converted.value = 0 ∨
      (converted.rest.head? ≠ some space ∧ converted.rest.head? ≠ some newline) then
    .error (statError "malformed stat (starttime)")
  else .ok converted.value

/-- The parsing of what stands behind the last closing parenthesis. -/
def parseBehindName (text : List UInt8) : Except Error Nat :=
  let text := if text.head? = some space then text.tail else text
  match Scan.skip space 19 text with
  | none => .error (statError "malformed stat (too short)")
  | some field => parseStarttimeField field

/-- The parsing of the bytes that were read, up to the first NUL. -/
def parseStarttime (buffer : List UInt8) : Except Error Nat :=
  if buffer = [] then .error (statError "empty or unreadable stat")
  else
    match Scan.afterLast closeParen (buffer.takeWhile (· ≠ nul)) with
    | none => .error (statError "malformed stat (no close paren)")
    | some text => parseBehindName text

def statBufferSize : Nat := 4096

/-- The start time of a process whose stat file was opened and read. -/
def procStatStarttime (opened : Except Error Unit) (content : Except Error (List UInt8)) :
    Except Error Nat := do
  opened
  let bytes ← content
  parseStarttime (bytes.take (statBufferSize - 1))

/-- What `poll` reports on the descriptor of a process. -/
inductive Readiness
  | failed
  | quiet
  | readable
  | other

/-- What the system answers about processes: the error number of `pidfd_open`, zero if
there is none, the state of the descriptor, and the stat file. -/
structure ProcessTable where
  pidfdOpen : Nat → Int
  poll : Nat → Readiness
  statOpened : Nat → Except Error Unit
  stat : Nat → Except Error (List UInt8)

def ProcessTable.probeLiveness (table : ProcessTable) (pid expectedStartTicks : Nat) :
    Liveness :=
  if pid = 0 ∨ pid > int32Max ∨ expectedStartTicks = 0 then .unverifiable
  else if table.pidfdOpen pid ≠ 0 then
    if table.pidfdOpen pid = esrch then .exited else .unverifiable
  else
    match table.poll pid with
    | .failed => .unverifiable
    | .readable => .exited
    | .other => .unverifiable
    | .quiet =>
        match procStatStarttime (table.statOpened pid) (table.stat pid) with
        | .error _ => .unverifiable
        | .ok start => if start = expectedStartTicks then .alive else .pidReused

/-- Nothing is known about a process without a number. -/
theorem ProcessTable.probeLiveness_zero (table : ProcessTable) (ticks : Nat) :
    table.probeLiveness 0 ticks = .unverifiable :=
  if_pos (.inl rfl)

/-- A stat line: the pid, the command in parentheses, and the fields from the third on. -/
def statLine (pid comm : List UInt8) (fields : List (List UInt8)) : List UInt8 :=
  pid ++ [space, openParen] ++ comm ++ [closeParen, space] ++ Scan.join space fields ++
    [newline]

/-- The value of a plain decimal number. -/
def decimal (field : List UInt8) : Option Nat :=
  if field ≠ [] ∧ field.all isDigit then some (decimalValue field) else none

/-- No byte that ends a field, a name or a text. -/
def PlainField (field : List UInt8) : Prop :=
  nul ∉ field ∧ newline ∉ field ∧ space ∉ field ∧ closeParen ∉ field

instance (field : List UInt8) : Decidable (PlainField field) :=
  inferInstanceAs (Decidable (_ ∧ _))

section Field
variable {field rest : List UInt8} {stop : UInt8}

theorem not_isDigit_stop (h : stop = space ∨ stop = newline) : isDigit stop = false := by
  rcases h with rfl | rfl <;> decide

theorem not_isSpace_of_isDigit {b : UInt8} (h : isDigit b = true) : isSpace b = false := by
  simp only [isDigit, Bool.and_eq_true, decide_eq_true_eq, UInt8.le_iff_toNat_le] at h
  have space : b ≠ space := by
    rintro rfl
    exact absurd h.1 (by decide)
  have control : ¬ b.toNat ≤ 13 := by
    have := h.1
    simp at this
    omega
  simp [isSpace, space, UInt8.le_iff_toNat_le, control]

theorem ne_sign_of_isDigit {b : UInt8} (h : isDigit b = true) :
    b ≠ minusSign ∧ b ≠ plusSign := by
  constructor
  · rintro rfl
    cases h
  · rintro rfl
    cases h

/-- Before a digit there is nothing to skip. -/
theorem strtoull_digit {b : UInt8} (digit : isDigit b = true) :
    strtoull (b :: rest) =
      if decimalValue ((b :: rest).takeWhile isDigit) > uint64Max then
        ⟨uint64Max, rest.dropWhile isDigit, true⟩
      else ⟨decimalValue ((b :: rest).takeWhile isDigit), rest.dropWhile isDigit, false⟩ := by
  obtain ⟨minus, plus⟩ := ne_sign_of_isDigit digit
  have body : (b :: rest).dropWhile isSpace = b :: rest := by
    rw [List.dropWhile_cons_of_neg]
    rw [not_isSpace_of_isDigit digit]
    exact nofun
  have digits : (b :: rest).takeWhile isDigit ≠ [] := by
    rw [List.takeWhile_cons_of_pos digit]
    exact nofun
  have after : (b :: rest).dropWhile isDigit = rest.dropWhile isDigit :=
    List.dropWhile_cons_of_pos digit
  simp [strtoull, body, minus, plus, digits, after]

/-- What the guards of the source refuse. -/
theorem parseStarttimeField_error
    (h : rest.head?.all (fun b => ¬ isDigit b) ∨ (strtoull rest).outOfRange ∨
      (strtoull rest).value = 0 ∨ ((strtoull rest).rest.head? ≠ some space ∧
        (strtoull rest).rest.head? ≠ some newline)) :
    parseStarttimeField rest = .error (statError "malformed stat (starttime)") := by
  unfold parseStarttimeField
  rw [if_pos]
  rcases h with head | range | zero | stop
  · exact .inl head
  · exact .inr (.inr (.inl range))
  · exact .inr (.inr (.inr (.inl zero)))
  · exact .inr (.inr (.inr (.inr stop)))

/-- The digits end before the field does. -/
theorem dropWhile_isDigit {f : List UInt8} (h : f.all isDigit = false) (tail : List UInt8) :
    ∃ b ∈ f, ((f ++ tail).dropWhile isDigit).head? = some b := by
  induction f with
  | nil => cases h
  | cons b f ih =>
      by_cases digit : isDigit b = true
      · rw [List.all_cons, digit, Bool.true_and] at h
        obtain ⟨b', mem, head⟩ := ih h
        refine ⟨b', List.mem_cons_of_mem b mem, ?_⟩
        rw [List.cons_append, List.dropWhile_cons_of_pos digit]
        exact head
      · refine ⟨b, List.mem_cons_self, ?_⟩
        rw [List.cons_append, List.dropWhile_cons_of_neg digit]
        rfl

/-- A field that is followed by a separator is accepted if it is a plain number in range,
and then with its own value. -/
theorem parseStarttimeField_eq (blank : space ∉ field) (line : newline ∉ field)
    (ends : stop = space ∨ stop = newline) :
    parseStarttimeField (field ++ stop :: rest) =
      match decimal field with
      | some value =>
          if 1 ≤ value ∧ value ≤ uint64Max then .ok value
          else .error (statError "malformed stat (starttime)")
      | none => .error (statError "malformed stat (starttime)") := by
  have other := not_isDigit_stop ends
  cases field with
  | nil =>
      refine parseStarttimeField_error (.inl ?_)
      simp [other]
  | cons b f =>
      by_cases digit : isDigit b = true
      · have converted := @strtoull_digit (f ++ stop :: rest) b digit
        cases all : f.all isDigit with
        | true =>
            have digits : (b :: (f ++ stop :: rest)).takeWhile isDigit = b :: f := by
              rw [List.takeWhile_cons_of_pos digit, List.takeWhile_append_of_pos,
                List.takeWhile_cons_of_neg, List.append_nil]
              · rw [other]
                exact nofun
              · exact fun x mem => List.all_eq_true.1 all x mem
            have after : (f ++ stop :: rest).dropWhile isDigit = stop :: rest := by
              rw [List.dropWhile_append_of_pos, List.dropWhile_cons_of_neg]
              · rw [other]
                exact nofun
              · exact fun x mem => List.all_eq_true.1 all x mem
            have number : decimal (b :: f) = some (decimalValue (b :: f)) := by
              simp [decimal, digit, all]
            rw [number]
            rw [digits, after] at converted
            dsimp only
            split
            · rename_i range
              have value : strtoull (b :: (f ++ stop :: rest)) =
                  ⟨decimalValue (b :: f), stop :: rest, false⟩ := by
                rw [converted, if_neg (Nat.not_lt.2 range.2)]
              have moved : stop :: rest ≠ b :: (f ++ stop :: rest) := by
                intro same
                have := congrArg List.length same
                simp only [List.length_cons, List.length_append] at this
                omega
              have nonzero : decimalValue (b :: f) ≠ 0 := Nat.ne_of_gt range.1
              rcases ends with rfl | rfl <;>
                simp [parseStarttimeField, value, digit, moved, nonzero]
            · rename_i range
              refine parseStarttimeField_error ?_
              rw [List.cons_append, converted]
              split
              · exact .inr (.inl rfl)
              · refine .inr (.inr (.inl ?_))
                dsimp only
                omega
        | false =>
            have number : decimal (b :: f) = none := by
              simp [decimal, digit, all]
            rw [number]
            obtain ⟨x, mem, head⟩ := dropWhile_isDigit all (stop :: rest)
            have field : x ∈ b :: f := List.mem_cons_of_mem b mem
            have behind : (strtoull (b :: (f ++ stop :: rest))).rest.head? = some x := by
              rw [converted]
              split <;> exact head
            refine parseStarttimeField_error (.inr (.inr (.inr ?_)))
            rw [List.cons_append, behind]
            constructor
            · intro same
              cases same
              exact blank field
            · intro same
              cases same
              exact line field
      · have number : decimal (b :: f) = none := by
          simp [decimal, digit]
        rw [number]
        refine parseStarttimeField_error (.inl ?_)
        simp [digit]

theorem suffix_ite {condition : Prop} [Decidable condition] {text first second : List UInt8}
    (h : first <:+ text) (h' : second <:+ text) :
    (if condition then first else second) <:+ text := by
  split
  · exact h
  · exact h'

/-- A conversion leaves an end of the text. -/
theorem strtoull_rest_suffix (text : List UInt8) : (strtoull text).rest <:+ text := by
  have spaces : text.dropWhile isSpace <:+ text := List.dropWhile_suffix isSpace
  have sign : (text.dropWhile isSpace).tail <:+ text := (List.tail_suffix _).trans spaces
  unfold strtoull
  dsimp only
  rw [apply_ite Conversion.rest, apply_ite Conversion.rest, ite_self]
  apply suffix_ite (List.suffix_refl text)
  exact (List.dropWhile_suffix isDigit).trans (suffix_ite sign spaces)

/-- A field that nothing ends is refused. -/
theorem parseStarttimeField_open {text : List UInt8} (blank : space ∉ text)
    (line : newline ∉ text) :
    parseStarttimeField text = .error (statError "malformed stat (starttime)") := by
  have inside := (strtoull_rest_suffix text).subset
  refine parseStarttimeField_error (.inr (.inr (.inr ⟨?_, ?_⟩)))
  · intro head
    exact blank (inside (List.mem_of_head? head))
  · intro head
    exact line (inside (List.mem_of_head? head))

end Field

section Line
variable {pid comm front text : List UInt8} {fields : List (List UInt8)}

/-- Nothing in front of the last closing parenthesis matters. -/
theorem parseStarttime_behindName (clean : nul ∉ front ++ closeParen :: text)
    (last : closeParen ∉ text) :
    parseStarttime (front ++ closeParen :: text) = parseBehindName text := by
  have whole : (front ++ closeParen :: text).takeWhile (· ≠ nul) =
      front ++ closeParen :: text := by
    apply List.takeWhile_eq_self_iff.2
    intro b mem
    rw [decide_eq_true_eq]
    rintro rfl
    exact clean mem
  unfold parseStarttime
  rw [if_neg (by simp), whole, Scan.afterLast_append front last]

theorem parseBehindName_space (text : List UInt8) :
    parseBehindName (space :: text) =
      match Scan.skip space 19 text with
      | none => .error (statError "malformed stat (too short)")
      | some field => parseStarttimeField field := rfl

/-- Behind the name of a whole line the twentieth field decides. -/
theorem parseBehindName_fields (plain : ∀ field ∈ fields, PlainField field) :
    parseBehindName (space :: (Scan.join space fields ++ [newline])) =
      match fields[19]? with
      | none => .error (statError "malformed stat (too short)")
      | some field => parseStarttimeField (field ++ [newline]) := by
  have blank : ∀ field ∈ fields, space ∉ field := fun field mem => (plain field mem).2.2.1
  rw [parseBehindName_space]
  by_cases enough : 19 < fields.length
  · rw [Scan.skip_join blank enough, List.drop_eq_getElem_cons enough,
      List.getElem?_eq_getElem enough]
    obtain ⟨-, line, blank, -⟩ := plain fields[19] (List.getElem_mem enough)
    dsimp only
    cases fields.drop 20 with
    | nil => rfl
    | cons next rest =>
        rw [Scan.join_cons_cons, List.append_assoc, List.cons_append,
          parseStarttimeField_eq blank line (.inl rfl),
          parseStarttimeField_eq blank line (.inr rfl)]
  · have few : (Scan.join space fields ++ [newline]).count space < 19 := by
      rw [List.count_append, Scan.count_join blank]
      have last : [newline].count space = 0 := by decide
      omega
    rw [Scan.skip_eq_none few, List.getElem?_eq_none (Nat.not_lt.1 enough)]

/-- A text that ends before the separator behind the twentieth field is refused. -/
theorem parseBehindName_cut (plain : ∀ field ∈ fields, PlainField field)
    (cut : text <+: space :: Scan.join space (fields.take 20)) :
    ∃ context, parseBehindName text = .error (statError context) := by
  have plain : ∀ field ∈ fields.take 20, PlainField field :=
    fun field mem => plain field (List.mem_of_mem_take mem)
  cases text with
  | nil => exact ⟨_, rfl⟩
  | cons b text =>
      obtain ⟨rfl, inner⟩ := List.cons_prefix_cons.1 cut
      rw [parseBehindName_space]
      cases skipped : Scan.skip space 19 text with
      | none => exact ⟨_, rfl⟩
      | some field =>
          obtain ⟨count, suffix⟩ := Scan.skip_some skipped
          have spaces : (Scan.join space (fields.take 20)).count space ≤ 19 := by
            rw [Scan.count_join fun f mem => (plain f mem).2.2.1, List.length_take]
            omega
          have within := inner.sublist.count_le space
          have blank : space ∉ field := List.count_eq_zero.1 (by omega)
          have line : newline ∉ field := by
            intro mem
            rcases Scan.mem_join (inner.subset (suffix.subset mem)) with same | ⟨f, inside, here⟩
            · cases same
            · exact (plain f inside).2.1 here
          exact ⟨_, parseStarttimeField_open blank line⟩

/-- What stands in a line in front of the fields. -/
def statName (pid comm : List UInt8) : List UInt8 := pid ++ [space, openParen] ++ comm

theorem statLine_eq (pid comm : List UInt8) (fields : List (List UInt8)) :
    statLine pid comm fields =
      statName pid comm ++ closeParen :: space :: (Scan.join space fields ++ [newline]) := by
  simp [statLine, statName]

theorem procStatStarttime_eq (short : text.length ≤ statBufferSize - 1) :
    procStatStarttime (.ok ()) (.ok text) = parseStarttime text := by
  change parseStarttime (text.take (statBufferSize - 1)) = _
  rw [List.take_of_length_le short]

/-- The name, the parenthesis and what follows hold no NUL. -/
theorem statName_clean (pidClean : nul ∉ pid) (commClean : nul ∉ comm) (clean : nul ∉ text) :
    nul ∉ statName pid comm ++ closeParen :: text := by
  have signs : nul ∉ [space, openParen] := by decide
  have paren : nul ≠ closeParen := by decide
  simp only [statName, List.mem_append, List.mem_cons, not_or] at signs ⊢
  exact ⟨⟨⟨pidClean, signs⟩, commClean⟩, paren, clean⟩

/-- A byte of the fields that is no separator is in one of the fields. -/
theorem join_clean {b : UInt8} (other : b ≠ space) (clean : ∀ field ∈ fields, b ∉ field) :
    b ∉ Scan.join space fields := by
  intro mem
  rcases Scan.mem_join mem with same | ⟨field, inside, here⟩
  · exact other same
  · exact clean field inside here

/-- The result for a whole line, by its twenty-second field. -/
theorem procStatStarttime_statLine (pidClean : nul ∉ pid) (commClean : nul ∉ comm)
    (plain : ∀ field ∈ fields, PlainField field)
    (short : (statLine pid comm fields).length ≤ 4095) :
    procStatStarttime (.ok ()) (.ok (statLine pid comm fields)) =
      match fields[19]? with
      | none => .error (statError "malformed stat (too short)")
      | some field =>
          match decimal field with
          | some value =>
              if 1 ≤ value ∧ value ≤ uint64Max then .ok value
              else .error (statError "malformed stat (starttime)")
          | none => .error (statError "malformed stat (starttime)") := by
  have clean : nul ∉ space :: (Scan.join space fields ++ [newline]) := by
    have fields := join_clean (by decide) fun field mem => (plain field mem).1
    simp [fields]
    decide
  have last : closeParen ∉ space :: (Scan.join space fields ++ [newline]) := by
    have fields := join_clean (by decide) fun field mem => (plain field mem).2.2.2
    simp [fields]
    decide
  rw [procStatStarttime_eq short, statLine_eq,
    parseStarttime_behindName (statName_clean pidClean commClean clean) last,
    parseBehindName_fields plain]
  cases found : fields[19]? with
  | none => rfl
  | some field =>
      obtain ⟨-, line, blank, -⟩ := plain field (List.mem_of_getElem? found)
      exact parseStarttimeField_eq blank line (.inr rfl)

end Line

/-- The start time that is read from a stat line is the twenty-second field of the line, if
that is a plain number in range. Any other line is refused, and so is one that is cut
behind the name and in front of the separator that ends the field. -/
theorem starttime_is_field (pid comm : List UInt8) (fields : List (List UInt8))
    (pidClean : nul ∉ pid) (commClean : nul ∉ comm)
    (plain : ∀ field ∈ fields, PlainField field)
    (short : (statLine pid comm fields).length ≤ 4095) :
    (∀ field value, fields[19]? = some field → decimal field = some value →
      1 ≤ value → value ≤ 2 ^ 64 - 1 →
      procStatStarttime (.ok ()) (.ok (statLine pid comm fields)) = .ok value) ∧
    ((fields.length < 20 ∨ ∃ field, fields[19]? = some field ∧
        (decimal field = none ∨ decimal field = some 0 ∨
          ∃ value, decimal field = some value ∧ 2 ^ 64 - 1 < value)) →
      ∃ context, procStatStarttime (.ok ()) (.ok (statLine pid comm fields)) =
        .error (statError context)) ∧
    (∀ text, text <+: space :: Scan.join space (fields.take 20) →
      ∃ context, procStatStarttime (.ok ()) (.ok (statName pid comm ++ closeParen :: text)) =
        .error (statError context)) ∧
    (∀ value, procStatStarttime (.ok ()) (.ok (statLine pid comm fields)) = .ok value →
      ∃ field, fields[19]? = some field ∧ decimal field = some value) := by
  have whole := procStatStarttime_statLine pidClean commClean plain short
  refine ⟨?_, ?_, ?_, ?_⟩
  · intro field value found number positive bound
    rw [whole, found]
    dsimp only
    rw [number]
    exact if_pos ⟨positive, bound⟩
  · intro bad
    rw [whole]
    rcases bad with few | ⟨field, found, bad⟩
    · rw [List.getElem?_eq_none (Nat.le_of_lt_succ few)]
      exact ⟨_, rfl⟩
    · rw [found]
      dsimp only
      rcases bad with other | zero | ⟨value, number, above⟩
      · rw [other]
        exact ⟨_, rfl⟩
      · rw [zero]
        exact ⟨_, rfl⟩
      · rw [number]
        exact ⟨_, if_neg fun range => Nat.not_lt.2 range.2 above⟩
  · intro text cut
    have inside : text <+: space :: Scan.join space fields :=
      cut.trans (List.cons_prefix_cons.2 ⟨rfl, Scan.join_take_prefix 20⟩)
    have clean : nul ∉ text := by
      intro mem
      rcases List.mem_cons.1 (inside.subset mem) with same | mem
      · cases same
      · exact join_clean (by decide) (fun field mem => (plain field mem).1) mem
    have last : closeParen ∉ text := by
      intro mem
      rcases List.mem_cons.1 (inside.subset mem) with same | mem
      · cases same
      · exact join_clean (by decide) (fun field mem => (plain field mem).2.2.2) mem
    have shorter : (statName pid comm ++ closeParen :: text).length ≤ statBufferSize - 1 := by
      have := inside.length_le
      rw [statLine_eq] at short
      simp only [List.length_append, List.length_cons, statBufferSize] at short this ⊢
      omega
    rw [procStatStarttime_eq shorter,
      parseStarttime_behindName (statName_clean pidClean commClean clean) last]
    exact parseBehindName_cut plain cut
  · intro value accepted
    rw [whole] at accepted
    cases found : fields[19]? with
    | none =>
        rw [found] at accepted
        cases accepted
    | some field =>
        rw [found] at accepted
        dsimp only at accepted
        cases number : decimal field with
        | none =>
            rw [number] at accepted
            cases accepted
        | some own =>
            rw [number] at accepted
            dsimp only at accepted
            split at accepted
            · cases accepted
              exact ⟨field, rfl, number⟩
            · cases accepted

/-- A process whose name is `) 9 (` and whose start time is 42. -/
theorem starttime_is_field_odd_name :
    procStatStarttime (.ok ()) (.ok (statLine [55] [41, 32, 57, 32, 40]
      (List.replicate 19 [48] ++ [[52, 50], [57]]))) = .ok 42 :=
  (starttime_is_field [55] [41, 32, 57, 32, 40] (List.replicate 19 [48] ++ [[52, 50], [57]])
    (by decide) (by decide) (by decide) (by decide)).1 [52, 50] 42 rfl rfl (by decide) (by decide)

end EdgeRuntime

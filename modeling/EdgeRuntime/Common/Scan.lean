import Mathlib.Data.List.Count
import Mathlib.Algebra.Order.Ring.Nat
import Mathlib.Tactic.Common

/-!
Scanning a text for separators, as the string functions of the C library do: what stands
behind the last occurrence of a symbol, behind the next one, and behind the next few.
-/
namespace EdgeRuntime.Scan

variable {α : Type} {c : α} {fields : List (List α)}

/-- The fields with one separator between any two of them. -/
def join (c : α) : List (List α) → List α
  | [] => []
  | [field] => field
  | field :: next :: rest => field ++ c :: join c (next :: rest)

theorem join_cons_cons (field next : List α) :
    join c (field :: next :: fields) = field ++ c :: join c (next :: fields) := rfl

/-- A symbol of the joined text is the separator or one of a field's. -/
theorem mem_join {b : α} (h : b ∈ join c fields) : b = c ∨ ∃ field ∈ fields, b ∈ field := by
  induction fields with
  | nil => cases h
  | cons field fields ih =>
      cases fields with
      | nil => exact .inr ⟨field, List.mem_cons_self, h⟩
      | cons next fields =>
          rw [join_cons_cons, List.mem_append, List.mem_cons] at h
          rcases h with here | same | later
          · exact .inr ⟨field, List.mem_cons_self, here⟩
          · exact .inl same
          · rcases ih later with same | ⟨f, mem, inside⟩
            · exact .inl same
            · exact .inr ⟨f, List.mem_cons_of_mem _ mem, inside⟩

/-- The first fields stand at the beginning of the joined text. -/
theorem join_take_prefix (n : Nat) : join c (fields.take n) <+: join c fields := by
  induction fields generalizing n with
  | nil => exact ⟨[], by rw [List.append_nil, List.take_nil]⟩
  | cons field fields ih =>
      match n, fields with
      | 0, _ => exact List.nil_prefix
      | n + 1, [] => exact ⟨[], by rw [List.append_nil, List.take_succ_cons, List.take_nil]⟩
      | 1, next :: fields => exact List.prefix_append field _
      | n + 2, next :: fields =>
          have rest := ih (n + 1)
          rw [List.take_succ_cons] at rest ⊢
          rw [List.take_succ_cons, join_cons_cons, join_cons_cons]
          exact (List.prefix_append_right_inj field).2 (List.cons_prefix_cons.2 ⟨rfl, rest⟩)

variable [DecidableEq α]

/-- The text behind the last `c`. -/
def afterLast (c : α) : List α → Option (List α)
  | [] => none
  | b :: rest =>
      match afterLast c rest with
      | some text => some text
      | none => if b = c then some rest else none

/-- The text behind the next `c`. -/
def afterNext (c : α) : List α → Option (List α)
  | [] => none
  | b :: rest => if b = c then some rest else afterNext c rest

/-- The text behind the `n`-th next `c`. -/
def skip (c : α) : Nat → List α → Option (List α)
  | 0, text => some text
  | n + 1, text => (afterNext c text).bind (skip c n)

variable {text rest : List α} {n : Nat}

theorem afterLast_eq_none (absent : c ∉ text) : afterLast c text = none := by
  induction text with
  | nil => rfl
  | cons b text ih =>
      rw [List.mem_cons, not_or] at absent
      rw [afterLast, ih absent.2]
      exact if_neg (Ne.symm absent.1)

/-- What follows the last occurrence does not depend on what precedes it. -/
theorem afterLast_append (front : List α) (absent : c ∉ rest) :
    afterLast c (front ++ c :: rest) = some rest := by
  induction front with
  | nil =>
      rw [List.nil_append, afterLast, afterLast_eq_none absent]
      exact if_pos rfl
  | cons b front ih => rw [List.cons_append, afterLast, ih]

theorem afterNext_append {front : List α} (absent : c ∉ front) :
    afterNext c (front ++ c :: rest) = some rest := by
  induction front with
  | nil => exact if_pos rfl
  | cons b front ih =>
      rw [List.mem_cons, not_or] at absent
      rw [List.cons_append, afterNext, if_neg (Ne.symm absent.1)]
      exact ih absent.2

/-- Each step over a separator uses up one, and keeps the end of the text. -/
theorem afterNext_some (h : afterNext c text = some rest) :
    text.count c = rest.count c + 1 ∧ rest <:+ text := by
  induction text with
  | nil => cases h
  | cons b text ih =>
      rw [afterNext] at h
      split at h
      · rename_i same
        cases h
        rw [same, List.count_cons_self]
        exact ⟨rfl, List.suffix_cons c rest⟩
      · rename_i other
        obtain ⟨count, suffix⟩ := ih h
        rw [List.count_cons_of_ne other]
        exact ⟨count, suffix.trans (List.suffix_cons b text)⟩

theorem skip_some (h : skip c n text = some rest) :
    text.count c = rest.count c + n ∧ rest <:+ text := by
  induction n generalizing text with
  | zero =>
      cases h
      exact ⟨rfl, List.suffix_refl _⟩
  | succ n ih =>
      rw [skip, Option.bind_eq_some_iff] at h
      obtain ⟨middle, first, later⟩ := h
      obtain ⟨one, inside⟩ := afterNext_some first
      obtain ⟨more, deeper⟩ := ih later
      exact ⟨by omega, deeper.trans inside⟩

/-- Too few separators. -/
theorem skip_eq_none (few : text.count c < n) : skip c n text = none := by
  cases h : skip c n text with
  | none => rfl
  | some rest =>
      have := (skip_some h).1
      omega

theorem count_join (clean : ∀ field ∈ fields, c ∉ field) :
    (join c fields).count c = fields.length - 1 := by
  induction fields with
  | nil => rfl
  | cons field fields ih =>
      have here := List.count_eq_zero_of_not_mem (clean field List.mem_cons_self)
      cases fields with
      | nil => exact here
      | cons next fields =>
          have later := ih fun f mem => clean f (List.mem_cons_of_mem _ mem)
          rw [join_cons_cons, List.count_append, List.count_cons_self, here, later]
          simp

/-- Behind `n` separators of the joined text the `n`-th field begins. -/
theorem skip_join (clean : ∀ field ∈ fields, c ∉ field) (inside : n < fields.length)
    (tail : List α) :
    skip c n (join c fields ++ tail) = some (join c (fields.drop n) ++ tail) := by
  induction n generalizing fields with
  | zero => rfl
  | succ n ih =>
      match fields, inside with
      | field :: next :: fields, inside =>
          have absent := clean field List.mem_cons_self
          rw [join_cons_cons, List.append_assoc, List.cons_append, skip,
            afterNext_append absent, Option.bind_some]
          exact ih (fun f mem => clean f (List.mem_cons_of_mem _ mem))
            (Nat.lt_of_succ_lt_succ inside)

end EdgeRuntime.Scan

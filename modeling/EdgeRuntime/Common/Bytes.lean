import Mathlib.Data.List.Basic
import Mathlib.Algebra.Order.Ring.Nat
import Mathlib.Tactic.Common

/-!
Records in memory as strings of bytes: words with their lowest byte first, fields cut
out of a string at their offset, and strings that differ in one place.
-/
namespace EdgeRuntime

/-- The `size` bytes of a word in memory, lowest first. -/
def littleEndian : Nat → Nat → List Nat
  | 0, _ => []
  | size + 1, value => value % 256 :: littleEndian size (value / 256)

def ofLittleEndian : List Nat → Nat
  | [] => 0
  | byte :: rest => byte + 256 * ofLittleEndian rest

def IsBytes (b : List Nat) : Prop := ∀ byte ∈ b, byte < 256

instance (b : List Nat) : Decidable (IsBytes b) :=
  inferInstanceAs (Decidable (∀ byte ∈ b, byte < 256))

/-- The `size` items from `offset` on. -/
def slice {α : Type} (offset size : Nat) (b : List α) : List α := (b.drop offset).take size

/-- The word that lies at `offset`. -/
def wordAt (offset size : Nat) (b : List Nat) : Nat := ofLittleEndian (slice offset size b)

section Words
variable {size offset value : Nat} {a b : List Nat}

@[simp] theorem length_littleEndian (size value : Nat) :
    (littleEndian size value).length = size := by
  induction size generalizing value with
  | zero => rfl
  | succ size ih => rw [littleEndian, List.length_cons, ih]

@[simp] theorem isBytes_littleEndian (size value : Nat) : IsBytes (littleEndian size value) := by
  induction size generalizing value with
  | zero => exact fun _ h => nomatch h
  | succ size ih =>
      intro byte h
      rcases List.mem_cons.1 h with rfl | h
      · exact Nat.mod_lt _ (by decide)
      · exact ih _ byte h

@[simp] theorem isBytes_append : IsBytes (a ++ b) ↔ IsBytes a ∧ IsBytes b := by
  simp only [IsBytes, List.mem_append, or_imp, forall_and]

theorem IsBytes.slice (h : IsBytes b) : IsBytes (slice offset size b) :=
  fun byte hm => h byte (List.mem_of_mem_drop (List.mem_of_mem_take hm))

theorem ofLittleEndian_lt (h : IsBytes b) : ofLittleEndian b < 256 ^ b.length := by
  induction b with
  | nil => exact Nat.one_pos
  | cons byte rest ih =>
      have low := h byte List.mem_cons_self
      have high := ih fun x hx => h x (List.mem_cons_of_mem _ hx)
      rw [ofLittleEndian, List.length_cons, Nat.pow_succ]
      omega

theorem ofLittleEndian_littleEndian (size value : Nat) :
    ofLittleEndian (littleEndian size value) = value % 256 ^ size := by
  induction size generalizing value with
  | zero => exact (Nat.mod_one value).symm
  | succ size ih =>
      rw [littleEndian, ofLittleEndian, ih, Nat.pow_succ, Nat.mul_comm (256 ^ size), Nat.mod_mul]

/-- Words that fit are told apart by their bytes. -/
theorem littleEndian_inj {value' : Nat} (hv : value < 256 ^ size) (hv' : value' < 256 ^ size)
    (h : littleEndian size value = littleEndian size value') : value = value' := by
  rw [← Nat.mod_eq_of_lt hv, ← Nat.mod_eq_of_lt hv', ← ofLittleEndian_littleEndian,
    ← ofLittleEndian_littleEndian, h]

theorem littleEndian_ofLittleEndian (h : IsBytes b) :
    littleEndian b.length (ofLittleEndian b) = b := by
  induction b with
  | nil => rfl
  | cons byte rest ih =>
      have low := h byte List.mem_cons_self
      have first : (byte + 256 * ofLittleEndian rest) % 256 = byte := by omega
      have others : (byte + 256 * ofLittleEndian rest) / 256 = ofLittleEndian rest := by omega
      rw [ofLittleEndian, List.length_cons, littleEndian, first, others,
        ih fun x hx => h x (List.mem_cons_of_mem _ hx)]

theorem length_slice {α : Type} {b : List α} (h : offset + size ≤ b.length) :
    (slice offset size b).length = size := by
  rw [slice, List.length_take, List.length_drop]
  omega

theorem littleEndian_wordAt (hb : IsBytes b) (h : offset + size ≤ b.length) :
    littleEndian size (wordAt offset size b) = slice offset size b := by
  have whole := littleEndian_ofLittleEndian (hb.slice : IsBytes (slice offset size b))
  rwa [length_slice h] at whole

theorem wordAt_lt (hb : IsBytes b) (h : offset + size ≤ b.length) :
    wordAt offset size b < 256 ^ size := by
  have bound := ofLittleEndian_lt (hb.slice : IsBytes (slice offset size b))
  rwa [length_slice h] at bound

/-- The fields of a record, put side by side, are the record. -/
theorem take_append_slice {α : Type} (offset size : Nat) (b : List α) :
    b.take offset ++ slice offset size b = b.take (offset + size) :=
  List.take_add.symm

theorem IsBytes.set {i x : Nat} (h : IsBytes b) (hx : x < 256) : IsBytes (b.set i x) := by
  intro byte mem
  rcases List.mem_or_eq_of_mem_set mem with mem | rfl
  · exact h byte mem
  · exact hx

/-- A field in its place. -/
theorem slice_append {α : Type} {a s b : List α} (ha : a.length = offset) (hs : s.length = size) :
    slice offset size (a ++ s ++ b) = s := by
  rw [slice, List.append_assoc, List.drop_left' ha, List.take_left' hs]

/-- A change beside a field leaves the field alone. -/
theorem slice_set {α : Type} {b : List α} {i : Nat} (x : α)
    (beside : i < offset ∨ offset + size ≤ i) :
    slice offset size (b.set i x) = slice offset size b := by
  rw [slice, slice, List.drop_set]
  split
  · rfl
  · rw [List.take_set_of_le (by omega)]

/-- An array of `n` bytes. -/
abbrev FixedBytes (n : Nat) : Type := {b : List Nat // b.length = n ∧ IsBytes b}

namespace FixedBytes

/-- The array of `n` bytes at `offset`; what the string lacks reads as zero. -/
def cut (offset n : Nat) (b : List Nat) : FixedBytes n :=
  ⟨((slice offset n b ++ List.replicate n 0).take n).map (· % 256), by simp, by
    intro byte h
    obtain ⟨_, _, rfl⟩ := List.mem_map.1 h
    exact Nat.mod_lt _ (by decide)⟩

theorem cut_val (hb : IsBytes b) (h : offset + size ≤ b.length) :
    (cut offset size b).1 = slice offset size b := by
  have byte : ∀ x ∈ slice offset size b, x % 256 = x :=
    fun x hx => Nat.mod_eq_of_lt (hb.slice x hx)
  change ((slice offset size b ++ List.replicate size 0).take size).map (· % 256) = _
  rw [List.take_left' (length_slice h), List.map_congr_left byte, List.map_id']

end FixedBytes
end Words

/-- The two strings differ in one place. -/
inductive OneChange {α : Type} : List α → List α → Prop
  | here {x y : α} {rest : List α} (h : x ≠ y) : OneChange (x :: rest) (y :: rest)
  | there {x : α} {b b' : List α} (h : OneChange b b') : OneChange (x :: b) (x :: b')

namespace OneChange
variable {α σ : Type} {a a' b b' : List α}

theorem length_eq (h : OneChange b b') : b.length = b'.length := by
  induction h with
  | here _ => rfl
  | there _ ih => simp only [List.length_cons, ih]

theorem ne (h : OneChange b b') : b ≠ b' := by
  induction h with
  | here different => exact fun same => different (List.cons.inj same).1
  | there _ ih => exact fun same => ih (List.cons.inj same).2

theorem set {i : Nat} {x : α} (hi : i < b.length) (hx : b[i]? ≠ some x) :
    OneChange b (b.set i x) := by
  induction b generalizing i with
  | nil => cases hi
  | cons y rest ih =>
      cases i with
      | zero => exact .here fun same => hx (by rw [same]; rfl)
      | succ i => exact .there (ih (Nat.lt_of_succ_lt_succ hi) (by simpa using hx))

theorem append_left (a : List α) (h : OneChange b b') : OneChange (a ++ b) (a ++ b') := by
  induction a with
  | nil => exact h
  | cons _ _ ih => exact .there ih

theorem append_right (b : List α) (h : OneChange a a') : OneChange (a ++ b) (a' ++ b) := by
  induction h with
  | here different => exact .here different
  | there _ ih => exact .there ih

/-- The change lies on one side of a cut. -/
theorem append_cases (length : a.length = a'.length) (h : OneChange (a ++ b) (a' ++ b')) :
    (OneChange a a' ∧ b = b') ∨ (a = a' ∧ OneChange b b') := by
  induction a generalizing a' with
  | nil =>
      have none : a' = [] := List.length_eq_zero_iff.1 length.symm
      rw [none] at h
      exact .inr ⟨none.symm, h⟩
  | cons x rest ih =>
      cases a' with
      | nil => cases length
      | cons y rest' =>
          have shorter : rest.length = rest'.length := by simpa using length
          rw [List.cons_append, List.cons_append] at h
          generalize hl : rest ++ b = l at h
          generalize hl' : rest' ++ b' = l' at h
          cases h with
          | here different =>
              obtain ⟨same, tail⟩ := List.append_inj (hl.trans hl'.symm) shorter
              rw [same]
              exact .inl ⟨.here different, tail⟩
          | there h =>
              rw [← hl, ← hl'] at h
              rcases ih shorter h with ⟨change, tail⟩ | ⟨same, change⟩
              · exact .inl ⟨.there change, tail⟩
              · exact .inr ⟨by rw [same], change⟩

/-- A record keeps a state `s` and a seal `k` beside its other fields. A change that
spares the state is seen by the record with both of them masked, or it is in the seal. -/
theorem masked {s s' k k' c c' : List α} (z y : List α) (ha : a.length = a'.length)
    (hs : s = s') (hb : b.length = b'.length) (hk : k.length = k'.length)
    (h : OneChange (a ++ s ++ b ++ k ++ c) (a' ++ s' ++ b' ++ k' ++ c')) :
    (OneChange (a ++ z ++ b ++ y ++ c) (a' ++ z ++ b' ++ y ++ c') ∧ k = k') ∨
      (a ++ z ++ b ++ y ++ c = a' ++ z ++ b' ++ y ++ c' ∧ OneChange k k') := by
  have state : (a ++ s).length = (a' ++ s').length := by
    rw [List.length_append, List.length_append, ha, hs]
  have middle : (a ++ s ++ b).length = (a' ++ s' ++ b').length := by
    rw [List.length_append, state, hb, ← List.length_append]
  have upTo : (a ++ s ++ b ++ k).length = (a' ++ s' ++ b' ++ k').length := by
    rw [List.length_append, middle, hk, ← List.length_append]
  rcases h.append_cases upTo with ⟨h, tail⟩ | ⟨same, h⟩
  · rcases h.append_cases middle with ⟨h, sealed⟩ | ⟨same, h⟩
    · refine .inl ⟨?_, sealed⟩
      rw [tail]
      apply append_right
      apply append_right
      rcases h.append_cases state with ⟨h, same⟩ | ⟨same, h⟩
      · rw [same]
        rcases h.append_cases ha with ⟨h, _⟩ | ⟨_, h⟩
        · exact append_right _ (append_right _ h)
        · exact (h.ne hs).elim
      · rw [(List.append_inj same ha).1]
        exact append_left _ h
    · obtain ⟨front, hb⟩ := List.append_inj same state
      rw [(List.append_inj front ha).1, hb, tail]
      exact .inr ⟨rfl, h⟩
  · obtain ⟨front, sealed⟩ := List.append_inj same middle
    obtain ⟨front, hb⟩ := List.append_inj front state
    rw [(List.append_inj front ha).1, hb]
    exact .inl ⟨append_left _ h, sealed⟩

/-- A fold whose step is injective in the state and in the item tells the two apart. -/
theorem foldl_ne {step : σ → α → σ} {S : σ → Prop} {A : α → Prop}
    (stays : ∀ s x, S s → A x → S (step s x))
    (state : ∀ s s' x, S s → S s' → A x → step s x = step s' x → s = s')
    (item : ∀ s x y, S s → A x → A y → step s x = step s y → x = y)
    (h : OneChange b b') (hb : ∀ x ∈ b, A x) (hb' : ∀ x ∈ b', A x) {s : σ} (hs : S s) :
    b.foldl step s ≠ b'.foldl step s := by
  induction h generalizing s with
  | @here x y rest different =>
      have hx := hb x List.mem_cons_self
      have hy := hb' y List.mem_cons_self
      -- the states differ after the change, and the same items keep them apart
      have apart : ∀ (rest : List α) (s s' : σ), (∀ x ∈ rest, A x) → S s → S s' → s ≠ s' →
          rest.foldl step s ≠ rest.foldl step s' := by
        intro rest
        induction rest with
        | nil => exact fun _ _ _ _ _ hne => hne
        | cons x rest ih =>
            intro s s' hr hs hs' hne
            have hx := hr x List.mem_cons_self
            exact ih _ _ (fun z hz => hr z (List.mem_cons_of_mem _ hz)) (stays s x hs hx)
              (stays s' x hs' hx) fun same => hne (state s s' x hs hs' hx same)
      exact apart rest _ _ (fun z hz => hb z (List.mem_cons_of_mem _ hz)) (stays s x hs hx)
        (stays s y hs hy) fun same => different (item s x y hs hx hy same)
  | @there x b b' _ ih =>
      exact ih (fun z hz => hb z (List.mem_cons_of_mem _ hz))
        (fun z hz => hb' z (List.mem_cons_of_mem _ hz)) (stays s x hs (hb x List.mem_cons_self))

end OneChange
end EdgeRuntime

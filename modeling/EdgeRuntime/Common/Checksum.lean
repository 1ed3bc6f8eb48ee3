import EdgeRuntime.Common.Bytes
import EdgeRuntime.Sync.AccessRules
import EdgeRuntime.Sync.Alone

/-!
The FNV-1a checksum, over a list of bytes and over bytes that are read one by one
from shared memory.
-/
namespace EdgeRuntime
open Concurrent

def fnvOffsetBasis : Nat := 14695981039346656037
def fnvPrime : Nat := 1099511628211

def fnvStep (hash byte : Nat) : Nat := (hash ^^^ byte) * fnvPrime % 2 ^ 64

def fnv1a64 (bytes : List Nat) : Nat := bytes.foldl fnvStep fnvOffsetBasis

/-- The loop of the checksum over `n` shared bytes from `j`. -/
def fnv1a64From {L ε : Type} (src : Nat → L) : Nat → Nat → Nat → Code L ε Nat
  | _, 0, hash => .ret hash
  | j, n + 1, hash => do
      let byte ← sharedLoad (src j)
      fnv1a64From src (j + 1) n (fnvStep hash byte)

def fnv1a64Shared {L ε : Type} (src : Nat → L) (size : Nat) : Code L ε Nat :=
  fnv1a64From src 0 size fnvOffsetBasis

/-- The multiplier is odd, so it has an inverse. -/
theorem mul_fnvPrime_inverse (x : Nat) :
    x * fnvPrime % 2 ^ 64 * 14886173955864302971 % 2 ^ 64 = x % 2 ^ 64 := by
  have unit : fnvPrime * 14886173955864302971 % 2 ^ 64 = 1 := by decide
  rw [Nat.mod_mul_mod, Nat.mul_assoc, Nat.mul_mod, unit, Nat.mul_one, Nat.mod_mod]

theorem mul_fnvPrime_inj {x y : Nat} (hx : x < 2 ^ 64) (hy : y < 2 ^ 64)
    (h : x * fnvPrime % 2 ^ 64 = y * fnvPrime % 2 ^ 64) : x = y := by
  rw [← Nat.mod_eq_of_lt hx, ← mul_fnvPrime_inverse x, h, mul_fnvPrime_inverse,
    Nat.mod_eq_of_lt hy]

theorem xor_left_cancel {x y z : Nat} (h : x ^^^ y = x ^^^ z) : y = z := by
  rw [← Nat.zero_xor y, ← Nat.xor_self x, Nat.xor_assoc, h, ← Nat.xor_assoc, Nat.xor_self,
    Nat.zero_xor]

theorem fnvStep_inj {hash hash' byte byte' : Nat} (hh : hash < 2 ^ 64) (hh' : hash' < 2 ^ 64)
    (hb : byte < 256) (hb' : byte' < 256) (h : fnvStep hash byte = fnvStep hash' byte') :
    hash ^^^ byte = hash' ^^^ byte' :=
  mul_fnvPrime_inj (Nat.xor_lt_two_pow hh (Nat.lt_trans hb (by decide)))
    (Nat.xor_lt_two_pow hh' (Nat.lt_trans hb' (by decide))) h

theorem fnvStep_lt (hash byte : Nat) : fnvStep hash byte < 2 ^ 64 := Nat.mod_lt _ (by decide)

theorem foldl_fnvStep_lt {hash : Nat} (bytes : List Nat) (h : hash < 2 ^ 64) :
    bytes.foldl fnvStep hash < 2 ^ 64 := by
  induction bytes generalizing hash with
  | nil => exact h
  | cons byte rest ih =>
      rw [List.foldl_cons]
      exact ih (fnvStep_lt hash byte)

theorem fnvOffsetBasis_lt : fnvOffsetBasis < 2 ^ 64 := by decide

theorem fnv1a64_lt (bytes : List Nat) : fnv1a64 bytes < 2 ^ 64 :=
  foldl_fnvStep_lt bytes fnvOffsetBasis_lt

/-- A change of one byte changes the checksum. -/
theorem fnv1a64_ne {bytes bytes' : List Nat} (h : OneChange bytes bytes') (hb : IsBytes bytes)
    (hb' : IsBytes bytes') : fnv1a64 bytes ≠ fnv1a64 bytes' := by
  have steps := @OneChange.foldl_ne Nat Nat bytes bytes' fnvStep (· < 2 ^ 64) (· < 256)
  refine steps (fun hash byte _ _ => fnvStep_lt hash byte) ?_ ?_ h hb hb' fnvOffsetBasis_lt
  · intro hash hash' byte hh hh' hx same
    have mixed := fnvStep_inj hh hh' hx hx same
    rw [Nat.xor_comm hash, Nat.xor_comm hash'] at mixed
    exact xor_left_cancel mixed
  · intro hash byte byte' hh hx hy same
    exact xor_left_cancel (fnvStep_inj hh hh hx hy same)

theorem littleEndian_fnv1a64_inj {bytes : List Nat} {stored : Nat} (hs : stored < 2 ^ 64)
    (h : littleEndian 8 (fnv1a64 bytes) = littleEndian 8 stored) : fnv1a64 bytes = stored := by
  have fits : 2 ^ 64 = 256 ^ 8 := rfl
  have sum := fnv1a64_lt bytes
  rw [fits] at hs sum
  exact littleEndian_inj sum hs h

/-- A string and the checksum stored for it, of which one byte has changed, no longer
belong together. -/
theorem fnv1a64_ne_stored {bytes bytes' : List Nat} {stored : Nat} (hs : stored < 2 ^ 64)
    (hb : IsBytes bytes) (hb' : IsBytes bytes')
    (changed : (OneChange bytes bytes' ∧
        littleEndian 8 (fnv1a64 bytes) = littleEndian 8 stored) ∨
      (bytes = bytes' ∧
        OneChange (littleEndian 8 (fnv1a64 bytes)) (littleEndian 8 stored))) :
    fnv1a64 bytes' ≠ stored := by
  rcases changed with ⟨change, same⟩ | ⟨rfl, change⟩
  · rw [← littleEndian_fnv1a64_inj hs same]
    exact (fnv1a64_ne change hb hb').symm
  · intro same
    rw [same] at change
    exact change.ne rfl

/-- Zero bytes do not bring a hash to zero. -/
theorem foldl_fnvStep_zeros {n hash : Nat} (h : hash < 2 ^ 64)
    (zero : (List.replicate n 0).foldl fnvStep hash = 0) : hash = 0 := by
  induction n generalizing hash with
  | zero => exact zero
  | succ n ih =>
      rw [List.replicate_succ, List.foldl_cons] at zero
      have step := ih (fnvStep_lt hash 0) zero
      rw [fnvStep, Nat.xor_zero] at step
      exact mul_fnvPrime_inj h (by decide) (step.trans (by rw [Nat.zero_mul, Nat.zero_mod]))

/-- Nor does one other byte among them, where the hash is too large to be that byte. -/
theorem foldl_fnvStep_ne_zero {n hash : Nat} {bytes : List Nat} (h : hash < 2 ^ 64)
    (large : ∀ i, i < n → 256 ≤ (List.replicate i 0).foldl fnvStep hash)
    (change : OneChange bytes (List.replicate n 0)) (hb : IsBytes bytes) :
    bytes.foldl fnvStep hash ≠ 0 := by
  induction n generalizing hash bytes with
  | zero => cases change
  | succ n ih =>
      rw [List.replicate_succ] at change
      have first := large 0 (Nat.succ_pos n)
      cases change with
      | @here byte =>
          intro zero
          have small := hb byte List.mem_cons_self
          have step := foldl_fnvStep_zeros (fnvStep_lt hash byte) zero
          have mixed : hash ^^^ byte = 0 := mul_fnvPrime_inj
            (Nat.xor_lt_two_pow h (Nat.lt_trans small (by decide))) (by decide)
            (step.trans (by rw [Nat.zero_mul, Nat.zero_mod]))
          have byteIs : byte = hash := xor_left_cancel (mixed.trans (Nat.xor_self hash).symm)
          rw [← byteIs] at first
          exact absurd small (Nat.not_lt.2 first)
      | there change =>
          rw [List.foldl_cons]
          refine ih (fnvStep_lt hash 0) ?_ change
            fun byte hm => hb byte (List.mem_cons_of_mem _ hm)
          intro i hi
          have next := large (i + 1) (Nat.succ_lt_succ hi)
          rwa [List.replicate_succ, List.foldl_cons] at next

section
variable {T Loc W S ε α : Type} [DecidableEq T] {L : Logic T (Instr Loc) Reply W S}
  {D : Memory T Loc W}
  {t : T} {Q : Except ε α → S → Prop} {s : S} {P : S → Prop} {src : Nat → Loc}
  {bytes : Nat → Nat}

theorem wp_fnv1a64From (hx : L.exec = D.exec) (stable : L.Stable t P)
    (known : ∀ s, P s → ∀ j, D.read (L.world s) (src j) = bytes j)
    {j n hash : Nat} {k : Nat → Code Loc ε α} (pre : P s)
    (hk : ∀ s, L.inv s → P s →
      L.wp t Q (k (((List.range' j n).map bytes).foldl fnvStep hash)) s) :
    L.wp t Q (fnv1a64From src j n hash >>= k) s := by
  induction n generalizing j hash s with
  | zero =>
      apply Logic.wp_intro
      intro s' hr hi
      exact hk s' hi (stable s s' pre hr hi)
  | succ n ih =>
      rw [fnv1a64From, Prog.bind_assoc]
      apply Access.wp_load hx
      intro s' hr hi
      have here := stable s s' pre hr hi
      rw [known s' here j]
      exact ih here hk

/-- Over bytes nobody else writes, the loop computes the checksum of their list. -/
theorem wp_fnv1a64Shared (bytes : Nat → Nat) (hx : L.exec = D.exec) (stable : L.Stable t P)
    (known : ∀ s, P s → ∀ j, D.read (L.world s) (src j) = bytes j)
    {size : Nat} {k : Nat → Code Loc ε α} (pre : P s)
    (hk : ∀ s, L.inv s → P s → L.wp t Q (k (fnv1a64 ((List.range size).map bytes))) s) :
    L.wp t Q (fnv1a64Shared src size >>= k) s := by
  apply wp_fnv1a64From hx stable known pre
  rw [← List.range_eq_range']
  exact hk

end

section
variable {T Loc W ε α : Type} [DecidableEq T] {D : Memory T Loc W}
  {probe : W → Nat → Nat → Liveness} {now : W → Nat} {t : T} {Q : Except ε α → W → Prop}
  {w : W} {src : Nat → Loc}

theorem alone_fnv1a64From {j n hash : Nat} {k : Nat → Code Loc ε α}
    (h : D.Alone probe now t Q
      (k (((List.range' j n).map fun i => D.read w (src i)).foldl fnvStep hash)) w) :
    D.Alone probe now t Q (fnv1a64From src j n hash >>= k) w := by
  induction n generalizing j hash with
  | zero => exact h
  | succ n ih =>
      rw [fnv1a64From, Prog.bind_assoc]
      exact Memory.alone_load (ih h)

/-- Undisturbed, the loop computes the checksum of the bytes it finds. -/
theorem alone_fnv1a64Shared {size : Nat} {k : Nat → Code Loc ε α}
    (h : D.Alone probe now t Q
      (k (fnv1a64 ((List.range size).map fun i => D.read w (src i)))) w) :
    D.Alone probe now t Q (fnv1a64Shared src size >>= k) w := by
  apply alone_fnv1a64From
  rw [← List.range_eq_range']
  exact h

end
end EdgeRuntime

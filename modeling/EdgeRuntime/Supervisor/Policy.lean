import EdgeRuntime.Common.CheckedMath
import EdgeRuntime.Common.Options

/-!
The options of a producer supervisor: how they are checked when it is created, and how
its delays are computed from them.
-/
namespace EdgeRuntime

inductive SupervisorEvent
  | supervised
  | stallDetected
  | killed
  | restartArmed
  deriving DecidableEq, Repr

structure SupervisorEventInfo where
  event : SupervisorEvent
  pid : Int
  generation : Nat
  attempt : Nat
  delayNs : Nat
  signal : Nat
  deriving DecidableEq, Repr

structure SupervisorOptions where
  channelName : String
  transport : Transport
  producerArgv : List String
  initialDelayMs : Int
  maxDelayMs : Int
  multiplier : Nat
  maxRestarts : Nat
  stableResetWindowMs : Int
  stallGraceMs : Int
  watchIntervalMs : Int
  createTimeoutMs : Int
  /-- A callback is registered for the events. -/
  onEvent : Bool
  deriving DecidableEq, Repr

def validMilliseconds (ms : Int) (allowZero : Bool) : Bool :=
  if ms < 0 ∨ (allowZero = false ∧ ms = 0) then false
  else ms.toNat ≤ uint64Max / 1000000

def msToNs (ms : Int) : Nat := if ms > 0 then ms.toNat * 1000000 % 2 ^ 64 else 0

def nsToEpollMs (ns : Nat) : Nat :=
  if ns = 0 then 0 else min (max (ns / 1000000) 1) (2 ^ 31 - 1)

/-- The checks of the factory; the handle is made from the options that pass. -/
def supervisorCreateImpl (options : SupervisorOptions) : Except Error SupervisorOptions :=
  let operation := "ProducerSupervisor::create"
  if validateChannelName options.channelName = false then
    .error (makeError .invalidName operation options.channelName)
  else if options.producerArgv = [] ∨ options.producerArgv.head? = some "" then
    .error (makeError .invalidOptions operation "empty producer argv")
  else if validMilliseconds options.watchIntervalMs false = false ∨
      validMilliseconds options.createTimeoutMs false = false then
    .error (makeError .invalidOptions operation "invalid watch/create timeouts")
  else if validMilliseconds options.initialDelayMs true = false ∨
      validMilliseconds options.maxDelayMs true = false ∨
      validMilliseconds options.stableResetWindowMs false = false ∨
      validMilliseconds options.stallGraceMs true = false ∨
      options.maxDelayMs < options.initialDelayMs then
    .error (makeError .invalidOptions operation "invalid delay/grace option")
  else if options.multiplier < 1 then
    .error (makeError .invalidOptions operation "multiplier < 1")
  else .ok options

/-- The multiplications that are left, up to the cap. -/
def backoffLoop (capped multiplier : Nat) : Nat → Nat → Nat
  | 0, delay => delay
  | n + 1, delay =>
      if delay < capped then
        if delay > capped / multiplier then capped
        else backoffLoop capped multiplier n (delay * multiplier % 2 ^ 64)
      else delay

def backoffDelayNs (options : SupervisorOptions) (consecutiveFailures : Nat) : Nat :=
  let initial := msToNs options.initialDelayMs
  let limit := msToNs options.maxDelayMs
  let capped := if limit = 0 then initial else limit
  min (backoffLoop capped options.multiplier (consecutiveFailures - 1) initial) capped

/-- The products that the loop computes, before they are reduced to 64 bits. -/
def backoffProducts (capped multiplier : Nat) : Nat → Nat → List Nat
  | 0, _ => []
  | n + 1, delay =>
      if delay < capped then
        if delay > capped / multiplier then []
        else delay * multiplier ::
          backoffProducts capped multiplier n (delay * multiplier % 2 ^ 64)
      else []

/-- `monotonic_deadline_ns` for a reading of the clock. -/
def deadlineFrom (now timeoutNs : Nat) : Nat :=
  if now = 0 then 0 else if now > uint64Max - timeoutNs then uint64Max else now + timeoutNs

section Backoff
variable {capped multiplier delay : Nat}

/-- A product that the loop keeps is within the cap. -/
theorem mul_le_of_le_div (h : ¬ delay > capped / multiplier) (positive : 1 ≤ multiplier) :
    delay * multiplier ≤ capped :=
  (Nat.le_div_iff_mul_le positive).1 (Nat.not_lt.1 h)

theorem backoffLoop_eq (positive : 1 ≤ multiplier) (small : capped ≤ uint64Max) (n : Nat)
    (below : delay ≤ capped) :
    backoffLoop capped multiplier n delay = min capped (delay * multiplier ^ n) := by
  induction n generalizing delay with
  | zero =>
      rw [backoffLoop, Nat.pow_zero, Nat.mul_one]
      exact (Nat.min_eq_right below).symm
  | succ n ih =>
      have power : 1 ≤ multiplier ^ n := Nat.one_le_pow n multiplier positive
      rw [backoffLoop]
      split
      · split
        · rename_i beyond
          have exceeds : capped < delay * multiplier :=
            (Nat.div_lt_iff_lt_mul positive).1 beyond
          have reached : capped ≤ delay * multiplier ^ (n + 1) := calc
            capped ≤ delay * multiplier := Nat.le_of_lt exceeds
            _ ≤ delay * multiplier * multiplier ^ n := Nat.le_mul_of_pos_right _ power
            _ = delay * multiplier ^ (n + 1) := by rw [Nat.pow_succ', Nat.mul_assoc]
          exact (Nat.min_eq_left reached).symm
        · rename_i within
          have le := mul_le_of_le_div within positive
          have fits : delay * multiplier < 2 ^ 64 := by
            unfold uint64Max at small
            omega
          rw [Nat.mod_eq_of_lt fits, ih le, Nat.pow_succ', Nat.mul_assoc]
      · rename_i full
        obtain rfl : delay = capped := by omega
        exact (Nat.min_eq_left
          (Nat.le_mul_of_pos_right _ (Nat.one_le_pow (n + 1) multiplier positive))).symm

theorem backoffProducts_le (positive : 1 ≤ multiplier) (small : capped ≤ uint64Max) (n : Nat) :
    ∀ product ∈ backoffProducts capped multiplier n delay, product ≤ uint64Max := by
  induction n generalizing delay with
  | zero => exact nofun
  | succ n ih =>
      rw [backoffProducts]
      split
      · split
        · exact nofun
        · rename_i within
          intro product mem
          rcases List.mem_cons.1 mem with rfl | later
          · exact Nat.le_trans (mul_le_of_le_div within positive) small
          · exact ih product later
      · exact nofun

end Backoff

theorem validMilliseconds_le {ms : Int} {allowZero : Bool}
    (h : validMilliseconds ms allowZero = true) : ms.toNat * 1000000 ≤ uint64Max := by
  unfold validMilliseconds at h
  split at h
  · cases h
  · rw [decide_eq_true_eq] at h
    exact (Nat.le_div_iff_mul_le (by decide)).1 h

/-- The conversion of a checked delay is exact. -/
theorem msToNs_eq {ms : Int} (fits : ms.toNat * 1000000 ≤ uint64Max) :
    msToNs ms = ms.toNat * 1000000 := by
  unfold msToNs
  split
  · unfold uint64Max at fits
    exact Nat.mod_eq_of_lt (by omega)
  · rename_i sign
    rw [Int.toNat_of_nonpos (by omega), Nat.zero_mul]

theorem supervisorCreateImpl_ok {options accepted : SupervisorOptions}
    (h : supervisorCreateImpl options = .ok accepted) :
    accepted = options ∧ options.initialDelayMs.toNat * 1000000 ≤ uint64Max ∧
      options.maxDelayMs.toNat * 1000000 ≤ uint64Max ∧
      options.initialDelayMs ≤ options.maxDelayMs ∧ 1 ≤ options.multiplier := by
  simp only [supervisorCreateImpl, ite_error_eq_ok, not_or, Bool.not_eq_false, Nat.not_lt,
    Int.not_lt] at h
  obtain ⟨_, _, _, ⟨initial, limit, _, _, order⟩, multiplier, same⟩ := h
  cases same
  exact ⟨rfl, validMilliseconds_le initial, validMilliseconds_le limit, order, multiplier⟩

theorem backoffDelayNs_eq {options : SupervisorOptions} {initial limit : Nat}
    (hi : msToNs options.initialDelayMs = initial) (hl : msToNs options.maxDelayMs = limit)
    (below : initial ≤ limit) (small : limit ≤ uint64Max) (positive : 1 ≤ options.multiplier)
    (failures : Nat) :
    backoffDelayNs options failures =
      min limit (initial * options.multiplier ^ (failures - 1)) := by
  have cap : (if limit = 0 then initial else limit) = limit := by
    split <;> omega
  simp only [backoffDelayNs, hi, hl, cap]
  rw [backoffLoop_eq positive small _ below]
  exact Nat.min_eq_left (Nat.min_le_left _ _)

theorem capped_mono {limit initial multiplier n m : Nat} (positive : 1 ≤ multiplier)
    (le : n ≤ m) : min limit (initial * multiplier ^ n) ≤ min limit (initial * multiplier ^ m) :=
  Nat.le_min.2 ⟨Nat.min_le_left _ _, Nat.le_trans (Nat.min_le_right _ _)
    (Nat.mul_le_mul_left initial (Nat.pow_le_pow_right positive le))⟩

/-- The delays of accepted options: initial, times the multiplier for every further
failure, up to the cap. No product of their computation exceeds 64 bits, and no delay is
shorter than an earlier one. -/
theorem backoff_capped_geometric {options accepted : SupervisorOptions}
    (created : supervisorCreateImpl options = .ok accepted) :
    (∀ failures, 1 ≤ failures → backoffDelayNs accepted failures =
      min (options.maxDelayMs.toNat * 1000000)
        (options.initialDelayMs.toNat * 1000000 * options.multiplier ^ (failures - 1))) ∧
    (options.initialDelayMs.toNat * 1000000 ≤ uint64Max ∧
      options.maxDelayMs.toNat * 1000000 ≤ uint64Max ∧
      ∀ failures, ∀ product ∈ backoffProducts (msToNs accepted.maxDelayMs)
        accepted.multiplier (failures - 1) (msToNs accepted.initialDelayMs),
        product ≤ uint64Max) ∧
    (∀ failures, backoffDelayNs accepted failures ≤ options.maxDelayMs.toNat * 1000000) ∧
    ∀ failures failures', 1 ≤ failures → failures ≤ failures' →
      backoffDelayNs accepted failures ≤ backoffDelayNs accepted failures' := by
  obtain ⟨rfl, initial, limit, order, positive⟩ := supervisorCreateImpl_ok created
  have below : accepted.initialDelayMs.toNat * 1000000 ≤
      accepted.maxDelayMs.toNat * 1000000 :=
    Nat.mul_le_mul_right _ (Int.toNat_le_toNat order)
  have value := backoffDelayNs_eq (msToNs_eq initial) (msToNs_eq limit) below limit positive
  refine ⟨fun failures _ => value failures, ⟨initial, limit, ?_⟩, ?_, ?_⟩
  · intro failures
    rw [msToNs_eq limit]
    exact backoffProducts_le positive limit _
  · intro failures
    rw [value]
    exact Nat.min_le_left _ _
  · intro failures failures' _ later
    rw [value, value]
    exact capped_mono positive (Nat.sub_le_sub_right later 1)

/-- The delays of the options that the tests of the policy use. -/
def quickRestarts : SupervisorOptions :=
  ⟨"policy", .posixShm, ["/bin/false"], 1, 4, 2, 3, 10000, 1, 1, 20, true⟩

theorem backoff_capped_geometric_quick :
    supervisorCreateImpl quickRestarts = .ok quickRestarts ∧
      backoffDelayNs quickRestarts 3 = min (4 * 1000000) (1 * 1000000 * 2 ^ 2) := by
  have created : supervisorCreateImpl quickRestarts = .ok quickRestarts := by decide +kernel
  exact ⟨created, (backoff_capped_geometric created).1 3 (by decide)⟩

end EdgeRuntime

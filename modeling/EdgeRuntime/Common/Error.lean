import Mathlib.Algebra.Order.Ring.Nat
import Mathlib.Tactic.Common

/-!
Error codes and error payloads shared by every component.
-/
namespace EdgeRuntime

inductive ErrorCode
  | invalidName
  | invalidOptions
  | notFound
  | permissionDenied
  | alreadyOwned
  | consumerAlreadyOwned
  | initializationIncomplete
  | corruptHeader
  | abiMismatch
  | schemaMismatch
  | unsupportedPlatform
  | noNewSample
  | noWritableSlot
  | readContention
  | timeout
  | dataStale
  | producerOffline
  | recoveryBlocked
  | staleHandle
  | payloadCorrupt
  | payloadEncodeFailed
  | payloadDecodeFailed
  | corruptSlot
  | nameRaceDetected
  | clockAnomaly
  | sequenceExhausted
  | concurrentHandleUse
  | systemError
  | producerStalled
  | transportFailed
  | supervisionExhausted
  | queueFull
  | queueEmpty
  | queueContention
  | bufferPoolFull
  | bufferPoolContention
  | bufferInvalidHandle
  | bufferStateMismatch
  deriving DecidableEq, Repr

structure Error where
  code : ErrorCode
  errnoValue : Int
  operation : String
  context : String
  deriving DecidableEq, Repr

/-- The context buffer holds 63 characters and a terminator. -/
def truncateContext (context : String) : String :=
  String.ofList (context.toList.take 63)

def makeError (code : ErrorCode) (operation context : String) : Error :=
  ⟨code, 0, operation, truncateContext context⟩

@[simp] theorem makeError_code (code : ErrorCode) (operation context : String) :
    (makeError code operation context).code = code := rfl

def enoent : Int := 2
def esrch : Int := 3
def eexist : Int := 17
def eacces : Int := 13
def eperm : Int := 1
def eintr : Int := 4
def eagain : Int := 11
def etimedout : Int := 110

def classifyErrno (errnoValue : Int) : ErrorCode :=
  if errnoValue = enoent then .notFound
  else if errnoValue = eexist then .alreadyOwned
  else if errnoValue = eacces ∨ errnoValue = eperm then .permissionDenied
  else .systemError

def makeErrnoError (savedErrno : Int) (operation context : String) : Error :=
  ⟨classifyErrno savedErrno, savedErrno, operation, truncateContext context⟩

/-- The overload that names its code instead of classifying the errno. -/
def makeErrnoErrorAs (code : ErrorCode) (savedErrno : Int)
    (operation context : String) : Error :=
  ⟨code, savedErrno, operation, truncateContext context⟩

theorem except_exists_ok {ε α : Type} {x : Except ε α} (h : x.isOk = true) : ∃ a, x = .ok a := by
  cases x with
  | ok a => exact ⟨a, rfl⟩
  | error e => cases h

theorem except_bind_eq_ok {ε α β : Type} {x : Except ε α} {f : α → Except ε β} {b : β} :
    (x >>= f) = .ok b ↔ ∃ a, x = .ok a ∧ f a = .ok b := by
  cases x with
  | error e =>
      constructor
      · intro h
        cases h
      · rintro ⟨_, h, _⟩
        cases h
  | ok a =>
      constructor
      · intro h
        exact ⟨a, rfl, h⟩
      · rintro ⟨_, h, hf⟩
        cases h
        exact hf

/-- A check that has passed. -/
theorem ite_error_eq_ok {ε α : Type} {p : Prop} [Decidable p] {e : ε} {x : Except ε α}
    {a : α} : (if p then .error e else x) = .ok a ↔ ¬ p ∧ x = .ok a := by
  split
  · rename_i hp
    exact ⟨fun h => (nomatch h), fun h => (h.1 hp).elim⟩
  · rename_i hp
    exact ⟨fun h => ⟨hp, h⟩, fun h => h.2⟩

end EdgeRuntime

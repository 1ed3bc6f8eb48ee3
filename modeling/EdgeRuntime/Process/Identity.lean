import Mathlib.Algebra.Order.Ring.Nat
import Mathlib.Tactic.Common

/-!
Process identities. A process is named by its pid, its start time and the boot
it runs in, so that a reused pid is never mistaken for the old process.
-/
namespace EdgeRuntime

structure ProcessIdentity where
  pid : Nat
  procStartTicks : Nat
  bootIdHashHi : Nat
  bootIdHashLo : Nat
  deriving DecidableEq, Repr, Inhabited

inductive Liveness
  | alive
  | exited
  | pidReused
  | unverifiable
  deriving DecidableEq, Repr

def int32Max : Nat := 2 ^ 31 - 1

def processIdentityValid (id : ProcessIdentity) : Bool :=
  id.pid ≠ 0 && id.pid ≤ int32Max && id.procStartTicks ≠ 0 &&
    id.bootIdHashHi ≠ 0 && id.bootIdHashLo ≠ 0

end EdgeRuntime

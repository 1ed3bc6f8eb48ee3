import EdgeRuntime.Common.Error
import EdgeRuntime.Concurrent.Program
import EdgeRuntime.Process.Identity

/-!
Named shared-memory objects, for every program that opens one or takes its name away.
-/
namespace EdgeRuntime
open Concurrent

/-- A system call that failed: its errno, and the text that goes with it. -/
structure SysFailure where
  errno : Int
  text : String
  deriving DecidableEq, Repr

abbrev SysResult (α : Type) : Type := Except SysFailure α

/-- What the system calls of an opening return, and the object they found. -/
structure ShmOpening (Header : Type) where
  identity : Except Error ProcessIdentity
  fd : Except Error Unit
  stat : Except Error Unit
  mapping : Except Error Unit
  size : Nat
  header : Header

variable {I : Type} {R : I → Type} {α : Type}

/-- A failed system call becomes an error of the operation. -/
def orErrno (operation : String) : SysResult α → Prog I R Error α
  | .ok a => .ret a
  | .error failure => .throw (makeErrnoError failure.errno operation failure.text)

/-- After the unlink nothing may be found under the name. -/
def checkNameGone : SysResult α → Except Error Unit
  | .ok _ =>
      .error (makeError .nameRaceDetected "shm_unlink_checked"
        "new object appeared after unlink")
  | .error failure =>
      if failure.errno ≠ enoent then
        .error (makeErrnoError failure.errno "shm_unlink_checked" failure.text)
      else .ok ()

/-- The calls are made as the program at hand makes them: `sameInode` opens the name and
compares what it leads to with the object that is meant. -/
def shmUnlinkChecked (sameInode : Prog I R Error Bool) (unlink : Prog I R Error (SysResult Unit))
    (reopen : Prog I R Error (SysResult α)) : Prog I R Error Unit := do
  let operation := "shm_unlink_checked"
  if ← sameInode then
    let unlinked ← unlink
    orErrno operation unlinked
    let reopened ← reopen
    Prog.lift (checkNameGone reopened)
  else .throw (makeError .nameRaceDetected operation "inode changed before unlink")

end EdgeRuntime

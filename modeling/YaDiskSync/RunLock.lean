import YaDiskSync.World

/-! The run lock as both engines take it, whatever their memory is. -/
namespace YaDiskSync

/-- A program that stops at an error of the state database. -/
abbrev Locking (μ : Type) := ExceptT StateError (Prog (Effect μ) Effect.Answer)

namespace RunLock

variable {μ : Type}

def perform (e : Effect μ) : Locking μ e.Answer := liftM (Prog.perform e)

def state (call : StateCall) : Locking μ call.Result := do
  match ← perform (.state call) with
  | .ok result => return result
  | .error error => throw error

/-- `try_acquire_run_lock`, with the reading of the clock before it. -/
def tryAcquireRunLock (owner : Str) (staleAfter : Int) : Locking μ (Option RunLockGuard) := do
  let now ← perform .now
  let inserted ← state (.insertRunLock owner now)
  if inserted then return some { name := Repository.runLockName, owner }
  else
    let replaced ← state (.replaceStaleRunLock owner now (now-staleAfter))
    if replaced then return some { name := Repository.runLockName, owner }
    else return none

end RunLock

end YaDiskSync

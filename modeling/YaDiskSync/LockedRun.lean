import YaDiskSync.MigrationRun

/-! What the two engines have in common between taking the run lock and giving it back: the run is
begun, carried out, concluded and closed in the same way, whatever it does in between. -/
namespace YaDiskSync

/-- What an engine puts into its runs. -/
structure LockedRun (μ ε ρ : Type) where
  trigger : SyncRunTrigger
  stateError : StateError → ε
  start : Int → μ
  execute : Int → ExceptT ε (Prog (Effect μ) Effect.Answer) Unit
  /-- the memory at the end of a run that failed, was cancelled or came to its end -/
  failed : ε → μ → μ
  cancelled : μ → μ
  ended : μ → μ
  status : μ → SyncRunStatus
  summary : μ → SyncRunSummary
  report : μ → ρ

namespace LockedRun

variable {μ ε ρ : Type} (run : LockedRun μ ε ρ)

def perform (_ : LockedRun μ ε ρ) (e : Effect μ) :
    ExceptT ε (Prog (Effect μ) Effect.Answer) e.Answer := liftM (Prog.perform e)

def state (call : StateCall) : ExceptT ε (Prog (Effect μ) Effect.Answer) call.Result := do
  match ← run.perform (.state call) with
  | .ok result => return result
  | .error error => throw (run.stateError error)

def conclude (execution : Except ε Unit) : ExceptT ε (Prog (Effect μ) Effect.Answer) Unit := do
  match execution with
  | .error error => run.perform (.updateMemory (run.failed error))
  | .ok _ =>
    let cancelled ← run.perform .isCancelled
    if cancelled then run.perform (.updateMemory run.cancelled)
    else run.perform (.updateMemory run.ended)

def close (runId : Int) (guard : RunLockGuard) :
    ExceptT ε (Prog (Effect μ) Effect.Answer) ρ := do
  let memory ← run.perform .readMemory
  let finished ← run.perform (.state (.finishRun runId (run.status memory) (run.summary memory)))
  let released ← run.perform (.state (.releaseRunLock guard))
  match finished, released with
  | .error error, _ => throw (run.stateError error)
  | _, .error error => throw (run.stateError error)
  | .ok _, .ok _ => return run.report memory

def program (guard : RunLockGuard) : ExceptT ε (Prog (Effect μ) Effect.Answer) ρ := do
  run.state .repairInterruptedRuns
  let runId ← run.state (.beginRun run.trigger)
  run.perform (.updateMemory fun _ => run.start runId)
  let execution ← (liftM (run.execute runId).run :
    ExceptT ε (Prog (Effect μ) Effect.Answer) (Except ε Unit))
  run.conclude execution
  run.close runId guard

end LockedRun

namespace SyncEngine

def lockedRun (ext : Externals) (config : AppConfig) (trigger : SyncRunTrigger)
    (forceRemoteRescan : Bool) : LockedRun SyncMemory SyncError SyncRunReport where
  trigger
  stateError := .state
  start runId := { report := { runId } }
  execute runId := executeRun ext config runId (forceRemoteRescan || config.sync.forceRemoteRescan)
  failed error memory := { memory with report := { memory.report with
    status := .failed
    summary := { memory.report.summary with
      failedFiles := memory.report.summary.failedFiles+1, errorSummary := some error.message } } }
  cancelled memory := { memory with report := { memory.report with
    status := .cancelled
    summary := { memory.report.summary with
      errorSummary := some (memory.report.summary.errorSummary.getD cancelledText) } } }
  ended memory := { memory with report := { memory.report with
    status := statusFromSummary memory.report.summary memory.report.roots } }
  status memory := memory.report.status
  summary memory := memory.report.summary
  report memory := memory.report

theorem runLocked_eq (ext : Externals) (config : AppConfig) (trigger : SyncRunTrigger)
    (forceRemoteRescan : Bool) (guard : RunLockGuard) :
    runLocked ext config trigger forceRemoteRescan guard =
      (lockedRun ext config trigger forceRemoteRescan).program guard := by
  have hstate : ∀ call, state call = (lockedRun ext config trigger forceRemoteRescan).state call := by
    intro call
    refine bind_congr fun answer => ?_
    cases answer <;> rfl
  have hconclude : ∀ execution, concludeRun execution = (lockedRun ext config trigger forceRemoteRescan).conclude execution := by
    intro execution
    cases execution <;> rfl
  have hclose : ∀ runId, closeRun runId guard = (lockedRun ext config trigger forceRemoteRescan).close runId guard := by
    intro runId
    refine bind_congr fun memory => bind_congr fun finished => bind_congr fun released => ?_
    cases finished <;> cases released <;> rfl
  unfold runLocked LockedRun.program
  simp only [hstate,hconclude,hclose]
  rfl

end SyncEngine

namespace MigrationEngine

def lockedRun (ext : Externals) (config : AppConfig) (forceRemoteRescan : Bool) :
    LockedRun MigrationMemory MigrationError MigrationRunReport where
  trigger := .migration
  stateError := .state
  start runId := { report := { runId } }
  execute runId := executeRun ext config runId (forceRemoteRescan || config.sync.forceRemoteRescan)
  failed error memory := { memory with report := { memory.report with
    status := .failed
    summary := { memory.report.summary with
      failedFiles := memory.report.summary.failedFiles+1, errorSummary := some error.message } } }
  cancelled memory := { memory with report := { memory.report with
    status := .cancelled
    summary := { memory.report.summary with
      errorSummary := some (memory.report.summary.errorSummary.getD migrationCancelledText) } } }
  ended memory := { memory with report := { memory.report with
    status := migrationStatusFromSummary memory.report.summary memory.report.roots } }
  status memory := memory.report.status
  summary memory := memory.report.summary
  report memory := memory.report

theorem runLocked_eq (ext : Externals) (config : AppConfig) (forceRemoteRescan : Bool)
    (guard : RunLockGuard) :
    runLocked ext config forceRemoteRescan guard =
      (lockedRun ext config forceRemoteRescan).program guard := by
  have hstate : ∀ call, state call = (lockedRun ext config forceRemoteRescan).state call := by
    intro call
    refine bind_congr fun answer => ?_
    cases answer <;> rfl
  have hconclude : ∀ execution, concludeRun execution = (lockedRun ext config forceRemoteRescan).conclude execution := by
    intro execution
    cases execution <;> rfl
  have hclose : ∀ runId, closeRun runId guard = (lockedRun ext config forceRemoteRescan).close runId guard := by
    intro runId
    refine bind_congr fun memory => bind_congr fun finished => bind_congr fun released => ?_
    cases finished <;> cases released <;> rfl
  unfold runLocked LockedRun.program
  simp only [hstate,hconclude,hclose]
  rfl

end MigrationEngine

end YaDiskSync

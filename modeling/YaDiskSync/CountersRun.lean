import YaDiskSync.SyncCounters
import YaDiskSync.MigrationCounters

/-! The counters of whole runs, of either engine. -/
namespace YaDiskSync

open Prog

/-- In a run of either engine, finished or cut off, no component of the counters stored for it
decreases, if errors end the work on a root only while they lose nothing and the bytes it records
fit into its counter. -/
theorem runOnce_countersClimb {ρ : Type} (env : Environment ρ) (config : AppConfig) :
    (∀ (options : SyncEngine.SyncRunOptions) (s s' : Traced ρ SyncMemory)
      (result : Option (Except SyncError SyncEngine.RunOnceResult)), s.trace = [] →
        Exec (env.TraceStep SyncEngine.Lossless) env.TraceDrift
          (SyncEngine.runOnce env.ext config options).run s result s' → CountersClimb s') ∧
    ∀ (options : MigrationEngine.MigrationRunOptions) (s s' : Traced ρ MigrationMemory)
      (result : Option (Except MigrationError MigrationRunReport)), s.trace = [] →
        Exec (env.TraceStep MigrationEngine.Lossless) env.TraceDrift
          (MigrationEngine.runOnce env.ext config options).run s result s' → CountersClimb s' := by
  refine ⟨fun options s s' result htrace hrun => ?_,fun options s s' result htrace hrun => ?_⟩
  · have huntold : Ledger.Untold s := ⟨fun runId => by rw [htrace]; rfl⟩
    have hend := SyncCounters.runOnce_climbs env.ext config options s result s' huntold hrun
    match result with
    | none => exact hend
    | some (.ok _) => exact hend
    | some (.error _) => exact hend
  · have huntold : Ledger.Untold s := ⟨fun runId => by rw [htrace]; rfl⟩
    have hend := MigrationCounters.runOnce_climbs env.ext config options s result s' huntold hrun
    match result with
    | none => exact hend
    | some (.ok _) => exact hend
    | some (.error _) => exact hend

section Forgotten

/-! One file of one root. -/

variable {μ : Type}

private def countedConfig : AppConfig :=
  { defaultConfig with
    roots := [{ id := "r".toList, name := "r".toList, enabled := true, localPath := "/r".toList }] }

private def countedItems : List LocalItem :=
  [{ components := ["r".toList], fileType := .dir, sizeBytes_lt := emptySize_lt },
    { components := ["r".toList,"f".toList], fileType := .file, sizeBytes_lt := emptySize_lt }]

private def countedDisk : LocalTree where
  items := countedItems
  names_ne := by decide
  nodup := by decide
  closed := by decide +kernel

private def countedStart (memory : μ) : Traced RemoteDisk μ where
  world := {
    disk := countedDisk
    remote := { resources := Inventory.ofResources [.ofDirectory "disk:/Backup/r".toList] }
    repository := ({} : Repository).upsertDirectoryState {
      rootId := "r".toList, localPath := "/r".toList, relativePath := []
      remotePath := "disk:/Backup/r".toList, normalizedRemotePath := "disk:/backup/r".toList
      lastRunId := none, status := .synced, lastError := none }
    tasks := []
    cancelled := false
    now := 0
    memory }

private def countedScenario : Scenario RemoteDisk μ := { respond := mockResponder ⟨none,none⟩ }

private def countedEnvironment : Environment RemoteDisk :=
  { mockEnvironment asciiExternals ⟨none,none⟩ fun _ _ => False with stateFails := True }

private theorem countedScenario_allowed :
    (countedScenario : Scenario RemoteDisk μ).Allowed countedEnvironment where
  admits := ⟨fun _ _ _ => rfl,rfl,fun _ => rfl⟩
  cancels _ _ hc := by simp [countedScenario] at hc

private def countedOptions : SyncEngine.SyncRunOptions :=
  { lockOwner := "a".toList, staleLockAfter := 3600 }

/-- The database is busy when the status of the root is to be stored. -/
private def statusBusy : StateCall → Option StateError
  | .updateSyncRootStatus .. => some (.sqlite "database is locked".toList)
  | _ => none

private def forgottenRun :
    Except SyncError SyncEngine.RunOnceResult × Traced RemoteDisk SyncMemory :=
  (countedStart { report := { runId := 1 } }).playFailing statusBusy countedScenario
    asciiExternals (SyncEngine.runOnce asciiExternals countedConfig countedOptions).run

/-- The upload that was stored as done is gone from the finished row. -/
theorem failedStatus_forgets_upload : ¬ ∀ (env : Environment RemoteDisk) (config : AppConfig)
    (options : SyncEngine.SyncRunOptions) (s s' : Traced RemoteDisk SyncMemory)
    (result : Except SyncError SyncEngine.RunOnceResult), s.trace = [] →
      Exec (env.TraceStep fun _ _ _ => True) env.TraceDrift
        (SyncEngine.runOnce env.ext config options).run s (some result) s' → CountersClimb s' := by
  intro h
  have hrun : Exec (countedEnvironment.TraceStep fun _ _ _ => True) countedEnvironment.TraceDrift
      (SyncEngine.runOnce asciiExternals countedConfig countedOptions).run
      (countedStart { report := { runId := 1 } }) (some forgottenRun.1) forgottenRun.2 :=
    Scenario.exec_playFailing countedScenario_allowed trivial (fun _ _ => trivial) _ _
  have hstored : storedCounts 1 forgottenRun.2.trace =
      [(0,0,0,0,0,0),(1,0,0,0,0,0),(0,0,0,0,1,0)] := by decide +kernel
  have hclimbs := h countedEnvironment countedConfig countedOptions _ _ _ rfl hrun 1
  rw [hstored] at hclimbs
  exact absurd hclimbs (by decide)

/-- No answer ends the work on a root, and the bytes fit into their counter. -/
private def goingOn (ends : (e : Effect μ) → e.Answer → Bool) (s : Traced RemoteDisk μ)
    (e : Effect μ) (answer : e.Answer) : Bool :=
  !ends e answer &&
    decide (recordedBytes ((s.settled countedScenario e).trace ++ [.step e answer]) < 2^63)

private def countedRun {ε α : Type} (ends : (e : Effect μ) → e.Answer → Bool) (memory : μ)
    (p : ExceptT ε (Prog (Effect μ) Effect.Answer) α) :
    Option (Except ε α × Traced RemoteDisk μ) :=
  runChecked (fun s e => s.answer countedScenario asciiExternals e) (goingOn ends) p.run
    (countedStart memory)

private theorem exec_countedRun {ε α : Type} {ends : (e : Effect μ) → e.Answer → Bool} {memory : μ}
    {ledger : Ledger μ} {ends' : Traced RemoteDisk μ → (e : Effect μ) → e.Answer → Bool}
    {p : ExceptT ε (Prog (Effect μ) Effect.Answer) α} {result : Except ε α}
    {s : Traced RemoteDisk μ}
    (hends : ∀ s e answer, ends e answer = false → ends' s e answer = false)
    (h : countedRun ends memory p = some (result,s)) :
    Exec (countedEnvironment.TraceStep (ledger.Lossless ends')) countedEnvironment.TraceDrift p.run
      (countedStart memory) (some result) s := by
  refine Scenario.exec_checked countedScenario_allowed (fun s e hc => ?_) h
  rw [goingOn,Bool.and_eq_true,decide_eq_true_eq,Bool.not_eq_true'] at hc
  refine ⟨fun hend => ?_,hc.2⟩
  rw [hends _ _ _ hc.1] at hend
  cases hend

private theorem endsWhile_eq_false {moving : Bool} {e : Effect MigrationMemory} {answer : e.Answer}
    (h : MigrationEngine.endsWhile true e answer = false) :
    MigrationEngine.endsWhile moving e answer = false := by
  cases moving with
  | true => exact h
  | false =>
    by_contra hends
    rw [MigrationEngine.endsWhile_of_false true (eq_true_of_ne_false hends)] at h
    cases h

/-- The file uploaded by either engine. -/
theorem upload_stored_once :
    (∃ result s, countedRun
      (SyncEngine.endsRoot (countedStart { report := { runId := 1 } }))
      { report := { runId := 1 } }
      (SyncEngine.runOnce asciiExternals countedConfig countedOptions) = some (result,s) ∧
        (1,0,0,0,0,0) ∈ storedCounts 1 s.trace ∧ CountersClimb s) ∧
    ∃ result s, countedRun (MigrationEngine.endsWhile true) { report := { runId := 1 } }
      (MigrationEngine.runOnce asciiExternals countedConfig
        { lockOwner := "a".toList, staleLockAfter := 3600 }) = some (result,s) ∧
        (1,0,0,0,0,0) ∈ storedCounts 1 s.trace ∧ CountersClimb s := by
  have hclimbs := runOnce_countersClimb countedEnvironment countedConfig
  have hsync : (countedRun (SyncEngine.endsRoot (countedStart { report := { runId := 1 } }))
      { report := { runId := 1 } }
      (SyncEngine.runOnce asciiExternals countedConfig countedOptions)).any
        (fun run => decide ((1,0,0,0,0,0) ∈ storedCounts 1 run.2.trace)) = true := by
    decide +kernel
  have hmigration : (countedRun (MigrationEngine.endsWhile true) { report := { runId := 1 } }
      (MigrationEngine.runOnce asciiExternals countedConfig
        { lockOwner := "a".toList, staleLockAfter := 3600 })).any
        (fun run => decide ((1,0,0,0,0,0) ∈ storedCounts 1 run.2.trace)) = true := by
    decide +kernel
  obtain ⟨⟨result,s⟩,hrun,hstored⟩ := (Option.any_eq_true ..).mp hsync
  obtain ⟨⟨result',s'⟩,hrun',hstored'⟩ := (Option.any_eq_true ..).mp hmigration
  exact ⟨⟨result,s,hrun,of_decide_eq_true hstored,
      hclimbs.1 _ _ _ _ rfl (exec_countedRun (fun _ _ _ h => h) hrun)⟩,
    ⟨result',s',hrun',of_decide_eq_true hstored',
      hclimbs.2 _ _ _ _ rfl (exec_countedRun (fun _ _ _ => endsWhile_eq_false) hrun')⟩⟩

end Forgotten

end YaDiskSync

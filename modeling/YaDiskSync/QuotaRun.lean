import YaDiskSync.SyncQuota
import YaDiskSync.MigrationQuota

/-! The room that whole runs take up, of either engine. -/
namespace YaDiskSync

open Prog

section Runs

variable {ρ μ : Type} {env : Environment ρ}

theorem scannedBytes_mono {trace trace' : List (Happening μ)} (h : trace <+: trace') :
    scannedBytes trace ≤ scannedBytes trace' := by
  obtain ⟨rest,rfl⟩ := h
  rw [scannedBytes_append]
  exact Nat.le_add_right _ _

theorem unasked_of_empty {s : Traced ρ μ} (htrace : s.trace = []) (htasks : s.world.tasks = []) :
    Unasked s :=
  ⟨by rw [htrace]; rfl,by rw [htrace]; rfl,htasks⟩

/-- In a run whose scanned files come to less than 2^64 bytes every step knows of it. -/
theorem exec_bounded {α : Type} {p : Prog (Effect μ) Effect.Answer α} {s s' : Traced ρ μ}
    {result : Option α} (h : Exec (env.TraceStep fun _ _ _ => True) env.TraceDrift p s result s')
    (hs : scannedBytes s'.trace < 2^64) :
    Exec (env.TraceStep Bounded) env.TraceDrift p s result s' :=
  Environment.exec_of_trace (C := fun trace => scannedBytes trace < 2^64)
    (fun _ _ hfront hlt => (scannedBytes_mono hfront).trans_lt hlt) h hs

/-- Where a program that spends within the room leads to. -/
theorem Spends.withinQuota {ε α : Type} {p : ExceptT ε (Prog (Effect μ) Effect.Answer) α}
    (hp : Spends Bounded env Unasked p (fun _ => WithinQuota) WithinQuota) {s s' : Traced ρ μ}
    {result : Option (Except ε α)} (htrace : s.trace = []) (htasks : s.world.tasks = [])
    (hrun : Exec (env.TraceStep fun _ _ _ => True) env.TraceDrift p.run s result s')
    (hsize : scannedBytes s'.trace < 2^64) : WithinQuota s' := by
  have hend := hp s result s' (unasked_of_empty htrace htasks) (exec_bounded hrun hsize)
  match result with
  | none => exact hend
  | some (.ok _) => exact hend
  | some (.error _) => exact hend

end Runs

/-- In a run of either engine, finished or cut off, what has been uploaded never comes to more than
there was room for at its start, if the scanned files come to less than 2^64 bytes. -/
theorem runOnce_uploads_withinQuota {ρ : Type} (env : Environment ρ) (config : AppConfig) :
    (∀ (options : SyncEngine.SyncRunOptions) (s s' : Traced ρ SyncMemory)
      (result : Option (Except SyncError SyncEngine.RunOnceResult)), s.trace = [] →
        s.world.tasks = [] → Exec (env.TraceStep fun _ _ _ => True) env.TraceDrift
          (SyncEngine.runOnce env.ext config options).run s result s' →
            scannedBytes s'.trace < 2^64 → WithinQuota s') ∧
    ∀ (options : MigrationEngine.MigrationRunOptions) (s s' : Traced ρ MigrationMemory)
      (result : Option (Except MigrationError MigrationRunReport)), s.trace = [] →
        s.world.tasks = [] → Exec (env.TraceStep fun _ _ _ => True) env.TraceDrift
          (MigrationEngine.runOnce env.ext config options).run s result s' →
            scannedBytes s'.trace < 2^64 → WithinQuota s' :=
  ⟨fun options _ _ _ => (SyncQuota.runOnce_withinQuota env.ext config options).withinQuota,
    fun options _ _ _ => (MigrationQuota.runOnce_withinQuota env.ext config options).withinQuota⟩

section Provided

/-! One file of four bytes, and room for seven. -/

variable {μ : Type}

private def roomConfig : AppConfig :=
  { defaultConfig with
    roots := [{ id := "r".toList, name := "r".toList, enabled := true, localPath := "/r".toList }] }

private def roomQuota : QuotaInfo := ⟨some 10,some 3⟩

private def roomItems : List LocalItem :=
  [{ components := ["r".toList], fileType := .dir, sizeBytes_lt := emptySize_lt },
    { components := ["r".toList,"f".toList], fileType := .file, sizeBytes := 4
      sizeBytes_lt := wordSize_lt
      content := "data".toList }]

private def roomStart (memory : μ) : Traced RemoteDisk μ where
  world := {
    disk := {
      items := roomItems
      names_ne := by decide
      nodup := by decide
      closed := by decide +kernel }
    remote := { resources := Inventory.ofResources [.ofDirectory "disk:/Backup/r".toList] }
    repository := ({} : Repository).upsertDirectoryState {
      rootId := "r".toList, localPath := "/r".toList, relativePath := []
      remotePath := "disk:/Backup/r".toList, normalizedRemotePath := "disk:/backup/r".toList
      lastRunId := none, status := .synced, lastError := none }
    tasks := []
    cancelled := false
    now := 0
    memory }

private def roomEnvironment : Environment RemoteDisk :=
  mockEnvironment asciiExternals roomQuota fun _ _ => False

private def roomRun {ε α : Type} (memory : μ) (p : ExceptT ε (Prog (Effect μ) Effect.Answer) α) :
    Except ε α × Traced RemoteDisk μ :=
  (roomStart memory).play { respond := mockResponder roomQuota } asciiExternals p.run

private theorem exec_roomRun {ε α : Type} (memory : μ)
    (p : ExceptT ε (Prog (Effect μ) Effect.Answer) α) :
    Exec (roomEnvironment.TraceStep fun _ _ _ => True) roomEnvironment.TraceDrift p.run
      (roomStart memory) (some (roomRun memory p).1) (roomRun memory p).2 :=
  Scenario.exec_play { admits := mockEnvironment_admits asciiExternals roomQuota fun _ _ => False
                       cancels := fun _ _ hc => by simp at hc }
    (J := fun _ => True) (fun _ _ _ => trivial) (fun _ _ _ => trivial) _ trivial

private def roomSync : Except SyncError SyncEngine.RunOnceResult × Traced RemoteDisk SyncMemory :=
  roomRun { report := { runId := 1 } }
    (SyncEngine.runOnce asciiExternals roomConfig
      { lockOwner := "a".toList, staleLockAfter := 3600 })

private def roomMigration :
    Except MigrationError MigrationRunReport × Traced RemoteDisk MigrationMemory :=
  roomRun { report := { runId := 1 } }
    (MigrationEngine.runOnce asciiExternals roomConfig
      { lockOwner := "a".toList, staleLockAfter := 3600 })

/-- The file is uploaded by either engine. -/
theorem four_of_seven_bytes :
    (availableAtStart roomSync.2.trace = some 7 ∧ uploadedBytes roomSync.2.trace = 4 ∧
      WithinQuota roomSync.2) ∧
    availableAtStart roomMigration.2.trace = some 7 ∧ uploadedBytes roomMigration.2.trace = 4 ∧
      WithinQuota roomMigration.2 := by
  have hwithin := runOnce_uploads_withinQuota roomEnvironment roomConfig
  exact ⟨⟨by decide +kernel,by decide +kernel,
      hwithin.1 _ _ _ _ rfl rfl (exec_roomRun _ _) (by decide +kernel)⟩,
    by decide +kernel,by decide +kernel,
    hwithin.2 _ _ _ _ rfl rfl (exec_roomRun _ _) (by decide +kernel)⟩

end Provided

end YaDiskSync

import YaDiskSync.StateRecords
import YaDiskSync.Table
import Mathlib.Data.List.Infix

/-! The state database: its tables and the statements the engines run on them. Each call is
one transaction. -/
namespace YaDiskSync

open SepPath

/-- SQLite's `LIKE` without `ESCAPE`; letters are compared without ASCII case. -/
def likeMatch : Str → Str → Bool
  | [], text => text.isEmpty
  | c :: pattern, text =>
    if c = '%' then text.tails.any (likeMatch pattern)
    else (text.head?.any fun d => c == '_' || asciiLower c == asciiLower d) &&
      likeMatch pattern text.tail

theorem asciiLower_eq_slash {c : Char} (h : asciiLower c = slash) : c = slash := by
  unfold asciiLower at h
  split at h
  · rename_i hc
    have hge : 65 ≤ c.toNat := hc.1
    have hle : c.toNat ≤ 90 := hc.2
    have hval := congrArg Char.toNat h
    rw [Char.ofNat,dif_pos (Or.inl (by omega))] at hval
    have hupper : c.toNat+32 = 47 := hval
    omega
  · exact h

def FileStateRecord.key (r : FileStateRecord) : Str × Str := (r.rootId,r.relativePath)

def DirectoryStateRecord.key (r : DirectoryStateRecord) : Str × Str := (r.rootId,r.relativePath)

def RemoteResourceRecord.key (r : RemoteResourceRecord) : Str × Str := (r.rootId,r.remotePath)

def SkippedItemRecord.key (r : SkippedItemRecord) : Str × Str := (r.rootId,r.localPath)

/-- Absent paths are stored as empty texts. -/
def FailedItemRecord.key (r : FailedItemRecord) : Str × Str × Str × Str :=
  (r.rootId,r.operation,r.localPath.getD [],r.remotePath.getD [])

def MigrationMapRecord.key (r : MigrationMapRecord) : Str × Str × Str :=
  (r.rootId,r.legacyRemotePath,r.canonicalRemotePath)

def DeletedSubtreeRecord.key (r : DeletedSubtreeRecord) : Str × Str := (r.rootId,r.relativePrefix)

structure Repository where
  syncRuns : Table SyncRunRecord.id := default
  syncRoots : Table SyncRootRecord.id := default
  fileStates : Table FileStateRecord.key := default
  directoryStates : Table DirectoryStateRecord.key := default
  remoteResources : Table RemoteResourceRecord.key := default
  skippedItems : Table SkippedItemRecord.key := default
  failedItems : Table FailedItemRecord.key := default
  operationJournal : Table OperationJournalRecord.id := default
  migrationMap : Table MigrationMapRecord.key := default
  stateLocks : Table StateLock.name := default
  inventoryStatus : Table RootRemoteInventoryStatus.rootId := default
  deletedSubtrees : Table DeletedSubtreeRecord.key := default

namespace Repository

variable (repository : Repository)

/-- `last_insert_rowid` of a table whose rows are never removed. -/
def nextId {ρ : Type} {key : ρ → Int} (table : Table key) : Int :=
  table.rows.foldl (fun id row => max id (key row)) 0+1

section Runs

def beginRun (trigger : SyncRunTrigger) : Int × Repository :=
  let id := nextId repository.syncRuns
  (id,{ repository with
    syncRuns := repository.syncRuns.put { id, trigger, status := .running } })

def updateRun (id : Int) (f : SyncRunRecord → SyncRunRecord) (hf : ∀ row, (f row).id = row.id) :
    Except StateError Repository :=
  if (repository.syncRuns.find id).isSome then
    .ok { repository with
      syncRuns := repository.syncRuns.update (fun row => if row.id = id then f row else row)
        fun row => by
          split
          · exact hf row
          · rfl }
  else .error (.notFound "sync_run".toList id)

def finishRun (id : Int) (status : SyncRunStatus) (summary : SyncRunSummary) :
    Except StateError Repository :=
  repository.updateRun id (fun row => { row with status, summary, finished := true }) fun _ => rfl

def updateRunProgress (id : Int) (summary : SyncRunSummary) : Except StateError Repository :=
  repository.updateRun id (fun row => { row with summary }) fun _ => rfl

def interruptedText : Str := "run interrupted before completion".toList

def repairInterruptedRuns : Repository :=
  { repository with
    operationJournal := repository.operationJournal.update (fun row =>
      if row.status = .running then
        { row with
          status := .cancelled
          errorKind := some (row.errorKind.getD "cancelled".toList)
          errorMessage := some (row.errorMessage.getD interruptedText) }
      else row) fun row => by split <;> rfl
    syncRuns := repository.syncRuns.update (fun row =>
      if row.status = .running ∧ row.finished = false then
        { row with
          status := .cancelled, finished := true
          summary := { row.summary with
            errorSummary := some (row.summary.errorSummary.getD interruptedText) } }
      else row) fun row => by split <;> rfl }

end Runs

section Roots

def upsertSyncRoot (id localPath remoteRoot canonicalRemotePath : Str) (enabled : Bool) :
    Repository :=
  { repository with
    syncRoots := repository.syncRoots.upsert
      { id, localPath, remoteRoot, canonicalRemotePath, enabled }
      (fun row => { row with localPath, remoteRoot, canonicalRemotePath, enabled }) fun _ => rfl }

def updateSyncRootStatus (id lastStatus : Str) (lastError : Option Str) :
    Except StateError Repository :=
  if (repository.syncRoots.find id).isSome then
    .ok { repository with
      syncRoots := repository.syncRoots.update (fun row =>
        if row.id = id then { row with lastStatus := some lastStatus, lastError } else row)
        fun row => by split <;> rfl }
  else .error (.notFoundText "sync_root".toList id)

end Roots

section FileStates

def listFileStatesForRoot (rootId : Str) : List FileStateRecord :=
  sortByKey FileStateRecord.relativePath
    (repository.fileStates.rows.filter fun row => row.rootId = rootId)

def getFileState (rootId relativePath : Str) : Option FileStateRecord :=
  repository.fileStates.find (rootId,relativePath)

def upsertFileState (record : FileStateRecord) : Repository :=
  { repository with fileStates := repository.fileStates.put record }

def upsertFileStates (records : List FileStateRecord) : Repository :=
  records.foldl upsertFileState repository

/-- The row `mark_deleted` inserts for a path that had none. -/
def deletedFileState (rootId relativePath remotePath : Str) (lastRunId : Option Int) :
    FileStateRecord :=
  { rootId, localPath := relativePath, relativePath, remotePath
    normalizedRemotePath := remotePath, sizeBytes := 0, mtimeNs := none, ctimeNs := none
    fingerprintKind := "deleted".toList, fingerprintValue := none, fullSha256 := none
    remoteEtag := none, remoteMd5 := none, lastRunId, status := .deleted, lastError := none }

def markDeleted (rootId relativePath remotePath : Str) (lastRunId : Option Int) : Repository :=
  { repository with
    fileStates := repository.fileStates.upsert
      (deletedFileState rootId relativePath remotePath lastRunId)
      (fun row => { row with lastRunId, status := .deleted, lastError := none }) fun _ => rfl }

def upsertDirectoryState (record : DirectoryStateRecord) : Repository :=
  { repository with directoryStates := repository.directoryStates.put record }

def markDirectoryDeleted (rootId relativePath remotePath : Str) (lastRunId : Option Int) :
    Repository :=
  { repository with
    directoryStates := repository.directoryStates.upsert
      { rootId, localPath := relativePath, relativePath, remotePath
        normalizedRemotePath := remotePath, lastRunId, status := .deleted, lastError := none }
      (fun row => { row with lastRunId, status := .deleted, lastError := none }) fun _ => rfl }

def hasSnapshotForRoot (rootId : Str) : Bool :=
  (repository.fileStates.rows.any fun row => row.rootId = rootId ∧ row.status ≠ .deleted) ||
    repository.directoryStates.rows.any fun row => row.rootId = rootId ∧ row.status ≠ .deleted

end FileStates

section RemoteResources

def getRootRemoteInventoryStatus (rootId : Str) : Option RootRemoteInventoryStatus :=
  repository.inventoryStatus.find rootId

def setRootRemoteInventoryStatus (status : RootRemoteInventoryStatus) : Repository :=
  { repository with inventoryStatus := repository.inventoryStatus.put status }

def listRemoteResourcesForRoot (rootId : Str) : List RemoteResourceRecord :=
  sortByKey RemoteResourceRecord.remotePath
    (repository.remoteResources.rows.filter fun row => row.rootId = rootId)

def upsertRemoteResource (record : RemoteResourceRecord) : Repository :=
  { repository with remoteResources := repository.remoteResources.put record }

def upsertRemoteResources (records : List RemoteResourceRecord) : Repository :=
  records.foldl upsertRemoteResource repository

/-- `INSERT` of rows one by one; a key that is taken breaks the constraint. -/
def insertRemoteResources (table : Table RemoteResourceRecord.key) :
    List RemoteResourceRecord → Except StateError (Table RemoteResourceRecord.key)
  | [] => .ok table
  | record :: records =>
    if (table.find record.key).isSome then
      .error (.sqlite "UNIQUE constraint failed".toList)
    else insertRemoteResources (table.put record) records

def replaceRemoteResourcesForRoot (rootId : Str) (records : List RemoteResourceRecord) :
    Except StateError Repository := do
  let kept := repository.remoteResources.deleteWhere fun row => row.rootId = rootId
  let remoteResources ← insertRemoteResources kept records
  return { repository with remoteResources }

def deleteRemoteResourceSubtree (rootId remotePrefix : Str) : Repository :=
  { repository with
    remoteResources := repository.remoteResources.deleteWhere fun row =>
      row.rootId = rootId ∧
        (row.remotePath = remotePrefix ∨ likeMatch (remotePrefix ++ "/%".toList) row.remotePath) }

end RemoteResources

section Items

def markSkipped (record : SkippedItemRecord) : Repository :=
  { repository with skippedItems := repository.skippedItems.put record }

/-- `local_path` and `remote_path` are stored without `NULL`. -/
def markFailed (record : FailedItemRecord) : Repository :=
  { repository with
    failedItems := repository.failedItems.put { record with
      localPath := some (record.localPath.getD [])
      remotePath := some (record.remotePath.getD []) } }

def markSubtreeDeleted (rootId relativePrefix remotePrefix : Str) (runId : Int) : Repository :=
  { repository with
    deletedSubtrees := repository.deletedSubtrees.put
      { rootId, relativePrefix, remotePrefix, lastRunId := some runId } }

def upsertMigrationMap (record : MigrationMapRecord) : Repository :=
  { repository with migrationMap := repository.migrationMap.put record }

def upsertMigrationMaps (records : List MigrationMapRecord) : Repository :=
  records.foldl upsertMigrationMap repository

end Items

section Journal

def appendOperation (record : OperationRecord) (status : OperationStatus) : Int × Repository :=
  let id := nextId repository.operationJournal
  (id,{ repository with
    operationJournal := repository.operationJournal.put { id, record, status } })

def appendOperationStarted (record : OperationRecord) : Int × Repository :=
  repository.appendOperation record .running

def appendOperationsSucceeded (records : List OperationRecord) : Repository :=
  records.foldl (fun repository record => (repository.appendOperation record .succeeded).2)
    repository

def finishOperation (id : Int) (status : OperationStatus)
    (errorKind errorMessage : Option Str) : Except StateError Repository :=
  if (repository.operationJournal.find id).isSome then
    .ok { repository with
      operationJournal := repository.operationJournal.update (fun row =>
        if row.id = id then { row with status, errorKind, errorMessage } else row)
        fun row => by split <;> rfl }
  else .error (.notFound "operation".toList id)

end Journal

section Lock

def runLockName : Str := "sync_run".toList

/-- `INSERT OR IGNORE`. -/
def insertRunLock (owner : Str) (now : Int) : Bool × Repository :=
  if (repository.stateLocks.find runLockName).isSome then (false,repository)
  else (true,{ repository with
    stateLocks := repository.stateLocks.put
      { name := runLockName, owner, heartbeatUnixSeconds := now } })

/-- The `UPDATE` that takes over a lock with an old heartbeat. -/
def replaceStaleRunLock (owner : Str) (now staleBefore : Int) : Bool × Repository :=
  match repository.stateLocks.find runLockName with
  | some lock =>
    if lock.heartbeatUnixSeconds < staleBefore then
      (true,{ repository with
        stateLocks := repository.stateLocks.put
          { name := runLockName, owner, heartbeatUnixSeconds := now } })
    else (false,repository)
  | none => (false,repository)

def heartbeatRunLock (guard : RunLockGuard) (now : Int) : Bool × Repository :=
  match repository.stateLocks.find guard.name with
  | some lock =>
    if lock.owner = guard.owner then
      (true,{ repository with
        stateLocks := repository.stateLocks.put { lock with heartbeatUnixSeconds := now } })
    else (false,repository)
  | none => (false,repository)

def releaseRunLock (guard : RunLockGuard) : Bool × Repository :=
  let held := (repository.stateLocks.find guard.name).any fun lock => lock.owner = guard.owner
  (held,{ repository with
    stateLocks := repository.stateLocks.deleteWhere fun lock =>
      lock.name = guard.name ∧ lock.owner = guard.owner })

end Lock

end Repository

end YaDiskSync

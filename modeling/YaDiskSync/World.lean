import YaDiskSync.Prog
import YaDiskSync.Repository
import YaDiskSync.SyncPlan

/-! What an engine talks to: the local disk, the remote client, the state database, its own
tasks and its memory. An environment says how the parts that are not the engine's own may
answer and change. -/
namespace YaDiskSync

inductive YandexDiskErrorKind
  | transient | permanent | authUnavailable | quotaExceeded | rateLimited | notFound | critical
  deriving DecidableEq, Repr

def YandexDiskErrorKind.asStr : YandexDiskErrorKind → Str
  | .transient => "transient".toList
  | .permanent => "permanent".toList
  | .authUnavailable => "auth_unavailable".toList
  | .quotaExceeded => "quota_exceeded".toList
  | .rateLimited => "rate_limited".toList
  | .notFound => "not_found".toList
  | .critical => "critical".toList

structure YandexDiskError where
  kind : YandexDiskErrorKind
  message : Str
  apiCode : Option Str := none
  deriving DecidableEq, Repr

namespace YandexDiskError

def critical (message : Str) : YandexDiskError := { kind := .critical, message }

/-- `to_string`. -/
def display (error : YandexDiskError) : Str := error.kind.asStr ++ ": ".toList ++ error.message

def isPersistentUploaderConflict (error : YandexDiskError) : Bool :=
  error.apiCode == some "DiskUploaderPersistentConflict".toList

def isLocalUploadSourceUnavailable (error : YandexDiskError) : Bool :=
  error.apiCode == some "LocalUploadSourceUnavailable".toList

end YandexDiskError

def isStopError : YandexDiskErrorKind → Bool
  | .authUnavailable | .quotaExceeded | .critical => true
  | _ => false

structure QuotaInfo where
  totalSpace : Option Nat
  usedSpace : Option Nat
  deriving DecidableEq, Repr

inductive ClientCall
  | diskInfo
  | metadata (remotePath : Str)
  | listRecursive (remotePath : Str) (pruneRemotePrefixes : List Str)
  | createDirectory (remotePath : Str)
  | uploadSource (remotePath : Str) (source : LocalPath)
  | download (remotePath : Str)
  | moveResource (source target : Str) (overwrite : Bool)
  | deletePermanently (remotePath : Str)
  deriving DecidableEq

@[reducible] def ClientCall.Result : ClientCall → Type
  | .diskInfo => QuotaInfo
  | .metadata _ => ResourceMetadata
  | .listRecursive .. => List ResourceMetadata
  | .download _ => Str
  | _ => Unit

def ClientCall.isRead : ClientCall → Bool
  | .diskInfo | .metadata _ | .listRecursive .. | .download _ => true
  | _ => false

inductive StateCall
  | beginRun (trigger : SyncRunTrigger)
  | finishRun (id : Int) (status : SyncRunStatus) (summary : SyncRunSummary)
  | updateRunProgress (id : Int) (summary : SyncRunSummary)
  | repairInterruptedRuns
  | upsertSyncRoot (id localPath remoteRoot canonicalRemotePath : Str) (enabled : Bool)
  | updateSyncRootStatus (id lastStatus : Str) (lastError : Option Str)
  | getRootRemoteInventoryStatus (rootId : Str)
  | setRootRemoteInventoryStatus (status : RootRemoteInventoryStatus)
  | listFileStatesForRoot (rootId : Str)
  | getFileState (rootId relativePath : Str)
  | hasSnapshotForRoot (rootId : Str)
  | upsertFileState (record : FileStateRecord)
  | upsertFileStates (records : List FileStateRecord)
  | upsertDirectoryState (record : DirectoryStateRecord)
  | markSkipped (record : SkippedItemRecord)
  | markFailed (record : FailedItemRecord)
  | markDeleted (rootId relativePath remotePath : Str) (lastRunId : Option Int)
  | markDirectoryDeleted (rootId relativePath remotePath : Str) (lastRunId : Option Int)
  | upsertRemoteResource (record : RemoteResourceRecord)
  | upsertRemoteResources (records : List RemoteResourceRecord)
  | replaceRemoteResourcesForRoot (rootId : Str) (records : List RemoteResourceRecord)
  | listRemoteResourcesForRoot (rootId : Str)
  | deleteRemoteResourceSubtree (rootId remotePrefix : Str)
  | upsertMigrationMap (record : MigrationMapRecord)
  | upsertMigrationMaps (records : List MigrationMapRecord)
  | appendOperationStarted (record : OperationRecord)
  | appendOperationsSucceeded (records : List OperationRecord)
  | finishOperation (id : Int) (status : OperationStatus) (errorKind errorMessage : Option Str)
  | markSubtreeDeleted (rootId relativePrefix remotePrefix : Str) (runId : Int)
  | insertRunLock (owner : Str) (now : Int)
  | replaceStaleRunLock (owner : Str) (now staleBefore : Int)
  | heartbeatRunLock (guard : RunLockGuard) (now : Int)
  | releaseRunLock (guard : RunLockGuard)

namespace StateCall

/-- Calls that only write what is shown to the user, the counters of the run apart; none makes an
operation run again. -/
def isBookkeeping : StateCall → Bool
  | .updateSyncRootStatus .. | .markSkipped _ | .markFailed _ | .appendOperationStarted _
  | .appendOperationsSucceeded _ | .markSubtreeDeleted .. => true
  | .finishOperation _ status .. => status != .running
  | _ => false

/-- Those that neither open nor close an operation. -/
def isReport : StateCall → Bool
  | .updateSyncRootStatus .. | .markSkipped _ | .markFailed _ | .appendOperationsSucceeded _
  | .markSubtreeDeleted .. => true
  | _ => false

@[reducible] def Result : StateCall → Type
  | .beginRun _ => Int
  | .getRootRemoteInventoryStatus _ => Option RootRemoteInventoryStatus
  | .listFileStatesForRoot _ => List FileStateRecord
  | .getFileState .. => Option FileStateRecord
  | .hasSnapshotForRoot _ => Bool
  | .listRemoteResourcesForRoot _ => List RemoteResourceRecord
  | .appendOperationStarted _ => Int
  | .insertRunLock .. => Bool
  | .replaceStaleRunLock .. => Bool
  | .heartbeatRunLock .. => Bool
  | .releaseRunLock _ => Bool
  | _ => Unit

/-- The effect of a call that has no result of its own. -/
def unitResult (repository : Except StateError Repository) :
    Except StateError (Unit × Repository) := repository.map fun r => ((),r)

/-- What a call does on the database when nothing is wrong with the database itself. -/
def run (repository : Repository) :
    (call : StateCall) → Except StateError (call.Result × Repository)
  | .beginRun trigger => .ok (repository.beginRun trigger)
  | .finishRun id status summary => unitResult (repository.finishRun id status summary)
  | .updateRunProgress id summary => unitResult (repository.updateRunProgress id summary)
  | .repairInterruptedRuns => .ok ((),repository.repairInterruptedRuns)
  | .upsertSyncRoot id localPath remoteRoot canonicalRemotePath enabled =>
    .ok ((),repository.upsertSyncRoot id localPath remoteRoot canonicalRemotePath enabled)
  | .updateSyncRootStatus id lastStatus lastError =>
    unitResult (repository.updateSyncRootStatus id lastStatus lastError)
  | .getRootRemoteInventoryStatus rootId =>
    .ok (repository.getRootRemoteInventoryStatus rootId,repository)
  | .setRootRemoteInventoryStatus status => .ok ((),repository.setRootRemoteInventoryStatus status)
  | .listFileStatesForRoot rootId => .ok (repository.listFileStatesForRoot rootId,repository)
  | .getFileState rootId relativePath =>
    .ok (repository.getFileState rootId relativePath,repository)
  | .hasSnapshotForRoot rootId => .ok (repository.hasSnapshotForRoot rootId,repository)
  | .upsertFileState record => .ok ((),repository.upsertFileState record)
  | .upsertFileStates records => .ok ((),repository.upsertFileStates records)
  | .upsertDirectoryState record => .ok ((),repository.upsertDirectoryState record)
  | .markSkipped record => .ok ((),repository.markSkipped record)
  | .markFailed record => .ok ((),repository.markFailed record)
  | .markDeleted rootId relativePath remotePath lastRunId =>
    .ok ((),repository.markDeleted rootId relativePath remotePath lastRunId)
  | .markDirectoryDeleted rootId relativePath remotePath lastRunId =>
    .ok ((),repository.markDirectoryDeleted rootId relativePath remotePath lastRunId)
  | .upsertRemoteResource record => .ok ((),repository.upsertRemoteResource record)
  | .upsertRemoteResources records => .ok ((),repository.upsertRemoteResources records)
  | .replaceRemoteResourcesForRoot rootId records =>
    unitResult (repository.replaceRemoteResourcesForRoot rootId records)
  | .listRemoteResourcesForRoot rootId =>
    .ok (repository.listRemoteResourcesForRoot rootId,repository)
  | .deleteRemoteResourceSubtree rootId remotePrefix =>
    .ok ((),repository.deleteRemoteResourceSubtree rootId remotePrefix)
  | .upsertMigrationMap record => .ok ((),repository.upsertMigrationMap record)
  | .upsertMigrationMaps records => .ok ((),repository.upsertMigrationMaps records)
  | .appendOperationStarted record => .ok (repository.appendOperationStarted record)
  | .appendOperationsSucceeded records => .ok ((),repository.appendOperationsSucceeded records)
  | .finishOperation id status errorKind errorMessage =>
    unitResult (repository.finishOperation id status errorKind errorMessage)
  | .markSubtreeDeleted rootId relativePrefix remotePrefix runId =>
    .ok ((),repository.markSubtreeDeleted rootId relativePrefix remotePrefix runId)
  | .insertRunLock owner now => .ok (repository.insertRunLock owner now)
  | .replaceStaleRunLock owner now staleBefore =>
    .ok (repository.replaceStaleRunLock owner now staleBefore)
  | .heartbeatRunLock guard now => .ok (repository.heartbeatRunLock guard now)
  | .releaseRunLock guard => .ok (repository.releaseRunLock guard)

end StateCall

structure UploadTaskFailure where
  errorKind : Str
  errorMessage : Str
  shouldStop : Bool
  skipReasonCode : Option Str
  deriving DecidableEq

structure UploadTaskOutcome where
  operationId : Int
  file : LocalFileEntry
  isUpdate : Bool
  result : Except UploadTaskFailure Unit

/-- A task of a `JoinSet`. An upload task looks at the cancellation flag before its one call. -/
inductive Task
  | createDirectory (directory : LocalDirectoryEntry) (operationId : Int)
  | upload (operationId : Int) (file : LocalFileEntry) (isUpdate : Bool) (cancelledText : Str)

inductive TaskOutcome
  | created (directory : LocalDirectoryEntry) (operationId : Int)
      (result : Except YandexDiskError Unit)
  | uploaded (outcome : UploadTaskOutcome)

structure RunningTask where
  task : Task
  /-- set once the task has finished -/
  outcome : Option TaskOutcome := none

/-- `upload_failure`. -/
def uploadFailure (error : YandexDiskError) : UploadTaskFailure :=
  { errorKind := error.kind.asStr
    errorMessage := error.message
    shouldStop := isStopError error.kind
    skipReasonCode :=
      if error.isPersistentUploaderConflict then some "remote_uploader_content_conflict".toList
      else if error.isLocalUploadSourceUnavailable then some "local_file_unavailable".toList
      else none }

def cancelledFailure (cancelledText : Str) : UploadTaskFailure :=
  { errorKind := "cancelled".toList, errorMessage := cancelledText, shouldStop := true
    skipReasonCode := none }

/-- One step of an engine whose variables that outlive a step are `μ`. -/
inductive Effect (μ : Type)
  | client (call : ClientCall)
  | state (call : StateCall)
  | isDir (path : LocalPath)
  | pathExists (path : LocalPath)
  | isFile (path : LocalPath)
  | fileMetadata (path : LocalPath)
  | readFile (path : LocalPath)
  | scan (options : ScanOptions) (root : ScanRoot) (previousStates : List FileStateRecord)
  | removeFile (path : LocalPath)
  | spawn (task : Task)
  | joinNext
  /-- a `JoinSet` goes out of scope -/
  | dropTasks
  | isCancelled
  | now
  | readMemory
  | updateMemory (f : μ → μ)

@[reducible] def Effect.Answer {μ : Type} : Effect μ → Type
  | .client call => Except YandexDiskError call.Result
  | .state call => Except StateError call.Result
  | .isDir _ => Bool
  | .pathExists _ => Bool
  | .isFile _ => Bool
  | .fileMetadata _ => Option (Nat × Option Int)
  | .readFile _ => Except IoError Str
  | .scan .. => Except ScannerError ScanReport
  | .removeFile _ => Except IoError Unit
  | .spawn _ => Unit
  | .joinNext => Option TaskOutcome
  | .dropTasks => Unit
  | .isCancelled => Bool
  | .now => Int
  | .readMemory => μ
  | .updateMemory _ => Unit

/-- Steps on a set of tasks. -/
def Effect.onTasks {μ : Type} : Effect μ → Bool
  | .spawn _ | .joinNext | .dropTasks => true
  | _ => false

structure World (ρ μ : Type) where
  /-- the local file system, named from its root -/
  disk : LocalTree
  remote : ρ
  repository : Repository
  tasks : List RunningTask
  cancelled : Bool
  /-- in seconds -/
  now : Int
  memory : μ

/-- What the rest of the world may do: how the client answers, how the local disk changes,
what a scan gets to see of it, and what can go wrong. -/
structure Environment (ρ : Type) where
  ext : Externals
  client : LocalTree → ρ → (call : ClientCall) → Except YandexDiskError call.Result → ρ → Prop
  diskStep : LocalTree → LocalTree → Prop
  scanned : LocalTree → LocalTree → Prop
  faulty : ScanFaults → Prop
  stateFails : Prop
  cancels : Prop

namespace Environment

variable {ρ μ : Type} (env : Environment ρ)

/-- The answers a step may get and the worlds it may lead to. -/
def Perform (w : World ρ μ) : (e : Effect μ) → e.Answer → World ρ μ → Prop
  | .client call, answer, w' =>
    ∃ remote, env.client w.disk w.remote call answer remote ∧ w' = { w with remote }
  | .state call, answer, w' =>
    (env.stateFails ∧ (∃ error, answer = .error error) ∧ w' = w) ∨
      match call.run w.repository with
      | .ok (result,repository) => answer = .ok result ∧ w' = { w with repository }
      | .error error => answer = .error error ∧ w' = w
  | .isDir path, answer, w' => answer = w.disk.isDir path ∧ w' = w
  | .pathExists path, answer, w' => answer = w.disk.pathExists path ∧ w' = w
  | .isFile path, answer, w' => answer = w.disk.isFile path ∧ w' = w
  | .fileMetadata path, answer, w' => answer = w.disk.fileMetadata path ∧ w' = w
  -- a staged copy is not an item of the tree
  | .readFile path, answer, w' =>
    (∀ content, answer = .ok content → ∀ item, w.disk.item? path = some item →
      item.fileType = .file ∧ item.content = content) ∧ w' = w
  | .scan options root previousStates, answer, w' =>
    (∃ oracle faults tree, env.faulty faults ∧ env.scanned w.disk tree ∧
      answer = scanRoot env.ext oracle faults options root previousStates
        (tree.below root.localPath)) ∧ w' = w
  | .removeFile _, _, w' => w' = w
  | .spawn task, _, w' => w' = { w with tasks := w.tasks ++ [{ task }] }
  | .joinNext, answer, w' =>
    (answer = none ∧ w.tasks = [] ∧ w' = w) ∨
      ∃ before task outcome after, answer = some outcome ∧
        w.tasks = before ++ { task, outcome := some outcome } :: after ∧
          w' = { w with tasks := before ++ after }
  | .dropTasks, _, w' => w' = { w with tasks := [] }
  | .isCancelled, answer, w' => answer = w.cancelled ∧ w' = w
  | .now, answer, w' => answer = w.now ∧ w' = w
  | .readMemory, answer, w' => answer = w.memory ∧ w' = w
  | .updateMemory f, _, w' => w' = { w with memory := f w.memory }

/-- Only the engine's own assignments change its memory. -/
theorem Perform.memory_eq {env : Environment ρ} {w w' : World ρ μ} {e : Effect μ} {answer : e.Answer}
    (h : env.Perform w e answer w') (he : ∀ f, e ≠ .updateMemory f) : w'.memory = w.memory := by
  cases e with
  | client call =>
    obtain ⟨remote,_,rfl⟩ := h
    rfl
  | state call =>
    rcases h with ⟨_,_,rfl⟩ | h
    · rfl
    · cases hrun : call.run w.repository with
      | ok result =>
        simp only [hrun] at h
        rw [h.2]
      | error error =>
        simp only [hrun] at h
        rw [h.2]
  | spawn task => rw [show w' = { w with tasks := w.tasks ++ [{ task }] } from h]
  | removeFile path => rw [show w' = w from h]
  | dropTasks => rw [show w' = { w with tasks := [] } from h]
  | joinNext =>
    rcases h with ⟨_,_,rfl⟩ | ⟨_,_,_,_,_,_,rfl⟩
    · rfl
    · rfl
  | updateMemory f => exact absurd rfl (he f)
  | _ => exact congrArg World.memory h.2

theorem Perform.memory_update {env : Environment ρ} {w w' : World ρ μ} {f : μ → μ} {answer : Unit}
    (h : env.Perform w (.updateMemory f) answer w') : w'.memory = f w.memory := by
  rw [show w' = { w with memory := f w.memory } from h]

/-- No step of the engine changes what is outside of it but the remote. -/
theorem Perform.outside_eq {env : Environment ρ} {w w' : World ρ μ} {e : Effect μ}
    {answer : e.Answer} (h : env.Perform w e answer w') :
    w'.disk = w.disk ∧ w'.cancelled = w.cancelled ∧ w'.now = w.now := by
  cases e with
  | client call =>
    obtain ⟨remote,_,rfl⟩ := h
    exact ⟨rfl,rfl,rfl⟩
  | state call =>
    rcases h with ⟨_,_,rfl⟩ | h
    · exact ⟨rfl,rfl,rfl⟩
    · cases hrun : call.run w.repository with
      | ok result =>
        simp only [hrun] at h
        rw [h.2]
        exact ⟨rfl,rfl,rfl⟩
      | error error =>
        simp only [hrun] at h
        rw [h.2]
        exact ⟨rfl,rfl,rfl⟩
  | spawn task => rw [show w' = { w with tasks := w.tasks ++ [{ task }] } from h]; simp
  | removeFile path => rw [show w' = w from h]; simp
  | dropTasks => rw [show w' = { w with tasks := [] } from h]; simp
  | joinNext =>
    rcases h with ⟨_,_,rfl⟩ | ⟨_,_,_,_,_,_,rfl⟩
    · exact ⟨rfl,rfl,rfl⟩
    · exact ⟨rfl,rfl,rfl⟩
  | updateMemory f => rw [show w' = { w with memory := f w.memory } from h]; simp
  | _ => rw [h.2]; simp

theorem Perform.tasks_eq {env : Environment ρ} {w w' : World ρ μ} {e : Effect μ}
    {answer : e.Answer} (h : env.Perform w e answer w') (he : e.onTasks = false) :
    w'.tasks = w.tasks := by
  cases e with
  | client call =>
    obtain ⟨remote,_,rfl⟩ := h
    rfl
  | state call =>
    rcases h with ⟨_,_,rfl⟩ | h
    · rfl
    · cases hrun : call.run w.repository with
      | ok result =>
        simp only [hrun] at h
        rw [h.2]
      | error error =>
        simp only [hrun] at h
        rw [h.2]
  | removeFile path => rw [show w' = w from h]
  | updateMemory f => rw [show w' = { w with memory := f w.memory } from h]
  | spawn _ | joinNext | dropTasks => cases he
  | _ => rw [h.2]

/-- Only its own calls change the database. -/
theorem Perform.repository_eq {env : Environment ρ} {w w' : World ρ μ} {e : Effect μ}
    {answer : e.Answer} (h : env.Perform w e answer w') (he : ∀ call, e ≠ .state call) :
    w'.repository = w.repository := by
  cases e with
  | client call =>
    obtain ⟨remote,_,rfl⟩ := h
    rfl
  | state call => exact absurd rfl (he call)
  | spawn task => rw [show w' = { w with tasks := w.tasks ++ [{ task }] } from h]
  | removeFile path => rw [show w' = w from h]
  | dropTasks => rw [show w' = { w with tasks := [] } from h]
  | joinNext =>
    rcases h with ⟨_,_,rfl⟩ | ⟨_,_,_,_,_,_,rfl⟩
    · rfl
    · rfl
  | updateMemory f => rw [show w' = { w with memory := f w.memory } from h]
  | _ => rw [h.2]

/-- Only the engine's own calls change the remote between two landings. -/
theorem Perform.remote_eq {env : Environment ρ} {w w' : World ρ μ} {e : Effect μ}
    {answer : e.Answer} (h : env.Perform w e answer w') (he : ∀ call, e ≠ .client call) :
    w'.remote = w.remote := by
  cases e with
  | client call => exact absurd rfl (he call)
  | state call =>
    rcases h with ⟨_,_,rfl⟩ | h
    · rfl
    · cases hrun : call.run w.repository with
      | ok result =>
        simp only [hrun] at h
        rw [h.2]
      | error error =>
        simp only [hrun] at h
        rw [h.2]
  | spawn task => rw [show w' = { w with tasks := w.tasks ++ [{ task }] } from h]
  | removeFile path => rw [show w' = w from h]
  | dropTasks => rw [show w' = { w with tasks := [] } from h]
  | joinNext =>
    rcases h with ⟨_,_,rfl⟩ | ⟨_,_,_,_,_,_,rfl⟩
    · rfl
    · rfl
  | updateMemory f => rw [show w' = { w with memory := f w.memory } from h]
  | _ => rw [h.2]

/-- How a task may finish. -/
def Lands (w : World ρ μ) : Task → TaskOutcome → ρ → Prop
  | .createDirectory directory operationId, outcome, remote => ∃ answer,
    env.client w.disk w.remote (.createDirectory directory.remotePath) answer remote ∧
      outcome = .created directory operationId answer
  | .upload operationId file isUpdate cancelledText, outcome, remote =>
    (w.cancelled = true ∧ remote = w.remote ∧ outcome = .uploaded {
      operationId, file, isUpdate, result := .error (cancelledFailure cancelledText) }) ∨
    ∃ answer, env.client w.disk w.remote (.uploadSource file.remotePath file.uploadSource) answer
        remote ∧
      outcome = .uploaded { operationId, file, isUpdate, result := answer.mapError uploadFailure }

/-- What may happen between two steps of the engine. -/
inductive Drift : World ρ μ → World ρ μ → Prop
  | disk {w : World ρ μ} {disk : LocalTree} : env.diskStep w.disk disk → Drift w { w with disk }
  | land {w : World ρ μ} {before after : List RunningTask} {task : Task} {outcome : TaskOutcome}
      {remote : ρ} : w.tasks = before ++ { task } :: after → env.Lands w task outcome remote →
        Drift w { w with
          remote, tasks := before ++ { task, outcome := some outcome } :: after }
  | cancel {w : World ρ μ} : env.cancels → Drift w { w with cancelled := true }
  | tick {w : World ρ μ} {now : Int} : w.now ≤ now → Drift w { w with now }

theorem Drift.memory_eq {env : Environment ρ} {w w' : World ρ μ} (h : env.Drift w w') :
    w'.memory = w.memory := by
  cases h <;> rfl

end Environment

end YaDiskSync

import YaDiskSync.World

/-! Which tables a call of the state database leaves alone. -/
namespace YaDiskSync

/-- A part of a value that no step of a fold changes. -/
theorem foldl_part_eq {α β γ : Type*} (part : β → γ) {f : β → α → β}
    (h : ∀ b a, part (f b a) = part b) (l : List α) (b : β) : part (l.foldl f b) = part b := by
  induction l generalizing b with
  | nil => rfl
  | cons a l ih => rw [List.foldl_cons,ih,h]

namespace Repository

variable {repository repository' : Repository} {id : Int}

/-- Updating a run only changes the runs. -/
theorem updateRun_eq {f : SyncRunRecord → SyncRunRecord} {hf : ∀ row, (f row).id = row.id}
    (h : repository.updateRun id f hf = .ok repository') :
    ∃ syncRuns, repository' = { repository with syncRuns } := by
  unfold updateRun at h
  split at h
  · cases h
    exact ⟨_,rfl⟩
  · cases h

theorem updateSyncRootStatus_eq {rootId lastStatus : Str} {lastError : Option Str}
    (h : repository.updateSyncRootStatus rootId lastStatus lastError = .ok repository') :
    ∃ syncRoots, repository' = { repository with syncRoots } := by
  unfold updateSyncRootStatus at h
  split at h
  · cases h
    exact ⟨_,rfl⟩
  · cases h

theorem finishOperation_eq {status : OperationStatus} {errorKind errorMessage : Option Str}
    (h : repository.finishOperation id status errorKind errorMessage = .ok repository') :
    ∃ operationJournal, repository' = { repository with operationJournal } := by
  unfold finishOperation at h
  split at h
  · cases h
    exact ⟨_,rfl⟩
  · cases h

theorem replaceRemoteResourcesForRoot_eq {rootId : Str} {records : List RemoteResourceRecord}
    (h : repository.replaceRemoteResourcesForRoot rootId records = .ok repository') :
    ∃ remoteResources, repository' = { repository with remoteResources } := by
  unfold replaceRemoteResourcesForRoot at h
  dsimp only at h
  cases hi : insertRemoteResources
      (repository.remoteResources.deleteWhere fun row => row.rootId = rootId) records with
  | error error =>
    rw [hi] at h
    cases h
  | ok remoteResources =>
    rw [hi] at h
    cases h
    exact ⟨_,rfl⟩

/-- `mark_deleted` marks the row of its key and leaves the others. -/
theorem mem_markDeleted {rootId relativePath remotePath : Str} {lastRunId : Option Int}
    {row : FileStateRecord}
    (h : row ∈ (repository.markDeleted rootId relativePath remotePath lastRunId).fileStates.rows) :
    (row ∈ repository.fileStates.rows ∧ row.key ≠ (rootId,relativePath)) ∨
      row.status = .deleted := by
  have hmem := (@Table.mem_upsert _ _ FileStateRecord.key _ repository.fileStates
    (deletedFileState rootId relativePath remotePath lastRunId) row
    (fun old => { old with lastRunId, status := .deleted, lastError := none }) fun _ => rfl).mp h
  rcases hmem with hold | ⟨old,_,_,rfl⟩ | ⟨rfl,_⟩
  · exact Or.inl hold
  · exact Or.inr rfl
  · exact Or.inr rfl

theorem lt_nextId {α : Type} {key : α → Int} (table : Table key) {row : α}
    (h : row ∈ table.rows) : key row < nextId table := by
  have hfold : ∀ (rows : List α) (start : Int), start ≤ rows.foldl (fun id r => max id (key r)) start ∧
      ∀ r ∈ rows, key r ≤ rows.foldl (fun id r => max id (key r)) start := by
    intro rows
    induction rows with
    | nil => simp
    | cons first rows ih =>
      intro start
      have hrec := ih (max start (key first))
      refine ⟨(le_max_left _ _).trans hrec.1,fun r hr => ?_⟩
      rcases List.mem_cons.mp hr with rfl | hr
      · exact (le_max_right _ _).trans hrec.1
      · exact hrec.2 r hr
  have hle := (hfold table.rows 0).2 row h
  unfold nextId
  omega

/-- A new entry of the journal has an id of its own. -/
theorem mem_appendOperation {record : OperationRecord} {status : OperationStatus}
    {row : OperationJournalRecord} :
    row ∈ (repository.appendOperation record status).2.operationJournal.rows ↔
      row = { id := nextId repository.operationJournal, record, status } ∨
        row ∈ repository.operationJournal.rows := by
  unfold appendOperation
  rw [Table.mem_put]
  refine or_congr Iff.rfl ⟨fun h => h.1,fun h => ⟨h,?_⟩⟩
  exact (lt_nextId repository.operationJournal h).ne

theorem mem_finishOperation {status : OperationStatus} {errorKind errorMessage : Option Str}
    (h : repository.finishOperation id status errorKind errorMessage = .ok repository')
    {row : OperationJournalRecord} : row ∈ repository'.operationJournal.rows ↔
      ∃ old ∈ repository.operationJournal.rows,
        row = if old.id = id then { old with status, errorKind, errorMessage } else old := by
  unfold finishOperation at h
  split at h
  · cases h
    simp [Table.update,eq_comm]
  · cases h

theorem insertRunLock_eq (repository : Repository) (owner : Str) (now : Int) :
    ∃ stateLocks, (repository.insertRunLock owner now).2 = { repository with stateLocks } := by
  unfold insertRunLock
  split <;> exact ⟨_,rfl⟩

theorem replaceStaleRunLock_eq (repository : Repository) (owner : Str) (now staleBefore : Int) :
    ∃ stateLocks, (repository.replaceStaleRunLock owner now staleBefore).2 =
      { repository with stateLocks } := by
  unfold replaceStaleRunLock
  split
  · split <;> exact ⟨_,rfl⟩
  · exact ⟨_,rfl⟩

theorem heartbeatRunLock_eq (repository : Repository) (guard : RunLockGuard) (now : Int) :
    ∃ stateLocks, (repository.heartbeatRunLock guard now).2 = { repository with stateLocks } := by
  unfold heartbeatRunLock
  split
  · split <;> exact ⟨_,rfl⟩
  · exact ⟨_,rfl⟩

end Repository

namespace StateCall

/-- Calls that write the states of files. -/
def writesFileStates : StateCall → Bool
  | .upsertFileState _ | .upsertFileStates _ | .markDeleted .. => true
  | _ => false

/-- Calls that write the cached resources. -/
def writesResources : StateCall → Bool
  | .upsertRemoteResource _ | .upsertRemoteResources _ | .replaceRemoteResourcesForRoot ..
  | .deleteRemoteResourceSubtree .. => true
  | _ => false

def writesInventoryStatus : StateCall → Bool
  | .setRootRemoteInventoryStatus _ => true
  | _ => false

/-- Calls that write the journal. -/
def writesJournal : StateCall → Bool
  | .repairInterruptedRuns | .appendOperationStarted _ | .appendOperationsSucceeded _
  | .finishOperation .. => true
  | _ => false

/-- What a call leaves alone. -/
structure Leaves (call : StateCall) (repository repository' : Repository) : Prop where
  fileStates : call.writesFileStates = false → repository'.fileStates = repository.fileStates
  resources : call.writesResources = false →
    repository'.remoteResources = repository.remoteResources
  inventoryStatus : call.writesInventoryStatus = false →
    repository'.inventoryStatus = repository.inventoryStatus
  journal : call.writesJournal = false →
    repository'.operationJournal = repository.operationJournal

theorem unitResult_ok {repository : Except StateError Repository} {result : Unit}
    {repository' : Repository} (h : unitResult repository = .ok (result,repository')) :
    repository = .ok repository' := by
  cases repository with
  | error error => cases h
  | ok repository =>
    cases h
    rfl

theorem run_leaves {call : StateCall} {repository repository' : Repository} {result : call.Result}
    (h : call.run repository = .ok (result,repository')) : call.Leaves repository repository' := by
  cases call with
  | finishRun id status summary =>
    obtain ⟨_,rfl⟩ := Repository.updateRun_eq (unitResult_ok h)
    exact ⟨fun _ => rfl,fun _ => rfl,fun _ => rfl,fun _ => rfl⟩
  | updateRunProgress id summary =>
    obtain ⟨_,rfl⟩ := Repository.updateRun_eq (unitResult_ok h)
    exact ⟨fun _ => rfl,fun _ => rfl,fun _ => rfl,fun _ => rfl⟩
  | updateSyncRootStatus id lastStatus lastError =>
    obtain ⟨_,rfl⟩ := Repository.updateSyncRootStatus_eq (unitResult_ok h)
    exact ⟨fun _ => rfl,fun _ => rfl,fun _ => rfl,fun _ => rfl⟩
  | finishOperation id status errorKind errorMessage =>
    obtain ⟨_,rfl⟩ := Repository.finishOperation_eq (unitResult_ok h)
    exact ⟨fun _ => rfl,fun _ => rfl,fun _ => rfl,fun hw => (nomatch hw)⟩
  | replaceRemoteResourcesForRoot rootId records =>
    obtain ⟨_,rfl⟩ := Repository.replaceRemoteResourcesForRoot_eq (unitResult_ok h)
    exact ⟨fun _ => rfl,fun hw => (nomatch hw),fun _ => rfl,fun _ => rfl⟩
  | insertRunLock owner now =>
    obtain ⟨_,he⟩ := repository.insertRunLock_eq owner now
    rw [show repository' = _ from (congrArg Prod.snd (Except.ok.inj h)).symm.trans he]
    exact ⟨fun _ => rfl,fun _ => rfl,fun _ => rfl,fun _ => rfl⟩
  | replaceStaleRunLock owner now staleBefore =>
    obtain ⟨_,he⟩ := repository.replaceStaleRunLock_eq owner now staleBefore
    rw [show repository' = _ from (congrArg Prod.snd (Except.ok.inj h)).symm.trans he]
    exact ⟨fun _ => rfl,fun _ => rfl,fun _ => rfl,fun _ => rfl⟩
  | heartbeatRunLock guard now =>
    obtain ⟨_,he⟩ := repository.heartbeatRunLock_eq guard now
    rw [show repository' = _ from (congrArg Prod.snd (Except.ok.inj h)).symm.trans he]
    exact ⟨fun _ => rfl,fun _ => rfl,fun _ => rfl,fun _ => rfl⟩
  | upsertFileStates records =>
    cases h
    have hpart : ∀ {γ : Type} (part : Repository → γ),
        (∀ r record, part (Repository.upsertFileState r record) = part r) →
          part (repository.upsertFileStates records) = part repository :=
      fun part hp => foldl_part_eq part hp records repository
    exact ⟨fun hw => (nomatch hw),fun _ => hpart _ fun _ _ => rfl,fun _ => hpart _ fun _ _ => rfl,
      fun _ => hpart _ fun _ _ => rfl⟩
  | upsertRemoteResources records =>
    cases h
    have hpart : ∀ {γ : Type} (part : Repository → γ),
        (∀ r record, part (Repository.upsertRemoteResource r record) = part r) →
          part (repository.upsertRemoteResources records) = part repository :=
      fun part hp => foldl_part_eq part hp records repository
    exact ⟨fun _ => hpart _ fun _ _ => rfl,fun hw => (nomatch hw),fun _ => hpart _ fun _ _ => rfl,
      fun _ => hpart _ fun _ _ => rfl⟩
  | upsertMigrationMaps records =>
    cases h
    have hpart : ∀ {γ : Type} (part : Repository → γ),
        (∀ r record, part (Repository.upsertMigrationMap r record) = part r) →
          part (repository.upsertMigrationMaps records) = part repository :=
      fun part hp => foldl_part_eq part hp records repository
    exact ⟨fun _ => hpart _ fun _ _ => rfl,fun _ => hpart _ fun _ _ => rfl,
      fun _ => hpart _ fun _ _ => rfl,fun _ => hpart _ fun _ _ => rfl⟩
  | appendOperationsSucceeded records =>
    cases h
    have hpart : ∀ {γ : Type} (part : Repository → γ),
        (∀ r record, part (Repository.appendOperation r record .succeeded).2 = part r) →
          part (repository.appendOperationsSucceeded records) = part repository :=
      fun part hp => foldl_part_eq part hp records repository
    exact ⟨fun _ => hpart _ fun _ _ => rfl,fun _ => hpart _ fun _ _ => rfl,
      fun _ => hpart _ fun _ _ => rfl,fun hw => (nomatch hw)⟩
  | _ =>
    cases h
    refine ⟨?_,?_,?_,?_⟩ <;> intro hw <;> first | rfl | cases hw

end StateCall

section Perform

variable {ρ μ : Type} {env : Environment ρ} {w w' : World ρ μ} {call : StateCall}

/-- A call that is answered did what it does on the database. -/
theorem Environment.Perform.state_ok {result : call.Result}
    (h : env.Perform w (.state call) (.ok result) w') :
    call.run w.repository = .ok (result,w'.repository) := by
  rcases h with ⟨_,⟨_,he⟩,_⟩ | h
  · cases he
  · cases hrun : call.run w.repository with
    | ok result' =>
      simp only [hrun] at h
      cases h.1
      rw [h.2]
    | error error =>
      simp only [hrun] at h
      cases h.1

theorem Environment.Perform.state_error {error : StateError}
    (h : env.Perform w (.state call) (.error error) w') : w'.repository = w.repository := by
  rcases h with ⟨_,_,rfl⟩ | h
  · rfl
  · cases hrun : call.run w.repository with
    | ok result' =>
      simp only [hrun] at h
      cases h.1
    | error error =>
      simp only [hrun] at h
      rw [h.2]

end Perform

/-- A step of an engine leaves the tables alone that its calls do not write. -/
theorem Environment.Perform.repository_cases {ρ μ : Type} {env : Environment ρ} {w w' : World ρ μ}
    {e : Effect μ} {answer : e.Answer} (h : env.Perform w e answer w') :
    w'.repository = w.repository ∨ ∃ call, e = .state call ∧
      call.Leaves w.repository w'.repository := by
  cases e with
  | state call =>
    rcases h with ⟨_,_,rfl⟩ | h
    · exact Or.inl rfl
    · cases hrun : call.run w.repository with
      | ok result =>
        simp only [hrun] at h
        rw [h.2]
        exact Or.inr ⟨call,rfl,StateCall.run_leaves hrun⟩
      | error error =>
        simp only [hrun] at h
        rw [h.2]
        exact Or.inl rfl
  | _ => exact Or.inl (h.repository_eq fun call he => by cases he)

end YaDiskSync

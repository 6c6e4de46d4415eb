import YaDiskSync.SyncFrame

/-! What whole phases and whole runs keep. The rules of a phase speak of the tasks that are out;
those of a run leave the phases of a plan to the property at hand. -/
namespace YaDiskSync

open Prog

namespace SyncEngine

section Routine

/-- The steps of a run outside of its inventories and plans. -/
def isRoutine : Effect SyncMemory → Bool
  | .client call => call == .diskInfo
  | .state call => call.isReport || match call with
    | .updateRunProgress .. | .beginRun _ | .finishRun .. | .upsertSyncRoot ..
    | .listFileStatesForRoot _ | .hasSnapshotForRoot _ | .insertRunLock ..
    | .replaceStaleRunLock .. | .releaseRunLock _ => true
    | _ => false
  | .spawn _ | .joinNext | .dropTasks => false
  | _ => true

/-- Properties the routine steps of a run have. -/
structure Routine (K : ⦃α : Type⦄ → Engine α → Prop) : Prop extends Composable K where
  routine : ∀ e, isRoutine e = true → K (perform e)
  call : ∀ {call : StateCall}, isRoutine (.state call) = true → K (state call)

/-- Properties a run has outside of its inventories and plans. -/
structure Running (K : ⦃α : Type⦄ → Engine α → Prop) : Prop extends Routine K, Sequential K where
  acquire : ∀ owner staleAfter, K (acquireRunLock owner staleAfter)

section Upholds

variable {σ : Type} {step : σ → (e : Effect SyncMemory) → e.Answer → σ → Prop}
  {env : σ → σ → Prop} {I D : σ → Prop}

/-- From `P` to `Q`, or to `D` by an error. -/
abbrev Leads (step : σ → (e : Effect SyncMemory) → e.Answer → σ → Prop) (env : σ → σ → Prop)
    (D P : σ → Prop) {α : Type} (p : Engine α) (Q : α → σ → Prop) : Prop :=
  TryTriple step env P p Q D fun _ => True

theorem state_leads {P : σ → Prop} {call : StateCall} {Q : call.Result → σ → Prop}
    (hstable : Stable env P)
    (hok : ∀ s result s', P s → step s (.state call) (.ok result) s' → Q result s')
    (herror : ∀ s error s', P s → step s (.state call) (.error error) s' → D s') :
    Leads step env D P (state call) Q := by
  refine TryTriple.bind (Q := After Q fun _ => D)
    (TryTriple.perform hstable (fun _ _ => trivial) fun s answer s' h hstep => ?_) fun answer => ?_
  · cases answer with
    | ok result => exact hok s result s' h hstep
    | error error => exact herror s error s' h hstep
  · cases answer with
    | ok result => exact TryTriple.pure fun _ h => h
    | error error => exact TryTriple.throw fun _ h => h

theorem routine_upholds (hstable : Stable env I)
    (hroutine : ∀ e, isRoutine e = true → ∀ s answer s', I s → step s e answer s' → I s')
    (herror : ∀ call : StateCall, isRoutine (.state call) = true → ∀ s error s', I s →
      step s (.state call) (.error error) s' → D s') :
    Routine fun ⦃α⦄ (p : Engine α) => Upholds step env I D p where
  pure _ := TryTriple.pure fun _ h => h
  bind hp hf := TryTriple.bind hp hf
  routine e he := Upholds.perform hstable (hroutine e he)
  call he := state_leads hstable (fun s _ s' h hstep => hroutine _ he s _ s' h hstep)
    (herror _ he)

theorem running_upholds (hstable : Stable env I)
    (hroutine : ∀ e, isRoutine e = true → ∀ s answer s', I s → step s e answer s' → I s')
    (herror : ∀ s, I s → D s) : Running fun ⦃α⦄ (p : Engine α) => Upholds step env I D p where
  toRoutine := routine_upholds hstable hroutine fun _ he s error s' h hstep =>
    herror s' (hroutine _ he s _ s' h hstep)
  throw _ := TryTriple.throw herror
  acquire owner staleAfter := by
    have hseq : Sequential fun ⦃α⦄ (p : Locking SyncMemory α) => Upholds step env I I p :=
      sequential_upholds fun _ h => h
    have hacquire : Upholds step env I I
        (RunLock.tryAcquireRunLock owner staleAfter : Locking SyncMemory (Option RunLockGuard)) :=
      RunLock.tryAcquireRunLock_of hseq (Upholds.perform hstable (hroutine .now rfl))
        (fun _ => Upholds.perform hstable (hroutine _ rfl))
        fun _ _ => Upholds.perform hstable (hroutine _ rfl)
    exact hacquire.catch fun _ h => h

end Upholds

namespace Routine

variable {K : ⦃α : Type⦄ → Engine α → Prop} (hk : Routine K)

include hk

theorem updateMemory (f : SyncMemory → SyncMemory) : K (SyncEngine.perform (.updateMemory f)) :=
  hk.routine (.updateMemory f) rfl

theorem reporting : Reporting K where
  toComposable := hk.toComposable
  report h := hk.call (by simp [isRoutine,h])
  readMemory := hk.routine .readMemory rfl
  modifySummary _ _ := hk.updateMemory _
  isCancelled := hk.routine .isCancelled rfl

theorem persistRootProgress (runId : Int) (baseSummary : SyncRunSummary) :
    K (persistRootProgress runId baseSummary) :=
  hk.bind hk.reporting.readMemory fun _ => hk.call rfl

theorem register (localPath : LocalPath) (relativePath remotePath : Str) :
    K (registerMissingLocalPath localPath relativePath remotePath) := by
  refine hk.bind hk.reporting.livePlan fun plan => ?_
  refine hk.bind (registerMissingLocalPath_of hk.toComposable
    (fun path => hk.routine (.isDir path) rfl) (fun path => hk.routine (.pathExists path) rfl)
    plan localPath relativePath remotePath) fun result => ?_
  exact hk.bind (hk.updateMemory _) fun _ => hk.pure _

theorem skipMissing (runId : Int) (baseSummary : SyncRunSummary) (localPath : LocalPath)
    (relativePath remotePath : Str) :
    K (skipMissing runId baseSummary localPath relativePath remotePath) := by
  refine hk.bind (hk.register _ _ _) fun found => ?_
  cases found with
  | none => exact hk.pure _
  | some subtree =>
    exact hk.bind (hk.reporting.recordDeletedSubtree runId subtree) fun _ =>
      hk.bind (hk.persistRootProgress runId baseSummary) fun _ => hk.pure _

theorem planScan (root : SyncRootConfig) (runId : Int) (baseSummary : SyncRunSummary)
    (scanReport : ScanReport) : K (planScan root runId baseSummary scanReport) := by
  refine hk.bind (hk.reporting.recordScanFindings _) fun _ => ?_
  refine hk.bind (fromScanReport_of hk.toComposable (fun path => hk.routine (.isDir path) rfl)
    (fun plan => hk.updateMemory _) _ _) fun plan => ?_
  refine hk.bind (hk.updateMemory _) fun _ => hk.bind (hk.updateMemory _) fun _ => ?_
  refine hk.bind (hk.reporting.recordDeletedSubtrees runId _) fun _ => ?_
  exact hk.bind (hk.persistRootProgress runId baseSummary) fun _ => hk.pure _

end Routine

end Routine

section Phases

variable {σ : Type} {step : σ → (e : Effect SyncMemory) → e.Answer → σ → Prop}
  {env : σ → σ → Prop} {D : σ → Prop} {root : SyncRootConfig} {runId : Int}
  {baseSummary : SyncRunSummary}

theorem recordOperationFailure_leads {P J : σ → Prop} {operationId : Int}
    {record : FailedItemRecord} (hr : Routine fun ⦃α⦄ (p : Engine α) => Upholds step env J D p)
    (hfinish : Leads step env D P (state (.finishOperation operationId .failed
      (some record.errorKind) (some record.errorMessage))) fun _ => J) :
    Leads step env D P (recordOperationFailure runId baseSummary operationId record) fun _ => J :=
  TryTriple.bind hfinish fun _ =>
    have hmark : Upholds step env J D (state (.markFailed record)) := hr.call rfl
    TryTriple.bind hmark fun _ =>
      TryTriple.bind (hr.updateMemory _) fun _ => hr.persistRootProgress runId baseSummary

theorem recordClientFailure_leads {P J : σ → Prop} {operationId : Int} {operation : Str}
    {localPath : Option Str} {remotePath : Str} {error : YandexDiskError}
    (hr : Routine fun ⦃α⦄ (p : Engine α) => Upholds step env J D p)
    (hfinish : Leads step env D P (state (.finishOperation operationId .failed
      (some error.kind.asStr) (some error.message))) fun _ => J) :
    Leads step env D P (recordClientFailure root runId baseSummary operationId operation localPath
      remotePath error) fun _ => J := by
  refine TryTriple.bind (recordOperationFailure_leads hr hfinish) fun _ => ?_
  exact iteInduction (motive := fun p => Leads step env D J p fun _ => J)
    (fun _ => TryTriple.bind (hr.updateMemory _) fun _ => TryTriple.pure fun _ h => h)
    fun _ => TryTriple.pure fun _ h => h

/-- Rules for the creates of a plan: `J` with at most so many tasks out, `O` with a journal entry
open, `R` with an outcome at hand. -/
structure Creators (step : σ → (e : Effect SyncMemory) → e.Answer → σ → Prop)
    (env : σ → σ → Prop) (D : σ → Prop) (runId : Int) (J : Nat → σ → Prop)
    (O : LocalDirectoryEntry → Int → Nat → σ → Prop)
    (R : LocalDirectoryEntry → Int → Except YandexDiskError Unit → Nat → σ → Prop) : Prop where
  mono : ∀ n s, J n s → J (n+1) s
  routine : ∀ n, Routine fun ⦃α⦄ (p : Engine α) => Upholds step env (J n) D p
  opened : ∀ n (directory : LocalDirectoryEntry), Leads step env D (J n)
    (state (.appendOperationStarted {
      runId, operation := "create_directory".toList
      localPath := some (pathToStableString directory.localPath)
      remotePath := some directory.remotePath })) fun id => O directory id n
  spawned : ∀ n directory operationId, Leads step env D (O directory operationId n)
    (perform (.spawn (.createDirectory directory operationId))) fun _ => J (n+1)
  joined : ∀ n, Leads step env D (J (n+1)) (perform .joinNext) fun joined s => match joined with
    | none => J 0 s
    | some (.created directory operationId result) => R directory operationId result n s
    | some (.uploaded _) => False
  created : ∀ n directory operationId, Leads step env D (R directory operationId (.ok ()) n)
    (recordCreated runId directory operationId) fun _ => J n
  failed : ∀ n directory operationId error, Leads step env D
    (R directory operationId (.error error) n)
    (state (.finishOperation operationId .failed (some error.kind.asStr) (some error.message)))
    fun _ => J n
  dropped : ∀ n, Leads step env D (J n) (perform .dropTasks) fun _ => J 0

namespace Creators

variable {J : Nat → σ → Prop} {O : LocalDirectoryEntry → Int → Nat → σ → Prop}
  {R : LocalDirectoryEntry → Int → Except YandexDiskError Unit → Nat → σ → Prop}
  (hc : Creators step env D runId J O R)

include hc

theorem nextCreateBatch (slots : Nat) (pending : List LocalDirectoryEntry) :
    Leads step env D (J 0) (nextCreateBatch runId baseSummary slots pending)
      fun _ => J 0 := by
  induction pending generalizing slots with
  | nil => cases slots <;> exact TryTriple.pure fun _ h => h
  | cons directory pending ih =>
    cases slots with
    | zero => exact TryTriple.pure fun _ h => h
    | succ slots =>
      unfold SyncEngine.nextCreateBatch
      refine TryTriple.bind (hc.routine 0).reporting.livePlan fun plan => ?_
      refine iteInduction (motive := fun p => TryTriple _ _ _ p _ _ _) (fun _ => ih _) fun _ => ?_
      refine TryTriple.bind ((hc.routine 0).skipMissing runId baseSummary _ _ _) fun skipped => ?_
      exact iteInduction (motive := fun p => TryTriple _ _ _ p _ _ _) (fun _ => ih _)
        fun _ => TryTriple.bind (ih _) fun _ => TryTriple.pure fun _ h => h

theorem spawnCreates (batch : List LocalDirectoryEntry) (n : Nat) :
    Leads step env D (J n) (spawnCreates runId batch) fun _ => J (n+batch.length) := by
  induction batch generalizing n with
  | nil => exact TryTriple.pure fun _ h => h
  | cons directory batch ih =>
    refine TryTriple.bind (hc.opened n directory) fun operationId =>
      TryTriple.bind (hc.spawned n directory operationId) fun _ => ?_
    rw [show n+(directory :: batch).length = n+1+batch.length by simp; omega]
    exact ih (n+1)

theorem joinCreates (fuel : Nat) :
    Leads step env D (J fuel) (joinCreates root runId baseSummary fuel) fun _ => J 0 := by
  induction fuel with
  | zero => exact TryTriple.pure fun _ h => h
  | succ fuel ih =>
    refine TryTriple.bind (hc.joined fuel) fun joined => ?_
    match joined with
    | none => exact TryTriple.pure fun _ h => h
    | some (.uploaded outcome) => exact fun s o s' h _ => h.elim
    | some (.created directory operationId (.ok _)) =>
      exact TryTriple.bind (hc.created fuel directory operationId) fun _ => ih
    | some (.created directory operationId (.error error)) =>
      refine TryTriple.bind (recordClientFailure_leads (hc.routine fuel)
        (hc.failed fuel directory operationId error)) fun stop => ?_
      exact iteInduction (motive := fun p => TryTriple _ _ _ p _ _ _)
        (fun _ => TryTriple.bind (hc.dropped fuel) fun _ => TryTriple.pure fun _ h => h)
        fun _ => ih

theorem createLevel (concurrency fuel : Nat) (pending : List LocalDirectoryEntry) :
    Leads step env D (J 0) (createLevel root runId baseSummary concurrency fuel pending)
      fun _ => J 0 := by
  induction fuel generalizing pending with
  | zero => exact TryTriple.pure fun _ h => h
  | succ fuel ih =>
    unfold SyncEngine.createLevel
    refine iteInduction (motive := fun p => TryTriple _ _ _ p _ _ _)
      (fun _ => TryTriple.pure fun _ h => h) fun _ => ?_
    refine TryTriple.bind (hc.routine 0).reporting.isCancelled fun cancelled => ?_
    refine iteInduction (motive := fun p => TryTriple _ _ _ p _ _ _)
      (fun _ => TryTriple.pure fun _ h => h) fun _ => ?_
    refine TryTriple.bind (hc.nextCreateBatch concurrency pending) fun next => ?_
    refine iteInduction (motive := fun p => TryTriple _ _ _ p _ _ _) (fun _ => ih _) fun _ => ?_
    refine TryTriple.bind (hc.spawnCreates next.1 0) fun _ => ?_
    refine TryTriple.bind ((hc.joinCreates (next.1.length+1)).pre fun s h => ?_) fun stop => ?_
    · exact hc.mono _ s (by simpa using h)
    · exact iteInduction (motive := fun p => TryTriple _ _ _ p _ _ _)
        (fun _ => TryTriple.pure fun _ h => h) fun _ => ih _

theorem applyCreateDirectories (config : AppConfig) (rootPlan : RootPlan) :
    Leads step env D (J 0) (applyCreateDirectories config root runId baseSummary rootPlan)
      fun _ => J 0 := by
  refine TryTriple.bind (hc.routine 0).reporting.livePlan fun plan => ?_
  dsimp only
  generalize byDepth _ = levels
  generalize max config.sync.createDirectoryConcurrency 1 = concurrency
  induction levels with
  | nil => exact TryTriple.pure fun _ h => h
  | cons level levels ih =>
    refine TryTriple.bind (hc.createLevel concurrency _ level) fun stop => ?_
    exact iteInduction (motive := fun p => TryTriple _ _ _ p _ _ _)
      (fun _ => TryTriple.pure fun _ h => h) fun _ => ih

end Creators

/-- Rules for the uploads of a plan, likewise; an outcome may be known to be of a file that is
gone. -/
structure Uploaders (step : σ → (e : Effect SyncMemory) → e.Answer → σ → Prop)
    (env : σ → σ → Prop) (D : σ → Prop) (runId : Int) (baseSummary : SyncRunSummary)
    (J : Nat → σ → Prop) (O : LocalFileEntry → Bool → Int → Nat → σ → Prop)
    (R : UploadTaskOutcome → Bool → Nat → σ → Prop) : Prop where
  mono : ∀ n s, J n s → J (n+1) s
  routine : ∀ n, Routine fun ⦃α⦄ (p : Engine α) => Upholds step env (J n) D p
  opened : ∀ n (file : LocalFileEntry) isUpdate, Leads step env D (J n)
    (state (.appendOperationStarted {
      runId, operation := uploadOperationName isUpdate
      localPath := some (pathToStableString file.localPath)
      remotePath := some file.remotePath })) fun id => O file isUpdate id n
  spawned : ∀ n file isUpdate operationId, Leads step env D (O file isUpdate operationId n)
    (perform (.spawn (.upload operationId file isUpdate cancelledText))) fun _ => J (n+1)
  joined : ∀ n, Leads step env D (J (n+1)) (perform .joinNext) fun joined s => match joined with
    | none => J 0 s
    | some (.created ..) => False
    | some (.uploaded outcome) => R outcome false n s
  uploaded : ∀ n outcome, outcome.result = .ok () → Leads step env D (R outcome false n)
    (recordUploaded runId baseSummary outcome.operationId outcome.file outcome.isUpdate)
    fun _ => J n
  pending : ∀ n outcome, Leads step env D (R outcome false n)
    (registerMissingLocalPath outcome.file.localPath outcome.file.relativePath
      outcome.file.remotePath) fun found => R outcome found.isSome n
  failed : ∀ n outcome failure gone errorKind errorMessage, outcome.result = .error failure →
    Leads step env D (R outcome gone n)
      (state (.finishOperation outcome.operationId
        (if gone || failure.skipReasonCode.isSome then .cancelled else .failed) (some errorKind)
        (some errorMessage))) fun _ => J n
  skipped : ∀ n file errorMessage, Leads step env D (J n)
    (state (.upsertFileState (fileStateRecord file runId .skipped (some errorMessage))))
    fun _ => J n
  dropped : ∀ n, Leads step env D (J n) (perform .dropTasks) fun _ => J 0

namespace Uploaders

variable {J : Nat → σ → Prop} {O : LocalFileEntry → Bool → Int → Nat → σ → Prop}
  {R : UploadTaskOutcome → Bool → Nat → σ → Prop}
  (hc : Uploaders step env D runId baseSummary J O R)

include hc

theorem spawnUploads (batch : List (LocalFileEntry × Bool)) (n : Nat) :
    Leads step env D (J n) (spawnUploads runId baseSummary batch)
      fun _ => J (n+batch.length) := by
  induction batch generalizing n with
  | nil => exact TryTriple.pure fun _ h => h
  | cons upload batch ih =>
    have hlength : n+(upload :: batch).length = n+batch.length+1 := by simp; omega
    have hskip : Leads step env D (J n) (SyncEngine.spawnUploads runId baseSummary batch)
        fun _ => J (n+(upload :: batch).length) := by
      rw [hlength]
      exact (ih n).post fun _ s h => hc.mono _ s h
    unfold SyncEngine.spawnUploads
    refine TryTriple.bind ((hc.routine n).reporting.livePlan) fun plan => ?_
    refine iteInduction (motive := fun p => TryTriple _ _ _ p _ _ _) (fun _ => hskip) fun _ => ?_
    refine TryTriple.bind ((hc.routine n).skipMissing runId baseSummary _ _ _) fun skipped => ?_
    refine iteInduction (motive := fun p => TryTriple _ _ _ p _ _ _) (fun _ => hskip) fun _ => ?_
    refine TryTriple.bind (hc.opened n upload.1 upload.2) fun operationId =>
      TryTriple.bind (hc.spawned n upload.1 upload.2 operationId) fun _ => ?_
    rw [hlength,Nat.add_right_comm]
    exact ih (n+1)

theorem recordUploadFailure (n : Nat) (outcome : UploadTaskOutcome) (failure : UploadTaskFailure)
    (hresult : outcome.result = .error failure) :
    Leads step env D (R outcome false n)
      (recordUploadFailure root runId baseSummary outcome failure) fun _ => J n := by
  have hr := hc.routine n
  refine TryTriple.bind (hc.pending n outcome) fun found => ?_
  match found with
  | some subtree =>
    refine TryTriple.bind (hc.failed n outcome failure true _ _ hresult) fun _ => ?_
    exact TryTriple.bind (hr.reporting.recordDeletedSubtree runId subtree) fun _ =>
      TryTriple.bind (hr.persistRootProgress runId baseSummary) fun _ =>
        TryTriple.pure fun _ h => h
  | none =>
    dsimp only
    have hfailed := hc.failed n outcome failure false
    cases hskip : failure.skipReasonCode with
    | some reasonCode =>
      rw [hskip] at hfailed
      refine TryTriple.bind ?_ fun _ => TryTriple.pure fun _ h => h
      refine TryTriple.bind (hfailed _ _ hresult) fun _ => ?_
      refine TryTriple.bind (hr.call rfl) fun _ => ?_
      refine TryTriple.bind (hc.skipped n outcome.file _) fun _ => ?_
      exact TryTriple.bind (hr.updateMemory _) fun _ =>
        hr.persistRootProgress runId baseSummary
    | none =>
      rw [hskip] at hfailed
      refine TryTriple.bind (recordOperationFailure_leads hr (hfailed _ _ hresult)) fun _ => ?_
      exact iteInduction (motive := fun p => Leads step env D (J n) p fun _ => J n)
        (fun _ => TryTriple.bind (hr.updateMemory _) fun _ => TryTriple.pure fun _ h => h)
        fun _ => TryTriple.pure fun _ h => h

theorem joinUploads (fuel bytesUploaded : Nat) :
    Leads step env D (J fuel) (joinUploads root runId baseSummary fuel bytesUploaded)
      fun _ => J 0 := by
  induction fuel generalizing bytesUploaded with
  | zero => exact TryTriple.pure fun _ h => h
  | succ fuel ih =>
    refine TryTriple.bind (hc.joined fuel) fun joined => ?_
    match joined with
    | none => exact TryTriple.pure fun _ h => h
    | some (.created ..) => exact fun s o s' h _ => h.elim
    | some (.uploaded outcome) =>
      dsimp only
      cases hr : outcome.result with
      | ok _ => exact TryTriple.bind (hc.uploaded fuel outcome hr) fun _ => ih _
      | error failure =>
        refine TryTriple.bind (hc.recordUploadFailure fuel outcome failure hr) fun stop => ?_
        exact iteInduction (motive := fun p => TryTriple _ _ _ p _ _ _)
          (fun _ => TryTriple.bind (hc.dropped fuel) fun _ => TryTriple.pure fun _ h => h)
          fun _ => ih _

theorem uploadBatches (limit largeThreshold fuel : Nat) (pending : List (LocalFileEntry × Bool))
    (bytesUploaded : Nat) :
    Leads step env D (J 0)
      (uploadBatches root runId baseSummary limit largeThreshold fuel pending bytesUploaded)
      fun _ => J 0 := by
  induction fuel generalizing pending bytesUploaded with
  | zero => exact TryTriple.pure fun _ h => h
  | succ fuel ih =>
    unfold SyncEngine.uploadBatches
    refine iteInduction (motive := fun p => TryTriple _ _ _ p _ _ _)
      (fun _ => TryTriple.pure fun _ h => h) fun _ => ?_
    refine TryTriple.bind (hc.routine 0).reporting.isCancelled fun cancelled => ?_
    refine iteInduction (motive := fun p => TryTriple _ _ _ p _ _ _)
      (fun _ => TryTriple.pure fun _ h => h) fun _ => ?_
    dsimp only
    refine iteInduction (motive := fun p => TryTriple _ _ _ p _ _ _)
      (fun _ => TryTriple.pure fun _ h => h) fun _ => ?_
    refine TryTriple.bind (hc.spawnUploads _ 0) fun _ => ?_
    refine TryTriple.bind ((hc.joinUploads _ bytesUploaded).pre fun s h => ?_) fun result => ?_
    · exact hc.mono _ s (by simpa using h)
    · exact iteInduction (motive := fun p => TryTriple _ _ _ p _ _ _)
        (fun _ => TryTriple.pure fun _ h => h) fun _ => ih _ _

theorem applyUploads (config : AppConfig) (rootPlan : RootPlan) :
    Leads step env D (J 0) (applyUploads config root runId baseSummary rootPlan)
      fun _ => J 0 :=
  hc.uploadBatches _ _ _ _ _

end Uploaders

end Phases

section Run

theorem wantsMigration_of {K : ⦃α : Type⦄ → Engine α → Prop} (hk : Composable K)
    (hisDir : ∀ path, K (SyncEngine.perform (.isDir path)))
    (hsnapshot : ∀ rootId, K (SyncEngine.state (.hasSnapshotForRoot rootId))) (config : AppConfig)
    (trigger : SyncRunTrigger) : K (wantsMigration config trigger) := by
  have hany : ∀ roots, K (shouldMigrateAny roots) := by
    intro roots
    induction roots with
    | nil => exact hk.pure _
    | cons root roots ih =>
      refine hk.bind (hisDir _) fun isDir => ?_
      refine iteInduction (motive := fun p => K p) (fun _ => ?_) fun _ => ih
      refine hk.bind (hsnapshot _) fun snapshot => ?_
      exact iteInduction (motive := fun p => K p) (fun _ => ih) fun _ => hk.pure _
  exact iteInduction (motive := fun p => K p) (fun _ => hk.pure _) fun _ => hany _

namespace Running

variable {K : ⦃α : Type⦄ → Engine α → Prop} (hk : Running K)

include hk

theorem cleanupStagingFiles (files : List LocalFileEntry) : K (cleanupStagingFiles files) :=
  cleanupStagingFiles_of hk.toSequential (fun path => hk.routine (.removeFile path) rfl) files

theorem applyDeletes (root : SyncRootConfig) (runId : Int) (baseSummary : SyncRunSummary)
    (inventoryFromCache : Bool)
    (hdelete : ∀ delete, K (applyDelete root runId baseSummary inventoryFromCache delete))
    (canonicalRemotePath : Str) (inventory : Inventory) :
    K (applyDeletes root runId baseSummary canonicalRemotePath inventory inventoryFromCache) := by
  refine hk.bind hk.reporting.livePlan fun plan => ?_
  generalize collectCoalescedDeleteOperations root canonicalRemotePath plan inventory = deletes
  induction deletes with
  | nil => exact hk.pure _
  | cons delete deletes ih =>
    refine hk.bind hk.reporting.isCancelled fun cancelled => ?_
    refine iteInduction (motive := fun p => K p) (fun _ => hk.pure _) fun _ => ?_
    refine hk.bind (hdelete delete) fun stop => ?_
    exact iteInduction (motive := fun p => K p) (fun _ => hk.pure _) fun _ => ih

variable (ext : Externals) (config : AppConfig)

theorem applyPlan {root : SyncRootConfig} {runId : Int} {baseSummary : SyncRunSummary}
    {canonicalRemotePath : Str} {rootPlan : RootPlan} {snapshot : RemoteInventorySnapshot}
    (hcreate : K (applyCreateDirectories config root runId baseSummary rootPlan))
    (hupload : K (applyUploads config root runId baseSummary rootPlan))
    (hdelete : ∀ delete, K (applyDelete root runId baseSummary snapshot.fromCache delete))
    (scanReport : ScanReport) :
    K (applyPlan config root runId baseSummary canonicalRemotePath scanReport rootPlan
      snapshot) := by
  have hr := hk.reporting
  refine hk.bind hcreate fun stop => hk.bind hr.isCancelled fun cancelled => ?_
  refine iteInduction (motive := fun p => K p) (fun _ => ?_) fun _ => ?_
  · exact hk.bind (hk.cleanupStagingFiles _) fun _ =>
      hk.bind (hr.finishRootCancelledOrFailed root) fun _ => hk.pure _
  · refine hk.bind hupload fun uploaded => hk.bind (hk.cleanupStagingFiles _) fun _ =>
      hk.bind hr.isCancelled fun cancelled => ?_
    refine iteInduction (motive := fun p => K p) (fun _ => ?_) fun _ => ?_
    · exact hk.bind (hr.finishRootCancelledOrFailed root) fun _ => hk.pure _
    · refine hk.bind (hk.applyDeletes root runId baseSummary _ hdelete _ _) fun _ => ?_
      exact hk.bind (hr.finishRootCancelledOrFailed root) fun _ =>
        hk.bind (hk.persistRootProgress runId baseSummary) fun _ => hk.pure _

/-- What follows the scan of a root, its inventory and its plan apart. -/
theorem executeScanned
    (hinventory : ∀ root canonicalRemotePath plan forceRemoteRescan,
      K (liftM (remoteInventory config root canonicalRemotePath plan forceRemoteRescan).run :
        Engine (Except YandexDiskError RemoteInventorySnapshot)))
    (hset : ∀ root error, K (SyncEngine.state (.setRootRemoteInventoryStatus
      (incompleteInventoryStatus root error))))
    (happly : ∀ root runId baseSummary canonicalRemotePath scanReport rootPlan snapshot,
      K (SyncEngine.applyPlan config root runId baseSummary canonicalRemotePath scanReport rootPlan
        snapshot))
    (root : SyncRootConfig) (runId : Int) (baseSummary : SyncRunSummary)
    (canonicalRemotePath : Str) (scanReport : ScanReport) (availableRemoteBytes : Option Nat)
    (forceRemoteRescan : Bool) :
    K (executeScanned ext config root runId baseSummary canonicalRemotePath scanReport
      availableRemoteBytes forceRemoteRescan) := by
  refine hk.bind (hk.planScan _ _ _ _) fun plan => ?_
  cases localRemoteCollision plan.directories plan.files with
  | some message => exact hk.bind (hk.reporting.failRootWith ..) fun _ => hk.pure _
  | none =>
    refine hk.bind (hinventory root canonicalRemotePath plan forceRemoteRescan) fun answer => ?_
    cases answer with
    | error error =>
      refine hk.bind (hset root error) fun _ => ?_
      exact iteInduction (motive := fun p => K p)
        (fun _ => hk.bind (hk.reporting.failRootWith ..) fun _ => hk.pure _)
        fun _ => hk.bind (hk.reporting.failRootWith ..) fun _ => hk.pure _
    | ok snapshot =>
      unfold SyncEngine.executePlan
      dsimp only
      split
      · exact hk.bind (hk.reporting.failRootWith ..) fun _ =>
          hk.bind (hk.updateMemory _) fun _ => hk.pure _
      · exact hk.bind (hk.updateMemory _) fun _ => happly _ _ _ _ _ _ _

theorem executeRoot
    (hscanned : ∀ root runId baseSummary canonicalRemotePath scanReport availableRemoteBytes
      forceRemoteRescan, K (SyncEngine.executeScanned ext config root runId baseSummary
        canonicalRemotePath scanReport availableRemoteBytes forceRemoteRescan))
    (root : SyncRootConfig) (runId : Int) (baseSummary : SyncRunSummary) (options : ScanOptions)
    (canonicalRemotePath : Str) (availableRemoteBytes : Option Nat) (forceRemoteRescan : Bool) :
    K (executeRoot ext config root runId baseSummary options canonicalRemotePath
      availableRemoteBytes forceRemoteRescan) := by
  have hscan : K (scanRootWithRepository options (scanRootOf root canonicalRemotePath)) := by
    refine hk.bind (hk.routine _ rfl) fun answer => ?_
    cases answer with
    | ok previousStates => exact hk.routine _ rfl
    | error error => exact hk.pure _
  refine hk.bind hscan fun answer => ?_
  cases answer with
  | error error => exact hk.bind (hk.reporting.failRootWith ..) fun _ => hk.pure _
  | ok scanReport => exact hscanned _ _ _ _ _ _ _

section

variable (hroot : ∀ root runId baseSummary options canonicalRemotePath availableRemoteBytes
    forceRemoteRescan, K (SyncEngine.executeRoot ext config root runId baseSummary options
      canonicalRemotePath availableRemoteBytes forceRemoteRescan))

include hroot

theorem executeRunRoot (root : SyncRootConfig) (runId : Int) (options : ScanOptions)
    (availableRemoteBytes : Option Nat) (forceRemoteRescan : Bool) :
    K (executeRunRoot ext config root runId options availableRemoteBytes forceRemoteRescan) := by
  have hfinish : K finishRootSummary :=
    hk.bind hk.reporting.readMemory fun _ => hk.updateMemory _
  unfold SyncEngine.executeRunRoot
  cases canonicalRemotePath config.instanceConfig.remoteRoot root.localPath
      root.remotePathOverride with
  | error error => exact hk.throw _
  | ok canonical =>
    refine hk.bind (hk.call rfl) fun _ => hk.bind (hk.updateMemory _) fun _ => ?_
    refine hk.bind (hk.routine _ rfl) fun isDir => ?_
    refine iteInduction (motive := fun p => K p) (fun _ => ?_) fun _ => ?_
    · have hmissing : K (recordMissingRoot root canonical) :=
        hk.bind (hk.call rfl) fun _ => hk.bind (hk.call rfl) fun _ => hk.updateMemory _
      exact hk.bind hmissing fun _ => hk.bind hfinish fun _ => hk.pure _
    · refine hk.bind hk.reporting.readMemory fun before => ?_
      refine hk.bind (hroot root runId _ _ _ _ _) fun result => ?_
      refine hk.bind hfinish fun _ => ?_
      refine iteInduction (motive := fun p => K p) (fun _ => hk.pure _) fun _ => ?_
      exact hk.bind hk.reporting.isCancelled fun _ => hk.pure _

theorem executeRun (runId : Int) (forceRemoteRescan : Bool) :
    K (executeRun ext config runId forceRemoteRescan) := by
  have hroots : ∀ options roots available,
      K (executeRoots ext config runId options forceRemoteRescan roots available) := by
    intro options roots
    induction roots with
    | nil => exact fun _ => hk.pure _
    | cons root roots ih =>
      intro available
      refine hk.bind hk.reporting.isCancelled fun cancelled => ?_
      refine iteInduction (motive := fun p => K p) (fun _ => hk.updateMemory _) fun _ => ?_
      refine hk.bind (hk.executeRunRoot ext config hroot root runId options available _)
        fun next => ?_
      exact iteInduction (motive := fun p => K p) (fun _ => ih _) fun _ => hk.pure _
  have havailable : K availableRemoteBytes := by
    refine hk.bind (hk.routine (.client .diskInfo) rfl) fun answer => ?_
    cases answer with
    | ok quota => exact hk.pure _
    | error error => exact hk.bind (hk.updateMemory _) fun _ => hk.pure _
  exact hk.bind havailable fun _ => hroots _ _ _

end

/-- How a run ends, after an error or not. -/
theorem endRun (runId : Int) (guard : RunLockGuard) (execution : Except SyncError Unit) :
    K (do concludeRun execution; closeRun runId guard) := by
  have hconclude : K (concludeRun execution) := by
    cases execution with
    | error error => exact hk.updateMemory _
    | ok _ =>
      refine hk.bind hk.reporting.isCancelled fun cancelled => ?_
      exact iteInduction (motive := fun p => K p) (fun _ => hk.updateMemory _)
        fun _ => hk.updateMemory _
  refine hk.bind hconclude fun _ => hk.bind hk.reporting.readMemory fun memory => ?_
  refine hk.bind (hk.routine _ rfl) fun finished => hk.bind (hk.routine _ rfl) fun released => ?_
  cases finished with
  | error error => exact hk.throw _
  | ok _ =>
    cases released with
    | error error => exact hk.throw _
    | ok _ => exact hk.pure _

theorem wantsMigration (trigger : SyncRunTrigger) : K (wantsMigration config trigger) :=
  wantsMigration_of hk.toComposable (fun _ => hk.routine _ rfl) (fun _ => hk.call rfl) config
    trigger

/-- A whole run has a property that its roots have and that a caught error does not break. -/
theorem runOnce
    (hattempt : ∀ {α : Type} {p : Engine α}, K p → K (liftM p.run : Engine (Except SyncError α)))
    (hrepair : K (state .repairInterruptedRuns))
    (hroot : ∀ root runId baseSummary options canonicalRemotePath availableRemoteBytes
      forceRemoteRescan, K (SyncEngine.executeRoot ext config root runId baseSummary options
        canonicalRemotePath availableRemoteBytes forceRemoteRescan))
    (options : SyncRunOptions) : K (runOnce ext config options) := by
  have hlocked : ∀ guard,
      K (runLocked ext config options.trigger options.forceRemoteRescan guard) := by
    intro guard
    refine hk.bind hrepair fun _ => hk.bind (hk.call rfl) fun runId => ?_
    refine hk.bind (hk.updateMemory _) fun _ => ?_
    exact hk.bind (hattempt (hk.executeRun ext config hroot runId _)) fun execution =>
      hk.endRun runId guard execution
  refine hk.bind (iteInduction (motive := fun p => K p) (fun _ => hk.pure _) fun _ => hk.throw _)
    fun _ => hk.bind (hk.wantsMigration config _) fun migrate => ?_
  refine iteInduction (motive := fun p => K p) (fun _ => hk.pure _) fun _ => ?_
  refine hk.bind (hk.acquire _ _) fun acquired => ?_
  match acquired with
  | .error error => exact hk.throw _
  | .ok none => exact hk.throw _
  | .ok (some guard) => exact hk.bind (hlocked guard) fun _ => hk.pure _

end Running

section Upholds

variable {σ : Type} {step : σ → (e : Effect SyncMemory) → e.Answer → σ → Prop}
  {env : σ → σ → Prop} {I D : σ → Prop}

/-- While a run goes on `I` holds; `D` is what an error leaves, and what holds at the end. -/
theorem runOnce_upholds
    (hi : Running fun ⦃α⦄ (p : Engine α) => Upholds step env I D p)
    (hd : Running fun ⦃α⦄ (p : Engine α) => Upholds step env D D p) (herror : ∀ s, I s → D s)
    (hrepair : Upholds step env I D (perform (.state .repairInterruptedRuns)))
    (ext : Externals) (config : AppConfig)
    (hscanned : ∀ root runId baseSummary canonicalRemotePath scanReport availableRemoteBytes
      forceRemoteRescan, Upholds step env I D (executeScanned ext config root runId baseSummary
        canonicalRemotePath scanReport availableRemoteBytes forceRemoteRescan))
    (options : SyncRunOptions) :
    TryTriple step env I (runOnce ext config options) (fun _ => D) D fun _ => True := by
  have hlocked : ∀ guard, TryTriple step env I
      (runLocked ext config options.trigger options.forceRemoteRescan guard) (fun _ => D) D
      fun _ => True := by
    intro guard
    refine TryTriple.bind (sequential_state hi.toSequential hrepair) fun _ => ?_
    have hbegin : Upholds step env I D (state (.beginRun options.trigger)) := hi.call rfl
    refine TryTriple.bind hbegin fun runId => ?_
    refine TryTriple.bind (hi.updateMemory _) fun _ => ?_
    have hexecute := hi.executeRun ext config (hi.executeRoot ext config hscanned) runId
      (options.forceRemoteRescan || config.sync.forceRemoteRescan)
    exact TryTriple.bind (hexecute.catch herror) fun execution => hd.endRun runId guard execution
  have hvalid : Upholds step env I D (ensureValidConfig ext config) :=
    iteInduction (motive := fun p => Upholds step env I D p) (fun _ => hi.pure _)
      fun _ => hi.throw _
  refine TryTriple.bind hvalid fun _ => TryTriple.bind (hi.wantsMigration config _) fun migrate => ?_
  refine iteInduction (motive := fun p => TryTriple step env I p (fun _ => D) D fun _ => True)
    (fun _ => TryTriple.pure herror) fun _ => ?_
  refine TryTriple.bind (hi.acquire _ _) fun acquired => ?_
  match acquired with
  | .error error => exact TryTriple.throw herror
  | .ok none => exact TryTriple.throw herror
  | .ok (some guard) =>
    exact TryTriple.bind (hlocked guard) fun report => TryTriple.pure fun _ h => h

end Upholds

end Run

end SyncEngine

end YaDiskSync

import YaDiskSync.Provenance
import YaDiskSync.SyncAsks

/-! The digests of a sync run. It hands on the files of its scans and stores rows with their
digests, and nothing else with a digest. -/
namespace YaDiskSync

open Prog

namespace SyncEngine

/-- What a sync run keeps in memory goes into no row. -/
def keepsAny (_ : Set HashedVersion) (_ : SyncMemory) : Prop := True

/-- Parts of a run that see to what is owed. -/
def Minds (limit : Nat) (hashed : Set HashedVersion) ⦃α : Type⦄ (p : Engine α) : Prop :=
  TryObeys (Relied keepsAny limit hashed) (Owed keepsAny limit limit hashed) (fun _ => True) p

section Asks

variable {limit : Nat} {hashed : Set HashedVersion}

theorem owed_of_isPlain (e : Effect SyncMemory) (he : isPlain e = true) :
    Owed keepsAny limit limit hashed e := by
  cases e with
  | state call => cases call <;> trivial
  | updateMemory _ => exact fun _ _ => trivial
  | spawn _ => cases he
  | _ => trivial

theorem minds_only {α : Type} {p : Engine α}
    (h : Only (Owed keepsAny limit limit hashed) p.run) : Minds limit hashed p :=
  Obeys.mono (h.obeys fun _ he => he) fun _ _ _ _ => trivial

theorem minds_ask {e : Effect SyncMemory} (he : Owed keepsAny limit limit hashed e) :
    Minds limit hashed (perform e) :=
  TryObeys.mono (TryObeys.perform he) fun _ _ => trivial

theorem minds_state {call : StateCall} (hcall : Owed keepsAny limit limit hashed (.state call)) :
    Minds limit hashed (state call) :=
  sequential_state sequential_obeys (minds_ask hcall)

theorem running_minds : Running (Minds limit hashed) where
  toSequential := sequential_obeys
  routine _ he := minds_ask (owed_of_isPlain _ (isPlain_of_isRoutine he))
  call he := minds_state (owed_of_isPlain _ (isPlain_of_isRoutine he))
  acquire owner staleAfter := minds_only ((running_asks owed_of_isPlain).acquire owner staleAfter)

theorem quiet_minds (runId : Int) (baseSummary : SyncRunSummary) :
    Quiet runId baseSummary (Minds limit hashed) where
  toReporting := running_minds.reporting
  state h := minds_only ((quiet_asks owed_of_isPlain runId baseSummary).state h)
  persistRootProgress := running_minds.persistRootProgress runId baseSummary
  cleanupStagingFiles := running_minds.cleanupStagingFiles
  fileMetadata _ := minds_ask trivial

end Asks

section Uploads

variable {limit : Nat} {hashed : Set HashedVersion} {root : SyncRootConfig} {runId : Int}
  {baseSummary : SyncRunSummary}

theorem fileStateRecord_sourced {file : LocalFileEntry} (h : file.Sourced hashed limit)
    (status : FileStateStatus) (lastError : Option Str) :
    (fileStateRecord file runId status lastError).Sourced hashed limit :=
  h.row rfl rfl rfl rfl fun md5 hmd5 _ => ⟨md5,hmd5,by simp [eqIgnoreAsciiCase]⟩

theorem recordUploaded_minds {file : LocalFileEntry} (h : file.Sourced hashed limit)
    (operationId : Int) (isUpdate : Bool) :
    Minds limit hashed (recordUploaded runId baseSummary operationId file isUpdate) :=
  recordUploaded_of (quiet_minds runId baseSummary) (running_minds.updateMemory _)
    (fun status => minds_state (fileStateRecord_sourced h status none))
    (fun _ => minds_state trivial) operationId

theorem recordUploadFailure_minds {outcome : UploadTaskOutcome}
    (h : outcome.file.Sourced hashed limit) (failure : UploadTaskFailure) :
    Minds limit hashed (recordUploadFailure root runId baseSummary outcome failure) :=
  recordUploadFailure_of (quiet_minds runId baseSummary) root running_minds.register outcome
    failure fun reasonCode => recordSkippedUpload_of (quiet_minds runId baseSummary)
      (minds_state (fileStateRecord_sourced h .skipped _)) _ reasonCode

theorem joinUploads_minds (fuel bytesUploaded : Nat) :
    Minds limit hashed (joinUploads root runId baseSummary fuel bytesUploaded) := by
  induction fuel generalizing bytesUploaded with
  | zero => exact TryObeys.pure trivial
  | succ fuel ih =>
    have hjoin : TryObeys (Relied keepsAny limit hashed) (Owed keepsAny limit limit hashed)
        (Relied keepsAny limit hashed .joinNext) (perform .joinNext) := TryObeys.perform trivial
    refine TryObeys.bind hjoin fun joined hjoined => ?_
    match joined, hjoined with
    | none, _ => exact TryObeys.pure trivial
    | some (.created ..), _ => exact TryObeys.pure trivial
    | some (.uploaded outcome), hfile =>
      dsimp only
      cases outcome.result with
      | ok _ => exact TryObeys.bind (recordUploaded_minds hfile _ _) fun _ _ => ih _
      | error failure =>
        refine TryObeys.bind (recordUploadFailure_minds hfile failure) fun stop _ => ?_
        refine iteInduction (motive := fun p => Minds limit hashed p) (fun _ => ?_) fun _ => ih _
        exact TryObeys.bind (minds_ask trivial) fun _ _ => TryObeys.pure trivial

theorem applyUploads_minds (config : AppConfig) {rootPlan : RootPlan}
    (h : ∀ upload ∈ rootPlan.uploads, upload.1.Sourced hashed limit) :
    Minds limit hashed (applyUploads config root runId baseSummary rootPlan) :=
  applyUploads_of (quiet_minds runId baseSummary) root config rootPlan
    (fun batch hbatch => spawnUploads_of (quiet_minds runId baseSummary)
      (running_minds.skipMissing runId baseSummary) batch fun upload hupload _ =>
        minds_ask (h upload (hbatch hupload)))
    joinUploads_minds

end Uploads

section Run

variable {limit : Nat} {hashed : Set HashedVersion} (ext : Externals) (config : AppConfig)
  {root : SyncRootConfig} {runId : Int} {baseSummary : SyncRunSummary} {canonicalRemotePath : Str}

theorem applyPlan_minds {rootPlan : RootPlan}
    (h : ∀ upload ∈ rootPlan.uploads, upload.1.Sourced hashed limit) (scanReport : ScanReport)
    (snapshot : RemoteInventorySnapshot) :
    Minds limit hashed (applyPlan config root runId baseSummary canonicalRemotePath scanReport
      rootPlan snapshot) :=
  applyPlan_of (quiet_minds runId baseSummary) config root
    (minds_only (applyCreateDirectories_asks owed_of_isPlain config root runId baseSummary
      (fun _ _ => trivial) trivial trivial rootPlan))
    (applyUploads_minds config h)
    (minds_only (applyDeletes_asks owed_of_isPlain root runId baseSummary canonicalRemotePath
      snapshot.resources snapshot.fromCache)) scanReport

/-- The plan of a root has files of its scan. -/
theorem planScan_minds {scanReport : ScanReport}
    (h : ∀ file ∈ scanReport.files, file.Sourced hashed limit) :
    TryObeys (Relied keepsAny limit hashed) (Owed keepsAny limit limit hashed)
      (fun plan => ∀ file ∈ plan.files, file.Sourced hashed limit)
      (planScan root runId baseSummary scanReport) := by
  have hr : Running (Minds limit hashed) := running_minds
  refine TryObeys.bind (hr.reporting.recordScanFindings scanReport) fun _ _ => ?_
  have hplan : Minds limit hashed (LiveScanPlan.fromScanReport (fun path => perform (.isDir path))
      setScanPlan (pathComponents root.localPath) scanReport) :=
    fromScanReport_of hr.toComposable (fun path => hr.routine (.isDir path) rfl)
      (fun _ => hr.updateMemory _) _ _
  refine TryObeys.bind (hplan.results (fromScanReport_files _ scanReport)) fun plan hfiles => ?_
  refine TryObeys.bind (hr.updateMemory _) fun _ _ => TryObeys.bind (hr.updateMemory _) fun _ _ => ?_
  refine TryObeys.bind (hr.reporting.recordDeletedSubtrees runId _) fun _ _ => ?_
  refine TryObeys.bind (hr.persistRootProgress runId baseSummary) fun _ _ => ?_
  exact TryObeys.pure fun file hfile => h file (hfiles.2 file hfile)

theorem executeScanned_minds {scanReport : ScanReport}
    (h : ∀ file ∈ scanReport.files, file.Sourced hashed limit) (availableRemoteBytes : Option Nat)
    (forceRemoteRescan : Bool) :
    Minds limit hashed (executeScanned ext config root runId baseSummary canonicalRemotePath
      scanReport availableRemoteBytes forceRemoteRescan) := by
  refine TryObeys.bind (planScan_minds h) fun plan hplan => ?_
  have hr : Running (Minds limit hashed) := running_minds
  cases localRemoteCollision plan.directories plan.files with
  | some message => exact hr.bind (hr.reporting.failRootWith ..) fun _ => hr.pure _
  | none =>
    refine hr.bind (minds_only (remoteInventory_asks owed_of_isPlain config root canonicalRemotePath
      plan forceRemoteRescan)) fun answer => ?_
    refine executeInventory_of (quiet_minds runId baseSummary) ext config root
      (fun _ => minds_state trivial) (fun snapshot => applyPlan_minds config (fun upload hu => ?_)
        scanReport snapshot) (fun _ _ => hr.updateMemory _) availableRemoteBytes answer
    rw [uploads_buildRootPlan,plannedUploads,List.mem_map] at hu
    obtain ⟨file,hfile,rfl⟩ := hu
    exact hplan file (List.mem_of_mem_filter hfile)

theorem executeRoot_minds (options : ScanOptions) (availableRemoteBytes : Option Nat)
    (forceRemoteRescan : Bool) :
    Minds limit hashed (executeRoot ext config root runId baseSummary options canonicalRemotePath
      availableRemoteBytes forceRemoteRescan) := by
  have hr : Running (Minds limit hashed) := running_minds
  have hscan : TryObeys (Relied keepsAny limit hashed) (Owed keepsAny limit limit hashed)
      (fun answer => ∀ report, answer = .ok report →
        ∀ file ∈ report.files, file.Sourced hashed limit)
      (scanRootWithRepository options (scanRootOf root canonicalRemotePath)) := by
    refine TryObeys.bind (TryObeys.perform trivial) fun answer hrows => ?_
    cases answer with
    | ok previousStates =>
      refine TryObeys.mono (TryObeys.perform trivial) fun answer hanswer report hreport => ?_
      subst hreport
      exact hanswer hashed le_rfl hrows
    | error error => exact TryObeys.pure fun report hreport => nomatch hreport
  refine TryObeys.bind hscan fun answer hfiles => ?_
  cases answer with
  | error error => exact hr.bind (hr.reporting.failRootWith ..) fun _ => hr.pure _
  | ok scanReport => exact executeScanned_minds ext config (hfiles scanReport rfl) _ _

end Run

section Whole

variable {limit : Nat} {hashed : Set HashedVersion} (ext : Externals) (config : AppConfig)

theorem minds_attempt {α : Type} {p : Engine α} (h : Minds limit hashed p) :
    Minds limit hashed (liftM p.run : Engine (Except SyncError α)) :=
  TryObeys.mono (TryObeys.catch h) fun _ _ => trivial

theorem minds_repair : Minds limit hashed (state .repairInterruptedRuns) := minds_state trivial

-- only the parts of a run are looked into, never the run as a whole
attribute [local irreducible] Minds

theorem runOnce_minds (options : SyncRunOptions) :
    Minds limit hashed (runOnce ext config options) := by
  have hr : Running (Minds limit hashed) := running_minds
  exact hr.runOnce ext config minds_attempt minds_repair
    (fun _ _ _ options _ available force => executeRoot_minds ext config options available force)
    options

end Whole

end SyncEngine

end YaDiskSync

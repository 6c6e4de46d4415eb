import YaDiskSync.MirrorPhases
import YaDiskSync.RootIsolation

/-! A whole forced run against the mock client, with nobody else at work. It leaves the mirror of
every local root that is there, and the rest of the remote as it was. -/
namespace YaDiskSync

open Prog SepPath

namespace Mirroring

open FaultIsolation

variable {ext : Externals} {quota : QuotaInfo} {disk : LocalTree} {start remote : RemoteDisk}
  {calls : List ClientCall} {deleted : List Str} {report : SyncRunReport}

section Root

variable {plan : LiveScanPlan} (config : AppConfig) (root : SyncRootConfig) (runId : Int)
  (baseSummary : SyncRunSummary) {canonical : Str}

/-- A forced inventory is a fresh listing. -/
theorem remoteInventory_runs :
    Runs (stillEnvironment ext quota)
      (On (Seen disk start calls deleted remote) (Planned plan report))
      (SyncEngine.remoteInventory config root canonical plan true)
      fun snapshot s => snapshot = {
          resources := remote.freshInventory canonical plan.pruneRemotePrefixes
          fromCache := false } ∧
        On (Seen disk start calls deleted remote) (Planned plan report) s := by
  have hk : Kept (stillEnvironment ext quota) disk
      (On (Seen disk start calls deleted remote) (Planned plan report)) :=
    base_seen.kept unsummarized_planned
  have hcached : Runs (stillEnvironment ext quota)
      (On (Seen disk start calls deleted remote) (Planned plan report))
      (SyncEngine.cachedRemoteInventory root canonical true)
      fun cached s => cached = none ∧
        On (Seen disk start calls deleted remote) (Planned plan report) s :=
    TryTriple.pure fun _ h => ⟨rfl,h⟩
  have hmetadata : Runs (stillEnvironment ext quota)
      (On (Seen disk start calls deleted remote) (Planned plan report))
      (SyncEngine.inventoryClient (.metadata canonical))
      fun answer s => answer = (remote.mockAnswer quota disk (.metadata canonical)).1 ∧
        On (Seen disk start calls deleted remote) (Planned plan report) s := by
    refine look_runs unsummarized_planned (fun remote tree => ?_) (fun _ => ⟨rfl,rfl⟩) ?_
    · simp only [RemoteDisk.mockAnswer]
      split <;> rfl
    · simp only [RemoteDisk.mockAnswer]
      split <;> rfl
  have hlist : Runs (stillEnvironment ext quota)
      (On (Seen disk start calls deleted remote) (Planned plan report))
      (SyncEngine.inventoryClient (.listRecursive canonical plan.pruneRemotePrefixes))
      fun answer s => answer = .ok (remote.listRecursive canonical plan.pruneRemotePrefixes) ∧
        On (Seen disk start calls deleted remote) (Planned plan report) s :=
    look_runs unsummarized_planned (fun _ _ => rfl) (fun _ => ⟨rfl,rfl⟩) rfl
  refine TryTriple.bind hcached fun cached => TryTriple.of_pure (fun s h => h.1) ?_
  rintro rfl
  refine TryTriple.bind (hmetadata.pre fun _ h => h.2) fun answer =>
    TryTriple.of_pure (fun s h => h.1) ?_
  rintro rfl
  cases hroot : remote.metadata canonical with
  | none =>
    simp only [RemoteDisk.mockAnswer,hroot]
    exact TryTriple.pure fun _ h => ⟨by simp [RemoteDisk.freshInventory,hroot],h.2⟩
  | some rootMetadata =>
    simp only [RemoteDisk.mockAnswer,hroot]
    refine TryTriple.bind (hlist.pre fun _ h => h.2) fun answer =>
      TryTriple.of_pure (fun s h => h.1) ?_
    rintro rfl
    have hnow : Runs (stillEnvironment ext quota)
        (On (Seen disk start calls deleted remote) (Planned plan report)) (SyncEngine.ask .now)
        fun _ => On (Seen disk start calls deleted remote) (Planned plan report) :=
      TryTriple.perform hk.stable hk.respected fun s answer s' h hstep =>
        hk.calm s .now answer s' rfl h hstep
    have hpersist : ∀ resources, Runs (stillEnvironment ext quota)
        (On (Seen disk start calls deleted remote) (Planned plan report))
        (SyncEngine.persistRemoteInventorySnapshot config root resources)
        fun _ => On (Seen disk start calls deleted remote) (Planned plan report) := fun _ =>
      TryTriple.bind (inventoryState_runs hk _ _) fun _ => TryTriple.bind hnow fun _ =>
        inventoryState_runs hk _ _
    refine TryTriple.bind ((hpersist _).pre fun _ h => h.2) fun _ => TryTriple.pure fun _ h => ⟨?_,h⟩
    simp only [RemoteDisk.freshInventory,hroot]
    rfl

/-- The plan of a scan of the unchanged disk. -/
theorem planScan_runs {B : Traced RemoteDisk SyncMemory → Prop}
    (hb : Base (stillEnvironment ext quota) disk B) (scanReport : ScanReport)
    (hdirectories : ∀ d ∈ scanReport.directories, disk.isDir d.localPath = true) :
    Runs (stillEnvironment ext quota) (On B (Reported report))
      (SyncEngine.planScan root runId baseSummary scanReport)
      fun plan s => plan = LiveScanPlan.ofScanReport disk.isDir (pathComponents root.localPath)
        scanReport ∧ On B (Planned plan report) s := by
  have hk : Kept (stillEnvironment ext quota) disk (On B (Reported report)) :=
    hb.kept unsummarized_reported
  refine TryTriple.bind ((reporting_runs hk).recordScanFindings scanReport) fun _ => ?_
  have hscan : Runs (stillEnvironment ext quota) (On B (Reported report))
      (LiveScanPlan.fromScanReport (m := Engine) (fun path => SyncEngine.perform (.isDir path))
        SyncEngine.setScanPlan (pathComponents root.localPath) scanReport)
      fun plan s => plan = LiveScanPlan.ofScanReport disk.isDir (pathComponents root.localPath)
        scanReport ∧ On B (Reported report) s := by
    refine TryTriple.bind (pushScannedDirectories_runs hb _ _ rfl fun d hd =>
      hdirectories d (mem_sortByKey.mp hd)) fun plan => TryTriple.of_pure (fun s h => h.1) ?_
    rintro rfl
    refine TryTriple.pure fun s h => ⟨?_,h.2⟩
    rw [LiveScanPlan.ofScanReport_of_isDir hdirectories]
    simp [LiveScanPlan.isDeletedRelativePath]
  refine TryTriple.bind hscan fun plan => TryTriple.of_pure (fun s h => h.1) fun hplan => ?_
  have hset : Runs (stillEnvironment ext quota) (On B (Reported report))
      (SyncEngine.setLivePlan plan) fun _ => On B (Planned plan report) :=
    assign_runs hb unsummarized_reported fun _ h => ⟨rfl,h⟩
  have hk' : Kept (stillEnvironment ext quota) disk (On B (Planned plan report)) :=
    hb.kept unsummarized_planned
  exact TryTriple.bind (hset.pre fun _ h => h.2) fun _ =>
    TryTriple.bind (modifySummary_runs hk' _) fun _ =>
      TryTriple.bind ((reporting_runs hk').recordDeletedSubtrees runId _) fun _ =>
        TryTriple.bind ((quiet_runs hk' runId baseSummary).persistRootProgress) fun _ =>
          TryTriple.pure fun _ h => ⟨hplan,h⟩

/-- All of a plan's calls and deletes made, and the plan in the report. -/
def Level (disk : LocalTree) (start : RemoteDisk) (deleted : List Str) (report : SyncRunReport) :
    Traced RemoteDisk SyncMemory → Prop :=
  On (Bound disk start (plannedCalls report) deleted) (Reported report)

theorem kept_level :
    Kept (stillEnvironment ext quota) disk (Level disk start deleted report) :=
  base_bound.kept unsummarized_reported

/-- The report with the plan of a root added. -/
def withPlan (report : SyncRunReport) (rootPlan : RootPlan) : SyncRunReport :=
  { report with plan := report.plan ++ rootPlan.operations }

theorem executePlan_runs {inventory : Inventory}
    (hdisk : OnDisk disk (pathComponents root.localPath) plan)
    (hroot : disk.isDir (pathComponents root.localPath) = true) (scanReport : ScanReport)
    (available : Option Nat) :
    Runs (stillEnvironment ext quota)
      (On (Bound disk start (plannedCalls report) deleted) (Planned plan report))
      (SyncEngine.executePlan ext config root runId baseSummary canonical scanReport plan
        { resources := inventory, fromCache := false } available)
      fun result s => result.shouldStop = false ∧
        Level disk start (deleted ++ (collectCoalescedDeleteOperations root canonical plan
          inventory).map RemoteDeleteOperation.remotePath)
          (withPlan report (buildRootPlan ext root canonical plan inventory)) s := by
  unfold SyncEngine.executePlan
  dsimp only
  split
  · exact TryTriple.bind (failRoot_quota_runs root kept_bound (Q := fun _ _ => False) _ _)
      fun _ s o s' h _ => h.elim
  have hpresent : ∀ d ∈ (buildRootPlan ext root canonical plan inventory).createDirectories,
      Present disk plan.rootLocalPath d.localPath := by
    intro d hd
    rw [createDirectories_buildRootPlan] at hd
    rw [hdisk.rootLocalPath]
    rcases List.mem_cons.mp (List.mem_filter.mp hd).1 with rfl | hd
    · exact Or.inl hroot
    · exact hdisk.directories d hd
  have huploads : ∀ u ∈ (buildRootPlan ext root canonical plan inventory).uploads,
      Present disk plan.rootLocalPath u.1.localPath := by
    intro u hu
    rw [uploads_buildRootPlan] at hu
    obtain ⟨file,hf,rfl⟩ := List.mem_map.mp hu
    rw [hdisk.rootLocalPath]
    exact hdisk.files file (List.mem_filter.mp hf).1
  have hassign : Runs (stillEnvironment ext quota)
      (On (Bound disk start (plannedCalls report) deleted) (Planned plan report))
      (SyncEngine.modifyReport fun report => { report with
        plan := report.plan ++ (buildRootPlan ext root canonical plan inventory).operations })
      fun _ => On (Bound disk start (plannedCalls report) deleted)
        (Planned plan (withPlan report (buildRootPlan ext root canonical plan inventory))) :=
    assign_runs base_bound unsummarized_planned fun memory h =>
      ⟨h.1,congrArg (withPlan · (buildRootPlan ext root canonical plan inventory)) h.2⟩
  refine TryTriple.bind hassign fun _ => ?_
  refine (applyPlan_runs config root runId baseSummary hdisk.deletedSubtrees scanReport _ inventory
    hpresent huploads).post fun result s h => ⟨h.1,?_,h.2.2.2⟩
  have hcalls : plannedCalls report ++
      createCalls (buildRootPlan ext root canonical plan inventory).createDirectories ++
        uploadCalls (buildRootPlan ext root canonical plan inventory).uploads =
      plannedCalls (withPlan report (buildRootPlan ext root canonical plan inventory)) := by
    rw [List.append_assoc,← plannedCalls_buildRootPlan]
    exact List.filterMap_append.symm
  exact hcalls ▸ h.2.1

end Root

section Synced

variable {config : AppConfig} {done : List SyncRootConfig} {syncs : List StaticSync}
  {s : Traced RemoteDisk SyncMemory} {write : RemoteWrite}

/-- The options of a run's scans. -/
abbrev scanOptions (config : AppConfig) : ScanOptions :=
  ScanOptions.fromConfig config.sync config.globalExcludes config.absoluteExcludes
    config.paths.stagingDir

/-- The roots done so far: a sync for each that is there, and their plans in the report. -/
structure Synced (ext : Externals) (disk : LocalTree) (start : RemoteDisk) (config : AppConfig)
    (done : List SyncRootConfig) (syncs : List StaticSync) (report : SyncRunReport) : Prop where
  roots : syncs.map (fun sync => sync.root.config) =
    done.filter fun root => disk.isDir (pathComponents root.localPath)
  mapped : ∀ sync ∈ syncs, sync.root.remoteRoot = config.instanceConfig.remoteRoot
  each : ∀ sync ∈ syncs, SyncOf ext (scanOptions config) disk start sync
  plan : report.plan = syncs.flatMap fun sync => sync.plan.operations

theorem Synced.mem_plan (h : Synced ext disk start config done syncs report)
    {operation : SyncPlanOperation} : operation ∈ report.plan ↔
      ∃ sync ∈ syncs, operation ∈ sync.plan.operations := by
  rw [h.plan,List.mem_flatMap]

/-- All that is at work between two roots. -/
structure Progress (ext : Externals) (disk : LocalTree) (start : RemoteDisk) (config : AppConfig)
    (done : List SyncRootConfig) (syncs : List StaticSync) (report : SyncRunReport)
    (s : Traced RemoteDisk SyncMemory) : Prop where
  synced : Synced ext disk start config done syncs report
  calls : (s.trace.filterMap Happening.taskCall).Perm (plannedCalls report)
  deletes : (s.trace.filterMap Happening.deletion).Perm (FaultIsolation.plannedDeletes report)
  remote : s.world.remote = start.applyAll (s.trace.filterMap (Happening.write disk))

theorem Synced.progress (h : Synced ext disk start config done syncs report)
    (hdeleted : deleted.Perm (FaultIsolation.plannedDeletes report))
    (hbound : Bound disk start (plannedCalls report) deleted s) :
    Progress ext disk start config done syncs report s where
  synced := h
  calls := by
    have hissued := hbound.1.1.issued
    unfold issued at hissued
    simpa [hbound.1.2] using hissued
  deletes := hbound.2.deleted ▸ hdeleted
  remote := hbound.2.remote

/-- Every write of the trace is one of a plan. -/
theorem Progress.write_planned (h : Progress ext disk start config done syncs report s)
    (hw : write ∈ s.trace.filterMap (Happening.write disk)) :
    ∃ sync ∈ syncs, write ∈ sync.writes := by
  obtain ⟨happening,hh,hwrite⟩ := List.mem_filterMap.mp hw
  rcases Happening.write_cases hwrite with ⟨call,hcall,hmade⟩ | ⟨path,hdeletion,rfl⟩
  · have hplanned := h.calls.mem_iff.mp (List.mem_filterMap.mpr ⟨happening,hh,hcall⟩)
    obtain ⟨operation,ho,hcalls⟩ := List.mem_filterMap.mp hplanned
    obtain ⟨sync,hs,ho⟩ := h.synced.mem_plan.mp ho
    refine ⟨sync,hs,?_⟩
    cases operation with
    | createDirectory directory =>
      cases hcalls
      cases hmade
      refine List.mem_append_left _ (List.mem_append_left _ ?_)
      exact List.mem_map_of_mem (f := fun directory : LocalDirectoryEntry =>
        RemoteWrite.createDirectory directory.remotePath) (List.mem_filterMap.mpr ⟨_,ho,rfl⟩)
    | uploadFile file isUpdate =>
      cases hcalls
      obtain ⟨content,hread,rfl⟩ := Option.map_eq_some_iff.mp hmade
      have hcontent : sync.read file.uploadSource = content := by
        rw [(h.synced.each sync hs).read,LocalTree.contentOf,hread]
        rfl
      refine List.mem_append_left _ (List.mem_append_right _ (List.mem_map.mpr
        ⟨(file,isUpdate),List.mem_filterMap.mpr ⟨_,ho,rfl⟩,?_⟩))
      rw [hcontent]
    | deleteRemote delete => cases hcalls
  · have hplanned := h.deletes.mem_iff.mp (List.mem_filterMap.mpr ⟨happening,hh,hdeletion⟩)
    obtain ⟨operation,ho,hdeleted⟩ := List.mem_filterMap.mp hplanned
    obtain ⟨sync,hs,ho⟩ := h.synced.mem_plan.mp ho
    refine ⟨sync,hs,?_⟩
    cases operation with
    | createDirectory _ => cases hdeleted
    | uploadFile _ _ => cases hdeleted
    | deleteRemote delete =>
      cases hdeleted
      refine List.mem_append_right _ ?_
      exact List.mem_map_of_mem (f := fun delete : RemoteDeleteOperation =>
        RemoteWrite.deletePermanently delete.remotePath) (List.mem_filterMap.mpr ⟨_,ho,rfl⟩)

/-- Every write of a plan is in the trace. -/
theorem Progress.planned_write (h : Progress ext disk start config done syncs report s)
    {sync : StaticSync} (hs : sync ∈ syncs) (hw : write ∈ sync.writes) :
    write ∈ s.trace.filterMap (Happening.write disk) := by
  have hcall : ∀ call, (∃ operation ∈ sync.plan.operations, operation.call = some call) →
      call.write disk = some write → write ∈ s.trace.filterMap (Happening.write disk) := by
    rintro call ⟨operation,ho,hcall⟩ hmade
    have hplanned : call ∈ plannedCalls report :=
      List.mem_filterMap.mpr ⟨operation,h.synced.mem_plan.mpr ⟨sync,hs,ho⟩,hcall⟩
    obtain ⟨happening,hh,hlanded⟩ := List.mem_filterMap.mp (h.calls.mem_iff.mpr hplanned)
    refine List.mem_filterMap.mpr ⟨happening,hh,?_⟩
    cases happening with
    | step e answer => cases hlanded
    | landed task outcome =>
      cases hlanded
      exact hmade
  rcases List.mem_append.mp hw with hw | hw
  · rcases List.mem_append.mp hw with hw | hw
    · obtain ⟨directory,hd,rfl⟩ := List.mem_map.mp hw
      obtain ⟨operation,ho,hdirectory⟩ := List.mem_filterMap.mp hd
      refine hcall (.createDirectory directory.remotePath) ⟨operation,ho,?_⟩ rfl
      cases operation with
      | createDirectory _ =>
        cases hdirectory
        rfl
      | uploadFile _ _ => cases hdirectory
      | deleteRemote _ => cases hdirectory
    · obtain ⟨upload,hu,rfl⟩ := List.mem_map.mp hw
      have hfile : upload.1 ∈ sync.report.files := by
        have hplanned := hu
        rw [StaticSync.plan_uploads,plannedUploads,StaticSync.livePlan_files] at hplanned
        obtain ⟨file,hf,rfl⟩ := List.mem_map.mp hplanned
        exact List.mem_of_mem_filter hf
      obtain ⟨operation,ho,hupload⟩ := List.mem_filterMap.mp hu
      refine hcall (.uploadSource upload.1.remotePath upload.1.uploadSource) ⟨operation,ho,?_⟩ ?_
      · cases operation with
        | createDirectory _ => cases hupload
        | uploadFile _ _ =>
          cases hupload
          rfl
        | deleteRemote _ => cases hupload
      · simp only [ClientCall.write,(h.synced.each sync hs).sources _ hfile,Option.map_some,
          (h.synced.each sync hs).read]
  · obtain ⟨delete,hd,rfl⟩ := List.mem_map.mp hw
    obtain ⟨operation,ho,hdelete⟩ := List.mem_filterMap.mp hd
    have hplanned : delete.remotePath ∈ FaultIsolation.plannedDeletes report := by
      refine List.mem_filterMap.mpr ⟨operation,h.synced.mem_plan.mpr ⟨sync,hs,ho⟩,?_⟩
      cases operation with
      | createDirectory _ => cases hdelete
      | uploadFile _ _ => cases hdelete
      | deleteRemote _ =>
        cases hdelete
        rfl
    obtain ⟨happening,hh,hdeletion⟩ := List.mem_filterMap.mp (h.deletes.mem_iff.mpr hplanned)
    refine List.mem_filterMap.mpr ⟨happening,hh,?_⟩
    unfold Happening.deletion at hdeletion
    split at hdeletion
    · cases hdeletion
      rfl
    · cases hdeletion

end Synced

section Apart

variable {config : AppConfig} {done : List SyncRootConfig} {syncs : List StaticSync}
  {s : Traced RemoteDisk SyncMemory} {write : RemoteWrite} {sync : StaticSync} {base q : Str}

/-- The writes of a plan stay away from trees beside its root. -/
theorem apart_of_writes (hw : write ∈ sync.writes)
    (hbase : ¬ SepPath.Covers slash sync.root.canonical base)
    (hroot : ¬ SepPath.Covers slash base sync.root.canonical) : write.Apart base := by
  have hapart : ∀ path, SepPath.Covers slash sync.root.canonical path →
      ¬ SepPath.Covers slash base path :=
    fun path hc hb => (hc.total hb).elim hbase hroot
  rcases StaticSync.mem_writes.mp hw with ⟨path,rfl,hp,_⟩ | ⟨upload,hu,rfl⟩ | ⟨operation,ho,rfl⟩
  · exact hapart path (StaticSync.Live.covers (hp.imp_right Or.inl))
  · exact hapart _ (StaticSync.Live.covers (Or.inr (Or.inr (StaticSync.upload_filePath hu))))
  · obtain ⟨hbelow,_,htrim⟩ := StaticSync.planned_path ho
    exact ⟨htrim,fun q hq hc => hapart q (hbelow.trans_covers hc).covers hq⟩

/-- The writes of a plan spare what is not below its root. -/
theorem spares_of_writes (hw : write ∈ sync.writes)
    (hq : ¬ SepPath.Covers slash sync.root.canonical q) :
    write.Spares q := by
  rcases StaticSync.mem_writes.mp hw with ⟨path,rfl,hp,_⟩ | ⟨upload,hu,rfl⟩ | ⟨operation,ho,rfl⟩
  · exact fun he => hq (he ▸ StaticSync.Live.covers (hp.imp_right Or.inl))
  · exact fun he => hq (he ▸ StaticSync.Live.covers
      (Or.inr (Or.inr (StaticSync.upload_filePath hu))))
  · obtain ⟨hbelow,_,htrim⟩ := StaticSync.planned_path ho
    exact ⟨fun hc => hq (hbelow.trans_covers hc).covers,htrim⟩

/-- Outside of the roots that are done the remote is as it was. -/
theorem Progress.outside (h : Progress ext disk start config done syncs report s)
    (hq : ∀ sync ∈ syncs, ¬ SepPath.Covers slash sync.root.canonical q) :
    RemoteDisk.SameAt start s.world.remote q := by
  rw [h.remote]
  refine RemoteDisk.sameAt_applyAll fun write hw => ?_
  obtain ⟨sync,hs,hw⟩ := h.write_planned hw
  exact spares_of_writes hw (hq sync hs)

/-- Canonical paths of distinct roots lie beside each other. -/
def Beside (config : AppConfig) : Prop :=
  ∀ i j : ManagedRoot, i.EnabledIn config → j.EnabledIn config → i.config ≠ j.config →
    ¬ SepPath.Covers slash i.canonical j.canonical

theorem beside_of_accepted (accepted : AcceptedConfig ext) (h : RootsNotNested accepted.config) :
    Beside accepted.config := by
  intro i j hi hj hne hc
  rcases hc with he | hb
  · refine accepted.canonicalPath_ne hi.1 hj.1 hne ?_
    rw [hi.canonicalPath,hj.canonicalPath,he]
  · exact h i j hi hj hne hb

theorem Synced.enabled (h : Synced ext disk start config done syncs report)
    (hdone : ∀ root ∈ done, root ∈ SyncEngine.enabledRoots config) (hs : sync ∈ syncs) :
    sync.root.EnabledIn config := by
  have hmem : sync.root.config ∈ done.filter fun root => disk.isDir (pathComponents root.localPath) :=
    h.roots ▸ List.mem_map_of_mem hs
  obtain ⟨hroot,henabled⟩ := List.mem_filter.mp (hdone _ (List.mem_filter.mp hmem).1)
  exact ⟨hroot,henabled,h.mapped sync hs⟩

/-- When all roots are done, each is mirrored. -/
theorem Progress.mirrored (h : Progress ext disk start config done syncs report s)
    (hbeside : Beside config) (hdone : ∀ root ∈ done, root ∈ SyncEngine.enabledRoots config)
    (hnodup : done.Nodup) (hs : sync ∈ syncs) : MirroredBelow sync s.world.remote := by
  rw [h.remote]
  refine StaticSync.mirrored_of_writes (h.synced.each sync hs).agrees
    (fun write hw => h.planned_write hs hw) fun write hw => ?_
  obtain ⟨other,ho,hw⟩ := h.write_planned hw
  by_cases he : other = sync
  · exact Or.inl (he ▸ hw)
  · refine Or.inr (apart_of_writes hw ?_ ?_)
    all_goals
      have hne : other.root.config ≠ sync.root.config := by
        have hconfigs : (syncs.map fun sync => sync.root.config).Nodup :=
          h.synced.roots ▸ hnodup.filter _
        exact fun hc => he (List.inj_on_of_nodup_map hconfigs ho hs hc)
    · exact hbeside _ _ (h.synced.enabled hdone ho) (h.synced.enabled hdone hs) hne
    · exact hbeside _ _ (h.synced.enabled hdone hs) (h.synced.enabled hdone ho) hne.symm

end Apart

section Chain

variable {config : AppConfig} {root : ManagedRoot} (runId : Int) (baseSummary : SyncRunSummary)

/-- A root's sync with all of its plan done. -/
def RootSynced (ext : Externals) (disk : LocalTree) (start : RemoteDisk) (config : AppConfig)
    (root : ManagedRoot) (deleted : List Str) (report : SyncRunReport)
    (s : Traced RemoteDisk SyncMemory) : Prop :=
  ∃ (sync : StaticSync) (deleted' : List Str), sync.root = root ∧
    SyncOf ext (scanOptions config) disk start sync ∧
    deleted'.Perm (deleted ++ sync.plan.deletes.map RemoteDeleteOperation.remotePath) ∧
    Level disk start deleted' (withPlan report sync.plan) s

theorem plan_deletes_perm (sync : StaticSync) : (sync.plan.deletes).Perm sync.planned := by
  have hdeletes : sync.plan.deletes = sortByKey deleteOrder sync.planned := by
    simp [StaticSync.plan,buildRootPlan,RootPlan.deletes,List.filterMap_map]
  rw [hdeletes]
  exact sortByKey_perm _ _

/-- The live plan of a scan names what is on the disk. -/
theorem onDisk_livePlan {sync : StaticSync}
    (hsync : SyncOf ext (scanOptions config) disk start sync) :
    OnDisk disk (pathComponents sync.root.config.localPath) sync.livePlan := by
  obtain ⟨oracle,previousStates,hscan⟩ := hsync.scanned
  have hpresent := scanned_present hscan
  rw [StaticSync.livePlan,LiveScanPlan.ofScanReport_of_isDir sync.stays]
  exact ⟨rfl,rfl,fun d hd => Or.inl (hpresent.1 d (mem_sortByKey.mp hd)),hpresent.2⟩

theorem executeScanned_runs (hm : Mirrorable ext (scanOptions config) disk start root)
    (hkeyed : remote.Keyed)
    (hagrees : ∀ q, SepPath.Covers slash root.canonical q → RemoteDisk.SameAt start remote q)
    (hroot : disk.isDir root.directory = true) {oracle : ScanOracle}
    {previousStates : List FileStateRecord} {scanReport : ScanReport}
    (hscan : scanRoot ext oracle {} (scanOptions config)
      (SyncEngine.scanRootOf root.config root.canonical) previousStates
        (disk.below root.directory) = .ok scanReport) (available : Option Nat) :
    Runs (stillEnvironment ext quota)
      (On (Seen disk start (plannedCalls report) deleted remote) (Reported report))
      (SyncEngine.executeScanned ext config root.config runId baseSummary root.canonical scanReport
        available true)
      fun result s => result.shouldStop = false ∧
        RootSynced ext disk start config root deleted report s := by
  have hcollision := hm.no_collision hscan
  obtain ⟨sync,rfl,rfl,rfl,hsync⟩ := hm.exists_sync hkeyed hagrees hscan
  refine TryTriple.bind (planScan_runs sync.root.config runId baseSummary base_seen sync.report
    (hsync.isDir ▸ sync.stays)) fun plan => TryTriple.of_pure (fun s h => h.1) fun hplan => ?_
  have hlive : plan = sync.livePlan := by
    rw [hplan,StaticSync.livePlan,hsync.isDir]
  subst hlive
  have hnone : localRemoteCollision sync.livePlan.directories sync.livePlan.files = none := by
    rw [StaticSync.livePlan,LiveScanPlan.ofScanReport_of_isDir sync.stays]
    exact hcollision
  rw [hnone]
  refine TryTriple.bind ((remoteInventory_runs config sync.root.config).catch.pre fun _ h => h.2)
    fun answer => ?_
  cases answer with
  | error error => exact fun s o s' h _ => h.elim
  | ok snapshot =>
    refine TryTriple.of_pure (fun s h => h.1) ?_
    rintro rfl
    have hexecute : Runs (stillEnvironment ext quota) (On (Bound disk start (plannedCalls report)
        deleted) (Planned sync.livePlan report)) _ _ :=
      @executePlan_runs ext quota disk start deleted report sync.livePlan config sync.root.config
        runId baseSummary sync.root.canonical sync.inventory (onDisk_livePlan hsync) hroot
        sync.report available
    refine (hexecute.pre fun s h => ⟨h.2.1.1,h.2.2⟩).post fun result s h => ⟨h.1,sync,_,rfl,hsync,
      List.Perm.append_left _ ((plan_deletes_perm sync).map _).symm,?_⟩
    rw [StaticSync.plan,hsync.externals]
    exact h.2

theorem executeRoot_runs (hm : Mirrorable ext (scanOptions config) disk start root)
    (hkeyed : remote.Keyed)
    (hagrees : ∀ q, SepPath.Covers slash root.canonical q → RemoteDisk.SameAt start remote q)
    (hroot : disk.isDir root.directory = true) (available : Option Nat) :
    Runs (stillEnvironment ext quota)
      (On (Seen disk start (plannedCalls report) deleted remote) (Reported report))
      (SyncEngine.executeRoot ext config root.config runId baseSummary (scanOptions config)
        root.canonical available true)
      fun result s => result.shouldStop = false ∧
        RootSynced ext disk start config root deleted report s := by
  have hk : Kept (stillEnvironment ext quota) disk
      (On (Seen disk start (plannedCalls report) deleted remote) (Reported report)) :=
    base_seen.kept unsummarized_reported
  have hscanned : Runs (stillEnvironment ext quota)
      (On (Seen disk start (plannedCalls report) deleted remote) (Reported report))
      (SyncEngine.scanRootWithRepository (scanOptions config)
        (SyncEngine.scanRootOf root.config root.canonical))
      fun answer s => (∃ oracle previousStates, answer = scanRoot ext oracle {} (scanOptions config)
          (SyncEngine.scanRootOf root.config root.canonical) previousStates
            (disk.below root.directory)) ∧
        On (Seen disk start (plannedCalls report) deleted remote) (Reported report) s := by
    have hlist : Runs (stillEnvironment ext quota)
        (On (Seen disk start (plannedCalls report) deleted remote) (Reported report))
        (SyncEngine.perform (.state (.listFileStatesForRoot root.config.id)))
        fun answer s => answer.isOk = true ∧
          On (Seen disk start (plannedCalls report) deleted remote) (Reported report) s :=
      TryTriple.perform hk.stable hk.respected fun s answer s' h hstep =>
        ⟨SoundStep.isOk hstep.1,hk.calm s _ answer s' rfl h hstep⟩
    refine TryTriple.bind hlist fun previous => TryTriple.of_pure (fun s h => h.1) fun hok => ?_
    cases previous with
    | error error => cases hok
    | ok previousStates =>
      refine TryTriple.pre ?_ fun s h => h.2
      refine TryTriple.perform hk.stable hk.respected fun s answer s' h hstep => ⟨?_,?_⟩
      · obtain ⟨oracle,faults,tree,hfaults,htree,hanswer⟩ := hstep.2.1.1
        have hfaultless : faults = {} := hfaults
        have hsame : s.world.disk = tree := htree
        refine ⟨oracle,previousStates,?_⟩
        rw [hanswer,hfaultless,← hsame,(hk.steady s h).disk]
        rfl
      · exact hk.calm s (.scan ..) answer s' rfl h hstep
  refine TryTriple.bind hscanned fun answer => TryTriple.of_pure (fun s h => h.1) ?_
  rintro ⟨oracle,previousStates,hanswer⟩
  obtain ⟨context,hcontext⟩ := hm.scans previousStates
  have hok : answer = .ok (scanReport ext oracle context {} (disk.below root.directory)) := by
    rw [hanswer,scanRoot,hcontext]
    rfl
  subst hok
  exact (executeScanned_runs runId baseSummary hm hkeyed hagrees hroot hanswer.symm available).pre
    fun _ h => h.2

/-- So many roots are done. -/
def Advanced (ext : Externals) (disk : LocalTree) (start : RemoteDisk) (config : AppConfig)
    (done : List SyncRootConfig) (s : Traced RemoteDisk SyncMemory) : Prop :=
  ∃ (syncs : List StaticSync) (report : SyncRunReport) (deleted : List Str),
    (Synced ext disk start config done syncs report ∧
      deleted.Perm (FaultIsolation.plannedDeletes report)) ∧ Level disk start deleted report s

variable {done : List SyncRootConfig} {syncs : List StaticSync}

/-- What every state between two roots can do, whatever has been done so far. -/
theorem advanced_runs {α ε : Type} {p : ExceptT ε (Prog (Effect SyncMemory) Effect.Answer) α}
    {Q : α → Traced RemoteDisk SyncMemory → Prop}
    (h : ∀ syncs report deleted, Synced ext disk start config done syncs report →
      deleted.Perm (FaultIsolation.plannedDeletes report) →
        Runs (stillEnvironment ext quota) (Level disk start deleted report) p Q) :
    Runs (stillEnvironment ext quota) (Advanced ext disk start config done) p Q :=
  TryTriple.exists_pre fun syncs => TryTriple.exists_pre fun report =>
    TryTriple.exists_pre fun deleted => TryTriple.of_pure (fun _ h => h.1) fun hs =>
      (h syncs report deleted hs.1 hs.2).pre fun _ h => h.2

theorem Synced.of_plan {report' : SyncRunReport}
    (h : Synced ext disk start config done syncs report) (hplan : report'.plan = report.plan) :
    Synced ext disk start config done syncs report' :=
  ⟨h.roots,h.mapped,h.each,hplan.trans h.plan⟩

theorem modifyReport_runs {f : SyncRunReport → SyncRunReport}
    (hf : ∀ report, (f report).plan = report.plan) :
    Runs (stillEnvironment ext quota) (Level disk start deleted report) (SyncEngine.modifyReport f)
      fun _ => Level disk start deleted (f report) := by
  have hassign : Runs (stillEnvironment ext quota) (Level disk start deleted report)
      (SyncEngine.modifyReport f) fun _ => On (Bound disk start (plannedCalls report) deleted)
        (Reported (f report)) :=
    assign_runs base_bound unsummarized_reported fun memory h => congrArg f h
  have hplan : plannedCalls (f report) = plannedCalls report :=
    congrArg (List.filterMap SyncPlanOperation.call) (hf report)
  unfold Level
  rw [hplan]
  exact hassign

theorem finishRootSummary_runs :
    Runs (stillEnvironment ext quota) (Level disk start deleted report) SyncEngine.finishRootSummary
      fun _ s => ∃ report' : SyncRunReport, report'.plan = report.plan ∧
        Level disk start deleted report' s := by
  refine TryTriple.bind ((reporting_runs kept_level).readMemory) fun memory => ?_
  refine TryTriple.post (modifyReport_runs ?_) fun _ s h => ⟨_,?_,h⟩
  · exact fun _ => rfl
  · rfl

/-- One more root that is there. -/
theorem Synced.snoc (h : Synced ext disk start config done syncs report) {sync : StaticSync}
    (hsync : SyncOf ext (scanOptions config) disk start sync)
    (hmapped : sync.root.remoteRoot = config.instanceConfig.remoteRoot)
    (hroot : disk.isDir sync.root.directory = true) :
    Synced ext disk start config (done ++ [sync.root.config]) (syncs ++ [sync])
      (withPlan report sync.plan) where
  roots := by
    have hkept : disk.isDir (pathComponents sync.root.config.localPath) = true := hroot
    rw [List.map_append,h.roots,List.filter_append,List.filter_cons,if_pos hkept]
    rfl
  mapped other ho := by
    rcases List.mem_append.mp ho with ho | ho
    · exact h.mapped other ho
    · rw [List.mem_singleton.mp ho]
      exact hmapped
  each other ho := by
    rcases List.mem_append.mp ho with ho | ho
    · exact h.each other ho
    · rw [List.mem_singleton.mp ho]
      exact hsync
  plan := by
    rw [List.flatMap_append,← h.plan]
    simp [withPlan]

theorem plannedDeletes_withPlan (report : SyncRunReport) (rootPlan : RootPlan) :
    FaultIsolation.plannedDeletes (withPlan report rootPlan) =
      FaultIsolation.plannedDeletes report ++
        rootPlan.deletes.map RemoteDeleteOperation.remotePath := by
  unfold FaultIsolation.plannedDeletes withPlan RootPlan.deletes
  rw [List.filterMap_append,List.map_filterMap]
  refine congrArg _ (List.filterMap_congr fun operation _ => ?_)
  cases operation <;> rfl

/-- What the roots of a run are like. -/
structure Suited (ext : Externals) (disk : LocalTree) (start : RemoteDisk) (config : AppConfig) :
    Prop where
  keyed : start.Keyed
  mirrorable : ∀ root : ManagedRoot, root.EnabledIn config → disk.isDir root.directory = true →
    Mirrorable ext (scanOptions config) disk start root

theorem executeRunRoot_runs (hsuited : Suited ext disk start config) (hbeside : Beside config)
    (hroot : root.EnabledIn config)
    (hdone : ∀ other ∈ done, other ∈ SyncEngine.enabledRoots config)
    (hnew : root.config ∉ done) (available : Option Nat) :
    Runs (stillEnvironment ext quota) (Advanced ext disk start config done)
      (SyncEngine.executeRunRoot ext config root.config runId (scanOptions config) available true)
      fun next s => next.1 = true ∧
        Advanced ext disk start config (done ++ [root.config]) s := by
  refine advanced_runs fun syncs report deleted hsynced hdeleted => ?_
  have hk : Kept (stillEnvironment ext quota) disk (Level disk start deleted report) := kept_level
  have hquiet : SyncEngine.Reporting fun ⦃α⦄ (p : Engine α) =>
      KeepsOk ((stillEnvironment ext quota).TraceStep SoundStep)
        (stillEnvironment ext quota).TraceDrift Respected (Level disk start deleted report) p :=
    reporting_runs hk
  unfold SyncEngine.executeRunRoot
  rw [show canonicalRemotePath config.instanceConfig.remoteRoot root.config.localPath
    root.config.remotePathOverride = .ok root.canonical from hroot.2.2 ▸ root.mapped]
  have hinit : Runs (stillEnvironment ext quota) (Level disk start deleted report)
      (SyncEngine.perform (.updateMemory fun memory => { memory with
        rootSummary := SyncEngine.initialRootSummary root.config root.canonical, scanPlan := none
        livePlan := none })) fun _ => Level disk start deleted report :=
    assign_runs base_bound unsummarized_reported fun _ h => h
  refine TryTriple.bind (FaultIsolation.state_runs hk _) fun _ => TryTriple.bind hinit fun _ => ?_
  refine TryTriple.bind (isDir_runs hk _) fun isDir =>
    TryTriple.of_pure (fun s h => h.1) fun hisDir => ?_
  refine TryTriple.pre (P := Level disk start deleted report) ?_ fun s h => h.2
  refine iteInduction (motive := fun p => Runs _ _ p _) (fun hmissing => ?_) fun hthere => ?_
  · refine TryTriple.bind (SyncEngine.recordMissingRoot_of hquiet root.config
      (modifySummary_runs hk)) fun _ => ?_
    refine TryTriple.bind finishRootSummary_runs fun _ => TryTriple.pure fun _ h => ⟨rfl,?_⟩
    obtain ⟨report',hplan,hlevel⟩ := h
    have hgone : disk.isDir (pathComponents root.config.localPath) = false := by
      rw [← hisDir]
      simpa using hmissing
    refine ⟨syncs,report',deleted,⟨⟨?_,hsynced.mapped,hsynced.each,hplan.trans hsynced.plan⟩,?_⟩,
      hlevel⟩
    · rw [hsynced.roots,List.filter_append,List.filter_cons,if_neg (by simp [hgone])]
      simp
    · unfold FaultIsolation.plannedDeletes
      rw [hplan]
      exact hdeleted
  · have hisRoot : disk.isDir root.directory = true := by
      rw [ManagedRoot.directory,← hisDir]
      simpa using hthere
    -- the roots done so far have left the tree below this one alone
    have hagrees : ∀ s, Level disk start deleted report s → s.world.remote.Keyed ∧
        ∀ q, SepPath.Covers slash root.canonical q → RemoteDisk.SameAt start s.world.remote q := by
      intro s hlevel
      have hprogress := hsynced.progress hdeleted hlevel.1
      refine ⟨hprogress.remote ▸ hsuited.keyed.applyAll _,fun q hq => ?_⟩
      refine hprogress.outside fun sync hs hc => ?_
      have henabled := hsynced.enabled hdone hs
      have hne : sync.root.config ≠ root.config := by
        intro he
        have hmem : sync.root.config ∈
            done.filter fun root => disk.isDir (pathComponents root.localPath) :=
          hsynced.roots ▸ List.mem_map_of_mem hs
        exact hnew (he ▸ (List.mem_filter.mp hmem).1)
      rcases hc.total hq with hcovers | hcovers
      · exact hbeside _ _ henabled hroot hne hcovers
      · exact hbeside _ _ hroot henabled hne.symm hcovers
    refine TryTriple.bind hquiet.readMemory fun before => ?_
    have hexecute : Runs (stillEnvironment ext quota) (Level disk start deleted report)
        (SyncEngine.executeRoot ext config root.config runId before.report.summary
          (scanOptions config) root.canonical available true)
        fun result s => result.shouldStop = false ∧
          RootSynced ext disk start config root deleted report s := by
      refine TryTriple.pre (P := fun s => ∃ remote : RemoteDisk, (remote.Keyed ∧
        ∀ q, SepPath.Covers slash root.canonical q → RemoteDisk.SameAt start remote q) ∧
          On (Seen disk start (plannedCalls report) deleted remote) (Reported report) s) ?_
        fun s h => ⟨s.world.remote,hagrees s h,⟨h.1,rfl⟩,h.2⟩
      refine TryTriple.exists_pre fun remote => TryTriple.of_pure (fun s h => h.1) fun hremote => ?_
      exact (executeRoot_runs runId before.report.summary (hsuited.mirrorable root hroot hisRoot)
        hremote.1 hremote.2 hisRoot available).pre fun _ h => h.2
    refine TryTriple.bind hexecute fun result => TryTriple.of_pure (fun s h => h.1) fun hgoes => ?_
    refine TryTriple.pre (P := RootSynced ext disk start config root deleted report) ?_
      fun s h => h.2
    refine TryTriple.exists_pre fun sync => TryTriple.exists_pre fun deleted' => ?_
    refine TryTriple.pre (P := fun s => (sync.root = root ∧
      SyncOf ext (scanOptions config) disk start sync ∧ deleted'.Perm (deleted ++
        sync.plan.deletes.map RemoteDeleteOperation.remotePath)) ∧
          Level disk start deleted' (withPlan report sync.plan) s) ?_
      fun s h => ⟨⟨h.1,h.2.1,h.2.2.1⟩,h.2.2.2⟩
    refine TryTriple.of_pure (fun s h => h.1) ?_
    rintro ⟨rfl,hsync,hperm⟩
    refine TryTriple.bind (finishRootSummary_runs.pre fun _ h => h.2) fun _ => ?_
    refine TryTriple.exists_pre fun report' => TryTriple.of_pure (fun s h => h.1) fun hplan => ?_
    rw [hgoes]
    refine TryTriple.bind ((isCancelled_runs kept_level).pre fun _ h => h.2) fun cancelled =>
      TryTriple.pure fun _ h => ⟨by simp [h.1],syncs ++ [sync],report',deleted',⟨?_,?_⟩,h.2⟩
    · exact (hsynced.snoc hsync hroot.2.2 hisRoot).of_plan hplan
    · unfold FaultIsolation.plannedDeletes
      rw [hplan]
      refine hperm.trans ?_
      have hall := plannedDeletes_withPlan report sync.plan
      unfold FaultIsolation.plannedDeletes at hall hdeleted
      rw [hall]
      exact hdeleted.append_right _

theorem executeRoots_runs (hsuited : Suited ext disk start config) (hbeside : Beside config)
    (hcanonical : ∀ root ∈ SyncEngine.enabledRoots config,
      ∃ canonical, root.canonicalPath config = .ok canonical)
    (roots : List SyncRootConfig) (hnodup : (done ++ roots).Nodup)
    (henabled : ∀ root ∈ done ++ roots, root ∈ SyncEngine.enabledRoots config)
    (available : Option Nat) :
    Runs (stillEnvironment ext quota) (Advanced ext disk start config done)
      (SyncEngine.executeRoots ext config runId (scanOptions config) true roots available)
      fun _ => Advanced ext disk start config (done ++ roots) := by
  induction roots generalizing done available with
  | nil => exact TryTriple.pure fun _ h => by simpa using h
  | cons next roots ih =>
    have hcancelled : Runs (stillEnvironment ext quota) (Advanced ext disk start config done)
        SyncEngine.isCancelled fun cancelled s => cancelled = false ∧
          Advanced ext disk start config done s :=
      advanced_runs fun syncs report deleted hsynced hdeleted =>
        (isCancelled_runs kept_level).post fun _ s h =>
          ⟨h.1,syncs,report,deleted,⟨hsynced,hdeleted⟩,h.2⟩
    refine TryTriple.bind hcancelled fun cancelled => TryTriple.of_pure (fun s h => h.1) ?_
    rintro rfl
    have hmem : next ∈ SyncEngine.enabledRoots config := henabled next (by simp)
    obtain ⟨canonical,hcanon⟩ := hcanonical next hmem
    have hroot : (ManagedRoot.mk next config.instanceConfig.remoteRoot canonical hcanon).EnabledIn
        config := ⟨(List.mem_filter.mp hmem).1,(List.mem_filter.mp hmem).2,rfl⟩
    have hnew : next ∉ done := fun hd =>
      (List.nodup_append'.mp hnodup).2.2 hd List.mem_cons_self
    have hrun : Runs (stillEnvironment ext quota) _ _ _ :=
      executeRunRoot_runs runId hsuited hbeside hroot
        (fun other ho => henabled other (List.mem_append_left _ ho)) hnew available
    refine TryTriple.bind (hrun.pre fun _ h => h.2) fun result =>
      TryTriple.of_pure (fun s h => h.1) fun hgo => ?_
    obtain ⟨go,available'⟩ := result
    have hgo' : go = true := hgo
    subst hgo'
    have hsplit : done ++ next :: roots = done ++ [next] ++ roots := by simp
    rw [hsplit] at hnodup henabled ⊢
    exact (ih hnodup henabled available').pre fun _ h => h.2

/-- The report a run hands out names what it did. -/
def Finished (ext : Externals) (disk : LocalTree) (start : RemoteDisk) (config : AppConfig)
    (report : SyncRunReport) (s : Traced RemoteDisk SyncMemory) : Prop :=
  ∃ syncs, Progress ext disk start config (SyncEngine.enabledRoots config) syncs report s

theorem executeRun_runs (hsuited : Suited ext disk start config) (hbeside : Beside config)
    (hcanonical : ∀ root ∈ SyncEngine.enabledRoots config,
      ∃ canonical, root.canonicalPath config = .ok canonical)
    (hnodup : (SyncEngine.enabledRoots config).Nodup) (hplan : report.plan = []) :
    Runs (stillEnvironment ext quota) (Level disk start [] report)
      (SyncEngine.executeRun ext config runId true)
      fun _ => Advanced ext disk start config (SyncEngine.enabledRoots config) := by
  have hquota : Runs (stillEnvironment ext quota) (Level disk start [] report)
      SyncEngine.availableRemoteBytes fun _ => Level disk start [] report := by
    refine TryTriple.pre (P := fun s => ∃ remote : RemoteDisk,
      On (Seen disk start (plannedCalls report) [] remote) (Reported report) s) ?_
      fun s h => ⟨s.world.remote,⟨h.1,rfl⟩,h.2⟩
    refine TryTriple.exists_pre fun remote => ?_
    have hlook : Runs (stillEnvironment ext quota)
        (On (Seen disk start (plannedCalls report) [] remote) (Reported report))
        (SyncEngine.client .diskInfo) fun answer s => answer = .ok quota ∧
          On (Seen disk start (plannedCalls report) [] remote) (Reported report) s :=
      look_runs unsummarized_reported (fun _ _ => rfl) (fun _ => ⟨rfl,rfl⟩) rfl
    refine TryTriple.bind hlook fun answer => TryTriple.of_pure (fun s h => h.1) ?_
    rintro rfl
    exact TryTriple.pure fun _ h => ⟨h.2.1.1,h.2.2⟩
  refine TryTriple.bind hquota fun available => ?_
  have hroots : Runs (stillEnvironment ext quota) (Advanced ext disk start config [])
      (SyncEngine.executeRoots ext config runId (scanOptions config) true
        (SyncEngine.enabledRoots config) available)
      fun _ => Advanced ext disk start config (SyncEngine.enabledRoots config) :=
    executeRoots_runs runId hsuited hbeside hcanonical _ hnodup (fun _ hr => hr) available
  refine hroots.pre fun s h => ⟨[],report,[],⟨⟨rfl,?_,?_,hplan⟩,?_⟩,h⟩
  · exact fun _ hm => absurd hm List.not_mem_nil
  · exact fun _ hm => absurd hm List.not_mem_nil
  · rw [FaultIsolation.plannedDeletes,hplan]
    rfl

theorem runLocked_runs (hsuited : Suited ext disk start config) (hbeside : Beside config)
    (hcanonical : ∀ root ∈ SyncEngine.enabledRoots config,
      ∃ canonical, root.canonicalPath config = .ok canonical)
    (hnodup : (SyncEngine.enabledRoots config).Nodup) (trigger : SyncRunTrigger)
    (forceRemoteRescan : Bool)
    (hforce : (forceRemoteRescan || config.sync.forceRemoteRescan) = true) (guard : RunLockGuard) :
    Runs (stillEnvironment ext quota) (Bound disk start [] [])
      (SyncEngine.runLocked ext config trigger forceRemoteRescan guard)
      (Finished ext disk start config) := by
  have hk : Kept (stillEnvironment ext quota) disk (On (Bound disk start [] []) fun _ => True) :=
    base_bound.kept fun _ _ h => h
  refine TryTriple.pre (P := On (Bound disk start [] []) fun _ => True) ?_ fun _ h => ⟨h,trivial⟩
  refine TryTriple.bind (FaultIsolation.state_runs hk _) fun _ =>
    TryTriple.bind (FaultIsolation.state_runs hk _) fun runId => ?_
  have hinit : Runs (stillEnvironment ext quota) (On (Bound disk start [] []) fun _ => True)
      (SyncEngine.perform (.updateMemory fun _ => { report := { runId } }))
      fun _ => Level disk start [] { runId } :=
    assign_runs base_bound (fun _ _ h => h) fun _ _ => rfl
  refine TryTriple.bind hinit fun _ => ?_
  rw [hforce]
  refine TryTriple.bind (executeRun_runs runId hsuited hbeside hcanonical hnodup rfl).catch
    fun execution => ?_
  cases execution with
  | error error => exact fun s o s' h _ => h.elim
  | ok _ =>
    refine advanced_runs fun syncs report deleted hsynced hdeleted => ?_
    have hconclude : Runs (stillEnvironment ext quota) (Level disk start deleted report)
        (SyncEngine.concludeRun (.ok ())) fun _ s => ∃ report' : SyncRunReport,
          report'.plan = report.plan ∧ Level disk start deleted report' s := by
      refine TryTriple.bind (isCancelled_runs kept_level) fun cancelled =>
        TryTriple.of_pure (fun s h => h.1) ?_
      rintro rfl
      rw [if_neg Bool.false_ne_true]
      refine TryTriple.pre (TryTriple.post (modifyReport_runs ?_) fun _ s h => ⟨_,?_,h⟩)
        fun _ h => h.2
      · exact fun _ => rfl
      · rfl
    refine TryTriple.bind hconclude fun _ => TryTriple.exists_pre fun report' =>
      TryTriple.of_pure (fun s h => h.1) fun hplan => ?_
    have hclose : Runs (stillEnvironment ext quota) (Level disk start deleted report')
        (SyncEngine.closeRun runId guard) fun report s => report = report' ∧
          Level disk start deleted report' s :=
      closeRun_runs runId kept_level (fun _ h => h.2) guard
    refine (hclose.pre fun _ h => h.2).post fun answer s h => ?_
    obtain ⟨rfl,hlevel⟩ := h
    refine ⟨syncs,(hsynced.of_plan hplan).progress ?_ hlevel.1⟩
    unfold FaultIsolation.plannedDeletes
    rw [hplan]
    exact hdeleted

theorem runOnce_runs (hsuited : Suited ext disk start config) (hnested : RootsNotNested config)
    (options : SyncEngine.SyncRunOptions)
    (hforce : (options.forceRemoteRescan || config.sync.forceRemoteRescan) = true) :
    TryTriple ((stillEnvironment ext quota).TraceStep SoundStep)
      (stillEnvironment ext quota).TraceDrift (Bound disk start [] [])
      (SyncEngine.runOnce ext config options)
      (fun result s => ∀ report, result = .ran report →
        Beside config ∧ (SyncEngine.enabledRoots config).Nodup ∧
          Finished ext disk start config report s)
      (fun _ => True) fun _ => True := by
  have hk : Kept (stillEnvironment ext quota) disk (On (Bound disk start [] []) fun _ => True) :=
    base_bound.kept fun _ _ h => h
  refine TryTriple.pre (P := On (Bound disk start [] []) fun _ => True) ?_ fun _ h => ⟨h,trivial⟩
  have hthrow : ∀ {α : Type} (Q : α → Traced RemoteDisk SyncMemory → Prop) (error : SyncError),
      TryTriple ((stillEnvironment ext quota).TraceStep SoundStep)
        (stillEnvironment ext quota).TraceDrift (On (Bound disk start [] []) fun _ => True)
        (throw error : Engine α) Q (fun _ => True) fun _ => True :=
    fun _ _ => TryTriple.throw fun _ _ => trivial
  have hok : ∀ {α : Type} {p : Engine α} {P Q}, Runs (stillEnvironment ext quota) P p Q →
      TryTriple ((stillEnvironment ext quota).TraceStep SoundStep)
        (stillEnvironment ext quota).TraceDrift P p Q (fun _ => True) fun _ => True :=
    fun h => h.weaken (fun _ h => h) (fun _ _ h => h) (fun _ _ => trivial) fun _ _ => trivial
  by_cases hvalid : (validateConfig ext config).isValid = true
  · have hensure : Runs (stillEnvironment ext quota) (On (Bound disk start [] []) fun _ => True)
        (SyncEngine.ensureValidConfig ext config) fun _ =>
          On (Bound disk start [] []) fun _ => True := by
      unfold SyncEngine.ensureValidConfig
      rw [if_pos hvalid]
      exact TryTriple.pure fun _ h => h
    have hmigrate : Runs (stillEnvironment ext quota) (On (Bound disk start [] []) fun _ => True)
        (SyncEngine.wantsMigration config options.trigger) fun _ =>
          On (Bound disk start [] []) fun _ => True :=
      iteInduction (motive := fun p => Runs _ _ p _) (fun _ => TryTriple.pure fun _ h => h)
        fun _ => shouldAutoMigrate_runs config hk
    have hbeside := beside_of_accepted ⟨config,hvalid⟩ hnested
    have hcanonical : ∀ root ∈ SyncEngine.enabledRoots config,
        ∃ canonical, root.canonicalPath config = .ok canonical := fun root hr =>
      AcceptedConfig.canonicalPath_ok ⟨config,hvalid⟩ (List.mem_filter.mp hr).1
    have hnodup : (SyncEngine.enabledRoots config).Nodup := by
      refine List.Nodup.filter _ ?_
      refine (validateRootsLoop_nil (AcceptedConfig.roots_valid ⟨config,hvalid⟩)).2.imp ?_
      exact fun hne he => hne.1 (congrArg _ he)
    refine TryTriple.bind (hok hensure) fun _ => TryTriple.bind (hok hmigrate) fun migrate => ?_
    refine iteInduction (motive := fun p => TryTriple _ _ _ p _ _ _)
      (fun _ => TryTriple.pure fun _ _ _ he => nomatch he) fun _ => ?_
    refine TryTriple.bind (hok ((acquireRunLock_runs hk _ _).post fun _ _ h => h.2))
      fun acquired => ?_
    cases acquired with
    | error error => exact hthrow _ _
    | ok found =>
      cases found with
      | none => exact hthrow _ _
      | some guard =>
        refine TryTriple.bind (hok ((runLocked_runs hsuited hbeside hcanonical hnodup
          options.trigger options.forceRemoteRescan hforce guard).pre fun _ h => h.1)) fun report =>
            TryTriple.pure fun s h report' he => ?_
        cases he
        exact ⟨hbeside,hnodup,h⟩
  · have hensure : SyncEngine.ensureValidConfig ext config = throw _ := if_neg hvalid
    unfold SyncEngine.runOnce
    rw [hensure]
    exact hthrow _ _

end Chain

/-! A second run on what a first one has left. -/
section Again

variable {config : AppConfig} {syncs syncs' : List StaticSync} {again : SyncRunReport}
  {s t : Traced RemoteDisk SyncMemory}

theorem enabledIn_unique {i j : ManagedRoot} (hi : i.EnabledIn config) (hj : j.EnabledIn config)
    (he : i.config = j.config) : i = j := by
  obtain ⟨iconfig,iremote,icanonical,imapped⟩ := i
  obtain ⟨jconfig,jremote,jcanonical,jmapped⟩ := j
  obtain rfl : iconfig = jconfig := he
  obtain rfl : iremote = jremote := hi.2.2.trans hj.2.2.symm
  obtain rfl : icanonical = jcanonical := Except.ok.inj (imapped.symm.trans jmapped)
  rfl

/-- A run has a sync for every enabled root that is there. -/
theorem Synced.exists_sync
    (h : Synced ext disk start config (SyncEngine.enabledRoots config) syncs report)
    {root : ManagedRoot} (hroot : root.EnabledIn config) (hdir : disk.isDir root.directory = true) :
    ∃ sync ∈ syncs, sync.root = root := by
  have hmem : root.config ∈ syncs.map fun sync => sync.root.config := by
    rw [h.roots]
    exact List.mem_filter.mpr ⟨List.mem_filter.mpr ⟨hroot.1,hroot.2.1⟩,hdir⟩
  obtain ⟨sync,hs,he⟩ := List.mem_map.mp hmem
  exact ⟨sync,hs,enabledIn_unique (h.enabled (fun _ h => h) hs) hroot he⟩

/-- What a run has mirrored can be mirrored to again. -/
theorem Progress.suited
    (h : Progress ext disk start config (SyncEngine.enabledRoots config) syncs report s)
    (hsuited : Suited ext disk start config) (hbeside : Beside config)
    (hnodup : (SyncEngine.enabledRoots config).Nodup) :
    Suited ext disk s.world.remote config where
  keyed := h.remote ▸ hsuited.keyed.applyAll _
  mirrorable root hroot hdir := by
    obtain ⟨sync,hs,rfl⟩ := h.synced.exists_sync hroot hdir
    exact (h.mirrored hbeside (fun _ h => h) hnodup hs).mirrorable (h.synced.each sync hs)
      (hsuited.mirrorable _ hroot hdir)

/-- Two runs on one disk have syncs of the same roots. -/
theorem Synced.same_root {start' : RemoteDisk}
    (h : Synced ext disk start config (SyncEngine.enabledRoots config) syncs report)
    (h' : Synced ext disk start' config (SyncEngine.enabledRoots config) syncs' again)
    {sync' : StaticSync} (hs' : sync' ∈ syncs') : ∃ sync ∈ syncs, sync'.root = sync.root := by
  have hmem : sync'.root.config ∈ (SyncEngine.enabledRoots config).filter fun root =>
      disk.isDir (pathComponents root.localPath) := h'.roots ▸ List.mem_map_of_mem hs'
  obtain ⟨sync,hs,he⟩ := h.exists_sync (h'.enabled (fun _ h => h) hs') (List.mem_filter.mp hmem).2
  exact ⟨sync,hs,he.symm⟩

/-- Two runs from one disk and one remote leave the same entries. -/
theorem Progress.same_entries
    (h : Progress ext disk start config (SyncEngine.enabledRoots config) syncs report s)
    (h' : Progress ext disk start config (SyncEngine.enabledRoots config) syncs' again t)
    (hbeside : Beside config) (hnodup : (SyncEngine.enabledRoots config).Nodup) (path : Str)
    (resourceType : ResourceType) : t.world.remote.resources.holds path resourceType =
      s.world.remote.resources.holds path resourceType := by
  by_cases hc : ∃ sync' ∈ syncs', SepPath.Covers slash sync'.root.canonical path
  · obtain ⟨sync',hs',hc⟩ := hc
    obtain ⟨sync,hs,hroot⟩ := h.synced.same_root h'.synced hs'
    exact (h.mirrored hbeside (fun _ h => h) hnodup hs).same_entries
      (h'.mirrored hbeside (fun _ h => h) hnodup hs') (h.synced.each sync hs)
      (h'.synced.each sync' hs') hroot (hroot ▸ hc) resourceType
  · -- beside all roots, where both runs leave what was there
    have hbefore : RemoteDisk.SameAt start t.world.remote path :=
      h'.outside fun sync' hs' hq => hc ⟨sync',hs',hq⟩
    have hbefore' : RemoteDisk.SameAt start s.world.remote path := h.outside fun sync hs hq => by
      obtain ⟨sync',hs',hroot⟩ := h'.synced.same_root h.synced hs
      exact hc ⟨sync',hs',hroot ▸ hq⟩
    rw [holds_of_sameAt hbefore,holds_of_sameAt hbefore']

/-- What a run does where an earlier one has left the mirror of the same disk: it replaces files
it has not found unchanged, and nothing else. -/
structure Repeats (disk : LocalTree) (again : SyncRunReport) (before after : RemoteDisk) :
    Prop where
  plan : ∀ operation ∈ again.plan, ∃ file, operation = .uploadFile file true ∧
    file.fingerprint.reusedFromState = false
  files : ∀ file, .uploadFile file true ∈ again.plan →
    before.resources.holds file.remotePath .file = true ∧
      after.resources.holds file.remotePath .file = true ∧
        after.contents[file.remotePath]? = some (disk.contentOf file.uploadSource)
  others : ∀ path, (∀ file, .uploadFile file true ∈ again.plan → file.remotePath ≠ path) →
    RemoteDisk.SameAt before after path

theorem Progress.repeats
    (h : Progress ext disk start config (SyncEngine.enabledRoots config) syncs report s)
    (h' : Progress ext disk s.world.remote config (SyncEngine.enabledRoots config) syncs' again t)
    (hbeside : Beside config) (hnodup : (SyncEngine.enabledRoots config).Nodup) :
    Repeats disk again s.world.remote t.world.remote := by
  have hfirst : ∀ sync' ∈ syncs', ∃ sync ∈ syncs, sync'.root = sync.root := fun sync' hs' =>
    h.synced.same_root h'.synced hs'
  have hplanned : ∀ sync' ∈ syncs', ∀ operation ∈ sync'.plan.operations,
      ∃ file ∈ sync'.report.files, operation = .uploadFile file true ∧
        file.fingerprint.reusedFromState = false := by
    intro sync' hs' operation ho
    obtain ⟨sync,hs,hroot⟩ := hfirst sync' hs'
    exact (h.mirrored hbeside (fun _ h => h) hnodup hs).planned_again (h.synced.each sync hs)
      (h'.synced.each sync' hs') hroot ho
  refine ⟨fun operation ho => ?_,fun file hf => ?_,fun path hpath => ?_⟩
  · obtain ⟨sync',hs',ho⟩ := h'.synced.mem_plan.mp ho
    obtain ⟨file,_,he,hfresh⟩ := hplanned sync' hs' operation ho
    exact ⟨file,he,hfresh⟩
  · obtain ⟨sync',hs',ho⟩ := h'.synced.mem_plan.mp hf
    obtain ⟨sync,hs,hroot⟩ := hfirst sync' hs'
    obtain ⟨_,hfile,he,_⟩ := hplanned sync' hs' _ ho
    cases he
    have hpath : file.remotePath ∈ sync'.filePaths := List.mem_map_of_mem hfile
    have hmirrored := h.mirrored hbeside (fun _ h => h) hnodup hs
    have hmirrored' := h'.mirrored hbeside (fun _ h => h) hnodup hs'
    have hupload : (file,true) ∈ sync'.plan.uploads := List.mem_filterMap.mpr ⟨_,ho,rfl⟩
    refine ⟨hmirrored.files _ ?_,hmirrored'.files _ hpath,?_⟩
    · exact (((h.synced.each sync hs).same_paths (h'.synced.each sync' hs') hroot).2 _).mp hpath
    · rw [← (h'.synced.each sync' hs').read]
      exact hmirrored'.uploaded _ hupload
  · rw [h'.remote]
    refine RemoteDisk.sameAt_applyAll fun write hw => ?_
    obtain ⟨sync',hs',hw⟩ := h'.write_planned hw
    have hops : ∀ operation ∈ sync'.plan.operations, operation ∈ again.plan := fun _ ho =>
      h'.synced.mem_plan.mpr ⟨sync',hs',ho⟩
    rcases List.mem_append.mp hw with hw | hw
    · rcases List.mem_append.mp hw with hw | hw
      · obtain ⟨directory,hd,rfl⟩ := List.mem_map.mp hw
        obtain ⟨operation,ho,hd⟩ := List.mem_filterMap.mp hd
        obtain ⟨file,_,rfl,_⟩ := hplanned sync' hs' operation ho
        cases hd
      · obtain ⟨upload,hu,rfl⟩ := List.mem_map.mp hw
        obtain ⟨operation,ho,hu⟩ := List.mem_filterMap.mp hu
        obtain ⟨file,_,rfl,_⟩ := hplanned sync' hs' operation ho
        cases hu
        exact (hpath file (hops _ ho)).symm
    · obtain ⟨delete,hd,rfl⟩ := List.mem_map.mp hw
      obtain ⟨operation,ho,hd⟩ := List.mem_filterMap.mp hd
      obtain ⟨file,_,rfl,_⟩ := hplanned sync' hs' operation ho
      cases hd

end Again

end Mirroring

open Mirroring FaultIsolation

/-- What a run leaves: each root that is there mirrored by its own plan, all else as it was. -/
structure RunMirrors (ext : Externals) (disk : LocalTree) (start : RemoteDisk) (config : AppConfig)
    (report : SyncRunReport) (final : RemoteDisk) (syncs : List StaticSync) : Prop where
  roots : syncs.map (fun sync => sync.root.config) =
    (SyncEngine.enabledRoots config).filter fun root => disk.isDir (pathComponents root.localPath)
  scans : ∀ sync ∈ syncs, SyncOf ext (scanOptions config) disk start sync
  managed : ∀ sync ∈ syncs, sync.root.EnabledIn config
  mirrored : ∀ sync ∈ syncs, MirroredBelow sync final
  plan : report.plan = syncs.flatMap fun sync => sync.plan.operations
  outside : ∀ q, (∀ sync ∈ syncs, ¬ SepPath.Covers slash sync.root.canonical q) →
    RemoteDisk.SameAt start final q

/-- How a forced run that ends with a report has gone. -/
theorem runOnce_finished {ext : Externals} {quota : QuotaInfo} {config : AppConfig}
    {options : SyncEngine.SyncRunOptions} {s s' : Traced RemoteDisk SyncMemory}
    {report : SyncRunReport} (hsuited : Suited ext s.world.disk s.world.remote config)
    (hnested : RootsNotNested config)
    (hforce : (options.forceRemoteRescan || config.sync.forceRemoteRescan) = true)
    (htrace : s.trace = []) (htasks : s.world.tasks = []) (hrunning : s.world.cancelled = false)
    (hrun : Exec ((stillEnvironment ext quota).TraceStep SoundStep)
      (stillEnvironment ext quota).TraceDrift (SyncEngine.runOnce ext config options).run s
        (some (.ok (.ran report))) s') :
    Beside config ∧ (SyncEngine.enabledRoots config).Nodup ∧ ∃ syncs, Progress ext s.world.disk
      s.world.remote config (SyncEngine.enabledRoots config) syncs report s' := by
  have hstart : Bound s.world.disk s.world.remote [] [] s :=
    ⟨⟨⟨⟨rfl,hrunning⟩,by simp [issued,htrace,htasks],by simp,by simp [htrace]⟩,htasks⟩,
      ⟨rfl,hrunning⟩,by simp [htrace,RemoteDisk.applyAll],by simp [htrace],by simp [htrace],
      by simp [htasks]⟩
  exact runOnce_runs hsuited hnested options hforce s _ s' hstart hrun report rfl

/-- A forced run that ends with a report has mirrored every root that is there. -/
theorem runOnce_mirrors (ext : Externals) (quota : QuotaInfo) (config : AppConfig)
    (options : SyncEngine.SyncRunOptions) {s s' : Traced RemoteDisk SyncMemory}
    {report : SyncRunReport} (hsuited : Suited ext s.world.disk s.world.remote config)
    (hnested : RootsNotNested config)
    (hforce : (options.forceRemoteRescan || config.sync.forceRemoteRescan) = true)
    (htrace : s.trace = []) (htasks : s.world.tasks = []) (hrunning : s.world.cancelled = false)
    (hrun : Exec ((stillEnvironment ext quota).TraceStep SoundStep)
      (stillEnvironment ext quota).TraceDrift (SyncEngine.runOnce ext config options).run s
        (some (.ok (.ran report))) s') :
    ∃ syncs, RunMirrors ext s.world.disk s.world.remote config report s'.world.remote syncs := by
  obtain ⟨hbeside,hnodup,syncs,hprogress⟩ :=
    runOnce_finished hsuited hnested hforce htrace htasks hrunning hrun
  exact ⟨syncs,hprogress.synced.roots,hprogress.synced.each,
    fun sync hs => hprogress.synced.enabled (fun _ h => h) hs,
    fun sync hs => hprogress.mirrored hbeside (fun _ h => h) hnodup hs,hprogress.synced.plan,
    fun q hq => hprogress.outside hq⟩

/-- A forced run on what an earlier one has left of the same disk creates nothing and deletes
nothing; it replaces the files it has not found unchanged. -/
theorem runOnce_repeats (ext : Externals) (quota quota' : QuotaInfo) (config : AppConfig)
    (options options' : SyncEngine.SyncRunOptions) {s s' t t' : Traced RemoteDisk SyncMemory}
    {report again : SyncRunReport} (hsuited : Suited ext s.world.disk s.world.remote config)
    (hnested : RootsNotNested config)
    (hforce : (options.forceRemoteRescan || config.sync.forceRemoteRescan) = true)
    (htrace : s.trace = []) (htasks : s.world.tasks = []) (hrunning : s.world.cancelled = false)
    (hrun : Exec ((stillEnvironment ext quota).TraceStep SoundStep)
      (stillEnvironment ext quota).TraceDrift (SyncEngine.runOnce ext config options).run s
        (some (.ok (.ran report))) s')
    (hdisk : t.world.disk = s.world.disk) (hremote : t.world.remote = s'.world.remote)
    (hforce' : (options'.forceRemoteRescan || config.sync.forceRemoteRescan) = true)
    (htrace' : t.trace = []) (htasks' : t.world.tasks = [])
    (hrunning' : t.world.cancelled = false)
    (hrun' : Exec ((stillEnvironment ext quota').TraceStep SoundStep)
      (stillEnvironment ext quota').TraceDrift (SyncEngine.runOnce ext config options').run t
        (some (.ok (.ran again))) t') :
    Repeats s.world.disk again s'.world.remote t'.world.remote := by
  obtain ⟨hbeside,hnodup,syncs,hprogress⟩ :=
    runOnce_finished hsuited hnested hforce htrace htasks hrunning hrun
  have hsuited' : Suited ext t.world.disk t.world.remote config := by
    rw [hdisk,hremote]
    exact hprogress.suited hsuited hbeside hnodup
  obtain ⟨_,_,syncs',hprogress'⟩ :=
    runOnce_finished hsuited' hnested hforce' htrace' htasks' hrunning' hrun'
  rw [hdisk,hremote] at hprogress'
  exact hprogress.repeats hprogress' hbeside hnodup

/-- Forced runs from one disk and one remote leave the same entries, whatever the rows they find,
the digests they get and the order their tasks end in. -/
theorem runOnce_same_entries (ext : Externals) (quota quota' : QuotaInfo) (config : AppConfig)
    (options options' : SyncEngine.SyncRunOptions) {s s' t t' : Traced RemoteDisk SyncMemory}
    {report again : SyncRunReport} (hsuited : Suited ext s.world.disk s.world.remote config)
    (hnested : RootsNotNested config)
    (hforce : (options.forceRemoteRescan || config.sync.forceRemoteRescan) = true)
    (htrace : s.trace = []) (htasks : s.world.tasks = []) (hrunning : s.world.cancelled = false)
    (hrun : Exec ((stillEnvironment ext quota).TraceStep SoundStep)
      (stillEnvironment ext quota).TraceDrift (SyncEngine.runOnce ext config options).run s
        (some (.ok (.ran report))) s')
    (hdisk : t.world.disk = s.world.disk) (hremote : t.world.remote = s.world.remote)
    (hforce' : (options'.forceRemoteRescan || config.sync.forceRemoteRescan) = true)
    (htrace' : t.trace = []) (htasks' : t.world.tasks = [])
    (hrunning' : t.world.cancelled = false)
    (hrun' : Exec ((stillEnvironment ext quota').TraceStep SoundStep)
      (stillEnvironment ext quota').TraceDrift (SyncEngine.runOnce ext config options').run t
        (some (.ok (.ran again))) t') (path : Str) (resourceType : ResourceType) :
    t'.world.remote.resources.holds path resourceType =
      s'.world.remote.resources.holds path resourceType := by
  obtain ⟨hbeside,hnodup,syncs,hprogress⟩ :=
    runOnce_finished hsuited hnested hforce htrace htasks hrunning hrun
  have hsuited' : Suited ext t.world.disk t.world.remote config := by
    rw [hdisk,hremote]
    exact hsuited
  obtain ⟨_,_,syncs',hprogress'⟩ :=
    runOnce_finished hsuited' hnested hforce' htrace' htasks' hrunning' hrun'
  rw [hdisk,hremote] at hprogress'
  exact hprogress.same_entries hprogress' hbeside hnodup path resourceType

section Sample

/-! A directory with a file is mirrored over a remote with a file of its own. -/

private def mirrorConfig : AppConfig :=
  { defaultConfig with
    roots := [{ id := "r".toList, name := "r".toList, enabled := true, localPath := "/r".toList }] }

private def mirrorRoot : ManagedRoot :=
  ⟨{ id := "r".toList, name := "r".toList, enabled := true, localPath := "/r".toList },
    "disk:/Backup".toList,"disk:/Backup/r".toList,by decide⟩

private def mirrorDisk : LocalTree where
  items := [
    { components := ["r".toList], fileType := .dir, sizeBytes_lt := emptySize_lt },
    { components := ["r".toList,"d".toList], fileType := .dir, sizeBytes_lt := emptySize_lt },
    { components := ["r".toList,"d".toList,"f".toList], fileType := .file, sizeBytes := 1
      sizeBytes_lt := byteSize_lt, content := "x".toList }]
  names_ne := by decide
  nodup := by decide
  closed := by decide +kernel

private def mirrorRemote : RemoteDisk :=
  { resources := Inventory.ofResources [.ofDirectory "disk:/Backup/r".toList,
      .ofFile "disk:/Backup/r/old".toList 1] }

private def mirrorStart : Traced RemoteDisk SyncMemory where
  world := {
    disk := mirrorDisk
    remote := mirrorRemote
    repository := ({} : Repository).upsertDirectoryState {
      rootId := "r".toList, localPath := "/r/d".toList, relativePath := "d".toList
      remotePath := "disk:/Backup/r/d".toList, normalizedRemotePath := "disk:/backup/r/d".toList
      lastRunId := none, status := .failed, lastError := none }
    tasks := []
    cancelled := false
    now := 0
    memory := { report := { runId := 1 } } }

private def mirrorScenario : Scenario RemoteDisk SyncMemory :=
  { respond := mockResponder ⟨none,none⟩ }

private def mirrorOptions : SyncEngine.SyncRunOptions :=
  { lockOwner := "a".toList, staleLockAfter := 3600, forceRemoteRescan := true }

private def mirrorCheck (_ : Traced RemoteDisk SyncMemory) :
    (e : Effect SyncMemory) → e.Answer → Bool
  | .state (.markFailed record), answer =>
    answer.isOk && record.operation != "quota_check".toList
  | .state _, answer => answer.isOk
  | .removeFile _, answer => answer.isOk
  | _, _ => true

private theorem soundStep_of_mirrorCheck {s t : Traced RemoteDisk SyncMemory}
    {e : Effect SyncMemory} {answer : e.Answer} (h : mirrorCheck s e answer = true) :
    SoundStep t e answer := by
  cases e with
  | state call =>
    cases call with
    | markFailed record => simpa [mirrorCheck,SoundStep] using h
    | _ => exact h
  | removeFile path =>
    cases answer with
    | ok _ => trivial
    | error error => cases h
  | _ => trivial

/-- The rows of a run next to the remote it has started from. -/
private def rewind (s : Traced RemoteDisk SyncMemory) : Traced RemoteDisk SyncMemory :=
  { world := { s.world with
      disk := mirrorDisk, remote := mirrorRemote, tasks := [], cancelled := false } }

private def runFrom (start : Traced RemoteDisk SyncMemory) :
    Option (Except SyncError SyncEngine.RunOnceResult × Traced RemoteDisk SyncMemory) :=
  runChecked (fun s e => s.answer mirrorScenario asciiExternals e) mirrorCheck
    (SyncEngine.runOnce asciiExternals mirrorConfig mirrorOptions).run start

private def mirrorRun :
    Option (Except SyncError SyncEngine.RunOnceResult × Traced RemoteDisk SyncMemory) :=
  runFrom mirrorStart

/-- The start of the next run, with the rows and the remote of the one before. -/
private def restart (s : Traced RemoteDisk SyncMemory) : Traced RemoteDisk SyncMemory :=
  { world := { s.world with disk := mirrorDisk, tasks := [], cancelled := false } }

/-- The report of a run that was not handed over. -/
private def SyncEngine.RunOnceResult.report? : SyncEngine.RunOnceResult → Option SyncRunReport
  | .ran report => some report
  | .migrate => none

private theorem mirrorRoot_of_enabled {root : ManagedRoot} (h : root.EnabledIn mirrorConfig) :
    root = mirrorRoot :=
  enabledIn_unique h ⟨List.mem_singleton.mpr rfl,rfl,rfl⟩ (List.mem_singleton.mp h.1)

private theorem mirrorItems : (mirrorDisk.below mirrorRoot.directory).items = [
    { components := ["d".toList], fileType := .dir, sizeBytes_lt := emptySize_lt },
    { components := ["d".toList,"f".toList], fileType := .file, sizeBytes := 1
      sizeBytes_lt := byteSize_lt, content := "x".toList }] := by
  decide +kernel

private theorem plainName_letter {c : Char} (hkept : keptChar c = true)
    (hblank : isWhitespace c = false) : PlainName [c] :=
  ⟨⟨by simp,by simpa using hkept⟩,fun d hd => by
    cases hd
    exact hblank⟩

private theorem mem_mirrorRemote {q : Str} (h : q ∈ mirrorRemote.resources) :
    q = "disk:/Backup/r/old".toList ∨ q = mirrorRoot.canonical := by
  change q ∈ Inventory.ofResources _ at h
  simp only [Inventory.ofResources,List.foldl_cons,List.foldl_nil,Std.TreeMap.mem_insert] at h
  rcases h with h | h | h
  · exact Or.inl (Std.LawfulEqCmp.eq_of_compare h).symm
  · exact Or.inr (Std.LawfulEqCmp.eq_of_compare h).symm
  · simp at h

private theorem mirrorable_sample : Mirrorable asciiExternals (Mirroring.scanOptions mirrorConfig)
    mirrorDisk mirrorRemote mirrorRoot where
  scans previousStates := ⟨_,rfl⟩
  maps item hi := by
    rw [mirrorItems] at hi
    have hd : PlainName "d".toList := plainName_letter rfl rfl
    have hf : PlainName "f".toList := plainName_letter rfl rfl
    rcases List.mem_cons.mp hi with rfl | hi
    · exact mapsBelow_plain mirrorRoot.isRemotePath (by simpa using hd) (by simp)
    · rw [List.mem_singleton.mp hi]
      exact mapsBelow_plain mirrorRoot.isRemotePath (by simpa using ⟨hd,hf⟩) (by simp)
  distinct a ha b hb p q hp hq he := by
    rw [mirrorItems] at ha hb
    have hdirectory : remotePathForRelative mirrorRoot.canonical (relativePathOf ["d".toList]) =
        .ok "disk:/Backup/r/d".toList := by decide +kernel
    have hfile : remotePathForRelative mirrorRoot.canonical
        (relativePathOf ["d".toList,"f".toList]) = .ok "disk:/Backup/r/d/f".toList := by
      decide +kernel
    rcases List.mem_cons.mp ha with rfl | ha
    · rcases List.mem_cons.mp hb with rfl | hb
      · rfl
      · rw [List.mem_singleton.mp hb,hfile] at hq
        rw [hdirectory] at hp
        cases hp
        cases hq
        exact absurd he (by decide)
    · rw [List.mem_singleton.mp ha] at hp ⊢
      rcases List.mem_cons.mp hb with rfl | hb
      · rw [hdirectory] at hq
        rw [hfile] at hp
        cases hp
        cases hq
        exact absurd he (by decide)
      · exact (List.mem_singleton.mp hb).symm
  unstaged item hi _ := by
    rw [mirrorItems] at hi
    rcases List.mem_cons.mp hi with rfl | hi
    · decide
    · rw [List.mem_singleton.mp hi]
      decide
  rootFree := by decide +kernel
  directoriesFree item hi htype path hpath := by
    rw [mirrorItems] at hi
    rcases List.mem_cons.mp hi with rfl | hi
    · have hdirectory : remotePathForRelative mirrorRoot.canonical (relativePathOf ["d".toList]) =
          .ok "disk:/Backup/r/d".toList := by decide +kernel
      rw [hdirectory] at hpath
      cases hpath
      decide +kernel
    · rw [List.mem_singleton.mp hi] at htype
      cases htype
  filesFree item hi htype path hpath := by
    rw [mirrorItems] at hi
    rcases List.mem_cons.mp hi with rfl | hi
    · cases htype
    · have hfile : remotePathForRelative mirrorRoot.canonical
          (relativePathOf ["d".toList,"f".toList]) = .ok "disk:/Backup/r/d/f".toList := by
        decide +kernel
      rw [List.mem_singleton.mp hi,hfile] at hpath
      cases hpath
      decide +kernel
  closed q hq m hm hmq := by
    have hshort : ¬ Beneath slash m mirrorRoot.canonical := fun h =>
      absurd (hm.isPrefix.length_le) (Nat.not_le.mpr h.length_lt)
    rcases mem_mirrorRemote hq with rfl | rfl
    · have hlast : "disk:/Backup/r/old".toList = mirrorRoot.canonical ++ slash :: "old".toList := by
        decide
      rw [hlast,beneath_snoc_iff (by decide)] at hmq
      have he : mirrorRoot.canonical = m := hm.antisymm hmq
      rw [← he]
      decide +kernel
    · exact absurd hmq hshort
  named q hq relativePath he := by
    rcases mem_mirrorRemote hq with rfl | rfl
    · have hrelative : relativePath = "old".toList := by
        have hlast : "disk:/Backup/r/old".toList = mirrorRoot.canonical ++ slash :: "old".toList := by
          decide
        rw [hlast] at he
        simpa using he.symm
      subst hrelative
      decide
    · simpa using congrArg List.length he

private theorem mirror_suited : Suited asciiExternals mirrorDisk mirrorRemote mirrorConfig :=
  ⟨Inventory.keyed_ofResources _,fun root hroot _ => by
    rw [mirrorRoot_of_enabled hroot]
    exact mirrorable_sample⟩

private theorem mirror_nested : RootsNotNested mirrorConfig := fun i j hi hj hne => by
  rw [mirrorRoot_of_enabled hi,mirrorRoot_of_enabled hj] at hne
  exact absurd rfl hne

private theorem exec_runFrom {start s : Traced RemoteDisk SyncMemory} {report : SyncRunReport}
    (h : runFrom start = some (.ok (.ran report),s)) :
    Exec ((stillEnvironment asciiExternals ⟨none,none⟩).TraceStep SoundStep)
      (stillEnvironment asciiExternals ⟨none,none⟩).TraceDrift
      (SyncEngine.runOnce asciiExternals mirrorConfig mirrorOptions).run start
      (some (.ok (.ran report))) s :=
  Scenario.exec_checked
    { admits := mockEnvironment_admits asciiExternals ⟨none,none⟩ fun _ _ => False
      cancels := fun _ _ hc => by simp [mirrorScenario] at hc }
    (fun _ _ hc => soundStep_of_mirrorCheck hc) h

/-- The report a run ends with and the state it leaves. -/
private def ranTo (run : Except SyncError SyncEngine.RunOnceResult × Traced RemoteDisk SyncMemory) :
    Option (SyncRunReport × Traced RemoteDisk SyncMemory) :=
  (run.1.toOption.bind SyncEngine.RunOnceResult.report?).map fun report => (report,run.2)

private theorem exists_of_ranTo {run : Option (Except SyncError SyncEngine.RunOnceResult ×
      Traced RemoteDisk SyncMemory)} (h : (run.bind ranTo).isSome = true) :
    ∃ report s, run = some (.ok (.ran report),s) ∧ run.bind ranTo = some (report,s) := by
  obtain ⟨⟨report,s⟩,hran⟩ := Option.isSome_iff_exists.mp h
  obtain ⟨⟨result,s'⟩,rfl,hresult⟩ := Option.bind_eq_some_iff.mp hran
  obtain ⟨report',hreport,he⟩ := Option.map_eq_some_iff.mp hresult
  obtain ⟨ended,hended,hanswer⟩ := Option.bind_eq_some_iff.mp hreport
  cases he
  cases result with
  | error error => cases hended
  | ok answer =>
    cases hended
    cases ended with
    | migrate => cases hanswer
    | ran report' =>
      cases hanswer
      exact ⟨_,_,rfl,hran⟩

/-- A sample run, and what it leaves. -/
theorem sampleRun_mirrors : ∃ s report syncs, mirrorRun = some (.ok (.ran report),s) ∧
    RunMirrors asciiExternals mirrorDisk mirrorRemote mirrorConfig report s.world.remote syncs := by
  have hran : (mirrorRun.bind ranTo).isSome = true := by decide +kernel
  obtain ⟨report,s,hrun,_⟩ := exists_of_ranTo hran
  obtain ⟨syncs,hmirrors⟩ := runOnce_mirrors asciiExternals ⟨none,none⟩ mirrorConfig
    mirrorOptions mirror_suited mirror_nested rfl rfl rfl rfl (exec_runFrom hrun)
  exact ⟨s,report,syncs,hrun,hmirrors⟩

/-- The sample run and one that follows it. -/
private theorem exists_runs {next : Traced RemoteDisk SyncMemory → Traced RemoteDisk SyncMemory}
    (h : (((mirrorRun.bind ranTo).bind fun run => runFrom (next run.2)).bind ranTo).isSome = true) :
    ∃ s report t again, mirrorRun = some (.ok (.ran report),s) ∧
      runFrom (next s) = some (.ok (.ran again),t) := by
  have hran : (mirrorRun.bind ranTo).isSome = true := by
    cases hm : mirrorRun.bind ranTo with
    | none =>
      rw [hm] at h
      cases h
    | some run => rfl
  obtain ⟨report,s,hrun,hresult⟩ := exists_of_ranTo hran
  rw [hresult,Option.bind_some] at h
  obtain ⟨again,t,hrun',_⟩ := exists_of_ranTo h
  exact ⟨s,report,t,again,hrun,hrun'⟩

/-- The sample run from the rows it has left itself, on the remote it has found. -/
theorem sampleRun_same_entries : ∃ s report t again, mirrorRun = some (.ok (.ran report),s) ∧
    runFrom (rewind s) = some (.ok (.ran again),t) ∧ ∀ path resourceType,
      t.world.remote.resources.holds path resourceType =
        s.world.remote.resources.holds path resourceType := by
  have hagain : (((mirrorRun.bind ranTo).bind fun run => runFrom (rewind run.2)).bind
      ranTo).isSome = true := by decide +kernel
  obtain ⟨s,report,t,again,hrun,hrun'⟩ := exists_runs hagain
  have hexec := exec_runFrom hrun
  have hexec' := exec_runFrom hrun'
  exact ⟨s,report,t,again,hrun,hrun',runOnce_same_entries (s := mirrorStart) (t := rewind s)
    asciiExternals ⟨none,none⟩ ⟨none,none⟩ mirrorConfig mirrorOptions mirrorOptions mirror_suited
    mirror_nested rfl rfl rfl rfl hexec rfl rfl rfl rfl rfl rfl hexec'⟩

/-- The sample run again, on what it has left. -/
theorem sampleRun_repeats : ∃ s report t again, mirrorRun = some (.ok (.ran report),s) ∧
    runFrom (restart s) = some (.ok (.ran again),t) ∧
      Repeats mirrorDisk again s.world.remote t.world.remote := by
  have hagain : (((mirrorRun.bind ranTo).bind fun run => runFrom (restart run.2)).bind
      ranTo).isSome = true := by decide +kernel
  obtain ⟨s,report,t,again,hrun,hrun'⟩ := exists_runs hagain
  have hexec := exec_runFrom hrun
  have hexec' := exec_runFrom hrun'
  exact ⟨s,report,t,again,hrun,hrun',runOnce_repeats (s := mirrorStart) (t := restart s)
    asciiExternals ⟨none,none⟩ ⟨none,none⟩ mirrorConfig mirrorOptions mirrorOptions mirror_suited
    mirror_nested rfl rfl rfl rfl hexec rfl rfl rfl rfl rfl rfl hexec'⟩

end Sample

end YaDiskSync

import YaDiskSync.FaultIsolation
import YaDiskSync.LockRelease

/-! A whole sync run under faults, from the scan of a root to the status of the run. -/
namespace YaDiskSync

open Prog

/-- The lock has not been taken and no client call issued. -/
structure Unstarted {μ : Type} (trace : List (Happening μ)) : Prop where
  unlocked : trace.any takesLock = false
  unissued : trace.any Happening.issues = false

/-- A run that was not started: its configuration is invalid, or another run has the lock. -/
structure TurnedAway {μ : Type} (ext : Externals) (config : AppConfig) (error : SyncError)
    (trace : List (Happening μ)) : Prop extends Unstarted trace where
  because : if (validateConfig ext config).isValid then
      error = .alreadyRunning ∧ trace.any refusesLock = true
    else ∃ errors, error = .configInvalid errors

namespace FaultIsolation

variable {ρ : Type} {disk : LocalTree} {calls : List ClientCall} {settled : List Str}
  {s s' : Traced ρ SyncMemory}

section Scans

/-- What a path names in a tree. -/
theorem item?_of_mem {tree : LocalTree} {item : LocalItem} (h : item ∈ tree.items) :
    tree.item? item.components = some item := by
  unfold LocalTree.item?
  cases hf : tree.items.find? fun other => other.components == item.components with
  | none => simpa using List.find?_eq_none.mp hf item h
  | some other =>
    have hcomponents : other.components = item.components := by simpa using List.find?_some hf
    rw [List.inj_on_of_nodup_map tree.nodup (List.mem_of_find?_eq_some hf) h hcomponents]

/-- The entries of a scan are there as long as the disk stays as it is. -/
theorem scanned_present {ext : Externals} {oracle : ScanOracle} {faults : ScanFaults}
    {options : ScanOptions} {root : ScanRoot} {previousStates : List FileStateRecord}
    {scanned : ScanReport} (h : scanRoot ext oracle faults options root previousStates
      (disk.below root.localPath) = .ok scanned) :
    (∀ d ∈ scanned.directories, disk.isDir d.localPath = true) ∧
      ∀ f ∈ scanned.files, Present disk root.localPath f.localPath := by
  unfold scanRoot at h
  cases hcontext : scanContext ext options root previousStates with
  | error error =>
    rw [hcontext] at h
    cases h
  | ok context =>
    have hroot : context.root = root := by
      unfold scanContext at hcontext
      split at hcontext
      · cases hcontext
      · dsimp only at hcontext
        split at hcontext
        · cases hcontext
        · cases hcontext
          rfl
    rw [hcontext] at h
    cases h
    constructor
    · intro d hd
      obtain ⟨item,hi,_,he⟩ := mem_scanReport_directories.mp hd
      obtain ⟨ht,_,hentry⟩ := handleWalkEntry_directory he
      obtain ⟨whole,hw,hb⟩ := List.mem_filterMap.mp hi
      obtain ⟨rest,_,hc,rfl⟩ := LocalTree.belowItem_eq_some.mp hb
      rw [(directoryEntry_remotePath hentry).2.2.1,hroot]
      have hitem := item?_of_mem hw
      rw [hc] at hitem
      have htype : whole.fileType = .dir := ht
      simp [LocalTree.isDir,hitem,htype]
    · intro f hf
      obtain ⟨item,hi,_,he⟩ := mem_scanReport_files.mp hf
      obtain ⟨_,_,hentry⟩ := handleWalkEntry_file he
      obtain ⟨whole,hw,hb⟩ := List.mem_filterMap.mp hi
      obtain ⟨rest,hne,hc,rfl⟩ := LocalTree.belowItem_eq_some.mp hb
      rw [(fileEntry_spec hentry).localPath,hroot]
      refine Or.inr ⟨root.localPath ++ rest.dropLast,?_,?_⟩
      · unfold parent?
        rw [if_neg (by simp [hne]),List.dropLast_append_of_ne_nil hne]
      · by_cases hdrop : rest.dropLast = []
        · exact Or.inl (by simp [hdrop])
        · have hwhole : whole.components.dropLast = root.localPath ++ rest.dropLast := by
            rw [hc,List.dropLast_append_of_ne_nil hne]
          have hparent : whole.components.dropLast ≠ [] := by
            rw [hwhole]
            exact fun h => hdrop (List.append_eq_nil_iff.mp h).2
          obtain ⟨parent,hp,hpc,_⟩ := disk.closed whole hw hparent
          have hitem := item?_of_mem hp
          rw [hpc,hwhole] at hitem
          exact Or.inr (by simp [LocalTree.pathExists,hitem])

/-- A plan of entries that are there, with nothing registered. -/
structure OnDisk (disk : LocalTree) (rootPath : LocalPath) (plan : LiveScanPlan) : Prop where
  rootLocalPath : plan.rootLocalPath = rootPath
  deletedSubtrees : plan.deletedSubtrees = []
  directories : ∀ d ∈ plan.directories, Present disk rootPath d.localPath
  files : ∀ f ∈ plan.files, Present disk rootPath f.localPath

variable {env : Environment ρ} {B : Traced ρ SyncMemory → Prop} (hb : Base env disk B)
  {report : SyncRunReport} (root : SyncRootConfig) (runId : Int) (baseSummary : SyncRunSummary)

/-- The report of the run is as it was. -/
def Reported (report : SyncRunReport) (memory : SyncMemory) : Prop := memory.report = report

theorem unsummarized_reported : Unsummarized (Reported report) := fun _ _ h => h

include hb

/-- An assignment that leaves the report alone. -/
theorem assign_runs {φ ψ : SyncMemory → Prop} (hφ : Unsummarized φ) {f : SyncMemory → SyncMemory}
    (hf : ∀ memory, φ memory → ψ (f memory)) :
    Runs env (On B φ) (SyncEngine.perform (.updateMemory f)) fun _ => On B ψ := by
  have hk := hb.kept hφ
  refine TryTriple.perform hk.stable hk.respected fun s _ s' h hstep =>
    ⟨hb.mute _ _ _ _ rfl h.1 hstep,?_⟩
  rw [hstep.2.1.memory_update]
  exact hf _ h.2

theorem pushScannedDirectories_runs (directories : List LocalDirectoryEntry) (plan : LiveScanPlan)
    (hplan : plan.deletedSubtrees = [])
    (hdirectories : ∀ d ∈ directories, disk.isDir d.localPath = true) :
    Runs env (On B (Reported report))
      (LiveScanPlan.pushScannedDirectories (m := Engine)
        (fun path => SyncEngine.perform (.isDir path)) SyncEngine.setScanPlan directories plan)
      fun plan' s => plan' = { plan with directories := plan.directories ++ directories } ∧
        On B (Reported report) s := by
  have hk : Kept env disk (On B (Reported report)) := hb.kept unsummarized_reported
  induction directories generalizing plan with
  | nil => exact TryTriple.pure fun _ h => ⟨by simp,h⟩
  | cons directory directories ih =>
    have hpush : Runs env (On B (Reported report))
        (LiveScanPlan.pushScannedDirectory (m := Engine)
          (fun path => SyncEngine.perform (.isDir path)) plan directory)
        fun plan' s => plan' = { plan with directories := plan.directories ++ [directory] } ∧
          On B (Reported report) s := by
      unfold LiveScanPlan.pushScannedDirectory
      rw [if_neg (by simp [LiveScanPlan.isDeletedRelativePath,hplan])]
      refine TryTriple.bind (isDir_runs hk directory.localPath) fun isDir =>
        TryTriple.of_pure (fun s h => h.1) fun hisDir => ?_
      rw [hisDir,hdirectories directory (by simp)]
      exact TryTriple.pure fun _ h => ⟨rfl,h.2⟩
    refine TryTriple.bind hpush fun plan' => TryTriple.of_pure (fun s h => h.1) ?_
    rintro rfl
    have hkeep : ∀ plan', Runs env (On B (Reported report)) (SyncEngine.setScanPlan plan')
        fun _ => On B (Reported report) :=
      fun _ => assign_runs hb unsummarized_reported fun _ h => h
    refine TryTriple.bind ((hkeep _).pre fun _ h => h.2) fun _ => ?_
    refine (ih { plan with directories := plan.directories ++ [directory] } hplan
      fun d hd => hdirectories d (by simp [hd])).post fun plan' s h => ⟨?_,h.2⟩
    rw [h.1]
    simp

/-- The scan of an unchanged disk becomes a plan that holds all of it. -/
theorem planScan_runs (scanReport : ScanReport)
    (hdirectories : ∀ d ∈ scanReport.directories, disk.isDir d.localPath = true)
    (hfiles : ∀ f ∈ scanReport.files, Present disk (pathComponents root.localPath) f.localPath) :
    Runs env (On B (Reported report))
      (SyncEngine.planScan root runId baseSummary scanReport)
      fun plan s => OnDisk disk (pathComponents root.localPath) plan ∧
        On B (Planned plan report) s := by
  have hk : Kept env disk (On B (Reported report)) := hb.kept unsummarized_reported
  refine TryTriple.bind ((reporting_runs hk).recordScanFindings scanReport) fun _ => ?_
  have hscan : Runs env (On B (Reported report))
      (LiveScanPlan.fromScanReport (m := Engine) (fun path => SyncEngine.perform (.isDir path))
        SyncEngine.setScanPlan (pathComponents root.localPath) scanReport)
      fun plan s => OnDisk disk (pathComponents root.localPath) plan ∧
        On B (Reported report) s := by
    refine TryTriple.bind (pushScannedDirectories_runs hb _ _ rfl fun d hd =>
      hdirectories d (mem_sortByKey.mp hd)) fun plan => TryTriple.of_pure (fun s h => h.1) ?_
    rintro rfl
    refine TryTriple.pure fun s h => ⟨⟨rfl,rfl,fun d hd => Or.inl (hdirectories d ?_),
      fun f hf => hfiles f (List.mem_filter.mp hf).1⟩,h.2⟩
    simpa using hd
  refine TryTriple.bind hscan fun plan => TryTriple.of_pure (fun s h => h.1) fun hdisk => ?_
  have hset : Runs env (On B (Reported report)) (SyncEngine.setLivePlan plan)
      fun _ => On B (Planned plan report) :=
    assign_runs hb unsummarized_reported fun _ h => ⟨rfl,h⟩
  have hk' : Kept env disk (On B (Planned plan report)) := hb.kept unsummarized_planned
  exact TryTriple.bind (hset.pre fun _ h => h.2) fun _ =>
    TryTriple.bind (modifySummary_runs hk' _) fun _ =>
      TryTriple.bind ((reporting_runs hk').recordDeletedSubtrees runId _) fun _ =>
        TryTriple.bind ((quiet_runs hk' runId baseSummary).persistRootProgress) fun _ =>
          TryTriple.pure fun _ h => ⟨hdisk,h⟩

end Scans

section Root

variable {env : Environment ρ} (hu : Undisturbed env) {report : SyncRunReport} (config : AppConfig)
  (root : SyncRootConfig) (runId : Int) (baseSummary : SyncRunSummary) {canonical : Str}

def plannedCalls (report : SyncRunReport) : List ClientCall :=
  report.plan.filterMap SyncPlanOperation.call

/-- The path a planned delete deletes. -/
def deletedPath : SyncPlanOperation → Option Str
  | .deleteRemote delete => some delete.remotePath
  | _ => none

def plannedDeletes (report : SyncRunReport) : List Str := report.plan.filterMap deletedPath

/-- Nothing planned is left to do. -/
def Idle (disk : LocalTree) (report : SyncRunReport) (s : Traced ρ SyncMemory) : Prop :=
  On (Alone disk (plannedCalls report) (plannedDeletes report)) (Reported report) s

/-- After a root: stopped, or idle with the same roots in the report. -/
def RootDone (disk : LocalTree) (roots : Nat) (stop : Bool) (s : Traced ρ SyncMemory) : Prop :=
  if stop then Halted disk s
  else ∃ report : SyncRunReport, report.roots.length = roots ∧ Idle disk report s

theorem plannedCalls_buildRootPlan (ext : Externals) (plan : LiveScanPlan) (inventory : Inventory) :
    let rootPlan := buildRootPlan ext root canonical plan inventory
    rootPlan.operations.filterMap SyncPlanOperation.call =
      createCalls rootPlan.createDirectories ++ uploadCalls rootPlan.uploads := by
  simp only [createDirectories_buildRootPlan,uploads_buildRootPlan]
  simp [buildRootPlan,createCalls,uploadCalls,List.filterMap_map,SyncPlanOperation.call,
    Function.comp_def]

theorem mem_plannedDeletes_buildRootPlan {ext : Externals} {plan : LiveScanPlan}
    {inventory : Inventory} {path : Str}
    (h : path ∈ (buildRootPlan ext root canonical plan inventory).operations.filterMap
      deletedPath) :
    path ∈ (collectCoalescedDeleteOperations root canonical plan inventory).map
      RemoteDeleteOperation.remotePath := by
  obtain ⟨operation,ho,hp⟩ := List.mem_filterMap.mp h
  cases operation with
  | createDirectory _ => cases hp
  | uploadFile _ _ => cases hp
  | deleteRemote delete =>
    cases hp
    have hdelete : delete ∈ (buildRootPlan ext root canonical plan inventory).deletes :=
      List.mem_filterMap.mpr ⟨_,ho,rfl⟩
    exact List.mem_map_of_mem (mem_deletes_buildRootPlan.mp hdelete)

include hu

theorem finishRoot_runs {plan : LiveScanPlan} {stop : Bool} :
    Runs env (Through disk plan report calls settled stop)
      (SyncEngine.finishRootCancelledOrFailed root)
      fun _ => Through disk plan report calls settled stop := by
  cases stop with
  | false =>
    have hk : Kept env disk (Busy disk plan report calls settled) :=
      (base_alone hu).kept unsummarized_planned
    exact (reporting_runs hk).finishRootCancelledOrFailed root
  | true =>
    refine TryTriple.bind (halted_isCancelled hu) fun cancelled => TryTriple.of_pure (fun s h => h.1) ?_
    rintro rfl
    refine TryTriple.bind ((halted_memory hu).pre fun _ h => h.2) fun memory =>
      TryTriple.of_pure (fun s h => h.1) fun hfailed => ?_
    rw [if_pos hfailed]
    exact (halted_state hu _).pre fun _ h => h.2

theorem cleanupThrough_runs {plan : LiveScanPlan} {stop : Bool} (files : List LocalFileEntry) :
    Runs env (Through disk plan report calls settled stop) (SyncEngine.cleanupStagingFiles files)
      fun _ => Through disk plan report calls settled stop := by
  cases stop with
  | false => exact cleanup_runs ((base_alone hu).kept unsummarized_planned) files
  | true =>
    induction files with
    | nil => exact TryTriple.pure fun _ h => h
    | cons file files ih =>
      unfold SyncEngine.cleanupStagingFiles
      cases file.sqliteBackupStagingPath with
      | none => exact ih
      | some path =>
        have hremove : Runs env (Halted disk) (SyncEngine.perform (.removeFile path))
            fun answer s => (∀ error, answer = .error error → error.kind = .notFound) ∧
              Halted disk s := by
          refine halted_answers hu (fun _ => rfl) (by simp) fun _ _ _ _ hstep error he => ?_
          subst he
          exact hstep.1
        refine TryTriple.bind hremove fun answer => ?_
        cases answer with
        | ok _ => exact ih.pre fun _ h => h.2
        | error error =>
          exact iteInduction (motive := fun p => Runs env _ p _) (fun _ => ih.pre fun _ h => h.2)
            fun hne => TryTriple.throw fun _ h => hne (h.1 error rfl)

theorem isCancelledThrough_runs {plan : LiveScanPlan} {stop : Bool} :
    Runs env (Through disk plan report calls settled stop) SyncEngine.isCancelled
      fun cancelled s => cancelled = false ∧ Through disk plan report calls settled stop s := by
  cases stop with
  | false => exact isCancelled_runs ((base_alone hu).kept unsummarized_planned)
  | true => exact halted_isCancelled hu

theorem persistThrough_runs {plan : LiveScanPlan} {stop : Bool} :
    Runs env (Through disk plan report calls settled stop)
      (SyncEngine.persistRootProgress runId baseSummary)
      fun _ => Through disk plan report calls settled stop := by
  cases stop with
  | false =>
    have hk : Kept env disk (Busy disk plan report calls settled) :=
      (base_alone hu).kept unsummarized_planned
    exact (quiet_runs hk runId baseSummary).persistRootProgress
  | true =>
    exact TryTriple.bind ((halted_memory hu).post fun _ _ h => h.2) fun _ => halted_state hu _

/-- The deletes of a plan, in the order of the planner. -/
theorem applyDeletes_runs {plan : LiveScanPlan} (inventory : Inventory) (fromCache : Bool) :
    Runs env (Busy disk plan report calls settled)
      (SyncEngine.applyDeletes root runId baseSummary canonical inventory fromCache)
      (Through disk plan report calls (settled ++
        (collectCoalescedDeleteOperations root canonical plan inventory).map
          RemoteDeleteOperation.remotePath)) := by
  refine TryTriple.bind (livePlan_runs (base_alone hu)) fun found =>
    TryTriple.of_pure (fun s h => h.1) ?_
  rintro rfl
  exact (deleteEach_runs hu root runId baseSummary fromCache _).pre fun _ h => h.2

/-- The three phases of a plan. -/
theorem applyPlan_runs {plan : LiveScanPlan} (hplan : plan.deletedSubtrees = [])
    (scanReport : ScanReport) (rootPlan : RootPlan) (snapshot : RemoteInventorySnapshot)
    (hcreates : ∀ d ∈ rootPlan.createDirectories, Present disk plan.rootLocalPath d.localPath)
    (huploads : ∀ u ∈ rootPlan.uploads, Present disk plan.rootLocalPath u.1.localPath) :
    Runs env (Busy disk plan report calls settled)
      (SyncEngine.applyPlan config root runId baseSummary canonical scanReport rootPlan snapshot)
      fun result => Through disk plan report
        (calls ++ createCalls rootPlan.createDirectories ++ uploadCalls rootPlan.uploads)
        (settled ++ (collectCoalescedDeleteOperations root canonical plan snapshot.resources).map
          RemoteDeleteOperation.remotePath) result.shouldStop := by
  refine TryTriple.bind (applyCreateDirectories_runs hu root runId baseSummary hplan config rootPlan
    hcreates) fun stop => ?_
  refine TryTriple.bind (isCancelledThrough_runs hu) fun cancelled =>
    TryTriple.of_pure (fun s h => h.1) ?_
  rintro rfl
  rw [Bool.or_false]
  refine TryTriple.pre ?_ fun s h => h.2
  refine Through.bind (fun hs => ?_) fun hs => ?_
  · have hcleanup : Runs env (Through disk plan report calls settled true) _ _ :=
      cleanupThrough_runs hu scanReport.files
    exact TryTriple.bind hcleanup fun _ => TryTriple.bind (finishRoot_runs hu root) fun _ =>
      TryTriple.pure fun _ h => h
  refine TryTriple.bind (applyUploads_runs hu root runId baseSummary hplan config rootPlan huploads)
    fun uploaded => ?_
  refine TryTriple.bind (cleanupThrough_runs hu scanReport.files) fun _ => ?_
  refine TryTriple.bind (isCancelledThrough_runs hu) fun cancelled =>
    TryTriple.of_pure (fun s h => h.1) ?_
  rintro rfl
  rw [Bool.or_false]
  refine TryTriple.pre ?_ fun s h => h.2
  refine Through.bind (fun hs => ?_) fun hs => ?_
  · have hfinish : Runs env (Through disk plan report calls settled true) _ _ :=
      finishRoot_runs hu root
    exact TryTriple.bind hfinish fun _ => TryTriple.pure fun _ h => h
  refine TryTriple.bind (applyDeletes_runs hu root runId baseSummary snapshot.resources
    snapshot.fromCache) fun stopAfterDelete => ?_
  refine TryTriple.bind (finishRoot_runs hu root) fun _ => ?_
  refine TryTriple.bind (persistThrough_runs hu runId baseSummary) fun _ => ?_
  exact TryTriple.pure fun _ h => h

omit hu in
/-- The quota suffices. -/
theorem failRoot_quota_runs {I : Traced ρ SyncMemory → Prop} (hk : Kept env disk I)
    {Q : Unit → Traced ρ SyncMemory → Prop} (errorKind errorMessage : Str) :
    Runs env I (SyncEngine.failRoot root "quota_check".toList errorKind errorMessage) Q := by
  refine TryTriple.bind (memory_runs hk) fun memory => ?_
  have hmark : ∀ record : FailedItemRecord, record.operation = "quota_check".toList →
      Runs env I (SyncEngine.state (.markFailed record)) fun _ _ => False := by
    intro record hoperation
    have hcall : Runs env I (SyncEngine.perform (.state (.markFailed record))) fun _ _ => False :=
      TryTriple.perform hk.stable hk.respected fun s answer s' h hstep =>
        hstep.1.2 hoperation
    exact TryTriple.bind hcall fun answer s o s' h _ => h.elim
  exact TryTriple.bind ((hmark _ rfl).pre fun _ h => h.2) fun _ s o s' h _ => h.elim

omit hu in
/-- What a root may leave behind once its plan is carried out. -/
theorem rootDone_of_through {plan : LiveScanPlan} {stop : Bool} {operations : List SyncPlanOperation}
    (hcalls : plannedCalls report ++ operations.filterMap SyncPlanOperation.call = calls)
    (hdeletes : ∀ path ∈ operations.filterMap deletedPath, path ∈ settled)
    (h : Through disk plan { report with plan := report.plan ++ operations } calls
      (plannedDeletes report ++ settled) stop s) :
    RootDone disk report.roots.length stop s := by
  cases stop with
  | true => exact h
  | false =>
    refine ⟨{ report with plan := report.plan ++ operations },rfl,⟨?_,h.1.2⟩,h.2.2⟩
    have hworking := h.1.1
    refine { hworking with issued := ?_, settled := fun path hp => hworking.settled path ?_ }
    · rw [show plannedCalls { report with plan := report.plan ++ operations } = calls by
        rw [← hcalls]
        exact List.filterMap_append]
      exact hworking.issued
    · rw [plannedDeletes,List.filterMap_append] at hp
      rcases List.mem_append.mp hp with hp | hp
      · exact List.mem_append_left _ hp
      · exact List.mem_append_right _ (hdeletes path hp)

theorem executePlan_runs (ext : Externals) {plan : LiveScanPlan}
    (hdisk : OnDisk disk (pathComponents root.localPath) plan)
    (hroot : disk.isDir (pathComponents root.localPath) = true) (scanReport : ScanReport)
    (snapshot : RemoteInventorySnapshot) (available : Option Nat) :
    Runs env (On (Alone disk (plannedCalls report) (plannedDeletes report)) (Planned plan report))
      (SyncEngine.executePlan ext config root runId baseSummary canonical scanReport plan snapshot
        available)
      fun result => RootDone disk report.roots.length result.shouldStop := by
  have hb : Base env disk (Alone disk (plannedCalls report) (plannedDeletes report)) :=
    base_alone hu
  have hk : Kept env disk (On (Alone disk (plannedCalls report) (plannedDeletes report))
    (Planned plan report)) := kept_planned hb
  unfold SyncEngine.executePlan
  dsimp only
  split
  · exact TryTriple.bind (failRoot_quota_runs root hk (Q := fun _ _ => False) _ _)
      fun _ s o s' h _ => h.elim
  have hpresent : ∀ d ∈ (buildRootPlan ext root canonical plan snapshot.resources).createDirectories,
      Present disk plan.rootLocalPath d.localPath := by
    intro d hd
    rw [createDirectories_buildRootPlan] at hd
    rw [hdisk.rootLocalPath]
    rcases List.mem_cons.mp (List.mem_filter.mp hd).1 with rfl | hd
    · exact Or.inl hroot
    · exact hdisk.directories d hd
  have huploads : ∀ u ∈ (buildRootPlan ext root canonical plan snapshot.resources).uploads,
      Present disk plan.rootLocalPath u.1.localPath := by
    intro u hu
    rw [uploads_buildRootPlan] at hu
    obtain ⟨file,hf,rfl⟩ := List.mem_map.mp hu
    rw [hdisk.rootLocalPath]
    exact hdisk.files file (List.mem_filter.mp hf).1
  have happly : Runs env (Busy disk plan { report with plan := report.plan ++
      (buildRootPlan ext root canonical plan snapshot.resources).operations }
      (plannedCalls report) (plannedDeletes report))
      (SyncEngine.applyPlan config root runId baseSummary canonical scanReport
        (buildRootPlan ext root canonical plan snapshot.resources) snapshot) _ :=
    applyPlan_runs hu config root runId baseSummary hdisk.deletedSubtrees scanReport _ snapshot
      hpresent huploads
  refine TryTriple.bind ?_ fun _ => happly.post fun result s h => ?_
  · refine TryTriple.perform hk.stable hk.respected fun s _ s' h hstep =>
      ⟨hb.mute _ _ _ _ rfl h.1 hstep,?_⟩
    rw [hstep.2.1.memory_update]
    exact ⟨h.2.1,by simp [h.2.2]⟩
  · refine rootDone_of_through ?_ (fun path hp => mem_plannedDeletes_buildRootPlan root hp) h
    rw [plannedCalls_buildRootPlan,List.append_assoc]

/-- After a call whose error may stop the run. -/
def Answered (disk : LocalTree) (plan : LiveScanPlan) (report : SyncRunReport)
    (calls : List ClientCall) (settled : List Str) {α : Type} (answer : Except YandexDiskError α)
    (s : Traced ρ SyncMemory) : Prop :=
  match answer with
  | .ok _ => Busy disk plan report calls settled s
  | .error error =>
    if isStopError error.kind then On (Halting disk) (Planned plan report) s
    else Busy disk plan report calls settled s

theorem inventoryClient_runs {plan : LiveScanPlan} {call : ClientCall}
    (hcall : ∀ error, (Happening.step (μ := SyncMemory) (.client call) (.error error)).isStop =
      isStopError error.kind)
    (hok : ∀ result, (Happening.step (μ := SyncMemory) (.client call) (.ok result)).isStop = false) :
    Runs env (Busy disk plan report calls settled) (SyncEngine.inventoryClient call)
      (Answered disk plan report calls settled) := by
  have hk : Kept env disk (Busy disk plan report calls settled) :=
    (base_alone hu).kept unsummarized_planned
  refine TryTriple.perform hk.stable hk.respected fun s answer s' h hstep => ?_
  have hmemory : Planned plan report s'.world.memory := by
    rw [hstep.2.1.memory_eq (by simp)]
    exact h.2
  cases answer with
  | ok result => exact ⟨h.1.append rfl (hok result) hstep,hmemory⟩
  | error error =>
    unfold Answered
    dsimp only
    split
    · rename_i hstop
      refine ⟨⟨h.1.1.toSteady.of_perform hstep.2.1,by simp [hstep.2.2,hcall,hstop],?_⟩,hmemory⟩
      rw [hstep.2.2]
      exact stopsRespected_append h.1.1.respected fun _ => h.1.1.unstopped
    · rename_i hstop
      exact ⟨h.1.append rfl (by rw [hcall]; simpa using hstop) hstep,hmemory⟩

omit hu in
theorem inventoryState_runs {I : Traced ρ SyncMemory → Prop} (hk : Kept env disk I)
    (describe : StateError → Str) (call : StateCall) :
    Runs env I (SyncEngine.inventoryState describe call) fun _ => I := by
  have hcall : Runs env I (SyncEngine.ask (.state call)) fun answer s =>
      answer.isOk = true ∧ I s :=
    TryTriple.perform hk.stable hk.respected fun s answer s' h hstep =>
      ⟨SoundStep.isOk hstep.1,hk.calm s _ answer s' rfl h hstep⟩
  refine TryTriple.bind hcall fun answer => ?_
  cases answer with
  | ok result => exact TryTriple.pure fun _ h => h.2
  | error error => exact TryTriple.throw fun _ h => by simp [Except.isOk,Except.toBool] at h

/-- The inventory of a root: its errors are those of the client. -/
theorem remoteInventory_runs {plan : LiveScanPlan} (forceRemoteRescan : Bool) :
    Triple (env.TraceStep SoundStep) env.TraceDrift (Busy disk plan report calls settled)
      (SyncEngine.remoteInventory config root canonical plan forceRemoteRescan).run
      (Answered disk plan report calls settled) Respected := by
  have hk : Kept env disk (Busy disk plan report calls settled) :=
    (base_alone hu).kept unsummarized_planned
  have hnow : Runs env (Busy disk plan report calls settled) (SyncEngine.ask .now)
      fun _ => Busy disk plan report calls settled :=
    TryTriple.perform hk.stable hk.respected fun s answer s' h hstep =>
      hk.calm s .now answer s' rfl h hstep
  have hcached : Runs env (Busy disk plan report calls settled)
      (SyncEngine.cachedRemoteInventory root canonical forceRemoteRescan)
      fun _ => Busy disk plan report calls settled := by
    refine iteInduction (motive := fun p => Runs env _ p _) (fun _ => TryTriple.pure fun _ h => h)
      fun _ => ?_
    refine TryTriple.bind (inventoryState_runs hk _ _) fun status => ?_
    cases status with
    | none => exact TryTriple.pure fun _ h => h
    | some status =>
      refine TryTriple.bind hnow fun now => ?_
      refine iteInduction (motive := fun p => Runs env _ p _) (fun _ => ?_)
        fun _ => TryTriple.pure fun _ h => h
      exact TryTriple.bind (inventoryState_runs hk _ _) fun _ => TryTriple.pure fun _ h => h
  have hpersist : ∀ resources, Runs env (Busy disk plan report calls settled)
      (SyncEngine.persistRemoteInventorySnapshot config root resources)
      fun _ => Busy disk plan report calls settled := fun _ =>
    TryTriple.bind (inventoryState_runs hk _ _) fun _ => TryTriple.bind hnow fun _ =>
      inventoryState_runs hk _ _
  refine hcached.bind_run fun cached => ?_
  cases cached with
  | some snapshot => exact Triple.ret fun _ h => h
  | none =>
    refine (inventoryClient_runs hu (fun _ => rfl) fun _ => rfl).bind_run fun answer => ?_
    cases answer with
    | error error =>
      refine iteInduction (motive := fun p => Triple _ _ _ (ExceptT.run p) _ _) (fun hnot => ?_)
        fun _ => Triple.ret fun _ h => h
      refine Triple.ret fun s h => ?_
      simpa [Answered,hnot,isStopError] using h
    | ok rootMetadata =>
      refine (inventoryClient_runs hu (fun _ => rfl) fun _ => rfl).bind_run fun answer => ?_
      cases answer with
      | error error =>
        refine iteInduction (motive := fun p => Triple _ _ _ (ExceptT.run p) _ _) (fun hnot => ?_)
          fun _ => Triple.ret fun _ h => h
        refine Triple.ret fun s h => ?_
        simpa [Answered,hnot,isStopError] using h
      | ok listed =>
        exact (hpersist _).bind_run fun _ => Triple.ret fun _ h => h

omit hu in
theorem failRootWith_runs {I : Traced ρ SyncMemory → Prop} (hk : Kept env disk I) (status : Str)
    (operation errorKind errorMessage : Str) :
    Runs env I (SyncEngine.failRootWith status root operation errorKind errorMessage)
      fun _ => I :=
  (reporting_runs hk).failRootWith status root operation errorKind errorMessage

/-- A root that fails with the run halting notes the failure in its summary. -/
theorem failRoot_halts (operation errorKind errorMessage : Str) :
    Runs env (Halting disk) (SyncEngine.failRoot root operation errorKind errorMessage)
      fun _ => Halted disk := by
  have hk : Kept env disk (Halting disk) := kept_halting hu
  refine TryTriple.bind ((reporting_runs hk).readMemory) fun _ =>
    TryTriple.bind (state_runs hk _) fun _ => TryTriple.bind (state_runs hk _) fun _ => ?_
  refine TryTriple.perform hk.stable hk.respected fun s _ s' h hstep => ?_
  refine ⟨h.not_mute rfl hstep,?_⟩
  rw [hstep.2.1.memory_update]

omit hu in
theorem Idle.rootDone (h : Idle disk report s) {roots : Nat} (hr : report.roots.length = roots) :
    RootDone disk roots false s :=
  ⟨report,hr,h⟩

omit hu in
theorem idle_of_planned {plan : LiveScanPlan}
    (h : Busy disk plan report (plannedCalls report) (plannedDeletes report) s) :
    Idle disk report s :=
  ⟨h.1,h.2.2⟩

theorem executeScanned_runs (ext : Externals) (scanReport : ScanReport)
    (hroot : disk.isDir (pathComponents root.localPath) = true)
    (hdirectories : ∀ d ∈ scanReport.directories, disk.isDir d.localPath = true)
    (hfiles : ∀ f ∈ scanReport.files, Present disk (pathComponents root.localPath) f.localPath)
    (available : Option Nat) (forceRemoteRescan : Bool) :
    Runs env (Idle disk report)
      (SyncEngine.executeScanned ext config root runId baseSummary canonical scanReport available
        forceRemoteRescan)
      fun result => RootDone disk report.roots.length result.shouldStop := by
  refine TryTriple.bind (planScan_runs (base_alone hu) root runId baseSummary scanReport
    hdirectories hfiles) fun plan => TryTriple.of_pure (fun s h => h.1) fun hdisk => ?_
  refine TryTriple.pre (P := Busy disk plan report (plannedCalls report) (plannedDeletes report)) ?_
    fun s h => h.2
  have hk : Kept env disk (Busy disk plan report (plannedCalls report) (plannedDeletes report)) :=
    (base_alone hu).kept unsummarized_planned
  cases localRemoteCollision plan.directories plan.files with
  | some message =>
    exact TryTriple.bind (failRootWith_runs root hk _ _ _ _) fun _ =>
      TryTriple.pure fun _ h => (idle_of_planned h).rootDone rfl
  | none =>
    refine TryTriple.bind (TryTriple.lift (remoteInventory_runs hu config root forceRemoteRescan))
      fun answer => ?_
    cases answer with
    | ok snapshot =>
      exact executePlan_runs hu config root runId baseSummary ext hdisk hroot scanReport snapshot
        available
    | error error =>
      by_cases hstop : isStopError error.kind = true
      · refine TryTriple.pre (P := Halting disk) ?_ fun s h => by
          simp only [Answered,hstop,if_true] at h
          exact h.1
        refine TryTriple.bind (state_runs (kept_halting hu) _) fun _ => ?_
        rw [if_pos hstop]
        exact TryTriple.bind (failRoot_halts hu root _ _ _) fun _ => TryTriple.pure fun _ h => h
      · refine TryTriple.pre (P := Busy disk plan report (plannedCalls report)
          (plannedDeletes report)) ?_ fun s h => by simpa [Answered,hstop] using h
        refine TryTriple.bind (state_runs hk _) fun _ => ?_
        rw [if_neg hstop]
        exact TryTriple.bind (failRootWith_runs root hk _ _ _ _) fun _ =>
          TryTriple.pure fun _ h => (idle_of_planned h).rootDone rfl

theorem executeRoot_runs (options : ScanOptions)
    (hroot : disk.isDir (pathComponents root.localPath) = true) (available : Option Nat)
    (forceRemoteRescan : Bool) :
    Runs env (Idle disk report)
      (SyncEngine.executeRoot env.ext config root runId baseSummary options canonical available
        forceRemoteRescan)
      fun result => RootDone disk report.roots.length result.shouldStop := by
  have hk : Kept env disk (Idle disk report) := (base_alone hu).kept unsummarized_reported
  -- what a scan says of the unchanged disk
  have hscanned : Runs env (Idle disk report)
      (SyncEngine.scanRootWithRepository options (SyncEngine.scanRootOf root canonical))
      fun answer s => (∀ scanReport, answer = .ok scanReport →
        (∀ d ∈ scanReport.directories, disk.isDir d.localPath = true) ∧
          ∀ f ∈ scanReport.files, Present disk (pathComponents root.localPath) f.localPath) ∧
        Idle disk report s := by
    have hlist : Runs env (Idle disk report)
        (SyncEngine.perform (.state (.listFileStatesForRoot root.id))) fun _ => Idle disk report :=
      calm_runs hk rfl
    refine TryTriple.bind hlist fun previous => ?_
    cases previous with
    | error error => exact TryTriple.pure fun _ h => ⟨fun _ he => (nomatch he),h⟩
    | ok previousStates =>
      refine TryTriple.perform hk.stable hk.respected fun s answer s' h hstep => ⟨?_,?_⟩
      · rintro scanReport rfl
        obtain ⟨oracle,faults,tree,_,htree,hanswer⟩ := hstep.2.1.1
        rw [hu.scanned _ _ htree,(hk.steady s h).disk] at hanswer
        exact scanned_present hanswer.symm
      · exact hk.calm s (.scan ..) answer s' rfl h hstep
  refine TryTriple.bind hscanned fun answer => TryTriple.of_pure (fun s h => h.1) fun hpresent => ?_
  refine TryTriple.pre ?_ fun s h => h.2
  cases answer with
  | error error =>
    exact TryTriple.bind (failRootWith_runs root hk _ _ _ _) fun _ =>
      TryTriple.pure fun _ h => h.rootDone rfl
  | ok scanReport =>
    obtain ⟨hdirectories,hfiles⟩ := hpresent scanReport rfl
    exact executeScanned_runs hu config root runId baseSummary env.ext scanReport hroot hdirectories
      hfiles available forceRemoteRescan

end Root

section Run

variable {env : Environment ρ} (hu : Undisturbed env) {report : SyncRunReport} (config : AppConfig)
  (root : SyncRootConfig) (runId : Int)

/-- A root of the report has failed. -/
def HasFailed (memory : SyncMemory) : Prop :=
  ∃ summary ∈ memory.report.roots, summary.status = rootStatusFailed

/-- Stopped, or idle with so many roots in the report. -/
def RunDone (disk : LocalTree) (roots : Nat) (go : Bool) (s : Traced ρ SyncMemory) : Prop :=
  if go then ∃ report : SyncRunReport, report.roots.length = roots ∧ Idle disk report s
  else On (Halting disk) HasFailed s

theorem RunDone.idle {roots : Nat} {P : Traced ρ SyncMemory → Prop}
    (h : ∀ report : SyncRunReport, report.roots.length = roots → ∀ s, Idle disk report s → P s) :
    ∀ s, RunDone disk roots true s → P s :=
  fun s ⟨report,hr,hs⟩ => h report hr s hs

include hu

/-- Changes of the report that leave the plan alone. -/
theorem modifyReport_runs {f : SyncRunReport → SyncRunReport} (hf : ∀ report, (f report).plan = report.plan) :
    Runs env (Idle disk report) (SyncEngine.modifyReport f) fun _ => Idle disk (f report) := by
  have hassign : Runs env (Idle disk report) (SyncEngine.modifyReport f)
      fun _ => On (Alone disk (plannedCalls report) (plannedDeletes report)) (Reported (f report)) :=
    assign_runs (base_alone hu) unsummarized_reported fun memory h => congrArg f h
  have hplan : plannedCalls (f report) = plannedCalls report ∧
      plannedDeletes (f report) = plannedDeletes report :=
    ⟨congrArg (List.filterMap SyncPlanOperation.call) (hf report),
      congrArg (List.filterMap deletedPath) (hf report)⟩
  unfold Idle
  rw [hplan.1,hplan.2]
  exact hassign

theorem finishRootSummary_runs {roots : Nat} {stop : Bool} :
    Runs env (RootDone disk roots stop) SyncEngine.finishRootSummary
      fun _ => RunDone disk (roots+1) !stop := by
  cases stop with
  | false =>
    refine TryTriple.exists_pre fun report => TryTriple.of_pure (fun s h => h.1) fun hr => ?_
    have hk : Kept env disk (Idle disk report) := (base_alone hu).kept unsummarized_reported
    refine TryTriple.bind ((reporting_runs hk).readMemory.pre fun _ h => h.2) fun memory => ?_
    refine TryTriple.post (modifyReport_runs hu ?_) fun _ s h => ⟨_,?_,h⟩
    · exact fun _ => rfl
    · simp [hr]
  | true =>
    refine TryTriple.bind (halted_memory hu) fun memory =>
      TryTriple.of_pure (fun s h => h.1) fun hfailed => ?_
    refine TryTriple.pre (P := Halting disk) ?_ fun s h => h.2.1
    have hk : Kept env disk (Halting disk) := kept_halting hu
    refine TryTriple.perform hk.stable hk.respected fun s _ s' h hstep => ?_
    refine ⟨h.not_mute rfl hstep,?_⟩
    rw [hstep.2.1.memory_update]
    exact ⟨memory.rootSummary,by simp,hfailed⟩

theorem executeRunRoot_runs {canonical : Str}
    (hcanonical : root.canonicalPath config = .ok canonical) (options : ScanOptions)
    (available : Option Nat) (forceRemoteRescan : Bool) :
    Runs env (Idle disk report)
      (SyncEngine.executeRunRoot env.ext config root runId options available forceRemoteRescan)
      fun next => RunDone disk (report.roots.length+1) next.1 := by
  have hk : Kept env disk (Idle disk report) := (base_alone hu).kept unsummarized_reported
  have hquiet : SyncEngine.Reporting fun ⦃α⦄ (p : Engine α) =>
      KeepsOk (env.TraceStep SoundStep) env.TraceDrift Respected (Idle disk report) p :=
    reporting_runs hk
  unfold SyncEngine.executeRunRoot
  rw [show canonicalRemotePath config.instanceConfig.remoteRoot root.localPath
    root.remotePathOverride = .ok canonical from hcanonical]
  have hinit : Runs env (Idle disk report) (SyncEngine.perform (.updateMemory fun memory =>
      { memory with
        rootSummary := SyncEngine.initialRootSummary root canonical, scanPlan := none
        livePlan := none })) fun _ => Idle disk report :=
    assign_runs (base_alone hu) unsummarized_reported fun _ h => h
  refine TryTriple.bind (state_runs hk _) fun _ => TryTriple.bind hinit fun _ => ?_
  refine TryTriple.bind (isDir_runs hk _) fun isDir => TryTriple.of_pure (fun s h => h.1) fun hisDir => ?_
  refine TryTriple.pre (P := Idle disk report) ?_ fun s h => h.2
  refine iteInduction (motive := fun p => Runs env _ p _) (fun _ => ?_) fun hroot => ?_
  · refine TryTriple.bind (SyncEngine.recordMissingRoot_of hquiet root (modifySummary_runs hk)) fun _ => ?_
    have hfinish : Runs env (RootDone disk report.roots.length false) _ _ :=
      finishRootSummary_runs hu
    exact TryTriple.bind (hfinish.pre fun s h => h.rootDone rfl) fun _ =>
      TryTriple.pure fun _ h => h
  · have hisRoot : disk.isDir (pathComponents root.localPath) = true := by
      rw [← hisDir]
      simpa using hroot
    refine TryTriple.bind hquiet.readMemory fun before => ?_
    refine TryTriple.bind (executeRoot_runs hu config root runId before.report.summary options
      hisRoot available forceRemoteRescan) fun result => ?_
    refine TryTriple.bind (finishRootSummary_runs hu) fun _ => ?_
    cases result.shouldStop with
    | true => exact TryTriple.pure fun _ h => h
    | false =>
      refine TryTriple.exists_pre fun next => TryTriple.of_pure (fun s h => h.1) fun hnext => ?_
      have hk' : Kept env disk (Idle disk next) := (base_alone hu).kept unsummarized_reported
      refine TryTriple.bind ((isCancelled_runs hk').pre fun _ h => h.2) fun cancelled =>
        TryTriple.of_pure (fun s h => h.1) ?_
      rintro rfl
      exact TryTriple.pure fun _ h => ⟨next,hnext,h.2⟩

/-- Stopped, or idle after so many roots. -/
def AllDone (disk : LocalTree) (roots : Nat) (s : Traced ρ SyncMemory) : Prop :=
  ∃ go, RunDone disk roots go s

theorem executeRoots_runs (roots : List SyncRootConfig)
    (hcanonical : ∀ root ∈ roots, ∃ canonical, root.canonicalPath config = .ok canonical)
    (options : ScanOptions) (forceRemoteRescan : Bool) (available : Option Nat) :
    Runs env (Idle disk report)
      (SyncEngine.executeRoots env.ext config runId options forceRemoteRescan roots available)
      fun _ => AllDone disk (report.roots.length+roots.length) := by
  induction roots generalizing report available with
  | nil => exact TryTriple.pure fun _ h => ⟨true,report,rfl,h⟩
  | cons root roots ih =>
    have hk : Kept env disk (Idle disk report) := (base_alone hu).kept unsummarized_reported
    refine TryTriple.bind (isCancelled_runs hk) fun cancelled => TryTriple.of_pure (fun s h => h.1) ?_
    rintro rfl
    obtain ⟨canonical,hc⟩ := hcanonical root (by simp)
    refine TryTriple.bind ((executeRunRoot_runs hu config root runId hc options available
      forceRemoteRescan).pre fun _ h => h.2) fun next => ?_
    obtain ⟨go,available'⟩ := next
    cases go with
    | false => exact TryTriple.pure fun _ h => ⟨false,h⟩
    | true =>
      refine TryTriple.exists_pre fun report' => TryTriple.of_pure (fun s h => h.1) fun hr => ?_
      refine ((ih (fun root hroot => hcanonical root (by simp [hroot])) available').pre
        fun _ h => h.2).post fun _ s h => ?_
      rw [hr] at h
      rw [List.length_cons,Nat.add_comm roots.length,← Nat.add_assoc]
      exact h

theorem availableRemoteBytes_runs :
    Runs env (Idle disk report) SyncEngine.availableRemoteBytes
      fun _ => RunDone disk report.roots.length true := by
  have hk : Kept env disk (Idle disk report) := (base_alone hu).kept unsummarized_reported
  have hcall : Runs env (Idle disk report) (SyncEngine.client .diskInfo)
      fun _ => Idle disk report := by
    refine TryTriple.perform hk.stable hk.respected fun s answer s' h hstep => ⟨h.1.append rfl ?_ hstep,?_⟩
    · cases answer <;> rfl
    · rw [hstep.2.1.memory_eq (by simp)]
      exact h.2
  refine TryTriple.bind hcall fun answer => ?_
  cases answer with
  | ok quota => exact TryTriple.pure fun _ h => ⟨report,rfl,h⟩
  | error error =>
    refine TryTriple.bind (modifyReport_runs hu fun _ => rfl) fun _ =>
      TryTriple.pure fun _ h => ⟨{ report with
        summary := { report.summary with errorSummary := some error.display } },rfl,h⟩

theorem executeRun_runs
    (hcanonical : ∀ root ∈ SyncEngine.enabledRoots config,
      ∃ canonical, root.canonicalPath config = .ok canonical)
    (hroots : report.roots = []) (forceRemoteRescan : Bool) :
    Runs env (Idle disk report) (SyncEngine.executeRun env.ext config runId forceRemoteRescan)
      fun _ => AllDone disk (SyncEngine.enabledRoots config).length := by
  refine TryTriple.bind (availableRemoteBytes_runs hu) fun available => ?_
  refine TryTriple.exists_pre fun report' => TryTriple.of_pure (fun s h => h.1) fun hr => ?_
  refine ((executeRoots_runs hu config runId _ hcanonical _ forceRemoteRescan available).pre
    fun _ h => h.2).post fun _ s h => ?_
  rwa [hr,hroots,List.length_nil,Nat.zero_add] at h

omit hu in
theorem statusFromSummary_of_failed {summary : SyncRunSummary} {roots : List RootSyncSummary}
    (h : ∃ root ∈ roots, root.status = rootStatusFailed) :
    statusFromSummary summary roots = .failed := by
  obtain ⟨root,hr,hstatus⟩ := h
  unfold statusFromSummary
  rw [if_pos (List.any_eq_true.mpr ⟨root,hr,by simp [hstatus]⟩)]

/-- What a finished run has done, and how it reports that. -/
def Concluded (disk : LocalTree) (config : AppConfig) (report : SyncRunReport)
    (s : Traced ρ SyncMemory) : Prop :=
  (Halting disk s ∧ report.status = .failed) ∨
    (Idle disk report s ∧ report.roots.length = (SyncEngine.enabledRoots config).length)

/-- The same before the report is handed out. -/
def Concluding (disk : LocalTree) (roots : Nat) (go : Bool) (s : Traced ρ SyncMemory) : Prop :=
  if go then ∃ report : SyncRunReport, report.roots.length = roots ∧ Idle disk report s
  else On (Halting disk) (fun memory => memory.report.status = .failed) s

theorem concludeRun_runs {roots : Nat} {go : Bool} :
    Runs env (RunDone disk roots go) (SyncEngine.concludeRun (.ok ()))
      fun _ => Concluding disk roots go := by
  cases go with
  | true =>
    refine TryTriple.exists_pre fun report => TryTriple.of_pure (fun s h => h.1) fun hr => ?_
    have hk : Kept env disk (Idle disk report) := (base_alone hu).kept unsummarized_reported
    refine TryTriple.bind ((isCancelled_runs hk).pre fun _ h => h.2) fun cancelled =>
      TryTriple.of_pure (fun s h => h.1) ?_
    rintro rfl
    rw [if_neg Bool.false_ne_true]
    refine TryTriple.pre (TryTriple.post (modifyReport_runs hu ?_) fun _ s h => ⟨_,?_,h⟩)
      fun _ h => h.2
    · exact fun _ => rfl
    · exact hr
  | false =>
    have hfailed : Unsummarized HasFailed := fun _ _ h => h
    have hk : Kept env disk (On (Halting disk) HasFailed) := (base_halting hu).kept hfailed
    refine TryTriple.bind (isCancelled_runs hk) fun cancelled => TryTriple.of_pure (fun s h => h.1) ?_
    rintro rfl
    have hassign : Runs env (On (Halting disk) HasFailed)
        (SyncEngine.modifyReport fun report =>
          { report with status := statusFromSummary report.summary report.roots })
        fun _ => On (Halting disk) fun memory => memory.report.status = .failed :=
      assign_runs (base_halting hu) hfailed fun _ h => statusFromSummary_of_failed h
    exact hassign.pre fun _ h => h.2

omit hu in
/-- A run that is closed hands out the report in memory. -/
theorem closeRun_runs {I : Traced ρ SyncMemory → Prop} (hk : Kept env disk I)
    {φ : SyncRunReport → Prop} (hφ : ∀ s, I s → φ s.world.memory.report) (guard : RunLockGuard) :
    Runs env I (SyncEngine.closeRun runId guard) fun report s => φ report ∧ I s := by
  refine TryTriple.bind (memory_runs hk) fun memory => ?_
  refine TryTriple.of_pure (φ := φ memory.report) (fun s h => h.1 ▸ hφ s h.2) fun hreport => ?_
  refine TryTriple.pre (P := I) ?_ fun s h => h.2
  have hanswer : ∀ call, Runs env I (SyncEngine.perform (.state call)) fun answer s =>
      answer.isOk = true ∧ I s := fun call =>
    TryTriple.perform hk.stable hk.respected fun s answer s' h hstep =>
      ⟨SoundStep.isOk hstep.1,hk.calm s _ answer s' rfl h hstep⟩
  refine TryTriple.bind (hanswer _) fun finished => TryTriple.of_pure (fun s h => h.1) fun hf => ?_
  refine TryTriple.bind ((hanswer _).pre fun _ h => h.2) fun released =>
    TryTriple.of_pure (fun s h => h.1) fun hr => ?_
  match finished, released with
  | .error _, _ => simp [Except.isOk,Except.toBool] at hf
  | .ok _, .error _ => simp [Except.isOk,Except.toBool] at hr
  | .ok _, .ok _ => exact TryTriple.pure fun _ h => ⟨hreport,h.2⟩

theorem closeConcluding_runs {go : Bool} (guard : RunLockGuard) :
    Runs env (Concluding disk (SyncEngine.enabledRoots config).length go)
      (SyncEngine.closeRun runId guard) (Concluded disk config) := by
  cases go with
  | true =>
    refine TryTriple.exists_pre fun report => TryTriple.of_pure (fun s h => h.1) fun hr => ?_
    have hk : Kept env disk (Idle disk report) := (base_alone hu).kept unsummarized_reported
    have hclose : Runs env (Idle disk report) (SyncEngine.closeRun runId guard)
        fun report' s => report' = report ∧ Idle disk report s :=
      closeRun_runs runId hk (fun _ h => h.2) guard
    refine (hclose.pre fun _ h => h.2).post fun report' s h => Or.inr ?_
    rw [h.1]
    exact ⟨h.2,hr⟩
  | false =>
    have hstatus : Unsummarized fun memory => memory.report.status = .failed := fun _ _ h => h
    have hk : Kept env disk (On (Halting disk) fun memory => memory.report.status = .failed) :=
      (base_halting hu).kept hstatus
    have hclose : Runs env (On (Halting disk) fun memory => memory.report.status = .failed)
        (SyncEngine.closeRun runId guard) _ :=
      closeRun_runs runId hk (φ := fun report => report.status = .failed) (fun _ h => h.2) guard
    exact hclose.post fun report s h => Or.inl ⟨h.2.1,h.1⟩

/-- A run between taking the lock and releasing it. -/
theorem runLocked_runs
    (hcanonical : ∀ root ∈ SyncEngine.enabledRoots config,
      ∃ canonical, root.canonicalPath config = .ok canonical)
    (trigger : SyncRunTrigger) (forceRemoteRescan : Bool) (guard : RunLockGuard) :
    Runs env (Alone disk [] [])
      (SyncEngine.runLocked env.ext config trigger forceRemoteRescan guard)
      (Concluded disk config) := by
  have hb : Base env disk (Alone disk [] []) := base_alone hu
  have hk : Kept env disk (On (Alone disk [] []) fun _ => True) := hb.kept fun _ _ h => h
  refine TryTriple.pre (P := On (Alone disk [] []) fun _ => True) ?_ fun _ h => ⟨h,trivial⟩
  refine TryTriple.bind (state_runs hk _) fun _ => TryTriple.bind (state_runs hk _) fun runId => ?_
  have hinit : Runs env (On (Alone disk [] []) fun _ => True)
      (SyncEngine.perform (.updateMemory fun _ => { report := { runId } }))
      fun _ => Idle disk { runId } :=
    assign_runs hb (fun _ _ h => h) fun _ _ => rfl
  refine TryTriple.bind hinit fun _ => ?_
  refine TryTriple.bind (executeRun_runs hu config runId hcanonical rfl _).catch fun execution => ?_
  cases execution with
  | error error => exact fun s o s' h _ => h.elim
  | ok _ =>
    refine TryTriple.exists_pre fun go => ?_
    exact TryTriple.bind (concludeRun_runs hu) fun _ => closeConcluding_runs hu config runId guard

omit hu in
/-- Neither locking nor looking for a migration issues a call. -/
theorem acquireRunLock_runs {I : Traced ρ SyncMemory → Prop} (hk : Kept env disk I) (owner : Str)
    (staleAfter : Int) :
    Runs env I (SyncEngine.acquireRunLock owner staleAfter) fun acquired s =>
      acquired.isOk = true ∧ I s := by
  have hperform : ∀ e : Effect SyncMemory, Calm e →
      Runs env I (RunLock.perform e) fun _ => I := fun e he =>
    TryTriple.perform hk.stable hk.respected fun s answer s' h hstep =>
      hk.calm s e answer s' he h hstep
  have hstate : ∀ call : StateCall,
      Runs env I (RunLock.state (μ := SyncMemory) call) fun _ => I := by
    intro call
    have hcall : Runs env I (RunLock.perform (μ := SyncMemory) (.state call)) fun answer s =>
        answer.isOk = true ∧ I s :=
      TryTriple.perform hk.stable hk.respected fun s answer s' h hstep =>
        ⟨SoundStep.isOk hstep.1,hk.calm s _ answer s' rfl h hstep⟩
    refine TryTriple.bind hcall fun answer => ?_
    cases answer with
    | ok result => exact TryTriple.pure fun _ h => h.2
    | error error => exact TryTriple.throw fun _ h => by simp [Except.isOk,Except.toBool] at h
  have hacquire : Runs env I (RunLock.tryAcquireRunLock (μ := SyncMemory) owner staleAfter)
      fun _ => I := by
    refine TryTriple.bind (hperform .now rfl) fun now => TryTriple.bind (hstate _) fun inserted => ?_
    refine iteInduction (motive := fun p => Runs env _ p _) (fun _ => TryTriple.pure fun _ h => h)
      fun _ => TryTriple.bind (hstate _) fun replaced => ?_
    exact iteInduction (motive := fun p => Runs env _ p _) (fun _ => TryTriple.pure fun _ h => h)
      fun _ => TryTriple.pure fun _ h => h
  refine hacquire.catch.post fun result s h => ?_
  cases result with
  | ok guard => exact ⟨rfl,h⟩
  | error error => exact h.elim

omit hu in
theorem shouldAutoMigrate_runs {I : Traced ρ SyncMemory → Prop} (hk : Kept env disk I) :
    Runs env I (SyncEngine.shouldAutoMigrate config) fun _ => I := by
  unfold SyncEngine.shouldAutoMigrate
  induction SyncEngine.enabledRoots config with
  | nil => exact TryTriple.pure fun _ h => h
  | cons root roots ih =>
    refine TryTriple.bind (calm_runs hk (e := .isDir (pathComponents root.localPath)) rfl) fun isDir => ?_
    refine iteInduction (motive := fun p => Runs env _ p _) (fun _ => ?_) fun _ => ih
    refine TryTriple.bind (state_runs hk _) fun snapshot => ?_
    exact iteInduction (motive := fun p => Runs env _ p _) (fun _ => ih)
      fun _ => TryTriple.pure fun _ h => h

omit hu in
/-- Quiet steps leave a trace that issues no call as it is. -/
theorem Kept.unissued {I : Traced ρ SyncMemory → Prop} (hk : Kept env disk I) :
    Kept env disk fun s => I s ∧ s.trace.any Happening.issues = false where
  stable := hk.stable.and fun s s' h hdrift => by
    rcases hdrift.trace_eq with ht | ⟨task,outcome,ht⟩ <;> simp [ht,h,Happening.issues]
  steady s h := hk.steady s h.1
  respected s h := hk.respected s h.1
  calm s e answer s' he h hstep := by
    refine ⟨hk.calm s e answer s' he h.1 hstep,?_⟩
    rw [hstep.2.2,List.any_append,h.2]
    simpa using (Mute.not_stop he.mute answer).2

/-- Before the lock: nothing is planned, nothing is issued, and the lock is not taken. -/
def Waiting (disk : LocalTree) (s : Traced ρ SyncMemory) : Prop :=
  (On (Alone disk [] []) (fun _ => True) s ∧ s.trace.any Happening.issues = false) ∧
    LockRelease.Untaken s

/-- How a run can end. -/
def Ended (ext : Externals) (disk : LocalTree) (config : AppConfig) :
    Except SyncError SyncEngine.RunOnceResult → Traced ρ SyncMemory → Prop
  | .ok .migrate, s => Respected s ∧ Unstarted s.trace
  | .ok (.ran report), s => Respected s ∧ Concluded disk config report s
  | .error error, s => Respected s ∧ TurnedAway ext config error s.trace

theorem waiting_kept : Kept env disk fun s : Traced ρ SyncMemory =>
    On (Alone disk [] []) (fun _ => True) s ∧ s.trace.any Happening.issues = false :=
  ((base_alone hu).kept fun _ _ h => h).unissued

omit hu in
theorem Waiting.respected {s : Traced ρ SyncMemory} (h : Waiting disk s) : Respected s :=
  h.1.1.1.1.respected

omit hu in
theorem Waiting.unstarted {s : Traced ρ SyncMemory} (h : Waiting disk s) : Unstarted s.trace :=
  ⟨h.2,h.1.2⟩

/-- The search for a reason to migrate waits. -/
theorem wantsMigration_waits (trigger : SyncRunTrigger) :
    Runs env (Waiting disk) (SyncEngine.wantsMigration config trigger) fun _ => Waiting disk := by
  have hk : Kept env disk fun s : Traced ρ SyncMemory =>
    On (Alone disk [] []) (fun _ => True) s ∧ s.trace.any Happening.issues = false :=
    waiting_kept hu
  have hquiet : Runs env (fun s => On (Alone disk [] []) (fun _ => True) s ∧
      s.trace.any Happening.issues = false) (SyncEngine.wantsMigration config trigger)
      fun _ s => On (Alone disk [] []) (fun _ => True) s ∧ s.trace.any Happening.issues = false :=
    iteInduction (motive := fun p => Runs env _ p _) (fun _ => TryTriple.pure fun _ h => h)
      fun _ => shouldAutoMigrate_runs config hk
  exact (TryTriple.and hquiet (LockRelease.wantsMigration_untaken config trigger)).weaken
    (fun _ h => h) (fun _ _ h => h) (fun _ h => h.1) fun _ h => h.1

/-- An attempt at the lock leaves a waiting run waiting, unless it gets the lock. -/
theorem acquireRunLock_waits (owner : Str) (staleAfter : Int) :
    Runs env (Waiting disk) (SyncEngine.acquireRunLock owner staleAfter) fun acquired s =>
      match acquired with
      | .ok (some _) => Alone disk [] [] s
      | .ok none => Waiting disk s ∧ s.trace.any refusesLock = true
      | .error _ => False := by
  have hk : Kept env disk fun s : Traced ρ SyncMemory =>
    On (Alone disk [] []) (fun _ => True) s ∧ s.trace.any Happening.issues = false :=
    waiting_kept hu
  have hacquires : TryTriple (env.TraceStep SoundStep) env.TraceDrift LockRelease.Untaken
      (SyncEngine.acquireRunLock owner staleAfter) (LockRelease.Acquired owner) (fun _ => False)
      fun _ => True :=
    TryTriple.lift (LockRelease.tryAcquireRunLock_acquires owner staleAfter)
  refine ((TryTriple.and (acquireRunLock_runs hk owner staleAfter) hacquires).weaken
    (fun _ h => h) (fun acquired s h => ?_) (fun _ h => h.1) fun _ h => h.1)
  obtain ⟨⟨hok,hquiet,hissues⟩,hacquired⟩ := h
  match acquired with
  | .ok (some guard) => exact hquiet.1
  | .ok none => exact ⟨⟨⟨hquiet,hissues⟩,hacquired.1⟩,hacquired.2⟩
  | .error error => cases hok

/-- A whole run: it ends in an error only before it has taken the lock. -/
theorem runOnce_runs (options : SyncEngine.SyncRunOptions) :
    Triple (env.TraceStep SoundStep) env.TraceDrift (Waiting disk)
      (SyncEngine.runOnce env.ext config options).run (Ended env.ext disk config) Respected := by
  by_cases hvalid : (validateConfig env.ext config).isValid = true
  · have hensure : Runs env (Waiting disk) (SyncEngine.ensureValidConfig env.ext config)
        fun _ => Waiting disk := by
      unfold SyncEngine.ensureValidConfig
      rw [if_pos hvalid]
      exact TryTriple.pure fun _ h => h
    refine TryTriple.bind_run hensure fun _ =>
      TryTriple.bind_run (wantsMigration_waits hu config options.trigger) fun migrate => ?_
    refine iteInduction (motive := fun p => Triple _ _ _ (ExceptT.run p) _ _)
      (fun _ => Triple.ret fun _ h => ⟨h.respected,h.unstarted⟩) fun _ => ?_
    refine TryTriple.bind_run (acquireRunLock_waits hu _ _) fun acquired => ?_
    match acquired with
    | .error error => exact fun s o s' h _ => h.elim
    | .ok none =>
      refine Triple.ret fun s h => ⟨h.1.respected,h.1.unstarted,?_⟩
      rw [if_pos hvalid]
      exact ⟨rfl,h.2⟩
    | .ok (some guard) =>
      have hcanonical : ∀ root ∈ SyncEngine.enabledRoots config,
          ∃ canonical, root.canonicalPath config = .ok canonical := fun root hr =>
        AcceptedConfig.canonicalPath_ok ⟨config,hvalid⟩ (List.mem_filter.mp hr).1
      refine TryTriple.bind_run (runLocked_runs hu config hcanonical options.trigger
        options.forceRemoteRescan guard) fun report => Triple.ret fun s h => ⟨?_,h⟩
      rcases h with h | h
      · exact h.1.respected
      · exact h.1.1.1.respected
  · have hensure : SyncEngine.ensureValidConfig env.ext config =
        throw (.configInvalid ("; ".toList.intercalate
          ((validateConfig env.ext config).map ConfigValidationError.message))) := if_neg hvalid
    unfold SyncEngine.runOnce
    rw [hensure]
    refine Triple.ret fun s h => ⟨h.respected,h.unstarted,?_⟩
    rw [if_neg hvalid]
    exact ⟨_,rfl⟩

end Run

end FaultIsolation

open FaultIsolation

section Skipped

/-! The first of two uploads fails with an error of a stop kind that skips the file. -/

/-- The upload of the first file is refused. -/
private def refused : ClientCall → Option YandexDiskError
  | .uploadSource path _ =>
    if path = "disk:/Backup/r/f".toList then
      some {
        kind := .authUnavailable, message := "unauthorized".toList
        apiCode := some "LocalUploadSourceUnavailable".toList }
    else none
  | _ => none

end Skipped

end YaDiskSync

import YaDiskSync.Quota
import YaDiskSync.PhaseFrame

/-! The room a sync run takes up: a plan is checked against what is available before its first
upload, and what its uploads have used up is taken off for the next root. -/
namespace YaDiskSync

open Prog

def uploadsBytes (uploads : List (LocalFileEntry × Bool)) : Nat := fileBytes (uploads.map Prod.fst)

namespace SyncQuota

variable {ρ : Type} {env : Environment ρ} {total available : Option Nat}
  {spent out reserved count : Nat}

abbrev Runs (env : Environment ρ) (P : Traced ρ SyncMemory → Prop) {ε α : Type}
    (p : ExceptT ε (Prog (Effect SyncMemory) Effect.Answer) α)
    (Q : α → Traced ρ SyncMemory → Prop) : Prop :=
  Spends Bounded env P p Q Adrift

section Uploads

/-- At most so many uploads are out. -/
structure Uploading (total : Option Nat) (spent count out reserved : Nat)
    (s : Traced ρ SyncMemory) : Prop where
  afloat : Afloat total spent out reserved s
  crew : Crew (fun task => ¬ task.IsCreate) count s

theorem steady_uploading : Steady Bounded env (Uploading total spent count out reserved) where
  stable _ _ h hdrift :=
    ⟨Afloat.stable _ _ h.afloat hdrift,stable_crew _ _ h.crew hdrift⟩
  keep h he hstep := ⟨h.afloat.keep he hstep,h.crew.of_step he hstep⟩
  adrift _ h := h.afloat.adrift

/-- After uploads: unless the run stops they have all been joined, and what they have used up is
counted. -/
structure Uploaded (total : Option Nat) (spent reserved limit : Nat) (result : UploadPhaseResult)
    (s : Traced ρ SyncMemory) : Prop where
  idle : ∃ spent, Afloat total spent 0 0 s
  going : result.shouldStop = false →
    Afloat total (spent+result.bytesUploaded) 0 reserved s ∧ s.world.tasks = [] ∧
      result.bytesUploaded ≤ limit

variable (config : AppConfig) (root : SyncRootConfig) (runId : Int)
  (baseSummary : SyncRunSummary)

theorem spawnUploads_runs (batch : List (LocalFileEntry × Bool)) :
    Runs env (Uploading total spent count out (uploadsBytes batch+reserved))
      (SyncEngine.spawnUploads runId baseSummary batch)
      (fun _ => Uploading total spent (count+batch.length) (out+uploadsBytes batch) reserved) := by
  induction batch generalizing count out with
  | nil => exact TryTriple.pure fun _ h => ⟨h.afloat.mono (by simp [uploadsBytes,fileBytes]),h.crew⟩
  | cons upload batch ih =>
    obtain ⟨file,isUpdate⟩ := upload
    have hbytes : uploadsBytes ((file,isUpdate) :: batch) = file.sizeBytes+uploadsBytes batch := by
      simp [uploadsBytes,fileBytes]
    have hout : out+uploadsBytes ((file,isUpdate) :: batch) =
        out+file.sizeBytes+uploadsBytes batch := by omega
    have hcount : count+((file,isUpdate) :: batch).length = count+1+batch.length := by
      simp only [List.length_cons]
      omega
    rw [hbytes,Nat.add_assoc,← hbytes,hout,hcount]
    -- a file that is skipped leaves what is kept for it
    have hskip : Runs env
        (Uploading total spent count out (file.sizeBytes+(uploadsBytes batch+reserved)))
        (SyncEngine.spawnUploads runId baseSummary batch)
        (fun _ => Uploading total spent (count+1+batch.length)
          (out+file.sizeBytes+uploadsBytes batch) reserved) :=
      ih.pre fun _ h => ⟨h.afloat.take,h.crew.mono (Nat.le_succ _)⟩
    have hk := SyncEngine.running_asks SyncEngine.onTasks_of_isPlain
    unfold SyncEngine.spawnUploads
    refine TryTriple.bind (steady_uploading.only hk.reporting.livePlan) fun plan => ?_
    refine iteInduction (motive := fun p => Runs env _ p _) (fun _ => hskip) fun _ => ?_
    refine TryTriple.bind (steady_uploading.only (hk.skipMissing runId baseSummary _ _ _))
      fun skipped => ?_
    refine iteInduction (motive := fun p => Runs env _ p _) (fun _ => hskip) fun _ => ?_
    refine TryTriple.bind (steady_uploading.only (SyncEngine.state_asks rfl)) fun operationId => ?_
    refine TryTriple.bind (TryTriple.perform steady_uploading.stable
      (fun _ h => h.afloat.withinQuota) fun s answer s' h hstep => ?_) fun _ => ih
    exact ⟨h.afloat.spawn hstep,h.crew.spawn (by simp [Task.IsCreate]) hstep⟩

theorem joinNext_runs :
    Runs env (Uploading total spent (count+1) out reserved) (SyncEngine.perform .joinNext)
      (fun joined s => match joined with
        | none => Afloat total spent 0 reserved s ∧ s.world.tasks = []
        | some (.created ..) => False
        | some (.uploaded outcome) => (TaskOutcome.uploaded outcome).bytes ≤ out ∧
          Uploading total (spent+(TaskOutcome.uploaded outcome).bytes) count
            (out-(TaskOutcome.uploaded outcome).bytes) reserved s) := by
  refine TryTriple.perform steady_uploading.stable (fun _ h => h.afloat.withinQuota)
    fun s joined s' h hstep => ?_
  have hjoin := h.afloat.join hstep
  cases h.crew.join hstep with
  | none ht hw => exact ⟨hjoin,by rw [hw]; exact ht⟩
  | @some task outcome hkind hyields _ _ hcrew _ _ =>
    cases task with
    | createDirectory => exact absurd trivial hkind
    | upload operationId file isUpdate text =>
      obtain ⟨result,rfl⟩ := hyields
      exact ⟨hjoin.1,hjoin.2,hcrew⟩

theorem recordUploadFailure_asks (outcome : UploadTaskOutcome) (failure : UploadTaskFailure) :
    Only (fun e => e.onTasks = false)
      (SyncEngine.recordUploadFailure root runId baseSummary outcome failure).run := by
  have hk := SyncEngine.running_asks SyncEngine.onTasks_of_isPlain
  have hq : SyncEngine.Quiet runId baseSummary fun ⦃α⦄ (p : Engine α) =>
      Only (fun e => e.onTasks = false) p.run :=
    SyncEngine.quiet_asks SyncEngine.onTasks_of_isPlain runId baseSummary
  exact SyncEngine.recordUploadFailure_of hq root hk.register outcome failure fun reasonCode =>
    SyncEngine.recordSkippedUpload_of hq (SyncEngine.state_asks rfl) _ reasonCode

theorem joinUploads_runs (fuel bytesUploaded : Nat) (hsize : bytesUploaded+out < 2^64) :
    Runs env (Uploading total (spent+bytesUploaded) fuel out reserved)
      (SyncEngine.joinUploads root runId baseSummary fuel bytesUploaded)
      (Uploaded total spent reserved (bytesUploaded+out)) := by
  have hq : SyncEngine.Quiet runId baseSummary fun ⦃α⦄ (p : Engine α) =>
      Only (fun e => e.onTasks = false) p.run :=
    SyncEngine.quiet_asks SyncEngine.onTasks_of_isPlain runId baseSummary
  induction fuel generalizing bytesUploaded out with
  | zero =>
    refine TryTriple.pure fun s h => ?_
    have htasks := h.crew.tasks_nil
    have hall := h.afloat.landed_all htasks
    exact ⟨⟨_,hall.mono (Nat.zero_le _)⟩,fun _ => ⟨hall,htasks,Nat.le_add_right _ _⟩⟩
  | succ fuel ih =>
    refine TryTriple.bind joinNext_runs fun joined => ?_
    match joined with
    | none =>
      exact TryTriple.pure fun _ h =>
        ⟨⟨_,h.1.mono (Nat.zero_le _)⟩,fun _ => ⟨h.1,h.2,Nat.le_add_right _ _⟩⟩
    | some (.created ..) => exact fun s o s' h _ => h.elim
    | some (.uploaded outcome) =>
      refine TryTriple.of_pure (fun s h => h.1) fun hbytes => TryTriple.pre ?_ fun s h => h.2
      dsimp only
      cases hr : outcome.result with
      | ok _ =>
        have hlanded : (TaskOutcome.uploaded outcome).bytes = outcome.file.sizeBytes := by
          simp [TaskOutcome.bytes,hr]
        rw [hlanded] at hbytes ⊢
        refine TryTriple.bind (steady_uploading.only (SyncEngine.recordUploaded_of hq
          ((SyncEngine.running_asks SyncEngine.onTasks_of_isPlain).updateMemory _)
          (fun _ => SyncEngine.state_asks rfl) (fun _ => SyncEngine.state_asks rfl) _))
            fun _ => ?_
        rw [saturatingAdd_eq (by omega),Nat.add_assoc,
          show bytesUploaded+out =
            bytesUploaded+outcome.file.sizeBytes+(out-outcome.file.sizeBytes) by omega]
        exact ih _ (by omega)
      | error failure =>
        have hlanded : (TaskOutcome.uploaded outcome).bytes = 0 := by
          simp [TaskOutcome.bytes,hr]
        rw [hlanded]
        refine TryTriple.bind (steady_uploading.only
          (recordUploadFailure_asks root runId baseSummary outcome failure)) fun stop => ?_
        refine iteInduction (motive := fun p => Runs env _ p _) (fun _ => ?_)
          fun _ => ih bytesUploaded hsize
        refine TryTriple.bind (Q := fun _ s => ∃ spent, Afloat total spent 0 0 s)
          (TryTriple.perform steady_uploading.stable (fun _ h => h.afloat.withinQuota)
            fun s answer s' h hstep => ?_) fun _ => ?_
        · exact ⟨_,(h.afloat.drop hstep).mono (Nat.zero_le _)⟩
        · exact TryTriple.pure fun _ h => ⟨h,fun hstop => by cases hstop⟩

/-- No task is out. -/
structure Idle (total : Option Nat) (spent reserved : Nat) (s : Traced ρ SyncMemory) : Prop where
  afloat : Afloat total spent 0 reserved s
  tasks : s.world.tasks = []

theorem steady_idle : Steady Bounded env (Idle (ρ := ρ) total spent reserved) where
  stable _ _ h hdrift :=
    ⟨Afloat.stable _ _ h.afloat hdrift,stable_noTasks _ _ h.tasks hdrift⟩
  keep h he hstep := ⟨h.afloat.keep he hstep,(hstep.2.1.tasks_eq he).trans h.tasks⟩
  adrift _ h := h.afloat.adrift

theorem uploadBatches_runs (limit largeThreshold fuel : Nat)
    (pending : List (LocalFileEntry × Bool)) (bytesUploaded : Nat)
    (hsize : bytesUploaded+uploadsBytes pending < 2^64) :
    Runs env (Idle total (spent+bytesUploaded) (uploadsBytes pending))
      (SyncEngine.uploadBatches root runId baseSummary limit largeThreshold fuel pending
        bytesUploaded)
      (Uploaded total spent 0 (bytesUploaded+uploadsBytes pending)) := by
  have hend : ∀ pending bytesUploaded stop,
      Runs env (Idle total (spent+bytesUploaded) (uploadsBytes pending))
        (pure { shouldStop := stop, bytesUploaded } : Engine UploadPhaseResult)
        (Uploaded total spent 0 (bytesUploaded+uploadsBytes pending)) := fun _ _ _ =>
    TryTriple.pure fun _ h => ⟨⟨_,h.afloat.mono (Nat.zero_le _)⟩,fun _ =>
      ⟨h.afloat.mono (Nat.zero_le _),h.tasks,Nat.le_add_right _ _⟩⟩
  induction fuel generalizing pending bytesUploaded with
  | zero => exact hend _ _ false
  | succ fuel ih =>
    have hk := SyncEngine.running_asks SyncEngine.onTasks_of_isPlain
    unfold SyncEngine.uploadBatches
    refine iteInduction (motive := fun p => Runs env _ p _) (fun _ => hend _ _ false) fun _ => ?_
    refine TryTriple.bind (steady_idle.only hk.reporting.isCancelled) fun cancelled => ?_
    refine iteInduction (motive := fun p => Runs env _ p _) (fun _ => hend _ _ true) fun _ => ?_
    dsimp only
    have hperm := takeUploadBatch_perm limit largeThreshold pending 0 false
    generalize takeUploadBatch limit largeThreshold pending 0 false = next at hperm
    have hbytes : uploadsBytes next.1+uploadsBytes next.2 = uploadsBytes pending := by
      rw [uploadsBytes,uploadsBytes,fileBytes,fileBytes,← List.sum_append,← List.map_append,
        ← List.map_append]
      exact ((hperm.map Prod.fst).map LocalFileEntry.sizeBytes).sum_eq
    refine iteInduction (motive := fun p => Runs env _ p _) (fun _ => hend _ _ false) fun _ => ?_
    rw [← hbytes] at hsize ⊢
    have hspawn : Runs env
        (Uploading total (spent+bytesUploaded) 0 0 (uploadsBytes next.1+uploadsBytes next.2))
        (SyncEngine.spawnUploads runId baseSummary next.1)
        (fun _ => Uploading total (spent+bytesUploaded) (0+next.1.length)
          (0+uploadsBytes next.1) (uploadsBytes next.2)) :=
      spawnUploads_runs runId baseSummary next.1
    refine TryTriple.bind (hspawn.pre fun s h => ⟨h.afloat,crew_nil h.tasks⟩) fun _ => ?_
    refine TryTriple.bind ((joinUploads_runs root runId baseSummary (next.1.length+1) bytesUploaded
      (by omega)).pre fun s h => ⟨h.afloat,h.crew.mono (by omega)⟩) fun result => ?_
    cases hstop : result.shouldStop with
    | true => exact TryTriple.pure fun s h => ⟨h.idle,fun hgo => by rw [hstop] at hgo; cases hgo⟩
    | false =>
      refine TryTriple.of_pure (fun s h => (h.going hstop).2.2) fun hle => ?_
      refine (ih next.2 result.bytesUploaded (by omega)).weaken (fun s h => ?_)
        (fun final s h => ?_) (fun _ h => h) fun _ h => h
      · exact ⟨(h.going hstop).1,(h.going hstop).2.1⟩
      · exact ⟨h.idle,fun hgo =>
          ⟨(h.going hgo).1,(h.going hgo).2.1,(h.going hgo).2.2.trans (by omega)⟩⟩

end Uploads

section Root

variable (ext : Externals) (config : AppConfig) (root : SyncRootConfig) (runId : Int)
  (baseSummary : SyncRunSummary)

theorem applyCreateDirectories_runs (rootPlan : RootPlan) :
    Runs env (Idle total spent reserved)
      (SyncEngine.applyCreateDirectories config root runId baseSummary rootPlan)
      (fun _ => Idle total spent reserved) := by
  have hafloat : Runs env (Afloat total spent 0 reserved)
      (SyncEngine.applyCreateDirectories config root runId baseSummary rootPlan)
      (fun _ => Afloat total spent 0 reserved) :=
    ((SyncEngine.applyCreateDirectories_asks (S := fun e : Effect SyncMemory => e.uploads = false)
      (fun e he => by cases e <;> first | rfl | cases he) config root runId baseSummary
      (fun _ _ => rfl) rfl rfl rootPlan).keeps Afloat.stable (fun _ h => h.withinQuota)
      fun e he s answer s' h hstep => h.keep_idle he hstep).weaken (fun _ h => h) (fun _ _ h => h)
        (fun _ h => h.adrift) fun _ h => h
  have hcrew : SyncEngine.Leads (env.TraceStep Bounded) env.TraceDrift (fun _ => True)
      (Crew Task.IsCreate 0)
      (SyncEngine.applyCreateDirectories config root runId baseSummary rootPlan)
      fun _ => Crew Task.IsCreate 0 :=
    (SyncEngine.creators_crew runId).applyCreateDirectories config rootPlan
  exact (hafloat.and hcrew).weaken (fun _ h => ⟨h.afloat,crew_nil h.tasks⟩)
    (fun _ _ h => ⟨h.1,h.2.tasks_nil⟩) (fun _ h => h.1) fun _ h => h.1

theorem applyPlan_runs (canonicalRemotePath : Str) (scanReport : ScanReport) (rootPlan : RootPlan)
    (snapshot : RemoteInventorySnapshot) (hcovers : Covers total available spent)
    (hle : ∀ left, available = some left → rootPlan.uploadBytes ≤ left)
    (hsize : rootPlan.uploadBytes < 2^64) :
    Runs env (Idle total spent rootPlan.uploadBytes)
      (SyncEngine.applyPlan config root runId baseSummary canonicalRemotePath scanReport rootPlan
        snapshot)
      (fun result => Onward total available result.shouldStop result.bytesUploaded) := by
  have hk := SyncEngine.running_asks SyncEngine.onTasks_of_isPlain
  have hbytes : uploadsBytes rootPlan.uploads = rootPlan.uploadBytes := by
    simp [uploadsBytes,fileBytes,RootPlan.uploadBytes,Function.comp_def]
  refine TryTriple.bind (applyCreateDirectories_runs config root runId baseSummary rootPlan)
    fun stop => ?_
  refine TryTriple.bind (steady_idle.only hk.reporting.isCancelled) fun cancelled => ?_
  refine iteInduction (motive := fun p => Runs env _ p _) (fun _ => ?_) fun _ => ?_
  · refine TryTriple.bind (steady_idle.only (hk.cleanupStagingFiles _)) fun _ => ?_
    refine TryTriple.bind (steady_idle.only (hk.reporting.finishRootCancelledOrFailed root))
      fun _ => TryTriple.pure fun s h => ?_
    exact ⟨⟨_,h.afloat.mono (Nat.zero_le _)⟩,fun hstop => by cases hstop⟩
  · have huploads : Runs env (Idle total (spent+0) (uploadsBytes rootPlan.uploads))
        (SyncEngine.applyUploads config root runId baseSummary rootPlan)
        (Uploaded total spent 0 (0+uploadsBytes rootPlan.uploads)) :=
      uploadBatches_runs root runId baseSummary _ _ _ _ 0 (by omega)
    rw [Nat.add_zero,Nat.zero_add,hbytes] at huploads
    have honward : Runs env (Idle total spent rootPlan.uploadBytes)
        (SyncEngine.applyUploads config root runId baseSummary rootPlan)
        (fun result => Onward total available result.shouldStop (some result.bytesUploaded)) :=
      huploads.post fun result s h => by
        cases hstop : result.shouldStop with
        | true => exact ⟨h.idle,fun hgo => by cases hgo⟩
        | false =>
          obtain ⟨hall,htasks,hlimit⟩ := h.going hstop
          exact hall.onward htasks hcovers (fun left hl => hlimit.trans (hle left hl)) _
    refine TryTriple.bind honward fun uploaded => ?_
    refine TryTriple.bind ((steady_onward ..).only (hk.cleanupStagingFiles _)) fun _ => ?_
    refine TryTriple.bind ((steady_onward ..).only hk.reporting.isCancelled) fun cancelled => ?_
    cases hstop : uploaded.shouldStop || cancelled with
    | true =>
      exact TryTriple.bind ((steady_onward ..).only (hk.reporting.finishRootCancelledOrFailed root))
        fun _ => TryTriple.pure fun _ h => h.stopped
    | false =>
      have hgoing : uploaded.shouldStop = false := (Bool.or_eq_false_iff.mp hstop).1
      rw [hgoing]
      refine TryTriple.bind ((steady_onward ..).only (SyncEngine.applyDeletes_asks SyncEngine.onTasks_of_isPlain
        root runId baseSummary _ _ _)) fun stopAfterDelete => ?_
      refine TryTriple.bind ((steady_onward ..).only
        (hk.reporting.finishRootCancelledOrFailed root)) fun _ => ?_
      exact TryTriple.bind ((steady_onward ..).only (hk.persistRootProgress runId baseSummary))
        fun _ => TryTriple.pure fun _ h => h.of_going _

/-- The uploads of a plan are files of the live plan. -/
theorem uploadBytes_le (canonicalRemotePath : Str) (plan : LiveScanPlan) (inventory : Inventory) :
    (buildRootPlan ext root canonicalRemotePath plan inventory).uploadBytes ≤
      fileBytes plan.files := by
  have hfiles : (buildRootPlan ext root canonicalRemotePath plan inventory).uploadBytes =
      fileBytes (plan.files.filter (shouldUpload inventory)) := by
    simp [RootPlan.uploadBytes,plannedUploads,fileBytes,Function.comp_def]
  rw [hfiles]
  exact fileBytes_le_of_sublist List.filter_sublist

/-- A plan that does not fit in is not begun. -/
theorem executePlan_runs (canonicalRemotePath : Str) (scanReport : ScanReport) (plan : LiveScanPlan)
    (snapshot : RemoteInventorySnapshot) (hsize : fileBytes plan.files < 2^64) :
    Runs env (Provided total available)
      (SyncEngine.executePlan ext config root runId baseSummary canonicalRemotePath scanReport plan
        snapshot available)
      (fun result => Onward total available result.shouldStop result.bytesUploaded) := by
  have hk := SyncEngine.running_asks SyncEngine.onTasks_of_isPlain
  have hbytes := uploadBytes_le ext root canonicalRemotePath plan snapshot.resources
  unfold SyncEngine.executePlan
  generalize buildRootPlan ext root canonicalRemotePath plan snapshot.resources = rootPlan
    at hbytes ⊢
  dsimp only
  split
  · refine TryTriple.bind ((steady_provided ..).only (hk.reporting.failRootWith ..)) fun _ => ?_
    exact TryTriple.bind ((steady_provided ..).only (hk.updateMemory _)) fun _ =>
      TryTriple.pure fun _ h => (h.onward true)
  · rename_i hfits
    have hle : ∀ left, available = some left → rootPlan.uploadBytes ≤ left := by
      rintro left rfl
      simpa using hfits
    refine TryTriple.bind ((steady_provided ..).only (hk.updateMemory _)) fun _ => ?_
    refine TryTriple.exists_pre fun spent => TryTriple.of_pure (fun s h => h.2.2) fun hcovers => ?_
    refine (applyPlan_runs config root runId baseSummary canonicalRemotePath scanReport rootPlan
      snapshot hcovers hle (by omega)).pre fun s h => ⟨⟨h.1.quoted,fun bytes hb => ?_,h.1.uploaded,
        h.1.tasks,h.1.landed⟩,h.2.1⟩
    obtain ⟨left,hleft,hroom⟩ := hcovers bytes hb
    have huploads := hle left hleft
    omega

/-- The plan of a root lists files of its scan only. -/
theorem planScan_runs (scanReport : ScanReport) :
    Runs env (Provided total available)
      (SyncEngine.planScan root runId baseSummary scanReport)
      (fun plan s => plan.files.Sublist scanReport.files ∧ Provided total available s) := by
  have hk := SyncEngine.running_asks SyncEngine.onTasks_of_isPlain
  refine TryTriple.bind ((steady_provided ..).only (hk.reporting.recordScanFindings scanReport))
    fun _ => ?_
  have hpush : Only (fun e => e.onTasks = false) (LiveScanPlan.pushScannedDirectories (m := Engine)
      (fun path => SyncEngine.perform (.isDir path)) SyncEngine.setScanPlan
      (sortByKey LiveScanPlan.directoryKey scanReport.directories)
      { rootId := scanReport.rootId, rootLocalPath := pathComponents root.localPath }).run :=
    pushScannedDirectories_of hk.toComposable (fun path => hk.routine (.isDir path) rfl)
      (fun _ => hk.updateMemory _) _ _
  refine TryTriple.bind (Q := fun plan s => plan.files.Sublist scanReport.files ∧
    Provided total available s) (TryTriple.bind ((steady_provided ..).only hpush) fun plan =>
      TryTriple.pure fun s h => ⟨List.filter_sublist,h⟩) fun plan => ?_
  refine TryTriple.of_pure (fun s h => h.1) fun hfiles => TryTriple.pre ?_ fun s h => h.2
  refine TryTriple.bind ((steady_provided ..).only (hk.updateMemory _)) fun _ => ?_
  refine TryTriple.bind ((steady_provided ..).only (hk.updateMemory _)) fun _ => ?_
  refine TryTriple.bind ((steady_provided ..).only (hk.reporting.recordDeletedSubtrees runId _))
    fun _ => ?_
  exact TryTriple.bind ((steady_provided ..).only (hk.persistRootProgress runId baseSummary))
    fun _ => TryTriple.pure fun s h => ⟨hfiles,h⟩

theorem executeRoot_runs (options : ScanOptions) (canonicalRemotePath : Str)
    (forceRemoteRescan : Bool) :
    Runs env (Provided total available)
      (SyncEngine.executeRoot ext config root runId baseSummary options canonicalRemotePath
        available forceRemoteRescan)
      (fun result => Onward total available result.shouldStop result.bytesUploaded) := by
  have hk := SyncEngine.running_asks SyncEngine.onTasks_of_isPlain
  have hfail : ∀ rootStatus operation errorKind errorMessage stop,
      Runs env (Provided total available) (do
        SyncEngine.failRootWith rootStatus root operation errorKind errorMessage
        return { shouldStop := stop } : Engine RootExecutionResult)
        (fun result => Onward total available result.shouldStop result.bytesUploaded) :=
    fun _ _ _ _ stop => TryTriple.bind ((steady_provided ..).only (hk.reporting.failRootWith ..))
      fun _ => TryTriple.pure fun _ h => h.onward stop
  have hscan : Runs env (Provided total available)
      (SyncEngine.scanRootWithRepository options (SyncEngine.scanRootOf root canonicalRemotePath))
      (fun answer s => Provided total available s ∧
        ∀ report, answer = .ok report → fileBytes report.files < 2^64) := by
    refine TryTriple.bind ((steady_provided ..).perform rfl) fun states => ?_
    cases states with
    | error error => exact TryTriple.pure fun _ h => ⟨h,fun report hr => by cases hr⟩
    | ok previousStates =>
      exact TryTriple.perform (stable_provided _ _) (fun _ h => h.adrift.withinQuota)
        fun s answer s' h hstep => ⟨(steady_provided ..).keep h rfl hstep,
          fun report hr => fileBytes_lt_of_scan hr hstep⟩
  refine TryTriple.bind hscan fun answer => ?_
  cases answer with
  | error error => exact (hfail _ _ _ _ false).pre fun _ h => h.1
  | ok scanReport =>
    refine TryTriple.of_pure (fun s h => h.2 scanReport rfl) fun hsize => ?_
    refine TryTriple.bind ((planScan_runs root runId baseSummary scanReport).pre fun _ h => h.1)
      fun plan => TryTriple.of_pure (fun s h => fileBytes_le_of_sublist h.1) fun hplan =>
        TryTriple.pre ?_ fun s h => h.2
    cases localRemoteCollision plan.directories plan.files with
    | some message => exact hfail _ _ _ _ false
    | none =>
      refine TryTriple.bind ((steady_provided ..).only (SyncEngine.remoteInventory_asks
        SyncEngine.onTasks_of_isPlain config root canonicalRemotePath plan forceRemoteRescan)) fun answer => ?_
      cases answer with
      | error error =>
        refine TryTriple.bind ((steady_provided ..).only (SyncEngine.state_asks rfl)) fun _ => ?_
        exact iteInduction (motive := fun p => Runs env _ p _) (fun _ => hfail _ _ _ _ true)
          fun _ => hfail _ _ _ _ false
      | ok snapshot =>
        exact executePlan_runs ext config root runId baseSummary canonicalRemotePath scanReport plan
          snapshot (by omega)

end Root

section Run

variable (ext : Externals) (config : AppConfig) (runId : Int)

theorem executeRunRoot_runs (root : SyncRootConfig) (options : ScanOptions)
    (forceRemoteRescan : Bool) :
    Runs env (Provided total available)
      (SyncEngine.executeRunRoot ext config root runId options available forceRemoteRescan)
      (fun next s => (∃ spent, Afloat total spent 0 0 s) ∧ (next.1 = true →
        Provided total next.2 s)) := by
  have hk := SyncEngine.running_asks SyncEngine.onTasks_of_isPlain
  have hfinish : Only (fun e => e.onTasks = false) SyncEngine.finishRootSummary.run :=
    SyncEngine.finishRootSummary_of hk.reporting fun _ => hk.updateMemory _
  unfold SyncEngine.executeRunRoot
  cases canonicalRemotePath config.instanceConfig.remoteRoot root.localPath
      root.remotePathOverride with
  | error error => exact TryTriple.throw fun _ h => h.adrift
  | ok canonical =>
    refine TryTriple.bind ((steady_provided ..).only (hk.call rfl)) fun _ => ?_
    refine TryTriple.bind ((steady_provided ..).only (hk.updateMemory _)) fun _ => ?_
    refine TryTriple.bind ((steady_provided ..).perform rfl) fun isDir => ?_
    refine iteInduction (motive := fun p => Runs env _ p _) (fun _ => ?_) fun _ => ?_
    · refine TryTriple.bind ((steady_provided ..).only (SyncEngine.recordMissingRoot_of hk.reporting
        root fun _ => hk.updateMemory _)) fun _ => ?_
      exact TryTriple.bind ((steady_provided ..).only hfinish) fun _ =>
        TryTriple.pure fun _ h => ⟨(h.onward true).idle,fun _ => h⟩
    · refine TryTriple.bind ((steady_provided ..).only hk.reporting.readMemory) fun before => ?_
      refine TryTriple.bind (executeRoot_runs ext config root runId _ options canonical
        forceRemoteRescan) fun result => ?_
      refine TryTriple.bind ((steady_onward ..).only hfinish) fun _ => ?_
      cases hstop : result.shouldStop with
      | true => exact TryTriple.pure fun _ h => ⟨h.idle,fun hgo => by cases hgo⟩
      | false =>
        exact TryTriple.bind ((steady_onward ..).only hk.reporting.isCancelled) fun cancelled =>
          TryTriple.pure fun _ h => ⟨h.idle,fun _ => h.going rfl⟩

theorem executeRun_runs (forceRemoteRescan : Bool) :
    Runs env Unasked (SyncEngine.executeRun ext config runId forceRemoteRescan)
      (fun _ => Adrift) := by
  have hk := SyncEngine.running_asks SyncEngine.onTasks_of_isPlain
  have hroots : ∀ total options roots available, Runs env (Provided total available)
      (SyncEngine.executeRoots ext config runId options forceRemoteRescan roots available)
      (fun _ => Adrift) := by
    intro total options roots
    induction roots with
    | nil => exact fun _ => TryTriple.pure fun _ h => h.adrift
    | cons root roots ih =>
      intro available
      refine TryTriple.bind ((steady_provided ..).only hk.reporting.isCancelled) fun cancelled => ?_
      refine iteInduction (motive := fun p => Runs env _ p _)
        (fun _ => ((steady_provided ..).only (hk.updateMemory _)).post fun _ _ h => h.adrift)
        fun _ => ?_
      refine TryTriple.bind (executeRunRoot_runs ext config runId root options forceRemoteRescan)
        fun next => ?_
      obtain ⟨goesOn,availableNext⟩ := next
      cases goesOn with
      | true => exact (ih availableNext).pre fun _ h => h.2 rfl
      | false => exact TryTriple.pure fun _ h => h.1.elim fun _ h => h.adrift
  have havailable : Runs env Unasked SyncEngine.availableRemoteBytes
      (fun available => Provided available available) := by
    refine TryTriple.bind ask_provides fun answer => ?_
    cases answer with
    | ok quota => exact TryTriple.pure fun _ h => h
    | error error =>
      exact TryTriple.bind ((steady_provided ..).only (hk.updateMemory _)) fun _ =>
        TryTriple.pure fun _ h => h
  exact TryTriple.bind havailable fun available => hroots available _ _ available

theorem runLocked_runs (trigger : SyncRunTrigger) (forceRemoteRescan : Bool)
    (guard : RunLockGuard) :
    Spends Bounded env Unasked (SyncEngine.runLocked ext config trigger forceRemoteRescan guard)
      (fun _ => WithinQuota) WithinQuota := by
  have hk := SyncEngine.running_asks SyncEngine.onTasks_of_isPlain
  refine TryTriple.bind (unasked_only (SyncEngine.state_asks rfl)) fun _ => ?_
  refine TryTriple.bind (unasked_only (SyncEngine.state_asks rfl)) fun runId => ?_
  have hstart : Only (fun e : Effect SyncMemory => e.beforeQuota = true)
      (SyncEngine.perform (.updateMemory fun _ => { report := { runId } })).run :=
    ⟨rfl,fun _ => trivial⟩
  refine TryTriple.bind (unasked_only hstart) fun _ => ?_
  refine TryTriple.bind (TryTriple.catch (executeRun_runs ext config runId _)) fun execution => ?_
  refine (steady_adrift.only (hk.endRun runId guard execution)).weaken (fun s h => ?_)
    (fun _ _ h => h.withinQuota) (fun _ h => h.withinQuota) fun _ h => h
  cases execution with
  | ok _ => exact h
  | error _ => exact h

/-- A sync run uploads no more than there is room for when it starts. -/
theorem runOnce_withinQuota (options : SyncEngine.SyncRunOptions) :
    Spends Bounded env Unasked (SyncEngine.runOnce ext config options) (fun _ => WithinQuota)
      WithinQuota := by
  have hk : Sequential fun ⦃α⦄ (p : Engine α) => Only (fun e => e.beforeQuota = true) p.run :=
    sequential_only
  have hvalid : Spends Bounded env Unasked (SyncEngine.ensureValidConfig ext config)
      (fun _ => Unasked) WithinQuota :=
    SyncEngine.ensureValidConfig_of (sequential_try fun _ h => h.withinQuota) ext config
  have hmigrate : Spends Bounded env Unasked (SyncEngine.wantsMigration config options.trigger)
      (fun _ => Unasked) WithinQuota :=
    unasked_only (SyncEngine.wantsMigration_of hk.toComposable (fun _ => ⟨rfl,fun _ => trivial⟩)
      (fun _ => SyncEngine.state_asks rfl) config _)
  have hacquire : Only (fun e : Effect SyncMemory => e.beforeQuota = true)
      (SyncEngine.acquireRunLock options.lockOwner options.staleLockAfter).run := by
    have htake : Only (fun e : Effect SyncMemory => e.beforeQuota = true)
        (RunLock.tryAcquireRunLock options.lockOwner options.staleLockAfter :
          Locking SyncMemory (Option RunLockGuard)).run :=
      RunLock.tryAcquireRunLock_of sequential_only ⟨rfl,fun _ => trivial⟩
        (fun _ => ⟨rfl,fun _ => trivial⟩) fun _ _ => ⟨rfl,fun _ => trivial⟩
    exact htake.lift
  refine TryTriple.bind hvalid fun _ => TryTriple.bind hmigrate fun migrate => ?_
  refine iteInduction (motive := fun p => Spends Bounded env _ p _ _)
    (fun _ => TryTriple.pure fun _ h => h.withinQuota) fun _ => ?_
  refine TryTriple.bind (unasked_only hacquire) fun acquired => ?_
  match acquired with
  | .error error => exact TryTriple.throw fun _ h => h.withinQuota
  | .ok none => exact TryTriple.throw fun _ h => h.withinQuota
  | .ok (some guard) =>
    exact TryTriple.bind (runLocked_runs ext config _ _ guard) fun report =>
      TryTriple.pure fun _ h => h

end Run

end SyncQuota

end YaDiskSync

import YaDiskSync.PhaseFrame
import YaDiskSync.StrictRemote

/-! Live paths with a resource of the other type in their place. The plan deletes only what is not
live, and only after its creates and uploads, so what is in the way stays there. -/
namespace YaDiskSync

open Prog SepPath

/-- The paths a live plan fills, each with the type it is to have. -/
def LiveScanPlan.livePaths (canonicalRemotePath : Str) (plan : LiveScanPlan) :
    List (Str × ResourceType) :=
  (canonicalRemotePath,.directory) ::
    plan.directories.map (fun directory => (directory.remotePath,.directory)) ++
      plan.files.map fun file => (file.remotePath,.file)

/-- The inventory has a resource of the other type at a live path. -/
def InConflict (canonicalRemotePath : Str) (plan : LiveScanPlan) (inventory : Inventory)
    (live : Str × ResourceType) : Prop :=
  live ∈ plan.livePaths canonicalRemotePath ∧ inventory.holds live.1 live.2.other = true

section Histories

variable {μ : Type}

/-- The resource a step sets out to make. -/
def Happening.makes : Happening μ → Option (Str × ResourceType)
  | .step (.spawn task) _ => task.call.makes
  | .step (.client call) _ => call.makes
  | _ => none

/-- The resource a step removes. -/
def Happening.removes : Happening μ → Option Str
  | .step (.client (.deletePermanently path)) _ => some path
  | _ => none

/-- Nothing is made once something has been removed. -/
def RemovesLast (trace : List (Happening μ)) : Prop :=
  trace.Pairwise fun earlier later => earlier.removes ≠ none → later.makes = none

theorem RemovesLast.snoc {trace : List (Happening μ)} {happening : Happening μ}
    (h : RemovesLast trace) (hlast : happening.makes = none) :
    RemovesLast (trace ++ [happening]) := by
  refine List.pairwise_append.mpr ⟨h,List.pairwise_singleton _ _,fun _ _ later hl _ => ?_⟩
  rwa [List.mem_singleton.mp hl]

theorem removesLast_of_forall {trace : List (Happening μ)}
    (h : ∀ happening ∈ trace, happening.removes = none) : RemovesLast trace :=
  List.Pairwise.imp_of_mem (fun hearlier _ _ hne => absurd (h _ hearlier) hne)
    (List.pairwise_of_forall fun _ _ => trivial : trace.Pairwise fun _ _ => True)

end Histories

/-- What is in the way at a live path is removed before anything is made there, and in the end
every live path holds a resource of its own type. -/
structure ResolvesConflicts {μ : Type} (canonicalRemotePath : Str) (plan : LiveScanPlan)
    (inventory : Inventory) (trace : List (Happening μ)) (remote : RemoteDisk) : Prop where
  removedFirst : ∀ live, InConflict canonicalRemotePath plan inventory live →
    ∀ past happening later, trace = past ++ happening :: later →
      happening.makes = some live →
        ∃ removal ∈ past, ∃ path, removal.removes = some path ∧ SepPath.Covers slash path live.1
  ownTypes : ∀ live ∈ plan.livePaths canonicalRemotePath,
    remote.resources.holds live.1 live.2 = true

namespace SyncEngine

/-- Something of the other type stands at a live path, and nothing has been removed. -/
structure Blocked (live : Str × ResourceType) (s : Traced RemoteDisk SyncMemory) : Prop where
  other : s.world.remote.resources.holds live.1 live.2.other = true
  kept : ∀ happening ∈ s.trace, happening.removes = none

/-- The live path does not hold its type, and what was removed was so last. -/
structure Unresolved (live : Str × ResourceType) (s : Traced RemoteDisk SyncMemory) : Prop where
  wrong : s.world.remote.resources.holds live.1 live.2 = false
  last : RemovesLast s.trace

variable {env : Environment RemoteDisk}
  {allowed : Traced RemoteDisk SyncMemory → (e : Effect SyncMemory) → e.Answer → Prop}
  {live : Str × ResourceType} {s s' : Traced RemoteDisk SyncMemory}

theorem Blocked.unresolved (h : Blocked live s) : Unresolved live s :=
  ⟨Inventory.not_holds_both h.other,removesLast_of_forall h.kept⟩

/-- A step that calls nothing itself leaves the remote alone. -/
theorem Blocked.step (h : Blocked live s) {e : Effect SyncMemory} {answer : e.Answer}
    (he : ∀ call, e ≠ .client call) (hstep : env.TraceStep allowed s e answer s') :
    Blocked live s' := by
  refine ⟨by rw [hstep.2.1.remote_eq he]; exact h.other,fun happening hh => ?_⟩
  rw [hstep.2.2] at hh
  rcases List.mem_append.mp hh with hh | hh
  · exact h.kept happening hh
  · rw [List.mem_singleton.mp hh]
    cases e <;> first | rfl | exact absurd rfl (he _)

theorem Unresolved.step (h : Unresolved live s) {e : Effect SyncMemory} {answer : e.Answer}
    (he : e.isLocal = true) (hstep : env.TraceStep allowed s e answer s') : Unresolved live s' := by
  refine ⟨?_,?_⟩
  · rw [hstep.2.1.remote_eq fun call hc => by rw [hc] at he; cases he]
    exact h.wrong
  · rw [hstep.2.2]
    exact h.last.snoc (by cases e <;> first | rfl | cases he)

section Conflicts

variable (henv : RefusesOtherType env)

include henv

theorem keptLocally_blocked : KeptLocally env allowed (Unresolved live) (Blocked live) where
  stable s s' h hdrift := by
    refine ⟨henv.stable_holds live.1 live.2.other s s' h.other hdrift,fun happening hh => ?_⟩
    rcases hdrift.trace_eq with htrace | ⟨task,outcome,htrace⟩
    · exact h.kept happening (htrace ▸ hh)
    · rw [htrace] at hh
      rcases List.mem_append.mp hh with hh | hh
      · exact h.kept happening hh
      · rw [List.mem_singleton.mp hh]
        rfl
  cut _ := Blocked.unresolved
  local_step s e answer s' he h hstep :=
    h.step (fun call hc => by rw [hc] at he; cases he) hstep

omit henv in
/-- Once no task is out any more. -/
theorem keptLocally_unresolved : KeptLocally env allowed (Unresolved live)
    fun s => Unresolved live s ∧ s.world.tasks = [] where
  stable s s' h hdrift := by
    refine ⟨?_,stable_noTasks s s' h.2 hdrift⟩
    cases hdrift with
    | land ht _ => simp [h.2] at ht
    | disk _ => exact ⟨h.1.wrong,h.1.last⟩
    | cancel _ => exact ⟨h.1.wrong,h.1.last⟩
    | tick _ => exact ⟨h.1.wrong,h.1.last⟩
  cut _ h := h.1
  local_step s e answer s' he h hstep :=
    ⟨h.1.step he hstep,(hstep.2.1.tasks_eq (Effect.isLocal.onTasks he)).trans h.2⟩

/-- Neither looking a resource up nor deleting it makes one. -/
theorem Unresolved.call (h : Unresolved live s) {path : Str} {call : ClientCall}
    (hcall : call ∈ [ClientCall.metadata path,.deletePermanently path])
    {answer : Except YandexDiskError call.Result}
    (hstep : env.TraceStep allowed s (.client call) answer s') : Unresolved live s' := by
  obtain ⟨remote,hclient,hw⟩ := hstep.2.1
  have hremote : s'.world.remote = remote := by rw [hw]
  have hwrong := h.wrong
  have hlast : RemovesLast s'.trace := by
    rw [hstep.2.2]
    refine h.last.snoc ?_
    rcases List.mem_pair.mp hcall with rfl | rfl <;> rfl
  rcases List.mem_pair.mp hcall with rfl | rfl
  · exact ⟨by rw [hremote,henv.read hclient rfl]; exact hwrong,hlast⟩
  · refine ⟨?_,hlast⟩
    rw [hremote,Inventory.holds]
    rcases henv.removed hclient live.1 with heq | hnone
    · rw [heq]
      exact hwrong
    · rw [hnone]
      rfl

variable (ext : Externals) (config : AppConfig) (root : SyncRootConfig) (runId : Int)
  (baseSummary : SyncRunSummary)

/-- Blocked from the start of the phases, unresolved at any time. -/
theorem applyPlan_unresolved (canonicalRemotePath : Str) (scanReport : ScanReport)
    (rootPlan : RootPlan) (snapshot : RemoteInventorySnapshot) :
    TryTriple (env.TraceStep allowed) env.TraceDrift
      (fun s => Blocked live s ∧ s.world.tasks = [])
      (applyPlan config root runId baseSummary canonicalRemotePath scanReport rootPlan snapshot)
      (fun _ => Unresolved live) (Unresolved live) (Unresolved live) := by
  have hblocked : KeptLocally env allowed (Unresolved live) (Blocked live) :=
    keptLocally_blocked henv
  have htasks : ∀ s e answer s', e.onTasks = true → Blocked live s →
      env.TraceStep allowed s e answer s' → Blocked live s' := fun s e answer s' he h hstep =>
    h.step (fun call hc => by rw [hc] at he; cases he) hstep
  have hq := hblocked.alone.quiet runId baseSummary
  have hafter : KeptLocally env allowed (Unresolved live) fun s =>
      Unresolved live s ∧ s.world.tasks = [] := keptLocally_unresolved
  have hqa := hafter.quiet runId baseSummary
  have hdeletes := hafter.applyDeletes root runId baseSummary canonicalRemotePath
    snapshot.resources snapshot.fromCache fun path call hcall s answer s' h hstep =>
      ⟨Unresolved.call henv h.1 hcall hstep,(hstep.2.1.tasks_eq rfl).trans h.2⟩
  refine TryTriple.bind (hblocked.applyCreateDirectories config root runId baseSummary htasks
    rootPlan) fun stop => ?_
  refine TryTriple.bind hq.isCancelled fun cancelled => ?_
  refine TryTriple.post (Q := fun _ s => Unresolved live s ∧ s.world.tasks = []) ?_
    fun _ _ h => h.1
  refine iteInduction (motive := fun p => TryTriple _ _ _ p _ _ _) (fun _ => ?_) fun _ => ?_
  · refine TryTriple.pre (P := fun s => Unresolved live s ∧ s.world.tasks = []) ?_
      fun s h => ⟨h.1.unresolved,h.2⟩
    exact hqa.bind (hqa.cleanupStagingFiles _) fun _ =>
      hqa.bind (hqa.finishRootCancelledOrFailed root) fun _ => hqa.pure _
  · have huploads := hblocked.applyUploads config root runId baseSummary htasks rootPlan
    refine TryTriple.bind (Q := fun _ s => Unresolved live s ∧ s.world.tasks = [])
      (huploads.post fun _ s h => ⟨h.1.unresolved,h.2⟩) fun uploaded => ?_
    refine hqa.bind (hqa.cleanupStagingFiles _) fun _ => hqa.bind hqa.isCancelled fun cancelled => ?_
    refine iteInduction (motive := fun p => Keeps _ _ _ _ p) (fun _ => ?_) fun _ => ?_
    · exact hqa.bind (hqa.finishRootCancelledOrFailed root) fun _ => hqa.pure _
    · exact hqa.bind hdeletes fun _ => hqa.bind (hqa.finishRootCancelledOrFailed root) fun _ =>
        hqa.bind hqa.persistRootProgress fun _ => hqa.pure _

theorem executePlan_unresolved (canonicalRemotePath : Str) (scanReport : ScanReport)
    (plan : LiveScanPlan) (snapshot : RemoteInventorySnapshot) (availableRemoteBytes : Option Nat) :
    TryTriple (env.TraceStep allowed) env.TraceDrift
      (fun s => Blocked live s ∧ s.world.tasks = [])
      (executePlan ext config root runId baseSummary canonicalRemotePath scanReport plan snapshot
        availableRemoteBytes)
      (fun _ => Unresolved live) (Unresolved live) (Unresolved live) := by
  have hblocked : KeptLocally env allowed (Unresolved live) fun s =>
      Blocked live s ∧ s.world.tasks = [] := (keptLocally_blocked henv).alone
  have hq := hblocked.quiet runId baseSummary
  unfold executePlan
  dsimp only
  split
  · refine TryTriple.post (Q := fun _ s => Blocked live s ∧ s.world.tasks = []) ?_
      fun _ _ h => h.1.unresolved
    exact hq.bind (hq.failRootWith _ _ _ _ _) fun _ =>
      hq.bind (hblocked.perform rfl) fun _ => hq.pure _
  · exact TryTriple.bind (hblocked.perform rfl) fun _ =>
      applyPlan_unresolved henv config root runId baseSummary _ _ _ _

end Conflicts

/-- With a fresh inventory that has a conflict, at no moment of a run are the conflicts resolved:
nothing is removed before everything has been made, and the path in conflict never holds its
type. -/
theorem executePlan_not_resolvesConflicts {env : Environment RemoteDisk}
    (henv : RefusesOtherType env) (ext : Externals) (config : AppConfig) (root : SyncRootConfig)
    (runId : Int) (baseSummary : SyncRunSummary) (canonicalRemotePath : Str)
    (scanReport : ScanReport) (plan : LiveScanPlan) (snapshot : RemoteInventorySnapshot)
    (availableRemoteBytes : Option Nat) {s s' : Traced RemoteDisk SyncMemory}
    {result : Option (Except SyncError RootExecutionResult)} (htrace : s.trace = [])
    (htasks : s.world.tasks = [])
    (hfresh : ∀ path resourceType, snapshot.resources.holds path resourceType = true →
      s.world.remote.resources.holds path resourceType = true)
    (hconflict : ∃ live, InConflict canonicalRemotePath plan snapshot.resources live)
    (hrun : Exec (env.TraceStep fun _ _ _ => True) env.TraceDrift
      (executePlan ext config root runId baseSummary canonicalRemotePath scanReport plan snapshot
        availableRemoteBytes).run s result s') :
    RemovesLast s'.trace ∧
      ¬ ResolvesConflicts canonicalRemotePath plan snapshot.resources s'.trace
        s'.world.remote := by
  obtain ⟨live,hlive,hother⟩ := hconflict
  have hstart : Blocked live s ∧ s.world.tasks = [] :=
    ⟨⟨hfresh _ _ hother,by simp [htrace]⟩,htasks⟩
  have hend := executePlan_unresolved henv ext config root runId baseSummary canonicalRemotePath
    scanReport plan snapshot availableRemoteBytes s result s' hstart hrun
  have hunresolved : Unresolved live s' := by
    match result with
    | none => exact hend
    | some (.error _) => exact hend
    | some (.ok _) => exact hend
  refine ⟨hunresolved.last,fun h => ?_⟩
  have hwrong := hunresolved.wrong
  rw [h.ownTypes live hlive] at hwrong
  cases hwrong

section Swapped

/-! A local file in the place of what was a directory when it was last uploaded. -/

private def swappedFile : LocalFileEntry :=
  { rootId := "r".toList
    localPath := ["r".toList,"x".toList]
    relativePath := "x".toList
    remotePath := "disk:/r/x".toList
    normalizedRemotePath := "disk:/r/x".toList
    uploadSource := ["r".toList,"x".toList]
    sizeBytes := 1
    mtimeNs := none
    ctimeNs := none
    fingerprint := {
      kind := .metadata, value := [], fullSha256 := none, localMd5 := none, reusedFromState := false }
    sqliteBackupStagingPath := none }

private def swappedPlan : LiveScanPlan :=
  { rootId := "r".toList, rootLocalPath := ["r".toList], files := [swappedFile] }

private def swappedInventory : Inventory :=
  .ofResources [.ofDirectory "disk:/r".toList,.ofDirectory "disk:/r/x".toList,
    .ofFile "disk:/r/x/old".toList 1]

private def swappedStart : Traced RemoteDisk SyncMemory where
  world := {
    disk := {
      items := [
        { components := ["r".toList], fileType := .dir, sizeBytes_lt := emptySize_lt },
        { components := ["r".toList,"x".toList], fileType := .file
          sizeBytes_lt := emptySize_lt, content := "1".toList }]
      names_ne := by decide
      nodup := by decide
      closed := by decide +kernel }
    remote := { resources := swappedInventory }
    repository := (({} : Repository).beginRun .manual).2.upsertSyncRoot "r".toList "/r".toList
      "disk:".toList "disk:/r".toList true
    tasks := []
    cancelled := false
    now := 0
    memory := { report := { runId := 1 }, livePlan := some swappedPlan } }

private def swappedEnvironment : Environment RemoteDisk :=
  strictEnvironment asciiExternals ⟨none,none⟩ fun _ _ => False

private def swappedRoot : SyncRootConfig :=
  { id := "r".toList, name := "r".toList, enabled := true, localPath := "/r".toList }

private def swappedProgram : Engine RootExecutionResult :=
  executePlan asciiExternals defaultConfig swappedRoot 1 {} "disk:/r".toList
    { rootId := "r".toList, files := [swappedFile] } swappedPlan
    { resources := swappedInventory, fromCache := false } none

private def swappedRun : Except SyncError RootExecutionResult × Traced RemoteDisk SyncMemory :=
  swappedStart.play { respond := strictResponder ⟨none,none⟩ } asciiExternals swappedProgram.run

private theorem exec_swappedRun :
    Exec (swappedEnvironment.TraceStep fun _ _ _ => True) swappedEnvironment.TraceDrift
      swappedProgram.run swappedStart (some swappedRun.1) swappedRun.2 := by
  have hallowed : Scenario.Allowed (μ := SyncMemory) { respond := strictResponder ⟨none,none⟩ }
      swappedEnvironment := {
    admits := strictEnvironment_admits asciiExternals ⟨none,none⟩ fun _ _ => False
    cancels := fun _ _ hc => by simp at hc }
  exact Scenario.exec_play hallowed (J := fun _ => True) (fun _ _ _ => trivial)
    (fun _ _ _ => trivial) _ trivial

theorem swappedFile_never_uploaded :
    InConflict "disk:/r".toList swappedPlan swappedInventory ("disk:/r/x".toList,.file) ∧
      RemovesLast swappedRun.2.trace ∧
        ¬ ResolvesConflicts "disk:/r".toList swappedPlan swappedInventory swappedRun.2.trace
          swappedRun.2.world.remote := by
  have hconflict : InConflict "disk:/r".toList swappedPlan swappedInventory
      ("disk:/r/x".toList,.file) := ⟨by decide,by decide +kernel⟩
  exact ⟨hconflict,executePlan_not_resolvesConflicts (strictEnvironment_strict _ _ _).1 _ _ _ _ _ _ _
    _ _ _ rfl rfl (fun _ _ h => h) ⟨_,hconflict⟩ exec_swappedRun⟩

/-- The old file is deleted, the directory it was in is not, and no file takes its place. -/
theorem swappedDirectory_stays :
    ¬ ∀ (env : Environment RemoteDisk), RefusesOtherType env → ∀ (config : AppConfig)
      (root : SyncRootConfig) (scanReport : ScanReport) (plan : LiveScanPlan)
      (snapshot : RemoteInventorySnapshot) (s s' : Traced RemoteDisk SyncMemory)
      (result : Except SyncError RootExecutionResult), s.trace = [] → s.world.tasks = [] →
      (∀ path resourceType, snapshot.resources.holds path resourceType = true →
        s.world.remote.resources.holds path resourceType = true) →
      Exec (env.TraceStep fun _ _ _ => True) env.TraceDrift
        (executePlan asciiExternals config root 1 {} "disk:/r".toList scanReport plan snapshot
          none).run s (some result) s' →
      ResolvesConflicts "disk:/r".toList plan snapshot.resources s'.trace s'.world.remote := by
  intro h
  have hresolved := h swappedEnvironment (strictEnvironment_strict _ _ _).1 _ _ _ swappedPlan
    { resources := swappedInventory, fromCache := false } swappedStart swappedRun.2 swappedRun.1 rfl
    rfl (fun _ _ hheld => hheld) exec_swappedRun
  have hfile := hresolved.ownTypes ("disk:/r/x".toList,.file) (by decide)
  have hend : swappedRun.2.world.remote.resources.holds "disk:/r/x".toList .file = false ∧
      swappedRun.2.world.remote.resources.holds "disk:/r/x".toList .directory = true ∧
      swappedRun.2.world.remote.resources.holds "disk:/r/x/old".toList .file = false := by
    decide +kernel
  exact absurd (hfile.symm.trans hend.1) (by simp)

end Swapped

end SyncEngine

end YaDiskSync

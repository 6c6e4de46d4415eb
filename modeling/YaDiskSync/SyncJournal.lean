import YaDiskSync.RunFrame
import YaDiskSync.Journal

/-! The journal of a sync run. -/
namespace YaDiskSync

open Prog

namespace SyncJournal

variable {ρ : Type} {env : Environment ρ} {known : List Int}

/-- Nothing of a sync run waits for a task. -/
def waiting (_ : SyncMemory) : List Int := []

abbrev Step (env : Environment ρ) (s : Traced ρ SyncMemory) (e : Effect SyncMemory)
    (answer : e.Answer) (s' : Traced ρ SyncMemory) : Prop :=
  env.TraceStep (EndsClosed waiting) s e answer s'

abbrev Runs (env : Environment ρ) (known : List Int) (P : Traced ρ SyncMemory → Prop) {α : Type}
    (p : Engine α) (Q : α → Traced ρ SyncMemory → Prop) : Prop :=
  SyncEngine.Leads (Step env) env.TraceDrift (Closed known) P p Q

abbrev AtWork (known : List Int) (kind : Task → Prop) (n : Nat)
    (hand : Option (Int × Option Ending)) (moment : Moment) : Traced ρ SyncMemory → Prop :=
  Working waiting known kind n hand moment

variable {kind : Task → Prop} {n : Nat} {hand : Option (Int × Option Ending)} {moment : Moment}

theorem isSteady_of_isRoutine {e : Effect SyncMemory} (he : SyncEngine.isRoutine e = true) :
    Working.isSteady e = true := by
  cases e with
  | state call => cases call <;> first | rfl | cases he
  | spawn _ | joinNext | dropTasks => cases he
  | _ => rfl

theorem routine_working : SyncEngine.Routine fun ⦃α⦄ (p : Engine α) =>
    Upholds (Step env) env.TraceDrift (AtWork known kind n hand .idle) (Closed known) p :=
  SyncEngine.routine_upholds Working.stable
    (fun _ he _ _ _ h hstep => h.steady (isSteady_of_isRoutine he) (fun _ _ _ => rfl) hstep)
    fun _ _ _ _ _ h hstep => h.error_closed hstep

theorem call_leads {call : StateCall} (he : Working.isSteady (μ := SyncMemory) (.state call) = true) :
    Runs env known (AtWork known kind n hand .idle) (SyncEngine.state call)
      fun _ => AtWork known kind n hand .idle :=
  SyncEngine.state_leads Working.stable
    (fun _ _ _ h hstep => h.steady he (fun _ _ _ => rfl) hstep)
    fun _ _ _ h hstep => h.error_closed hstep

theorem opens_leads (record : OperationRecord) :
    Runs env known (AtWork known kind n none moment)
      (SyncEngine.state (.appendOperationStarted record))
      fun id => AtWork known kind n (some (id,moment.blame)) (.calling id) :=
  SyncEngine.state_leads Working.stable (fun _ _ _ h hstep => h.opens hstep)
    fun _ _ _ h hstep => h.error_closed hstep

theorem closes_leads {id : Int} {ending : Ending} (errorKind errorMessage : Option Str) :
    Runs env known (AtWork known kind n (some (id,some ending)) moment)
      (SyncEngine.state (.finishOperation id ending.status errorKind errorMessage))
      fun _ => AtWork known kind n none .idle :=
  SyncEngine.state_leads Working.stable (fun _ _ _ h hstep => h.closes hstep)
    fun _ _ _ h hstep => h.error_closed hstep

theorem givesUp_leads {id : Int} {verdict : Option Ending} (errorKind errorMessage : Option Str) :
    Runs env known (AtWork known kind n (some (id,verdict)) .missing)
      (SyncEngine.state (.finishOperation id .cancelled errorKind errorMessage))
      fun _ => AtWork known kind n none .idle :=
  SyncEngine.state_leads Working.stable (fun _ _ _ h hstep => h.givesUp hstep)
    fun _ _ _ h hstep => h.error_closed hstep

/-- A file is looked up; what is told is that nothing is there. -/
theorem register_leads (localPath : LocalPath) (relativePath remotePath : Str) :
    Runs env known (AtWork known kind n hand .idle)
      (SyncEngine.registerMissingLocalPath localPath relativePath remotePath)
      fun found => AtWork known kind n hand (Working.looked found.isSome) := by
  refine TryTriple.bind routine_working.reporting.livePlan fun plan => ?_
  refine TryTriple.bind (registerMissingLocalPath_finds
    (F := fun gone => AtWork known kind n hand (Working.looked gone))
    (fun _ h => h.idle (by simp [Working.looked]))
    (fun gone path => ?_) (fun path => routine_working.routine (.isDir path) rfl) plan localPath
    relativePath remotePath) fun result => ?_
  · exact TryTriple.perform Working.stable (fun _ _ => trivial) fun _ _ _ h hstep =>
      h.looks hstep
  · refine TryTriple.bind (Q := fun _ => AtWork known kind n hand
      (Working.looked result.2.isSome)) ?_ fun _ => TryTriple.pure fun _ h => h
    refine TryTriple.perform Working.stable (fun _ _ => trivial) fun s _ s' h hstep => ?_
    have hrest : (Working.looked result.2.isSome).rest = Working.looked result.2.isSome := by
      cases result.2 <;> rfl
    exact hrest ▸ h.rests rfl (fun _ _ _ => rfl) hstep

theorem creators (runId : Int) : SyncEngine.Creators (Step env) env.TraceDrift (Closed known)
    runId (fun n => AtWork known Task.IsCreate n none .idle)
    (fun _ id n => AtWork known Task.IsCreate n (some (id,none)) (.calling id))
    fun _ id result n => AtWork known Task.IsCreate n
      (some (id,some (.ofSuccess result.isOk))) .idle where
  mono n s h := Working.mono h (Nat.le_succ n)
  routine n := routine_working
  opened n directory := opens_leads _
  spawned n directory operationId := by
    refine TryTriple.perform Working.stable (fun _ _ => trivial) fun s _ s' h hstep => ?_
    have hkind : (Task.createDirectory directory operationId).IsCreate := trivial
    exact h.spawns hkind hstep
  joined n := by
    refine TryTriple.perform Working.stable (fun _ _ => trivial) fun s joined s' h hstep => ?_
    have hjoins := h.joins hstep
    match joined with
    | none => exact hjoins
    | some (.created directory operationId result) =>
      obtain ⟨task,_,_,_,hworking⟩ := hjoins
      exact hworking
    | some (.uploaded outcome) =>
      obtain ⟨task,hkind,hyields,_⟩ := hjoins
      cases task with
      | createDirectory directory operationId => exact absurd hyields (by simp [Task.Yields])
      | upload operationId file isUpdate cancelledText => exact hkind.elim
  created n directory operationId :=
    TryTriple.bind (closes_leads none none) fun _ =>
      TryTriple.bind (call_leads rfl) fun _ => call_leads rfl
  failed n directory operationId error := closes_leads _ _
  dropped n := TryTriple.perform Working.stable (fun _ _ => trivial) fun _ _ _ h hstep =>
    h.drops hstep

/-- An upload has ended, and is known to be of a file that is gone, or not yet. -/
def Joined (known : List Int) (outcome : UploadTaskOutcome) (gone : Bool) (n : Nat)
    (s : Traced ρ SyncMemory) : Prop :=
  (TaskOutcome.uploaded outcome).isCancelled = false ∧
    AtWork known (fun task => ¬ task.IsCreate) n
      (some (outcome.operationId,some (.ofUpload outcome.result))) (Working.looked gone) s

theorem joined_closes {outcome : UploadTaskOutcome} {gone : Bool}
    (errorKind errorMessage : Option Str) :
    Runs env known (Joined known outcome gone n)
      (SyncEngine.state (.finishOperation outcome.operationId
        (Ending.ofUpload outcome.result).status errorKind errorMessage))
      fun _ => AtWork known (fun task => ¬ task.IsCreate) n none .idle :=
  (closes_leads errorKind errorMessage).pre fun _ h => h.2

/-- An upload that was done. -/
theorem recordUploaded_leads (runId : Int) (baseSummary : SyncRunSummary)
    {outcome : UploadTaskOutcome} (hresult : outcome.result = .ok ()) :
    Runs env known (Joined known outcome false n)
      (SyncEngine.recordUploaded runId baseSummary outcome.operationId outcome.file
        outcome.isUpdate) fun _ => AtWork known (fun task => ¬ task.IsCreate) n none .idle := by
  have hr : SyncEngine.Routine fun ⦃α⦄ (p : Engine α) => Upholds (Step env) env.TraceDrift
      (AtWork known (fun task => ¬ task.IsCreate) n none .idle) (Closed known) p :=
    routine_working
  have hclose : Runs env known (Joined known outcome false n)
      (SyncEngine.state (.finishOperation outcome.operationId
        (Ending.ofUpload outcome.result).status none none))
      fun _ => AtWork known (fun task => ¬ task.IsCreate) n none .idle := joined_closes _ _
  rw [hresult] at hclose
  refine TryTriple.bind hclose fun _ => ?_
  have hstatus : Runs env known (AtWork known (fun task => ¬ task.IsCreate) n none .idle)
      (SyncEngine.fileStatusAfterUpload outcome.file)
      fun _ => AtWork known (fun task => ¬ task.IsCreate) n none .idle := by
    refine TryTriple.bind (hr.routine (.fileMetadata _) rfl) fun found => ?_
    cases found with
    | none => exact TryTriple.pure fun _ h => h
    | some found =>
      exact iteInduction (motive := fun p => TryTriple _ _ _ p _ _ _)
        (fun _ => TryTriple.pure fun _ h => h) fun _ => TryTriple.pure fun _ h => h
  refine TryTriple.bind hstatus fun status => TryTriple.bind (call_leads rfl) fun _ => ?_
  exact TryTriple.bind (call_leads rfl) fun _ => TryTriple.bind (hr.updateMemory _) fun _ =>
    hr.persistRootProgress runId baseSummary

/-- One that was answered with an error, or whose file is gone. -/
theorem refused_closes {outcome : UploadTaskOutcome} {failure : UploadTaskFailure} (gone : Bool)
    (errorKind errorMessage : Str) (hresult : outcome.result = .error failure) :
    Runs env known (Joined known outcome gone n)
      (SyncEngine.state (.finishOperation outcome.operationId
        (if gone || failure.skipReasonCode.isSome then .cancelled else .failed) (some errorKind)
        (some errorMessage)))
      fun _ => AtWork known (fun task => ¬ task.IsCreate) n none .idle := by
  cases gone with
  | true => exact (givesUp_leads _ _).pre fun _ h => h.2
  | false =>
    refine TryTriple.of_pure (fun _ h => h.1) fun hcancelled => ?_
    have hstatus : (Ending.ofUpload outcome.result).status =
        if failure.skipReasonCode.isSome then .cancelled else .failed := by
      obtain ⟨operationId,file,isUpdate,result⟩ := outcome
      cases hresult
      have hran : failure.isCancelled = false := hcancelled
      simp only [Ending.ofUpload,hran,Bool.false_or]
      split <;> rfl
    have hclose : Runs env known (Joined known outcome false n)
        (SyncEngine.state (.finishOperation outcome.operationId
          (Ending.ofUpload outcome.result).status (some errorKind) (some errorMessage)))
        fun _ => AtWork known (fun task => ¬ task.IsCreate) n none .idle := joined_closes _ _
    rw [hstatus] at hclose
    exact hclose

theorem uploaders (runId : Int) (baseSummary : SyncRunSummary) :
    SyncEngine.Uploaders (Step env) env.TraceDrift (Closed known) runId baseSummary
      (fun n => AtWork known (fun task => ¬ task.IsCreate) n none .idle)
      (fun _ _ id n => AtWork known (fun task => ¬ task.IsCreate) n (some (id,none)) (.calling id))
      (Joined known) where
  mono n s h := Working.mono h (Nat.le_succ n)
  routine n := routine_working
  pending n outcome := TryTriple.of_pure (fun _ h => h.1) fun hgone =>
    ((register_leads _ _ _).pre fun _ h => h.2).post fun _ _ h => ⟨hgone,h⟩
  opened n file isUpdate := opens_leads _
  spawned n file isUpdate operationId := by
    refine TryTriple.perform Working.stable (fun _ _ => trivial) fun s _ s' h hstep => ?_
    have hkind : (fun task : Task => ¬ task.IsCreate)
        (.upload operationId file isUpdate SyncEngine.cancelledText) := id
    exact h.spawns hkind hstep
  joined n := by
    refine TryTriple.perform Working.stable (fun _ _ => trivial) fun s joined s' h hstep => ?_
    have hjoins := h.joins hstep
    match joined with
    | none => exact hjoins
    | some (.uploaded outcome) =>
      obtain ⟨task,_,_,_,hworking⟩ := hjoins
      exact ⟨hstep.1.2 _ rfl,hworking⟩
    | some (.created directory operationId result) =>
      obtain ⟨task,hkind,hyields,_⟩ := hjoins
      cases task with
      | createDirectory directory operationId => exact (hkind trivial).elim
      | upload operationId file isUpdate cancelledText =>
        exact absurd hyields (by simp [Task.Yields])
  uploaded n outcome hresult := recordUploaded_leads runId baseSummary hresult
  failed n outcome failure gone errorKind errorMessage hresult :=
    refused_closes gone errorKind errorMessage hresult
  skipped n file errorMessage := call_leads rfl
  dropped n := TryTriple.perform Working.stable (fun _ _ => trivial) fun _ _ _ h hstep =>
    h.drops hstep

/-- Between two operations of a run. -/
abbrev Idle (known : List Int) : Traced ρ SyncMemory → Prop :=
  AtWork known (fun _ => False) 0 none .idle

/-- With the operation of a delete open. -/
abbrev Deleting (known : List Int) (id : Int) : Traced ρ SyncMemory → Prop :=
  AtWork known (fun _ => False) 0 (some (id,none)) (.calling id)

/-- With the operation of a delete at its end. -/
abbrev Deleted (known : List Int) (id : Int) (ending : Ending) : Traced ρ SyncMemory → Prop :=
  AtWork known (fun _ => False) 0 (some (id,some ending)) .idle

theorem running_idle : SyncEngine.Running fun ⦃α⦄ (p : Engine α) =>
    Upholds (Step env) env.TraceDrift (Idle known) (Closed known) p :=
  SyncEngine.running_upholds Working.stable
    (fun _ he _ _ _ h hstep => h.steady (isSteady_of_isRoutine he) (fun _ _ _ => rfl) hstep)
    fun _ h => h.closed rfl

section Deletes

variable {root : SyncRootConfig} {runId : Int} {baseSummary : SyncRunSummary}

theorem recordDeleted_leads (operationId : Int) (delete : RemoteDeleteOperation) :
    Runs env known (Deleted known operationId .succeeded)
      (SyncEngine.recordDeleted runId operationId delete) fun _ => Idle known := by
  refine TryTriple.bind (closes_leads none none) fun _ => ?_
  cases delete.resourceType with
  | file => exact TryTriple.bind (call_leads rfl) fun _ => call_leads rfl
  | directory => exact TryTriple.bind (call_leads rfl) fun _ => call_leads rfl

theorem recordClientFailure_leads {operationId : Int} {operation : Str} {localPath : Option Str}
    {remotePath : Str} {error : YandexDiskError} :
    Runs env known (Deleted known operationId .failed)
      (SyncEngine.recordClientFailure root runId baseSummary operationId operation localPath
        remotePath error) fun _ => Idle known :=
  SyncEngine.recordClientFailure_leads routine_working (closes_leads _ _)

theorem deleteRemote_leads (operationId : Int) (delete : RemoteDeleteOperation) :
    Runs env known (Deleting known operationId)
      (SyncEngine.deleteRemote root runId baseSummary operationId delete)
      fun _ => Idle known := by
  have hclient : Runs env known (Deleting known operationId)
      (SyncEngine.client (.deletePermanently delete.remotePath)) fun answer =>
        Deleted known operationId (.ofSuccess (answer.isOk || isAbsent answer)) :=
    TryTriple.perform Working.stable (fun _ _ => trivial) fun s answer s' h hstep =>
      h.ends (fun _ he => by cases he) hstep
  have hidle : SyncEngine.Running fun ⦃α⦄ (p : Engine α) =>
    Upholds (Step env) env.TraceDrift (Idle known) (Closed known) p := running_idle
  refine TryTriple.bind hclient fun answer => ?_
  cases answer with
  | ok _ =>
    exact TryTriple.bind (recordDeleted_leads operationId delete) fun _ =>
      TryTriple.bind (hidle.updateMemory _) fun _ =>
        TryTriple.bind (hidle.persistRootProgress runId baseSummary) fun _ =>
          TryTriple.pure fun _ h => h
  | error error =>
    cases hkind : decide (error.kind = .notFound) with
    | true =>
      have hne : error.kind = .notFound := of_decide_eq_true hkind
      have hdeleted : Runs env known (Deleted known operationId (.ofSuccess
          (Except.isOk (.error error : Except _ Unit) || isAbsent (.error error : Except _ Unit))))
          (SyncEngine.recordDeleted runId operationId delete) fun _ => Idle known := by
        simpa [isAbsent,hne] using recordDeleted_leads operationId delete
      simp only [hne,if_true]
      exact TryTriple.bind hdeleted fun _ => TryTriple.pure fun _ h => h
    | false =>
      have hne : error.kind ≠ .notFound := of_decide_eq_false hkind
      have hfailed : (Except.isOk (.error error : Except _ Unit) ||
          isAbsent (.error error : Except _ Unit)) = false :=
        beq_eq_false_iff_ne.mpr hne
      simp only [hne,if_false,hfailed]
      exact recordClientFailure_leads

theorem applyDelete_leads (inventoryFromCache : Bool) (delete : RemoteDeleteOperation) :
    Runs env known (Idle known)
      (SyncEngine.applyDelete root runId baseSummary inventoryFromCache delete)
      fun _ => Idle known := by
  refine TryTriple.bind (opens_leads _) fun operationId => ?_
  refine iteInduction (motive := fun p => Runs env known _ p fun _ => Idle known) (fun _ => ?_)
    fun _ => deleteRemote_leads operationId delete
  have hcheck : Runs env known (Deleting known operationId)
      (SyncEngine.client (.metadata delete.remotePath)) (After
        (fun _ => Deleting known operationId)
        fun error => Deleted known operationId (.ofSuccess (error.kind == .notFound))) := by
    refine TryTriple.perform Working.stable (fun _ _ => trivial) fun s answer s' h hstep => ?_
    cases answer with
    | ok metadata => exact h.checks hstep
    | error error => exact h.ends (fun _ _ => rfl) hstep
  refine TryTriple.bind hcheck fun answer => ?_
  cases answer with
  | ok _ => exact deleteRemote_leads operationId delete
  | error error =>
    refine iteInduction (motive := fun p => Runs env known _ p fun _ => Idle known)
      (fun hne => ?_) fun hne => ?_
    · simp only [After,hne,beq_self_eq_true]
      exact TryTriple.bind (closes_leads none none) fun _ =>
        TryTriple.bind (call_leads rfl) fun _ => TryTriple.pure fun _ h => h
    · simp only [After,beq_eq_false_iff_ne.mpr hne]
      exact recordClientFailure_leads

end Deletes

section Run

theorem inventoryCalls_idle : SyncEngine.InventoryCalls fun ⦃α⦄ (p : SyncEngine.Inventorying α) =>
    Upholds (Step env) env.TraceDrift (Idle known) (Idle known) p := by
  have hask : ∀ e : Effect SyncMemory, Working.isSteady e = true →
      Upholds (Step env) env.TraceDrift (Idle known) (Idle known) (SyncEngine.ask e) :=
    fun e he => Upholds.perform Working.stable fun s answer s' h hstep =>
      h.steady he (fun _ _ _ => rfl) hstep
  exact {
    toSequential := sequential_upholds fun _ h => h
    now := hask _ rfl
    status := fun _ => hask _ rfl
    cached := fun _ => hask _ rfl
    metadata := fun _ => hask _ rfl
    list := fun _ _ => hask _ rfl
    replace := fun _ _ => hask _ rfl
    setStatus := fun _ => hask _ rfl }

theorem executeScanned_leads (ext : Externals) (config : AppConfig) (root : SyncRootConfig)
    (runId : Int) (baseSummary : SyncRunSummary) (canonicalRemotePath : Str)
    (scanReport : ScanReport) (availableRemoteBytes : Option Nat) (forceRemoteRescan : Bool) :
    Upholds (Step env) env.TraceDrift (Idle known) (Closed known)
      (SyncEngine.executeScanned ext config root runId baseSummary canonicalRemotePath scanReport
        availableRemoteBytes forceRemoteRescan) := by
  refine running_idle.executeScanned ext config (fun root canonical plan force => ?_)
    (fun root error => call_leads rfl)
    (fun root runId baseSummary canonical report rootPlan snapshot => ?_) root runId baseSummary
    canonicalRemotePath scanReport availableRemoteBytes forceRemoteRescan
  · exact (SyncEngine.remoteInventory_of inventoryCalls_idle config root canonical plan
      force).catch fun _ h => h
  · refine running_idle.applyPlan config ?_ ?_ (fun delete => applyDelete_leads _ delete) report
    · exact ((creators runId).applyCreateDirectories config rootPlan).weaken (fun _ h => h.of_kind)
        (fun _ _ h => h.of_kind) (fun _ h => h) fun _ h => h
    · exact ((uploaders runId baseSummary).applyUploads config rootPlan).weaken
        (fun _ h => h.of_kind) (fun _ _ h => h.of_kind) (fun _ h => h) fun _ h => h

theorem running_closed : SyncEngine.Running fun ⦃α⦄ (p : Engine α) =>
    Upholds (Step env) env.TraceDrift (Closed known) (Closed known) p :=
  SyncEngine.running_upholds Closed.stable
    (fun _ he _ _ _ h hstep => h.steady (isSteady_of_isRoutine he) hstep) fun _ h => h

theorem runOnce_leads (ext : Externals) (config : AppConfig) (options : SyncEngine.SyncRunOptions) :
    TryTriple (Step env) env.TraceDrift (Idle known) (SyncEngine.runOnce ext config options)
      (fun _ => Closed known) (Closed known) fun _ => True := by
  have hclosed : ∀ s : Traced ρ SyncMemory, Idle known s → Closed known s :=
    fun _ h => h.closed rfl
  refine SyncEngine.runOnce_upholds running_idle running_closed hclosed ?_ ext config
    (fun root runId baseSummary canonical report available force =>
      executeScanned_leads ext config root runId baseSummary canonical report available force)
    options
  refine Upholds.perform Working.stable fun s answer s' h hstep => ?_
  have hrepaired := (hclosed s h).repair hstep
  have htasks : s'.world.tasks = s.world.tasks := hstep.2.1.tasks_eq rfl
  have hcrew := h.crew.of_tasks htasks
  refine ⟨?_,fun _ _ he => (nomatch he),hrepaired.idle,hcrew⟩
  rw [show taskIds s' = [] by simp [taskIds,hcrew.tasks_nil]]
  exact hrepaired.books

end Run

end SyncJournal

end YaDiskSync
